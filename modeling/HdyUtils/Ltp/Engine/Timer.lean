import HdyUtils.Ltp.Types

/-! The engine's timers (`engine/timer.rs`): a table from timer keys to deadlines with a second index
by deadline.  The table carries the agreement of its two indices.  `deadline?` is what a table
says about a key, and the lemmas beside each operation say how it changes that. -/

namespace HdyUtils.Ltp

inductive TimerKind
  | inactivity (isSender : Bool)
  | checkpoint (serial : UInt64)
  | report (serial : UInt64)
  | cancel (isSender : Bool)
deriving DecidableEq, Repr

namespace TimerKind

/-- The position of the variant in the derived order. -/
def rank : TimerKind → Nat
  | inactivity _ => 0
  | checkpoint _ => 1
  | report _ => 2
  | cancel _ => 3

/-- The variant's field, with `false` before `true`. -/
def field : TimerKind → UInt64
  | inactivity isSender | cancel isSender => if isSender then 1 else 0
  | checkpoint serial | report serial => serial

instance : Ord TimerKind := ⟨compareLex (compareOn rank) (compareOn field)⟩

instance : Std.TransOrd TimerKind :=
  inferInstanceAs (Std.TransCmp (compareLex (compareOn rank) (compareOn field)))

instance : Std.LawfulEqOrd TimerKind where
  eq_of_compare {a b} h := by
    obtain ⟨hr, hf⟩ := Ordering.then_eq_eq.mp h
    have hrank : compare a.rank b.rank = .eq := hr
    have hfield : compare a.field b.field = .eq := hf
    rw [Std.LawfulEqCmp.compare_eq_iff_eq] at hrank hfield
    cases a <;> cases b <;> simp_all [rank, field] <;> grind

end TimerKind

/-- A timer of a session.  Keys order by session first. -/
structure TimerKey where
  session : SessionId
  kind : TimerKind
deriving DecidableEq, Repr

namespace TimerKey

def checkpoint (session : SessionId) (serial : UInt64) : TimerKey := ⟨session, .checkpoint serial⟩

def report (session : SessionId) (serial : UInt64) : TimerKey := ⟨session, .report serial⟩

def cancel (session : SessionId) (isSender : Bool) : TimerKey := ⟨session, .cancel isSender⟩

def inactivity (session : SessionId) (isSender : Bool) : TimerKey := ⟨session, .inactivity isSender⟩

section Fields

variable (s : SessionId) (serial : UInt64) (isSender : Bool)

@[simp] theorem checkpoint_session : (checkpoint s serial).session = s := rfl
@[simp] theorem checkpoint_kind : (checkpoint s serial).kind = .checkpoint serial := rfl
@[simp] theorem report_session : (report s serial).session = s := rfl
@[simp] theorem report_kind : (report s serial).kind = .report serial := rfl
@[simp] theorem cancel_session : (cancel s isSender).session = s := rfl
@[simp] theorem cancel_kind : (cancel s isSender).kind = .cancel isSender := rfl
@[simp] theorem inactivity_session : (inactivity s isSender).session = s := rfl
@[simp] theorem inactivity_kind : (inactivity s isSender).kind = .inactivity isSender := rfl

end Fields

instance : Ord TimerKey := ⟨compareLex (compareOn session) (compareOn kind)⟩

instance : Std.TransOrd TimerKey :=
  inferInstanceAs (Std.TransCmp (compareLex (compareOn session) (compareOn kind)))

instance : Std.LawfulEqOrd TimerKey where
  eq_of_compare {a b} h := by
    obtain ⟨hs, hk⟩ := Ordering.then_eq_eq.mp h
    have hsession : compare a.session b.session = .eq := hs
    have hkind : compare a.kind b.kind = .eq := hk
    cases a
    cases b
    exact congrArg₂ TimerKey.mk (Std.LawfulEqCmp.eq_of_compare hsession)
      (Std.LawfulEqCmp.eq_of_compare hkind)

/-- The least and the greatest key of a session bound exactly the session's keys. -/
theorem range_session (s : SessionId) (k : TimerKey) :
    ((compare (inactivity s false) k).isLE ∧ (compare k (cancel s true)).isLE) ↔ k.session = s := by
  have hmin : compare (inactivity s false) k =
      (compare s k.session).then (compare (TimerKind.inactivity false) k.kind) := rfl
  have hmax : compare k (cancel s true) =
      (compare k.session s).then (compare k.kind (TimerKind.cancel true)) := rfl
  rw [hmin, hmax]
  constructor
  · rintro ⟨h1, h2⟩
    by_contra hne
    have hcmp : compare s k.session ≠ .eq := fun h =>
      hne (Std.LawfulEqCmp.eq_of_compare h).symm
    have hswap : compare k.session s = (compare s k.session).swap := Std.OrientedCmp.eq_swap
    rw [hswap] at h2
    cases hc : compare s k.session <;> simp_all
  · rintro rfl
    have hself : compare k.session k.session = .eq := Std.ReflCmp.compare_self
    rw [hself]
    cases hk : k.kind with
    | inactivity b => cases b <;> decide
    | cancel b => cases b <;> decide
    | checkpoint n => exact ⟨rfl, rfl⟩
    | report n => exact ⟨rfl, rfl⟩

end TimerKey

/-- A timer and its deadline, ordered by deadline. -/
structure Expiry where
  deadline : Nat
  key : TimerKey
deriving DecidableEq

namespace Expiry

instance : Ord Expiry := ⟨compareLex (compareOn deadline) (compareOn key)⟩

instance : Std.TransOrd Expiry :=
  inferInstanceAs (Std.TransCmp (compareLex (compareOn deadline) (compareOn key)))

instance : Std.LawfulEqOrd Expiry where
  eq_of_compare {a b} h := by
    obtain ⟨hd, hk⟩ := Ordering.then_eq_eq.mp h
    have hdeadline : compare a.deadline b.deadline = .eq := hd
    have hkey : compare a.key b.key = .eq := hk
    cases a
    cases b
    exact congrArg₂ Expiry.mk (Std.LawfulEqCmp.eq_of_compare hdeadline)
      (Std.LawfulEqCmp.eq_of_compare hkey)

/-- The order of expiries puts an earlier deadline first. -/
theorem le_of_isLE {a b : Expiry} (h : (compare a b).isLE) : a.deadline ≤ b.deadline := by
  by_contra hlt
  have hcmp : compare a b = (compare a.deadline b.deadline).then (compare a.key b.key) := rfl
  rw [hcmp, Nat.compare_eq_gt.mpr (by omega)] at h
  simp [Ordering.then] at h

end Expiry

/-- The armed timers, by key and by deadline. -/
structure TimerTable where
  byKey : Std.TreeMap TimerKey Nat
  byDeadline : Std.TreeSet Expiry
  agree : ∀ k d, ⟨d, k⟩ ∈ byDeadline ↔ byKey[k]? = some d

namespace TimerTable

def new : TimerTable := ⟨∅, ∅, by simp⟩

/-- The deadline of an armed timer. -/
def deadline? (t : TimerTable) (k : TimerKey) : Option Nat := t.byKey[k]?

@[simp] theorem deadline?_new (k : TimerKey) : new.deadline? k = none := by simp [new, deadline?]

/-- Sets or updates a timer. -/
def set (t : TimerTable) (key : TimerKey) (deadline : Nat) : TimerTable where
  byKey := t.byKey.insert key deadline
  byDeadline :=
    let rest := match t.byKey[key]? with
      | some oldDeadline => t.byDeadline.erase ⟨oldDeadline, key⟩
      | none => t.byDeadline
    rest.insert ⟨deadline, key⟩
  agree := by
    intro k d
    have hagree := t.agree k d
    simp only [Std.TreeSet.mem_insert, Std.TreeMap.getElem?_insert,
      Std.LawfulEqCmp.compare_eq_iff_eq]
    cases hold : t.byKey[key]? with
    | none =>
      simp only
      by_cases hk : key = k
      · subst hk
        rw [hold] at hagree
        simp [hagree]
      · simp [hk, hagree]
    | some old =>
      simp only [Std.TreeSet.mem_erase]
      by_cases hk : key = k
      · subst hk
        rw [hold] at hagree
        simp only [Expiry.mk.injEq, and_true, ne_eq, Std.LawfulEqCmp.compare_eq_iff_eq,
          if_true, Option.some.injEq]
        grind
      · simp [hk, hagree]

@[simp] theorem deadline?_set (t : TimerTable) (key k : TimerKey) (d : Nat) :
    (t.set key d).deadline? k = if key = k then some d else t.deadline? k := by
  simp [set, deadline?, Std.TreeMap.getElem?_insert]

/-- Cancels a timer. -/
def cancel (t : TimerTable) (key : TimerKey) : TimerTable where
  byKey := t.byKey.erase key
  byDeadline :=
    match t.byKey[key]? with
    | some deadline => t.byDeadline.erase ⟨deadline, key⟩
    | none => t.byDeadline
  agree := by
    intro k d
    have hagree := t.agree k d
    simp only [Std.TreeMap.getElem?_erase, Std.LawfulEqCmp.compare_eq_iff_eq]
    cases hold : t.byKey[key]? with
    | none =>
      simp only
      by_cases hk : key = k
      · subst hk
        simp [hagree, hold]
      · simp [hk, hagree]
    | some old =>
      simp only [Std.TreeSet.mem_erase]
      by_cases hk : key = k
      · subst hk
        rw [hold] at hagree
        simp [hagree]
      · simp [hk, hagree]

@[simp] theorem deadline?_cancel (t : TimerTable) (key k : TimerKey) :
    (t.cancel key).deadline? k = if key = k then none else t.deadline? k := by
  simp [cancel, deadline?, Std.TreeMap.getElem?_erase]

/-- Cancels every timer of a session: the keys between the session's least and greatest. -/
def cancelSession (t : TimerTable) (session : SessionId) : TimerTable :=
  let minKey := TimerKey.inactivity session false
  let maxKey := TimerKey.cancel session true
  let keysToRemove := t.byKey.keys.filter fun k =>
    (compare minKey k).isLE && (compare k maxKey).isLE
  keysToRemove.foldl cancel t

theorem deadline?_foldl_cancel (keys : List TimerKey) (t : TimerTable) (k : TimerKey) :
    (keys.foldl cancel t).deadline? k = if k ∈ keys then none else t.deadline? k := by
  induction keys generalizing t with
  | nil => simp
  | cons key keys ih =>
    rw [List.foldl_cons, ih, deadline?_cancel]
    grind

@[simp] theorem deadline?_cancelSession (t : TimerTable) (s : SessionId) (k : TimerKey) :
    (t.cancelSession s).deadline? k = if k.session = s then none else t.deadline? k := by
  simp only [cancelSession, deadline?_foldl_cancel, List.mem_filter, Std.TreeMap.mem_keys,
    Bool.and_eq_true, TimerKey.range_session]
  by_cases hs : k.session = s
  · by_cases hk : k ∈ t.byKey
    · simp [hs, hk]
    · have hnone : t.deadline? k = none := Std.TreeMap.getElem?_eq_none hk
      simp [hs, hk, hnone]
  · simp [hs]

/-- The earliest expiry. -/
def first? (t : TimerTable) : Option Expiry := t.byDeadline.toList.head?

theorem first?_eq_some {t : TimerTable} {x : Expiry} (h : t.first? = some x) :
    t.deadline? x.key = some x.deadline ∧ ∀ k d, t.deadline? k = some d → x.deadline ≤ d := by
  rw [first?, ← Std.TreeSet.min?_eq_head?_toList,
    Std.TreeSet.min?_eq_some_iff_mem_and_forall] at h
  obtain ⟨hmem, hle⟩ := h
  refine ⟨(t.agree x.key x.deadline).mp hmem, fun k d hd => ?_⟩
  exact Expiry.le_of_isLE (hle ⟨d, k⟩ ((t.agree k d).mpr hd))

theorem first?_eq_none {t : TimerTable} (h : t.first? = none) (k : TimerKey) :
    t.deadline? k = none := by
  rw [first?, List.head?_eq_none_iff] at h
  by_contra hk
  obtain ⟨d, hd⟩ := Option.ne_none_iff_exists'.mp hk
  have hmem : (⟨d, k⟩ : Expiry) ∈ t.byDeadline.toList :=
    Std.TreeSet.mem_toList.mpr ((t.agree k d).mpr hd)
  rw [h] at hmem
  exact absurd hmem (by simp)

/-- Removes and returns the earliest timer, if its deadline is not after `now`.  The two entries
that the source removes are those that `cancel` removes. -/
def pollExpired (t : TimerTable) (now : Nat) : Option (TimerKey × TimerTable) :=
  match t.first? with
  | some x => if x.deadline ≤ now then some (x.key, t.cancel x.key) else none
  | none => none

theorem pollExpired_some {t rest : TimerTable} {now : Nat} {key : TimerKey}
    (h : t.pollExpired now = some (key, rest)) :
    rest = t.cancel key ∧ ∃ d, t.deadline? key = some d ∧ d ≤ now := by
  rw [pollExpired] at h
  split at h
  · next x hfirst =>
    split at h
    · next hdue =>
      cases h
      exact ⟨rfl, x.deadline, (first?_eq_some hfirst).1, hdue⟩
    · cases h
  · cases h

theorem pollExpired_none {t : TimerTable} {now : Nat} (h : t.pollExpired now = none) {key : TimerKey}
    {d : Nat} (hkey : t.deadline? key = some d) : now < d := by
  rw [pollExpired] at h
  split at h
  · next x hfirst =>
    split at h
    · cases h
    · next hdue => exact (not_le.mp hdue).trans_le ((first?_eq_some hfirst).2 key d hkey)
  · next hfirst =>
    rw [first?_eq_none hfirst key] at hkey
    cases hkey

theorem size_cancel {t : TimerTable} {key : TimerKey} {d : Nat} (h : t.deadline? key = some d) :
    (t.cancel key).byDeadline.size < t.byDeadline.size := by
  have hkey : t.byKey[key]? = some d := h
  have hmem : (⟨d, key⟩ : Expiry) ∈ t.byDeadline := (t.agree key d).mpr hkey
  have hpos : t.byDeadline.size ≠ 0 := by
    intro hzero
    rw [← beq_iff_eq, ← Std.TreeSet.isEmpty_eq_size_eq_zero] at hzero
    exact Std.TreeSet.isEmpty_iff_forall_not_mem.mp hzero _ hmem
  have hsize : (t.cancel key).byDeadline.size = t.byDeadline.size - 1 := by
    simp only [cancel, hkey, Std.TreeSet.size_erase, Std.TreeSet.contains_iff_mem.mpr hmem, if_true]
  omega

/-- The deadline of the earliest timer. -/
def nextDeadline (t : TimerTable) : Option Nat := t.first?.map Expiry.deadline

end TimerTable

end HdyUtils.Ltp
