import Mathlib

/-! Sets of a linear order kept as sorted lists of half-open runs with space between them: merging a
run into a list, the part of a list inside a scope, the gaps between its runs, and what each of
these covers. -/

namespace Runs

/-- The points from `start` up to, but without, `stop`. -/
structure Run (α : Type*) where
  start : α
  stop : α
deriving DecidableEq, Repr

variable {α : Type*} [LinearOrder α]

def Run.Contains (r : Run α) (x : α) : Prop := r.start ≤ x ∧ x < r.stop

/-- Some run of the list contains `x`. -/
def Covers (l : List (Run α)) (x : α) : Prop := ∃ r ∈ l, r.Contains x

/-- Every run is non-empty and ends before the next one starts. -/
structure Separated (l : List (Run α)) : Prop where
  nonempty : ∀ r ∈ l, r.start < r.stop
  apart : l.Pairwise fun a b => a.stop < b.start

@[simp] theorem not_covers_nil (x : α) : ¬Covers [] x := by simp [Covers]

@[simp] theorem covers_cons (r : Run α) (l : List (Run α)) (x : α) :
    Covers (r :: l) x ↔ r.Contains x ∨ Covers l x := by simp [Covers]

theorem covers_append (l l' : List (Run α)) (x : α) :
    Covers (l ++ l') x ↔ Covers l x ∨ Covers l' x := by
  simp [Covers, or_and_right, exists_or]

namespace Separated

theorem nil : Separated ([] : List (Run α)) := ⟨by simp, .nil⟩

theorem tail {r : Run α} {l : List (Run α)} (h : Separated (r :: l)) : Separated l :=
  ⟨fun q hq => h.nonempty q (by simp [hq]), (List.pairwise_cons.mp h.apart).2⟩

theorem head {r : Run α} {l : List (Run α)} (h : Separated (r :: l)) :
    r.start < r.stop ∧ ∀ q ∈ l, r.stop < q.start :=
  ⟨h.nonempty r (by simp), (List.pairwise_cons.mp h.apart).1⟩

theorem cons {r : Run α} {l : List (Run α)} (hr : r.start < r.stop) (h : Separated l)
    (hl : ∀ q ∈ l, r.stop < q.start) : Separated (r :: l) :=
  ⟨by simpa using ⟨hr, h.nonempty⟩, List.pairwise_cons.mpr ⟨hl, h.apart⟩⟩

theorem append_left {l l' : List (Run α)} (h : Separated (l ++ l')) : Separated l :=
  ⟨fun q hq => h.nonempty q (by simp [hq]), (List.pairwise_append.mp h.apart).1⟩

theorem append_right {l l' : List (Run α)} (h : Separated (l ++ l')) : Separated l' :=
  ⟨fun q hq => h.nonempty q (by simp [hq]), (List.pairwise_append.mp h.apart).2.1⟩

theorem append {l l' : List (Run α)} (h : Separated l) (h' : Separated l')
    (hll : ∀ p ∈ l, ∀ q ∈ l', p.stop < q.start) : Separated (l ++ l') :=
  ⟨by simpa [or_imp, forall_and] using ⟨h.nonempty, h'.nonempty⟩,
    List.pairwise_append.mpr ⟨h.apart, h'.apart, hll⟩⟩

end Separated

/-! ### Merging -/

/-- Merges into `r` the runs at the start of a list that `r` touches, and the runs left over. -/
def absorb (r : Run α) : List (Run α) → Run α × List (Run α)
  | [] => (r, [])
  | q :: rest =>
    if q.start ≤ r.stop then absorb ⟨min r.start q.start, max r.stop q.stop⟩ rest
    else (r, q :: rest)

/-- Two runs that touch cover together what the run around both covers. -/
theorem contains_hull {r q : Run α} (h1 : q.start ≤ r.stop) (h2 : r.start ≤ q.stop) (x : α) :
    Run.Contains ⟨min r.start q.start, max r.stop q.stop⟩ x ↔ r.Contains x ∨ q.Contains x := by
  simp only [Run.Contains, min_le_iff, lt_max_iff]
  constructor
  · rintro ⟨hl | hl, hu | hu⟩
    · exact .inl ⟨hl, hu⟩
    · rcases lt_or_ge x r.stop with hx | hx
      · exact .inl ⟨hl, hx⟩
      · exact .inr ⟨h1.trans hx, hu⟩
    · rcases lt_or_ge x q.stop with hx | hx
      · exact .inr ⟨hl, hx⟩
      · exact .inl ⟨h2.trans hx, hu⟩
    · exact .inr ⟨hl, hu⟩
  · rintro (⟨hl, hu⟩ | ⟨hl, hu⟩)
    · exact ⟨.inl hl, .inl hu⟩
    · exact ⟨.inr hl, .inr hu⟩

/-- What `absorb` leaves: the merged run, then the runs it does not touch. -/
structure Absorbed (r : Run α) (l : List (Run α)) (out : Run α × List (Run α)) : Prop where
  separated : Separated (out.1 :: out.2)
  covers : ∀ x, Covers (out.1 :: out.2) x ↔ r.Contains x ∨ Covers l x
  above : ∀ b, b < r.start → (∀ q ∈ l, b < q.start) → b < out.1.start

theorem absorbed_absorb {r : Run α} {l : List (Run α)} (hr : r.start < r.stop) (hl : Separated l)
    (htouch : ∀ q ∈ l, r.start ≤ q.stop) : Absorbed r l (absorb r l) := by
  induction l generalizing r with
  | nil => exact ⟨.cons hr .nil (by simp [absorb]), by simp [absorb], fun b hb _ => hb⟩
  | cons q rest ih =>
    obtain ⟨hq, hrest⟩ := hl.head
    rw [absorb]
    split
    · rename_i hqr
      have hcover := contains_hull hqr (htouch q (by simp))
      have h := ih (r := ⟨min r.start q.start, max r.stop q.stop⟩)
        (lt_max_of_lt_left (min_lt_of_left_lt hr)) hl.tail
        fun p hp => (min_le_left _ _).trans (htouch p (by simp [hp]))
      refine ⟨h.separated, fun x => ?_, fun b hb hbl => ?_⟩
      · rw [h.covers, hcover, covers_cons, or_assoc]
      · exact h.above b (lt_min hb (hbl q (by simp))) fun p hp => hbl p (by simp [hp])
    · rename_i hqr
      rw [not_le] at hqr
      refine ⟨.cons hr hl ?_, by simp, fun b hb _ => hb⟩
      rintro p (_ | ⟨_, hp⟩)
      · exact hqr
      · exact hqr.trans (hq.trans (hrest p hp))

/-- Merges `r` into a list: the runs that end before `r`, then `r` with all it touches. -/
def merge (r : Run α) (l : List (Run α)) : List (Run α) :=
  let out := absorb r (l.dropWhile fun q => q.stop < r.start)
  (l.takeWhile fun q => q.stop < r.start) ++ out.1 :: out.2

/-- Past the runs that end before `b`, every run ends at `b` or later. -/
theorem Separated.le_stop_of_mem_dropWhile {l : List (Run α)} (h : Separated l) {b : α}
    {q : Run α} (hq : q ∈ l.dropWhile fun q => q.stop < b) : b ≤ q.stop := by
  induction l with
  | nil => simp at hq
  | cons p rest ih =>
    obtain ⟨hp, hrest⟩ := h.head
    rw [List.dropWhile_cons] at hq
    split at hq
    · exact ih h.tail hq
    · rename_i hpb
      have hpb : b ≤ p.stop := by simpa using hpb
      rcases List.mem_cons.mp hq with rfl | hq
      · exact hpb
      · exact hpb.trans ((hrest q hq).trans (h.tail.nonempty q hq)).le

theorem absorbed_merge {r : Run α} {l : List (Run α)} (hr : r.start < r.stop)
    (hl : Separated l) :
    Absorbed r (l.dropWhile fun q => q.stop < r.start)
      (absorb r (l.dropWhile fun q => q.stop < r.start)) := by
  have hsplit : Separated ((l.takeWhile fun q => q.stop < r.start) ++
      l.dropWhile fun q => q.stop < r.start) := by
    rwa [List.takeWhile_append_dropWhile]
  exact absorbed_absorb hr hsplit.append_right fun q hq => hl.le_stop_of_mem_dropWhile hq

theorem separated_merge {r : Run α} {l : List (Run α)} (hr : r.start < r.stop)
    (hl : Separated l) : Separated (merge r l) := by
  have habs := absorbed_merge hr hl
  have hsplit : Separated ((l.takeWhile fun q => q.stop < r.start) ++
      l.dropWhile fun q => q.stop < r.start) := by
    rwa [List.takeWhile_append_dropWhile]
  refine hsplit.append_left.append habs.separated fun p hp q hq => ?_
  have hp' : p.stop < r.start := by simpa using List.mem_takeWhile_imp hp
  have hfirst := habs.above p.stop hp' fun q hq =>
    (List.pairwise_append.mp hsplit.apart).2.2 p hp q hq
  obtain ⟨hne, hrest⟩ := habs.separated.head
  rcases List.mem_cons.mp hq with rfl | hq
  · exact hfirst
  · exact hfirst.trans (hne.trans (hrest q hq))

theorem covers_merge {r : Run α} {l : List (Run α)} (hr : r.start < r.stop)
    (hl : Separated l) (x : α) : Covers (merge r l) x ↔ Covers l x ∨ r.Contains x := by
  have hsplit := List.takeWhile_append_dropWhile (p := fun q : Run α => q.stop < r.start) (l := l)
  conv_rhs => rw [← hsplit]
  rw [merge, covers_append, (absorbed_merge hr hl).covers, covers_append]
  tauto

/-! ### Containment of a run -/

/-- Whether the first run that ends at the end of `r` or later contains all of `r`. -/
def coversRun (l : List (Run α)) (r : Run α) : Bool :=
  if r.stop ≤ r.start then true
  else
    match l.dropWhile fun q => q.stop < r.stop with
    | q :: _ => decide (q.start ≤ r.start ∧ r.stop ≤ q.stop)
    | [] => false

/-- The end of a run of a separated list is not covered. -/
theorem Separated.not_covers_stop {l : List (Run α)} (hl : Separated l) {q : Run α}
    (hq : q ∈ l) : ¬Covers l q.stop := by
  induction l with
  | nil => simp at hq
  | cons p rest ih =>
    obtain ⟨hp, hrest⟩ := hl.head
    rw [covers_cons]
    rintro (⟨_, hlt⟩ | ⟨s, hs, hle, hlt⟩)
    · rcases List.mem_cons.mp hq with rfl | hq
      · exact lt_irrefl _ hlt
      · exact absurd (hlt.trans ((hrest q hq).trans (hl.tail.nonempty q hq))) (lt_irrefl _)
    · rcases List.mem_cons.mp hq with rfl | hq
      · exact absurd ((hrest s hs).trans_le hle) (lt_irrefl _)
      · exact ih hl.tail hq ⟨s, hs, hle, hlt⟩

/-- The first run of a separated list starts where the list does. -/
theorem Separated.start_le {r : Run α} {l : List (Run α)} (h : Separated (r :: l)) {x : α}
    (hx : Covers (r :: l) x) : r.start ≤ x := by
  rcases (covers_cons r l x).mp hx with hx | ⟨q, hq, hx⟩
  · exact hx.1
  · obtain ⟨hr, hrest⟩ := h.head
    exact (hr.trans (hrest q hq)).le.trans hx.1

/-- What the tail of a separated list covers. -/
theorem Separated.covers_tail_iff {r : Run α} {l : List (Run α)} (h : Separated (r :: l)) {x : α} :
    Covers l x ↔ Covers (r :: l) x ∧ ¬r.Contains x := by
  rw [covers_cons]
  constructor
  · rintro ⟨q, hq, hx⟩
    refine ⟨.inr ⟨q, hq, hx⟩, fun hr => ?_⟩
    exact absurd (hr.2.trans ((h.head.2 q hq).trans_le hx.1)) (lt_irrefl _)
  · rintro ⟨hr | hl, hnot⟩
    · exact absurd hr hnot
    · exact hl

/-- Separated lists are equal if they cover the same. -/
theorem Separated.eq_of_covers_iff {l l' : List (Run α)} (hl : Separated l) (hl' : Separated l')
    (h : ∀ x, Covers l x ↔ Covers l' x) : l = l' := by
  induction l generalizing l' with
  | nil =>
    cases l' with
    | nil => rfl
    | cons r' l' =>
      have hcovers : Covers (r' :: l') r'.start := ⟨r', List.mem_cons_self, le_rfl, hl'.head.1⟩
      exact absurd ((h r'.start).mpr hcovers) (not_covers_nil _)
  | cons r l ih =>
    have hcovers : Covers (r :: l) r.start := ⟨r, List.mem_cons_self, le_rfl, hl.head.1⟩
    cases l' with
    | nil => exact absurd ((h r.start).mp hcovers) (not_covers_nil _)
    | cons r' l' =>
      have hcovers' : Covers (r' :: l') r'.start := ⟨r', List.mem_cons_self, le_rfl, hl'.head.1⟩
      have hstart : r.start = r'.start :=
        le_antisymm (hl.start_le ((h _).mpr hcovers')) (hl'.start_le ((h _).mp hcovers))
      -- a run that ended later would cover the end of the other
      have hstop : r.stop = r'.stop := by
        rcases lt_trichotomy r.stop r'.stop with hlt | heq | hlt
        · have hmem : Covers (r' :: l') r.stop :=
            ⟨r', List.mem_cons_self, hstart ▸ hl.head.1.le, hlt⟩
          exact absurd ((h _).mpr hmem) (hl.not_covers_stop List.mem_cons_self)
        · exact heq
        · have hmem : Covers (r :: l) r'.stop :=
            ⟨r, List.mem_cons_self, hstart ▸ hl'.head.1.le, hlt⟩
          exact absurd ((h _).mp hmem) (hl'.not_covers_stop List.mem_cons_self)
      have hr : r = r' := by
        cases r
        cases r'
        exact congrArg₂ Run.mk hstart hstop
      subst hr
      rw [ih hl.tail hl'.tail fun x => by rw [hl.covers_tail_iff, hl'.covers_tail_iff, h x]]

theorem coversRun_iff {l : List (Run α)} (hl : Separated l) (r : Run α) :
    coversRun l r = true ↔ ∀ x, r.Contains x → Covers l x := by
  unfold coversRun
  split
  · rename_i hempty
    simp only [true_iff]
    exact fun x hx => absurd (hx.1.trans_lt hx.2) (not_lt.mpr hempty)
  rename_i hr
  rw [not_le] at hr
  induction l with
  | nil =>
    simp only [List.dropWhile_nil, Bool.false_eq_true, not_covers_nil, false_iff]
    exact fun h => h r.start ⟨le_rfl, hr⟩
  | cons q rest ih =>
    obtain ⟨hq, hrest⟩ := hl.head
    rw [List.dropWhile_cons]
    by_cases hqr : q.stop < r.stop
    · simp only [hqr, decide_true, if_true]
      rw [ih hl.tail]
      refine ⟨fun h x hx => by simp [h x hx], fun h x hx => ?_⟩
      rcases (covers_cons ..).mp (h x hx) with hqx | hqx
      · -- then the end of `q`, which nothing covers, lies in `r`
        have hstop := h q.stop ⟨hx.1.trans hqx.2.le, hqr⟩
        exact absurd hstop (hl.not_covers_stop (by simp))
      · exact hqx
    · simp only [hqr, decide_false, Bool.false_eq_true, if_false]
      rw [not_lt] at hqr
      simp only [hqr, and_true, decide_eq_true_eq]
      refine ⟨fun h x hx => ?_, fun h => ?_⟩
      · exact (covers_cons ..).mpr (.inl ⟨h.trans hx.1, hx.2.trans_le hqr⟩)
      · rcases (covers_cons ..).mp (h r.start ⟨le_rfl, hr⟩) with hq' | ⟨s, hs, hle, _⟩
        · exact hq'.1
        · exact absurd (((hrest s hs).trans_le hle).trans (hr.trans_le hqr)) (lt_irrefl _)

/-! ### Scopes and gaps -/

/-- The part of `r` inside `scope`. -/
def Run.clip (scope r : Run α) : Run α := ⟨max r.start scope.start, min r.stop scope.stop⟩

/-- The parts of the runs inside `scope`. -/
def within (l : List (Run α)) (scope : Run α) : List (Run α) :=
  ((l.dropWhile fun q => q.stop ≤ scope.start).takeWhile fun q => q.start < scope.stop).map
    (Run.clip scope)

theorem Run.contains_clip (scope r : Run α) (x : α) :
    (r.clip scope).Contains x ↔ scope.Contains x ∧ r.Contains x := by
  simp only [Run.Contains, Run.clip, max_le_iff, lt_min_iff]
  tauto

/-- A run that ends before the scope covers nothing inside it, nor does one that starts after. -/
theorem covers_takeWhile {l : List (Run α)} (hl : Separated l) {b x : α} (hx : x < b) :
    Covers (l.takeWhile fun q => q.start < b) x ↔ Covers l x := by
  induction l with
  | nil => simp
  | cons q rest ih =>
    obtain ⟨hq, hrest⟩ := hl.head
    rw [List.takeWhile_cons]
    split
    · rw [covers_cons, covers_cons, ih hl.tail]
    · rename_i hqb
      have hqb : b ≤ q.start := by simpa using hqb
      simp only [not_covers_nil, false_iff]
      rintro ⟨s, hs, hle, _⟩
      have hbs : b ≤ s.start := by
        rcases List.mem_cons.mp hs with rfl | hs
        · exact hqb
        · exact hqb.trans (hq.trans (hrest s hs)).le
      exact absurd (hbs.trans hle) (not_le.mpr hx)

theorem covers_dropWhile {l : List (Run α)} {a x : α} (hx : a ≤ x) :
    Covers (l.dropWhile fun q => q.stop ≤ a) x ↔ Covers l x := by
  induction l with
  | nil => simp
  | cons q rest ih =>
    rw [List.dropWhile_cons]
    split
    · rename_i hqa
      have hqa : q.stop ≤ a := by simpa using hqa
      rw [ih, covers_cons, iff_or_self]
      exact fun h => absurd (h.2.trans_le hqa) (not_lt.mpr hx)
    · rfl

theorem Separated.dropWhile {l : List (Run α)} (hl : Separated l) (p : Run α → Bool) :
    Separated (l.dropWhile p) := by
  have hsplit : Separated (l.takeWhile p ++ l.dropWhile p) := by
    rwa [List.takeWhile_append_dropWhile]
  exact hsplit.append_right

theorem Separated.takeWhile {l : List (Run α)} (hl : Separated l) (p : Run α → Bool) :
    Separated (l.takeWhile p) := by
  have hsplit : Separated (l.takeWhile p ++ l.dropWhile p) := by
    rwa [List.takeWhile_append_dropWhile]
  exact hsplit.append_left

theorem covers_within {l : List (Run α)} (hl : Separated l) (scope : Run α) (x : α) :
    Covers (within l scope) x ↔ scope.Contains x ∧ Covers l x := by
  have hclip : ∀ m : List (Run α), Covers (m.map (Run.clip scope)) x ↔
      scope.Contains x ∧ Covers m x := by
    intro m
    induction m with
    | nil => simp
    | cons q m ih =>
      rw [List.map_cons, covers_cons, ih, Run.contains_clip, covers_cons]
      tauto
  rw [within, hclip]
  refine and_congr_right fun hx => ?_
  rw [covers_takeWhile (hl.dropWhile _) hx.2, covers_dropWhile hx.1]

theorem mem_within {l : List (Run α)} (hl : Separated l) {scope r : Run α}
    (hr : r ∈ within l scope) :
    scope.start ≤ r.start ∧ r.stop ≤ scope.stop ∧ (scope.start < scope.stop → r.start < r.stop) := by
  simp only [within, List.mem_map] at hr
  obtain ⟨q, hq, rfl⟩ := hr
  have hstart : q.start < scope.stop := by simpa using List.mem_takeWhile_imp hq
  have hq' := (List.takeWhile_prefix _).subset hq
  have hne : q.start < q.stop := (hl.dropWhile _).nonempty q hq'
  have hstop : scope.start < q.stop := by
    clear hstart hq hne
    induction l with
    | nil => simp at hq'
    | cons p rest ih =>
      obtain ⟨hp, hrest⟩ := hl.head
      rw [List.dropWhile_cons] at hq'
      split at hq'
      · exact ih hl.tail hq'
      · rename_i hps
        have hps : scope.start < p.stop := by simpa using hps
        rcases List.mem_cons.mp hq' with rfl | hq'
        · exact hps
        · exact hps.trans ((hrest q hq').trans (hl.tail.nonempty q hq'))
  refine ⟨le_max_right _ _, min_le_right _ _, fun hscope => ?_⟩
  exact max_lt (lt_min hne hstart) (lt_min hstop hscope)

/-- Nothing lies inside an empty scope that starts at the bottom. -/
theorem within_empty (l : List (Run Nat)) {stop : Nat} (h : stop ≤ 0) : within l ⟨0, stop⟩ = [] := by
  have hnone : ∀ m : List (Run Nat), m.takeWhile (fun q => decide (q.start < stop)) = [] := by
    intro m
    cases m with
    | nil => rfl
    | cons q m => simp [Nat.le_zero.mp h]
  rw [within, hnone, List.map_nil]

/-- Separated runs of naturals are fewer than the values below their end. -/
theorem Separated.length_le {l : List (Run Nat)} (h : Separated l) (upper : Nat)
    (hin : ∀ q ∈ l, q.stop ≤ upper) : l.length ≤ upper := by
  have hgen : ∀ m : List (Run Nat), Separated m → ∀ a, (∀ q ∈ m, a ≤ q.start ∧ q.stop ≤ upper) →
      m.length ≤ upper - a := by
    intro m
    induction m with
    | nil => simp
    | cons q m ih =>
      intro hm a hbounds
      obtain ⟨hq, hrest⟩ := hm.head
      have hlen := ih hm.tail q.stop fun p hp => ⟨(hrest p hp).le, (hbounds p (by simp [hp])).2⟩
      have := hbounds q (by simp)
      rw [List.length_cons]
      omega
  simpa using hgen l h 0 fun q hq => ⟨Nat.zero_le _, hin q hq⟩

/-- Between two separated runs lies a gap. -/
theorem Separated.exists_gap {l : List (Run Nat)} (h : Separated l) (hlen : 2 ≤ l.length)
    (upper : Nat) (hin : ∀ q ∈ l, q.stop ≤ upper) : ∃ x, x < upper ∧ ¬Covers l x := by
  match l, h, hlen with
  | q :: p :: rest, h, _ =>
    have hqp := h.head.2 p (by simp)
    have hp := h.tail.head.1
    have hpu := hin p (by simp)
    exact ⟨q.stop, by omega, h.not_covers_stop (by simp)⟩

theorem separated_within {l : List (Run α)} (hl : Separated l) {scope : Run α}
    (hscope : scope.start < scope.stop) : Separated (within l scope) := by
  refine ⟨fun r hr => (mem_within hl hr).2.2 hscope, ?_⟩
  rw [within, List.pairwise_map]
  refine ((hl.dropWhile _).takeWhile _).apart.imp fun {a b} hab => ?_
  exact (min_le_left _ _).trans_lt (hab.trans_le (le_max_left _ _))

/-- The gaps between the runs of a list, from `cursor` up to `stop`. -/
def gapsFrom (cursor stop : α) : List (Run α) → List (Run α)
  | [] => if cursor < stop then [⟨cursor, stop⟩] else []
  | run :: rest =>
    if cursor < run.start then ⟨cursor, run.start⟩ :: gapsFrom run.stop stop rest
    else gapsFrom run.stop stop rest

/-- The gaps of a list inside `scope`. -/
def gaps (l : List (Run α)) (scope : Run α) : List (Run α) :=
  gapsFrom scope.start scope.stop (within l scope)

/-- The gaps from `cursor` on cover the points of the scope that the runs leave. -/
structure Gaps (cursor stop : α) (l out : List (Run α)) : Prop where
  separated : Separated out
  covers : ∀ x, Covers out x ↔ cursor ≤ x ∧ x < stop ∧ ¬Covers l x
  bounds : ∀ g ∈ out, cursor ≤ g.start ∧ g.stop ≤ stop

theorem gaps_gapsFrom {cursor stop : α} {l : List (Run α)} (hl : Separated l)
    (hin : ∀ q ∈ l, cursor ≤ q.start ∧ q.stop ≤ stop) :
    Gaps cursor stop l (gapsFrom cursor stop l) := by
  induction l generalizing cursor with
  | nil =>
    rw [gapsFrom]
    split
    · rename_i h
      exact ⟨.cons h .nil (by simp), by simp [Run.Contains], by simp⟩
    · rename_i h
      refine ⟨.nil, fun x => ?_, by simp⟩
      simp only [not_covers_nil, not_false_eq_true, and_true, false_iff, not_and, not_lt]
      exact fun hx => (not_lt.mp h).trans hx
  | cons q rest ih =>
    obtain ⟨hq, hrest⟩ := hl.head
    obtain ⟨hcq, hqs⟩ := hin q (by simp)
    have h : Gaps q.stop stop rest (gapsFrom q.stop stop rest) := ih hl.tail
      fun p hp => ⟨(hrest p hp).le, (hin p (by simp [hp])).2⟩
    -- below the end of `q` no later run covers anything
    have hbelow : ∀ x, x < q.stop → ¬Covers rest x := by
      rintro x hx ⟨s, hs, hle, _⟩
      exact absurd (((hrest s hs).trans_le hle).trans hx) (lt_irrefl _)
    have hcover : ∀ x, cursor ≤ x ∧ x < stop ∧ ¬Covers (q :: rest) x ↔
        (cursor ≤ x ∧ x < q.start) ∨ Covers (gapsFrom q.stop stop rest) x := by
      intro x
      rw [h.covers, covers_cons, Run.Contains]
      constructor
      · rintro ⟨hc, hs, hn⟩
        rcases lt_or_ge x q.start with hx | hx
        · exact .inl ⟨hc, hx⟩
        · refine .inr ⟨not_lt.mp fun hlt => hn (.inl ⟨hx, hlt⟩), hs, fun hr => hn (.inr hr)⟩
      · rintro (⟨hc, hx⟩ | ⟨hx, hs, hn⟩)
        · refine ⟨hc, (hx.trans hq).trans_le hqs, ?_⟩
          rintro (⟨hle, _⟩ | hr)
          · exact absurd hx (not_lt.mpr hle)
          · exact hbelow x (hx.trans hq) hr
        · refine ⟨hcq.trans (hq.le.trans hx), hs, ?_⟩
          rintro (⟨_, hlt⟩ | hr)
          · exact absurd hlt (not_lt.mpr hx)
          · exact hn hr
    rw [gapsFrom]
    split
    · rename_i hlt
      refine ⟨.cons hlt h.separated fun g hg => ?_, fun x => ?_, ?_⟩
      · exact hq.trans_le (h.bounds g hg).1
      · rw [covers_cons, hcover]
        rfl
      · rintro g (_ | ⟨_, hg⟩)
        · exact ⟨le_rfl, (hq.le).trans hqs⟩
        · exact ⟨hcq.trans (hq.le.trans (h.bounds g hg).1), (h.bounds g hg).2⟩
    · rename_i hlt
      refine ⟨h.separated, fun x => ?_, fun g hg => ?_⟩
      · rw [hcover]
        refine (or_iff_right ?_).symm
        exact fun hx => absurd (hx.1.trans_lt hx.2) hlt
      · exact ⟨hcq.trans (hq.le.trans (h.bounds g hg).1), (h.bounds g hg).2⟩

theorem gaps_spec {l : List (Run α)} (hl : Separated l) {scope : Run α}
    (hscope : scope.start < scope.stop) :
    Gaps scope.start scope.stop (within l scope) (gaps l scope) :=
  gaps_gapsFrom (separated_within hl hscope) fun _ hq =>
    ⟨(mem_within hl hq).1, (mem_within hl hq).2.1⟩

theorem covers_gaps {l : List (Run α)} (hl : Separated l) {scope : Run α}
    (hscope : scope.start < scope.stop) (x : α) :
    Covers (gaps l scope) x ↔ scope.Contains x ∧ ¬Covers l x := by
  rw [(gaps_spec hl hscope).covers, covers_within hl, Run.Contains]
  tauto

end Runs
