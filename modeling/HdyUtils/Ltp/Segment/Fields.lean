import HdyUtils.Ltp.Segment.RoundTrip

/-! The fields of a segment.  A wire form spells a list of fields, octets and numbers, and a number may
have octets `0x80` in front of its encoding.  `Reads c P` is the rule of the parser's steps: what `c`
reads are fields that `P` allows for the result, and a longer input does not change it. -/

namespace HdyUtils.Ltp

inductive Field
  | raw (octets : Bytes)
  | num (value : Nat)

def Field.encode : Field → Bytes
  | raw octets => octets
  | num value => Sdnv.encode value

/-- The fields with every number in its canonical encoding. -/
def writeFields (fields : List Field) : Bytes := fields.flatMap Field.encode

/-- The octets are the fields' encodings, with any number of octets `0x80` in front of each
number. -/
inductive Spells : List Field → Bytes → Prop
  | nil : Spells [] []
  | raw {fields b} (octets : Bytes) (h : Spells fields b) :
      Spells (.raw octets :: fields) (octets ++ b)
  | num {fields b} (k v : Nat) (h : Spells fields b) :
      Spells (.num v :: fields) (List.replicate k 0x80 ++ Sdnv.encode v ++ b)

namespace Spells

variable {fs gs : List Field} {b c : Bytes}

theorem append (h : Spells fs b) (h' : Spells gs c) : Spells (fs ++ gs) (b ++ c) := by
  induction h with
  | nil => exact h'
  | raw octets h ih =>
    rw [List.cons_append, List.append_assoc]
    exact .raw octets ih
  | num k v h ih =>
    rw [List.cons_append, List.append_assoc]
    exact .num k v ih

/-- No spelling is shorter than the canonical one. -/
theorem length_le (h : Spells fs b) : (writeFields fs).length ≤ b.length := by
  induction h with
  | nil => exact le_rfl
  | raw octets h ih =>
    simp only [writeFields, List.flatMap_cons, List.length_append, Field.encode] at ih ⊢
    omega
  | num k v h ih =>
    simp only [writeFields, List.flatMap_cons, List.length_append, Field.encode] at ih ⊢
    omega

end Spells

/-! ### Reading -/

theorem Cursor.run_bind_ok {α β : Type} {c : Cursor α} {f : α → Cursor β} {buf : Bytes}
    {out : β × Bytes} (h : (c >>= f).run buf = .ok out) :
    ∃ a mid, c.run buf = .ok (a, mid) ∧ (f a).run mid = .ok out := by
  rw [StateT.run_bind] at h
  cases hc : c.run buf with
  | error e =>
    rw [hc] at h
    cases h
  | ok mid =>
    rw [hc] at h
    exact ⟨mid.1, mid.2, rfl, h⟩

def Reads {α : Type} (c : Cursor α) (P : α → List Field → Prop) : Prop :=
  ∀ buf a rest, c.run buf = .ok (a, rest) →
    ∃ used fs, buf = used ++ rest ∧ Spells fs used ∧ P a fs ∧
      ∀ r, c.run (buf ++ r) = .ok (a, rest ++ r)

namespace Reads

variable {α β : Type} {c : Cursor α} {P : α → List Field → Prop}

theorem bind {f : α → Cursor β} {Q : β → List Field → Prop} (h : Reads c P)
    (hf : ∀ a fs, P a fs → Reads (f a) fun b gs => Q b (fs ++ gs)) : Reads (c >>= f) Q := by
  intro buf b rest hrun
  obtain ⟨a, mid, hc, hk⟩ := Cursor.run_bind_ok hrun
  obtain ⟨used, fs, rfl, hspells, hp, hmono⟩ := h buf a mid hc
  obtain ⟨used', gs, rfl, hspells', hq, hmono'⟩ := hf a fs hp mid b rest hk
  refine ⟨used ++ used', fs ++ gs, by rw [List.append_assoc], hspells.append hspells', hq,
    fun r => ?_⟩
  rw [StateT.run_bind, hmono r]
  exact hmono' r

theorem pure {a : α} (h : P a []) : Reads (Pure.pure a) P := by
  intro buf b rest hrun
  cases hrun
  exact ⟨[], [], rfl, .nil, h, fun r => rfl⟩

theorem throw (e : ParseError) : Reads (MonadExcept.throw e : Cursor α) P := by
  intro buf b rest hrun
  cases hrun

/-- A check that ends the parse or goes on. -/
theorem guard {p : Prop} [Decidable p] {e : ParseError} {k : Cursor α} (h : ¬p → Reads k P) :
    Reads (do
      if p then MonadExcept.throw e
      k) P := by
  split
  · have hthrow : Reads (MonadExcept.throw e : Cursor PUnit) fun _ _ => False := throw e
    exact hthrow.bind fun _ _ hfalse => hfalse.elim
  · rename_i hp
    exact h hp

end Reads

namespace Cursor

theorem reads_u8 : Reads u8 fun b fs => fs = [.raw [b]] := by
  intro buf b rest hrun
  cases buf with
  | nil => cases hrun
  | cons first buf =>
    cases hrun
    exact ⟨[b], _, rfl, .raw [b] .nil, rfl, fun r => rfl⟩

theorem reads_sdnv : Reads sdnv fun v fs => fs = [.num v] ∧ v < 2 ^ 64 := by
  intro buf v rest hrun
  simp only [StateT.run, sdnv] at hrun
  cases hdecode : Sdnv.decode buf with
  | error e =>
    rw [hdecode] at hrun
    cases hrun
  | ok out =>
    obtain ⟨v', n⟩ := out
    rw [hdecode] at hrun
    cases hrun
    obtain ⟨used, rest', k, rfl, rfl, hused, hmono⟩ := Sdnv.decode_spells hdecode
    have hdrop : ∀ r, List.drop used.length (used ++ rest' ++ r) = rest' ++ r := fun r => by
      rw [List.append_assoc, List.drop_left]
    refine ⟨used, [.num v], by rw [List.drop_left], ?_, ⟨rfl, Sdnv.decode_lt hdecode⟩, fun r => ?_⟩
    · have hspells := Spells.num k v .nil
      rwa [List.append_nil, ← hused] at hspells
    · simp only [StateT.run, sdnv, hmono r, hdrop, List.drop_left]

theorem reads_bytes (len : Nat) :
    Reads (bytes len) fun data fs => fs = [.raw data] ∧ data.length = len := by
  intro buf data rest hrun
  simp only [StateT.run, bytes] at hrun
  split at hrun
  · rename_i hlen
    cases hrun
    refine ⟨buf.take len, _, (List.take_append_drop len buf).symm, ?_, ⟨rfl, ?_⟩, fun r => ?_⟩
    · simpa using Spells.raw (buf.take len) .nil
    · simp [hlen]
    · have hlen' : len ≤ (buf ++ r).length := by
        rw [List.length_append]
        omega
      simp only [StateT.run, bytes, hlen', if_true, List.take_append_of_le_length hlen,
        List.drop_append_of_le_length hlen]
  · cases hrun

end Cursor

end HdyUtils.Ltp
