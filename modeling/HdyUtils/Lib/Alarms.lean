import Mathlib

/-! Alarms that may be set again when they go off.  Each alarm has a charge, which bounds how often it
and what it sets can still go off.  `unrest` is what is left in the alarms that are set and in those
that have gone off but are not yet handled; handling one lowers it, so that only finitely many can
follow one another. -/

namespace Alarms

variable {κ : Type*}

/-- The charges of the alarms that are set and of those that wait to be handled. -/
def unrest (charge : κ → Nat) (armed : Finset κ) (due : List κ) : Nat :=
  ∑ k ∈ armed, charge k + (due.map charge).sum

/-- No alarm has more than the greatest charge. -/
theorem unrest_le {charge : κ → Nat} {bound : Nat} (h : ∀ k, charge k ≤ bound) (armed : Finset κ) :
    unrest charge armed [] ≤ armed.card * bound := by
  have hsum := Finset.sum_le_card_nsmul armed charge bound fun k _ => h k
  simpa [unrest] using hsum

/-- What handling the alarm `key` does to the charges and to the alarms that are set: it sets none, or
it sets one and pays for it.  The alarm that it sets may have been waiting as well. -/
inductive Lapses [DecidableEq κ] (key : κ) (charge : κ → Nat) (armed : Set κ) (charge' : κ → Nat)
    (armed' : Set κ) : Prop
  | settled (hcharge : ∀ k, charge' k ≤ charge k) (harmed : armed' ⊆ armed)
  | rearmed (k₀ : κ) (hcharge : ∀ k, k ≠ k₀ → charge' k ≤ charge k)
      (harmed : armed' ⊆ insert k₀ armed)
      (hcost : (if k₀ = key then 1 else 2) * charge' k₀ < charge key)

/-- It is enough to look at the alarms of a part, if the others only lose. -/
theorem Lapses.lift [DecidableEq κ] {ι : Type*} [DecidableEq ι] {f : ι → κ}
    (hf : Function.Injective f) {i : ι} {charge charge' : κ → Nat} {armed armed' : Set κ}
    (h : Lapses i (fun j => charge (f j)) (Set.preimage f armed) (fun j => charge' (f j))
      (Set.preimage f armed'))
    (hcharge : ∀ k, (∀ j, f j ≠ k) → charge' k ≤ charge k)
    (harmed : ∀ k ∈ armed', (∀ j, f j ≠ k) → k ∈ armed) :
    Lapses (f i) charge armed charge' armed' := by
  have hsplit : ∀ k, (∃ j, f j = k) ∨ ∀ j, f j ≠ k := fun k => by
    rw [← not_exists]
    exact Classical.em _
  cases h with
  | settled hcharge' harmed' =>
    refine .settled (fun k => ?_) fun k hk => ?_
    · rcases hsplit k with ⟨j, rfl⟩ | hk
      · exact hcharge' j
      · exact hcharge k hk
    · rcases hsplit k with ⟨j, rfl⟩ | hother
      · exact harmed' hk
      · exact harmed k hk hother
  | rearmed j₀ hcharge' harmed' hcost =>
    refine .rearmed (f j₀) (fun k hne => ?_) (fun k hk => ?_) ?_
    · rcases hsplit k with ⟨j, rfl⟩ | hk
      · exact hcharge' j fun heq => hne (congrArg f heq)
      · exact hcharge k hk
    · rcases hsplit k with ⟨j, rfl⟩ | hother
      · exact (harmed' hk).imp_left (congrArg f)
      · exact .inr (harmed k hk hother)
    · simpa only [hf.eq_iff] using hcost

section Sums

variable {charge charge' : κ → Nat}

theorem sum_map_le {due : List κ} (h : ∀ k ∈ due, charge' k ≤ charge k) :
    (due.map charge').sum ≤ (due.map charge).sum := List.sum_le_sum h

/-- In a list without repetitions one key counts at most once. -/
theorem sum_map_le_add {k₀ : κ} {due : List κ} (hdue : due.Nodup)
    (h : ∀ k, k ≠ k₀ → charge' k ≤ charge k) :
    (due.map charge').sum ≤ (due.map charge).sum + charge' k₀ := by
  induction due with
  | nil => simp
  | cons k due ih =>
    obtain ⟨hk, hrest⟩ := List.nodup_cons.mp hdue
    simp only [List.map_cons, List.sum_cons]
    by_cases heq : k = k₀
    · have hle : (due.map charge').sum ≤ (due.map charge).sum :=
        sum_map_le fun j hj => h j fun hj₀ => hk (by rw [heq, ← hj₀]; exact hj)
      rw [heq]
      omega
    · have hle := h k heq
      have hle' := ih hrest
      omega

theorem sum_armed_le_add [DecidableEq κ] {k₀ : κ} {armed armed' : Finset κ} (harmed : armed' ⊆ insert k₀ armed)
    (h : ∀ k, k ≠ k₀ → charge' k ≤ charge k) :
    ∑ k ∈ armed', charge' k ≤ ∑ k ∈ armed, charge k + charge' k₀ := by
  have hother : ∑ k ∈ armed.erase k₀, charge' k ≤ ∑ k ∈ armed, charge k :=
    (Finset.sum_le_sum fun k hk => h k (Finset.ne_of_mem_erase hk)).trans
      (Finset.sum_le_sum_of_subset (Finset.erase_subset k₀ armed))
  have hsplit : insert k₀ armed = insert k₀ (armed.erase k₀) := by
    ext k
    simp only [Finset.mem_insert, Finset.mem_erase]
    tauto
  calc ∑ k ∈ armed', charge' k
    _ ≤ ∑ k ∈ insert k₀ (armed.erase k₀), charge' k :=
        Finset.sum_le_sum_of_subset (hsplit ▸ harmed)
    _ = charge' k₀ + ∑ k ∈ armed.erase k₀, charge' k :=
        Finset.sum_insert (Finset.notMem_erase k₀ armed)
    _ ≤ ∑ k ∈ armed, charge k + charge' k₀ := by omega

end Sums

/-- Handling an alarm lowers the unrest. -/
theorem Lapses.unrest_lt [DecidableEq κ] {key : κ} {charge charge' : κ → Nat} {armed armed' : Finset κ}
    (h : Lapses key charge armed charge' armed') (hpos : 0 < charge key) {due : List κ}
    (hdue : (key :: due).Nodup) : unrest charge' armed' due < unrest charge armed (key :: due) := by
  obtain ⟨hkey, hrest⟩ := List.nodup_cons.mp hdue
  simp only [unrest, List.map_cons, List.sum_cons]
  cases h with
  | settled hcharge harmed =>
    rw [Finset.coe_subset] at harmed
    have hset : ∑ k ∈ armed', charge' k ≤ ∑ k ∈ armed, charge k :=
      (Finset.sum_le_sum fun k _ => hcharge k).trans (Finset.sum_le_sum_of_subset harmed)
    have hwait : (due.map charge').sum ≤ (due.map charge).sum := sum_map_le fun k _ => hcharge k
    omega
  | rearmed k₀ hcharge harmed hcost =>
    rw [← Finset.coe_insert, Finset.coe_subset] at harmed
    have hset := sum_armed_le_add harmed hcharge
    by_cases heq : k₀ = key
    · have hwait : (due.map charge').sum ≤ (due.map charge).sum :=
        sum_map_le fun k hk => hcharge k fun hk₀ => hkey (by rw [← heq, ← hk₀]; exact hk)
      rw [if_pos heq] at hcost
      omega
    · have hwait := sum_map_le_add hrest hcharge
      rw [if_neg heq] at hcost
      omega

end Alarms
