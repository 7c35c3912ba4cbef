import Mathlib

/-! Counting the elements of a list in groups, the largest group first. -/

namespace Groups

variable {ρ γ : Type*} [DecidableEq γ] {f : ρ → γ} {rows : List ρ} {g : γ} {n : Nat}

/-- The number that a list of groups gives for one, and zero where it does not have it. -/
def countOf (groups : List (γ × Nat)) (g : γ) : Nat := (groups.lookup g).getD 0

/-- Every element is in the group of one of the keys, so that the groups together have all of them. -/
theorem sum_countP {keys : List γ} (hnodup : keys.Nodup) (h : ∀ r ∈ rows, f r ∈ keys) :
    (keys.map fun k => rows.countP fun r => f r = k).sum = rows.length := by
  have hone : ∀ k : γ, (keys.map fun k' => if k = k' then 1 else 0).sum = keys.count k := by
    intro k
    clear h hnodup
    induction keys with
    | nil => rfl
    | cons k' keys ih =>
      rw [List.map_cons, List.sum_cons, ih, List.count_cons, Nat.add_comm]
      simp only [beq_iff_eq, eq_comm (a := k)]
  induction rows with
  | nil => simp
  | cons r rows ih =>
    have hrest := ih fun r' hr' => h r' (List.mem_cons_of_mem r hr')
    have hcount := hone (f r)
    rw [List.count_eq_one_of_mem hnodup (h r List.mem_cons_self)] at hcount
    simp only [List.countP_cons, decide_eq_true_eq, List.sum_map_add, hrest, hcount, List.length_cons]

end Groups
