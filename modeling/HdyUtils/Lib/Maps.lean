import Mathlib

/-! Lookups after updates in the ordered maps and sets of `Std`, for orders in which only equal keys
compare equal. -/

namespace Maps

open Std

variable {α β : Type*} {cmp : α → α → Ordering} [TransCmp cmp] [LawfulEqCmp cmp]

@[simp] theorem getElem?_insert [DecidableEq α] (m : TreeMap α β cmp) (k a : α)
    (v : β) :
    (m.insert k v)[a]? = if k = a then some v else m[a]? := by
  rw [TreeMap.getElem?_insert]
  simp only [LawfulEqCmp.compare_eq_iff_eq]

@[simp] theorem getElem?_erase [DecidableEq α] (m : TreeMap α β cmp) (k a : α) :
    (m.erase k)[a]? = if k = a then none else m[a]? := by
  rw [TreeMap.getElem?_erase]
  simp only [LawfulEqCmp.compare_eq_iff_eq]

@[simp] theorem mem_insert (s : TreeSet α cmp) (k a : α) : a ∈ s.insert k ↔ k = a ∨ a ∈ s := by
  rw [TreeSet.mem_insert, LawfulEqCmp.compare_eq_iff_eq]

@[simp] theorem mem_erase (s : TreeSet α cmp) (k a : α) : a ∈ s.erase k ↔ k ≠ a ∧ a ∈ s := by
  rw [TreeSet.mem_erase, ne_eq, LawfulEqCmp.compare_eq_iff_eq]

theorem mem_map_insert (m : TreeMap α β cmp) (k a : α) (v : β) :
    a ∈ m.insert k v ↔ k = a ∨ a ∈ m := by
  rw [TreeMap.mem_insert, LawfulEqCmp.compare_eq_iff_eq]

theorem mem_map_erase (m : TreeMap α β cmp) (k a : α) : a ∈ m.erase k ↔ k ≠ a ∧ a ∈ m := by
  rw [TreeMap.mem_erase, ne_eq, LawfulEqCmp.compare_eq_iff_eq]

end Maps
