import HdyUtils.Lib.Maps

/-! The entries of an ordered map after updates: their number, and the sum of a measure over them. -/

namespace Maps

open Std

variable {α β : Type*} {cmp : α → α → Ordering} [TransCmp cmp] [LawfulEqCmp cmp]

/-- The sum of `f` over the values of `m`. -/
def total (f : β → Nat) (m : TreeMap α β cmp) : Nat := (m.toList.map fun entry => f entry.2).sum

theorem nodup_toList (m : TreeMap α β cmp) : m.toList.Nodup := by
  apply TreeMap.distinct_keys_toList.imp
  intro a b hne heq
  subst heq
  exact hne ReflCmp.compare_self

/-- Two maps with the same lookups have the same entries. -/
theorem toList_perm_of_getElem? {m : TreeMap α β cmp} {l : List (α × β)} (hl : l.Nodup)
    (h : ∀ k v, (k, v) ∈ l ↔ m[k]? = some v) : m.toList.Perm l := by
  rw [List.perm_ext_iff_of_nodup (nodup_toList m) hl]
  rintro ⟨k, v⟩
  rw [TreeMap.mem_toList_iff_getElem?_eq_some, h]

variable [DecidableEq α]

theorem toList_erase_perm {m : TreeMap α β cmp} {k : α} {v : β} (h : m[k]? = some v) :
    m.toList.Perm ((k, v) :: (m.erase k).toList) := by
  apply toList_perm_of_getElem?
  · refine List.nodup_cons.mpr ⟨?_, nodup_toList _⟩
    rw [TreeMap.mem_toList_iff_getElem?_eq_some, getElem?_erase, if_pos rfl]
    simp
  · intro a b
    rw [List.mem_cons, TreeMap.mem_toList_iff_getElem?_eq_some, getElem?_erase]
    by_cases hk : k = a
    · subst hk
      simp [h, eq_comm]
    · simp [hk, Ne.symm hk]

theorem toList_insert_perm (m : TreeMap α β cmp) (k : α) (v : β) :
    (m.insert k v).toList.Perm ((k, v) :: (m.erase k).toList) := by
  apply toList_perm_of_getElem?
  · refine List.nodup_cons.mpr ⟨?_, nodup_toList _⟩
    rw [TreeMap.mem_toList_iff_getElem?_eq_some, getElem?_erase, if_pos rfl]
    simp
  · intro a b
    rw [List.mem_cons, TreeMap.mem_toList_iff_getElem?_eq_some, getElem?_erase, getElem?_insert]
    by_cases hk : k = a
    · subst hk
      simp [eq_comm]
    · simp [hk, Ne.symm hk]

theorem erase_perm_of_none {m : TreeMap α β cmp} {k : α} (h : m[k]? = none) :
    m.toList.Perm (m.erase k).toList := by
  apply toList_perm_of_getElem? (nodup_toList _)
  intro a b
  rw [TreeMap.mem_toList_iff_getElem?_eq_some, getElem?_erase]
  by_cases hk : k = a
  · subst hk
    simp [h]
  · simp [hk]

theorem size_erase_of_some {m : TreeMap α β cmp} {k : α} {v : β} (h : m[k]? = some v) :
    m.size = (m.erase k).size + 1 := by
  have hlength := (toList_erase_perm h).length_eq
  rwa [List.length_cons, TreeMap.length_toList, TreeMap.length_toList] at hlength

omit [LawfulEqCmp cmp] [DecidableEq α] in
theorem size_insert_of_none {m : TreeMap α β cmp} {k : α} (h : m[k]? = none) (v : β) :
    (m.insert k v).size = m.size + 1 := by
  have hnew : k ∉ m := by
    rw [TreeMap.mem_iff_isSome_getElem?, h]
    exact Bool.false_ne_true
  rw [TreeMap.size_insert, if_neg (mt TreeMap.mem_iff_contains.mpr hnew)]

variable (f : β → Nat)

omit [TransCmp cmp] [LawfulEqCmp cmp] [DecidableEq α] in
@[simp] theorem total_empty : total f (∅ : TreeMap α β cmp) = 0 := rfl

omit [TransCmp cmp] [LawfulEqCmp cmp] [DecidableEq α] in
theorem total_eq_of_perm {m m' : TreeMap α β cmp} (h : m.toList.Perm m'.toList) :
    total f m = total f m' := (h.map _).sum_eq

theorem total_erase {m : TreeMap α β cmp} {k : α} {v : β} (h : m[k]? = some v) :
    total f m = f v + total f (m.erase k) := by
  have hperm := (toList_erase_perm h).map fun entry : α × β => f entry.2
  exact hperm.sum_eq

theorem total_erase_of_none {m : TreeMap α β cmp} {k : α} (h : m[k]? = none) :
    total f (m.erase k) = total f m := total_eq_of_perm f (erase_perm_of_none h).symm

theorem total_insert (m : TreeMap α β cmp) (k : α) (v : β) :
    total f (m.insert k v) = f v + total f (m.erase k) := by
  have hperm := (toList_insert_perm m k v).map fun entry : α × β => f entry.2
  exact hperm.sum_eq

theorem total_insert_of_none {m : TreeMap α β cmp} {k : α} (h : m[k]? = none) (v : β) :
    total f (m.insert k v) = f v + total f m := by
  rw [total_insert, total_erase_of_none f h]

/-- A value replaced changes the sum by the difference. -/
theorem total_insert_of_some {m : TreeMap α β cmp} {k : α} {v : β} (h : m[k]? = some v) (w : β) :
    total f (m.insert k w) + f v = total f m + f w := by
  rw [total_insert, total_erase f h]
  omega

theorem total_insert_add (m : TreeMap α β cmp) (k : α) (v : β) :
    total f (m.insert k v) + (m[k]?.map f).getD 0 = total f m + f v := by
  cases h : m[k]? with
  | none =>
    rw [total_insert_of_none f h]
    simp [Nat.add_comm]
  | some w => exact total_insert_of_some f h v

omit [DecidableEq α] in
theorem total_of_forall_none {m : TreeMap α β cmp} (h : ∀ k : α, m[k]? = none) :
    total f m = 0 := by
  have hempty : m.toList = [] := by
    rw [List.eq_nil_iff_forall_not_mem]
    rintro ⟨k, v⟩ hmem
    rw [TreeMap.mem_toList_iff_getElem?_eq_some, h k] at hmem
    cases hmem
  rw [total, hempty]
  rfl

theorem le_total {m : TreeMap α β cmp} {k : α} {v : β} (h : m[k]? = some v) : f v ≤ total f m := by
  rw [total_erase f h]
  exact Nat.le_add_right _ _

/-- A sum of terms that are at most 1 is at most the number of them, which it is if all are 1. -/
theorem sum_le_length {γ : Type*} {g : γ → Nat} (hg : ∀ c, g c ≤ 1) (l : List γ) :
    (l.map g).sum ≤ l.length ∧ ((l.map g).sum = l.length ↔ ∀ c ∈ l, g c = 1) := by
  induction l with
  | nil => simp
  | cons c l ih =>
    have hle := hg c
    simp only [List.map_cons, List.sum_cons, List.length_cons, List.forall_mem_cons, ← ih.2]
    omega

omit [TransCmp cmp] [LawfulEqCmp cmp] [DecidableEq α] in
theorem total_le_size (hf : ∀ v, f v ≤ 1) (m : TreeMap α β cmp) : total f m ≤ m.size := by
  rw [total, ← TreeMap.length_toList]
  exact (sum_le_length (fun entry : α × β => hf entry.2) m.toList).1

omit [DecidableEq α] in
/-- The sum of a measure that is at most 1 is the size of the map if every entry counts. -/
theorem total_eq_size_iff (hf : ∀ v, f v ≤ 1) (m : TreeMap α β cmp) :
    total f m = m.size ↔ ∀ (k : α) (v : β), m[k]? = some v → f v = 1 := by
  rw [total, ← TreeMap.length_toList, (sum_le_length (fun entry : α × β => hf entry.2) m.toList).2]
  constructor
  · intro h k v hk
    exact h (k, v) (TreeMap.mem_toList_iff_getElem?_eq_some.mpr hk)
  · rintro h ⟨k, v⟩ hmem
    exact h k v (TreeMap.mem_toList_iff_getElem?_eq_some.mp hmem)

end Maps
