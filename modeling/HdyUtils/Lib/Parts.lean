import Mathlib

/-! A list that is put together from parts, whose entries carry the number of their part. -/

namespace Parts

variable {α : Type*} {tag : α → Nat} {parts : List (List α)} {a : α} {k : Nat}

/-- The entries of each part carry its number. -/
def Numbered (tag : α → Nat) (parts : List (List α)) : Prop :=
  ∀ (k : Nat) (part : List α), parts[k]? = some part → ∀ a ∈ part, tag a = k

theorem mem_flatten_iff : a ∈ parts.flatten ↔ ∃ (k : Nat) (part : List α),
    parts[k]? = some part ∧ a ∈ part := by
  rw [List.mem_flatten]
  constructor
  · rintro ⟨part, hpart, ha⟩
    obtain ⟨k, hk⟩ := List.mem_iff_getElem?.mp hpart
    exact ⟨k, part, hk, ha⟩
  · rintro ⟨k, part, hk, ha⟩
    exact ⟨part, List.mem_of_getElem? hk, ha⟩

/-- An entry is in the part whose number it carries. -/
theorem Numbered.mem_part (h : Numbered tag parts) (ha : a ∈ parts.flatten) :
    ∃ part, parts[tag a]? = some part ∧ a ∈ part := by
  obtain ⟨k, part, hk, hmem⟩ := mem_flatten_iff.mp ha
  exact ⟨part, (h k part hk a hmem).symm ▸ hk, hmem⟩

theorem Numbered.tag_lt (h : Numbered tag parts) (ha : a ∈ parts.flatten) :
    tag a < parts.length := by
  obtain ⟨part, hpart, -⟩ := h.mem_part ha
  exact (List.getElem?_eq_some_iff.mp hpart).1

/-- The numbers do not decrease. -/
theorem Numbered.pairwise (h : Numbered tag parts) :
    parts.flatten.Pairwise fun a b => tag a ≤ tag b := by
  rw [List.pairwise_flatten]
  constructor
  · intro part hpart
    obtain ⟨k, hk⟩ := List.mem_iff_getElem?.mp hpart
    exact List.pairwise_of_forall_mem_list fun a ha b hb =>
      ((h k part hk a ha).trans (h k part hk b hb).symm).le
  · rw [List.pairwise_iff_getElem]
    intro k l hk hl hlt a ha b hb
    rw [h k _ (List.getElem?_eq_getElem hk) a ha, h l _ (List.getElem?_eq_getElem hl) b hb]
    exact hlt.le

/-- The entries with one number are a part. -/
theorem Numbered.filter_eq (h : Numbered tag parts) {part : List α} (hk : parts[k]? = some part) :
    (parts.flatten.filter fun a => tag a = k) = part := by
  obtain ⟨hlt, hpart⟩ := List.getElem?_eq_some_iff.mp hk
  have hsplit : parts = parts.take k ++ part :: parts.drop (k + 1) := by
    rw [← hpart, List.getElem_cons_drop, List.take_append_drop]
  have hbefore : ((parts.take k).flatten.filter fun a => tag a = k) = [] := by
    rw [List.filter_eq_nil_iff]
    intro a ha
    obtain ⟨l, other, hl, hmem⟩ := mem_flatten_iff.mp ha
    have hlk : l < k := by
      have hlen := (List.getElem?_eq_some_iff.mp hl).1
      rw [List.length_take] at hlen
      omega
    rw [List.getElem?_take_of_lt hlk] at hl
    simpa [h l other hl a hmem] using hlk.ne
  have hafter : ((parts.drop (k + 1)).flatten.filter fun a => tag a = k) = [] := by
    rw [List.filter_eq_nil_iff]
    intro a ha
    obtain ⟨l, other, hl, hmem⟩ := mem_flatten_iff.mp ha
    rw [List.getElem?_drop] at hl
    have htag := h _ other hl a hmem
    simp only [decide_eq_true_eq, htag]
    omega
  have hown : (part.filter fun a => tag a = k) = part := by
    rw [List.filter_eq_self]
    intro a ha
    simpa using h k part hk a ha
  rw [hsplit, List.flatten_append, List.flatten_cons, List.filter_append, List.filter_append,
    hbefore, hown, hafter, List.nil_append, List.append_nil]

end Parts
