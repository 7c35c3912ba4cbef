import Mathlib

/-! Lists that correspond element by element, and lists cut at a delimiter. -/

namespace Lists

variable {α β : Type*} {R : α → β → Prop} {l : List α} {m : List β}

theorem exists_right_of_mem (h : List.Forall₂ R l m) {a : α} (ha : a ∈ l) : ∃ b ∈ m, R a b := by
  induction h with
  | nil => simp at ha
  | @cons a' b' l m hab _ ih =>
    rcases List.mem_cons.mp ha with rfl | ha
    · exact ⟨b', by simp, hab⟩
    · obtain ⟨b, hb, hR⟩ := ih ha
      exact ⟨b, by simp [hb], hR⟩

/-- Induction on the pieces of a list between delimiters: the last one is open, every other one is
closed by a `d`. -/
theorem delimited_induction [DecidableEq α] (d : α) {motive : List α → Prop}
    (rest : ∀ l, d ∉ l → motive l)
    (piece : ∀ x l, d ∉ x → motive l → motive (x ++ d :: l)) (l : List α) : motive l := by
  generalize hn : l.length = n
  induction n using Nat.strong_induction_on generalizing l with
  | _ n ih =>
    by_cases hd : d ∈ l
    · obtain ⟨x, tail, rfl, hx⟩ := List.eq_append_cons_of_mem hd
      apply piece x tail hx
      exact ih tail.length (by simp at hn; omega) tail rfl
    · exact rest l hd

/-- The first element with a property, at its index. -/
theorem findIdx?_eq_some {p : α → Bool} {i : Nat} (h : l.findIdx? p = some i) :
    ∃ before a after, l = before ++ a :: after ∧ p a = true ∧ (∀ b ∈ before, p b = false) ∧
      before.length = i := by
  induction l generalizing i with
  | nil => cases h
  | cons a l ih =>
    rw [List.findIdx?_cons] at h
    cases hp : p a with
    | true =>
      simp only [hp, if_true, Option.some.injEq] at h
      exact ⟨[], a, l, rfl, hp, by simp, h⟩
    | false =>
      simp only [hp, Bool.false_eq_true, if_false, Option.map_eq_some_iff] at h
      obtain ⟨j, hj, rfl⟩ := h
      obtain ⟨before, b, after, rfl, hb, hbefore, rfl⟩ := ih hj
      refine ⟨a :: before, b, after, rfl, hb, fun c hc => ?_, rfl⟩
      rcases List.mem_cons.mp hc with rfl | hc
      · exact hp
      · exact hbefore c hc

theorem takeWhile_delimited [DecidableEq α] {d : α} {x t : List α} (hx : d ∉ x) :
    (x ++ d :: t).takeWhile (· ≠ d) = x := by
  induction x with
  | nil => simp
  | cons a x ih =>
    have hne : a ≠ d := fun heq => hx (heq ▸ List.mem_cons_self)
    simp only [List.cons_append, List.takeWhile_cons, hne, ne_eq, not_false_eq_true, decide_true,
      if_true]
    exact congrArg (a :: ·) (ih fun hmem => hx (List.mem_cons_of_mem a hmem))

theorem dropWhile_delimited [DecidableEq α] {d : α} {x t : List α} (hx : d ∉ x) :
    (x ++ d :: t).dropWhile (· ≠ d) = d :: t := by
  induction x with
  | nil => simp
  | cons a x ih =>
    have hne : a ≠ d := fun heq => hx (heq ▸ List.mem_cons_self)
    simp only [List.cons_append, List.dropWhile_cons, hne, ne_eq, not_false_eq_true, decide_true,
      if_true]
    exact ih fun hmem => hx (List.mem_cons_of_mem a hmem)

/-- The pieces between the elements with a property have none with it. -/
theorem of_mem_splitOnP {p : α → Bool} {piece : List α} (h : piece ∈ l.splitOnP p) :
    ∀ a ∈ piece, p a = false := by
  induction l generalizing piece with
  | nil =>
    rw [List.splitOnP_nil, List.mem_singleton] at h
    subst h
    exact nofun
  | cons b l ih =>
    rw [List.splitOnP_cons_eq_if_modifyHead] at h
    split at h
    · rcases List.mem_cons.mp h with rfl | h
      · exact nofun
      · exact ih h
    · next hb =>
      obtain ⟨first, rest, hsplit⟩ := List.exists_cons_of_ne_nil (List.splitOnP_ne_nil p l)
      rw [hsplit] at h ih
      rcases List.mem_cons.mp h with rfl | h
      · intro a ha
        rcases List.mem_cons.mp ha with rfl | ha
        · exact Bool.eq_false_iff.mpr hb
        · exact ih List.mem_cons_self a ha
      · exact ih (List.mem_cons_of_mem _ h)

theorem splitOnP_map (f : α → β) (p : β → Bool) (l : List α) :
    (l.map f).splitOnP p = (l.splitOnP (p ∘ f)).map (List.map f) := by
  induction l with
  | nil => rfl
  | cons a l ih =>
    rw [List.map_cons, List.splitOnP_cons_eq_if_modifyHead, List.splitOnP_cons_eq_if_modifyHead, ih]
    show (if p (f a) = true then _ else _) = List.map _ (if p (f a) = true then _ else _)
    split
    · rfl
    · obtain ⟨first, rest, hsplit⟩ := List.exists_cons_of_ne_nil (List.splitOnP_ne_nil (p ∘ f) l)
      rw [hsplit]
      rfl

/-- In a list without repetitions, the position of an element is the one it is at. -/
theorem idxOf?_eq_some_iff_of_nodup [DecidableEq α] (h : l.Nodup) {a : α} {pos : Nat} :
    l.idxOf? a = some pos ↔ l[pos]? = some a := by
  rw [List.idxOf?_eq_some_iff, List.getElem?_eq_some_iff]
  constructor
  · rintro ⟨hpos, ha, -⟩
    exact ⟨hpos, ha⟩
  · rintro ⟨hpos, ha⟩
    refine ⟨hpos, ha, fun j hj hja => ?_⟩
    have heq := (h.getElem_inj_iff).mp (hja.trans ha.symm)
    omega

end Lists
