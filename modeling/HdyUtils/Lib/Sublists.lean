import Mathlib

/-! Lists whose entries are related, in order, to some entries of another list. -/

namespace List.SublistForall₂

variable {α β γ : Type*} {R : α → β → Prop} {l₁ m₁ : List α} {l₂ m₂ : List β}

theorem prepend (l : List β) (h : SublistForall₂ R m₁ m₂) : SublistForall₂ R m₁ (l ++ m₂) := by
  induction l with
  | nil => exact h
  | cons b l ih => exact .cons_right ih

theorem append (h : SublistForall₂ R l₁ l₂) (h' : SublistForall₂ R m₁ m₂) :
    SublistForall₂ R (l₁ ++ m₁) (l₂ ++ m₂) := by
  induction h with
  | nil => exact h'.prepend _
  | cons hab _ ih => exact .cons hab ih
  | cons_right _ ih => exact .cons_right ih

theorem flatMap {f : γ → List α} {g : γ → List β} {l : List γ}
    (h : ∀ c ∈ l, SublistForall₂ R (f c) (g c)) :
    SublistForall₂ R (l.flatMap f) (l.flatMap g) := by
  induction l with
  | nil => exact .nil
  | cons c l ih =>
    rw [List.flatMap_cons, List.flatMap_cons]
    apply append
    · exact h c List.mem_cons_self
    · exact ih fun d hd => h d (List.mem_cons_of_mem c hd)

theorem of_sublist (hsub : m₁ <+ l₁) (h : SublistForall₂ R l₁ l₂) : SublistForall₂ R m₁ l₂ := by
  induction h generalizing m₁ with
  | nil =>
    rw [List.sublist_nil.mp hsub]
    exact .nil
  | cons hab _ ih =>
    cases hsub with
    | cons _ hsub => exact .cons_right (ih hsub)
    | cons_cons _ hsub => exact .cons hab (ih hsub)
  | cons_right _ ih => exact .cons_right (ih hsub)

/-- What related entries have in common makes a sublist. -/
theorem map_sublist {f : α → γ} {g : β → Option γ} (hR : ∀ a b, R a b → g b = some (f a))
    (h : SublistForall₂ R l₁ l₂) : l₁.map f <+ l₂.filterMap g := by
  induction h with
  | nil => exact List.nil_sublist _
  | cons hab _ ih =>
    rw [List.map_cons, List.filterMap_cons_some (hR _ _ hab)]
    exact ih.cons_cons _
  | @cons_right b _ l₂ _ ih =>
    apply ih.trans
    apply List.Sublist.filterMap
    exact List.sublist_cons_self b l₂

end List.SublistForall₂
