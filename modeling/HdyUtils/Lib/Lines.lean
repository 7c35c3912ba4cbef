import Mathlib

/-! The lines of a list: the pieces that end in a terminator, each with its terminator, and what is left
over. -/

namespace Lines

variable {α : Type*} [DecidableEq α] (stop : α)

def split : List α → List (List α) × List α
  | [] => ([], [])
  | a :: l =>
    if a = stop then ([a] :: (split l).1, (split l).2)
    else
      match split l with
      | ([], rest) => ([], a :: rest)
      | (line :: lines, rest) => ((a :: line) :: lines, rest)

/-- The lines that end in a terminator. -/
def complete (l : List α) : List (List α) := (split stop l).1

/-- What comes after the last terminator. -/
def rest (l : List α) : List α := (split stop l).2

variable {stop}

/-- What was left over goes on in the second part. -/
theorem split_append (l m : List α) : split stop (l ++ m) =
    (complete stop l ++ complete stop (rest stop l ++ m), rest stop (rest stop l ++ m)) := by
  induction l with
  | nil => rfl
  | cons a l ih =>
    simp only [List.cons_append, complete, rest, split] at ih ⊢
    split
    · simp only [ih, List.cons_append]
    · next hne =>
      rw [ih]
      cases hsplit : split stop l with
      | mk lines rest =>
        cases lines with
        | cons line lines => rfl
        | nil =>
          simp only [List.nil_append, List.cons_append, split, if_neg hne]

theorem complete_append (l m : List α) :
    complete stop (l ++ m) = complete stop l ++ complete stop (rest stop l ++ m) := by
  rw [complete, split_append]

theorem rest_append (l m : List α) : rest stop (l ++ m) = rest stop (rest stop l ++ m) := by
  rw [rest, split_append]

theorem split_line {body : List α} (h : stop ∉ body) :
    split stop (body ++ [stop]) = ([body ++ [stop]], []) := by
  induction body with
  | nil => simp [split]
  | cons a body ih =>
    have ha : a ≠ stop := fun heq => h (heq ▸ List.mem_cons_self)
    have hbody : stop ∉ body := fun hmem => h (List.mem_cons_of_mem a hmem)
    rw [List.cons_append, split, if_neg ha, ih hbody]

/-- Lines that follow one another are read one by one. -/
theorem complete_flatten {lines : List (List α)}
    (h : ∀ line ∈ lines, ∃ body, line = body ++ [stop] ∧ stop ∉ body) :
    complete stop lines.flatten = lines := by
  induction lines with
  | nil => rfl
  | cons line lines ih =>
    obtain ⟨body, rfl, hbody⟩ := h line List.mem_cons_self
    have hline := split_line hbody
    rw [List.flatten_cons, complete_append, complete, hline, rest, hline, List.nil_append,
      ih fun l hl => h l (List.mem_cons_of_mem _ hl), List.singleton_append]

end Lines
