import Mathlib

/-! Runs of a system that takes one action after another.  `Along` says that a condition holds of
every action of a run, in the state in which it is taken; an invariant that every such action keeps
holds at the end of the run. -/

namespace Trace

variable {σ α : Type*} (step : σ → α → σ)

/-- The state after a list of actions. -/
def run (s : σ) (acts : List α) : σ := acts.foldl step s

/-- `ok` holds of every action, in the state in which it is taken. -/
def Along (ok : σ → α → Prop) : σ → List α → Prop
  | _, [] => True
  | s, a :: acts => ok s a ∧ Along ok (step s a) acts

instance {ok : σ → α → Prop} [∀ s a, Decidable (ok s a)] :
    ∀ (s : σ) (acts : List α), Decidable (Along step ok s acts)
  | _, [] => inferInstanceAs (Decidable True)
  | s, a :: acts =>
    have : Decidable (Along step ok (step s a) acts) := instDecidableAlong (step s a) acts
    inferInstanceAs (Decidable (ok s a ∧ Along step ok (step s a) acts))

variable {step} {ok : σ → α → Prop} {s : σ}

@[simp] theorem run_nil : run step s [] = s := rfl

@[simp] theorem run_cons (a : α) (acts : List α) :
    run step s (a :: acts) = run step (step s a) acts := rfl

theorem run_append (as bs : List α) : run step s (as ++ bs) = run step (run step s as) bs :=
  List.foldl_append

theorem along_append {as bs : List α} :
    Along step ok s (as ++ bs) ↔ Along step ok s as ∧ Along step ok (run step s as) bs := by
  induction as generalizing s with
  | nil => simp [Along]
  | cons a as ih => simp [Along, ih, and_assoc]

theorem Along.mono {ok' : σ → α → Prop} (h : ∀ s a, ok s a → ok' s a) {acts : List α}
    (hrun : Along step ok s acts) : Along step ok' s acts := by
  induction acts generalizing s with
  | nil => trivial
  | cons a acts ih => exact ⟨h s a hrun.1, ih hrun.2⟩

theorem Along.and {ok' : σ → α → Prop} {acts : List α} (h : Along step ok s acts)
    (h' : Along step ok' s acts) : Along step (fun s a => ok s a ∧ ok' s a) s acts := by
  induction acts generalizing s with
  | nil => trivial
  | cons a acts ih => exact ⟨⟨h.1, h'.1⟩, ih h.2 h'.2⟩

/-- A condition that the actions meet in every state holds along the run. -/
theorem along_of_forall_mem {acts : List α} (h : ∀ a ∈ acts, ∀ s, ok s a) :
    Along step ok s acts := by
  induction acts generalizing s with
  | nil => trivial
  | cons a acts ih =>
    exact ⟨h a List.mem_cons_self s, ih fun b hb => h b (List.mem_cons_of_mem a hb)⟩

/-- The invariant rule. -/
theorem Along.invariant {Inv : σ → Prop} (hstep : ∀ s a, Inv s → ok s a → Inv (step s a))
    {acts : List α} (hok : Along step ok s acts) (h : Inv s) : Inv (run step s acts) := by
  induction acts generalizing s with
  | nil => exact h
  | cons a acts ih => exact ih hok.2 (hstep s a h hok.1)

/-- The invariant rule for runs without conditions. -/
theorem run_invariant {Inv : σ → Prop} (hstep : ∀ s a, Inv s → Inv (step s a)) (acts : List α)
    (h : Inv s) : Inv (run step s acts) := by
  induction acts generalizing s with
  | nil => exact h
  | cons a acts ih => exact ih (hstep s a h)

/-- Under an invariant, a condition follows along the run from one that holds along it. -/
theorem Along.strengthen {ok' : σ → α → Prop} {Inv : σ → Prop}
    (hstep : ∀ s a, Inv s → ok s a → Inv (step s a)) (hok' : ∀ s a, Inv s → ok s a → ok' s a)
    {acts : List α} (hok : Along step ok s acts) (h : Inv s) : Along step ok' s acts := by
  induction acts generalizing s with
  | nil => trivial
  | cons a acts ih => exact ⟨hok' s a h hok.1, ih hok.2 (hstep s a h hok.1)⟩

/-- Where a condition is what an action needs to keep an invariant, it holds along a run exactly if the
invariant holds after every action. -/
theorem along_iff_invariant (Inv : σ → Prop) (hiff : ∀ s a, Inv s → (ok s a ↔ Inv (step s a)))
    {acts : List α} (h : Inv s) :
    Along step ok s acts ↔ Along step (fun s a => Inv (step s a)) s acts := by
  induction acts generalizing s with
  | nil => exact Iff.rfl
  | cons a acts ih =>
    constructor
    · rintro ⟨hok, hacts⟩
      have hnext := (hiff s a h).mp hok
      exact ⟨hnext, (ih hnext).mp hacts⟩
    · rintro ⟨hnext, hacts⟩
      exact ⟨(hiff s a h).mpr hnext, (ih hnext).mpr hacts⟩

end Trace
