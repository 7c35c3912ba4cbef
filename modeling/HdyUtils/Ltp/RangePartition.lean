import HdyUtils.Lib.Complements
import HdyUtils.Ltp.Range

/-! The covered ranges and the gaps of a scope (`range.rs`).  `runs_within` takes every run that
ends after the scope starts and starts before the scope ends, and clips it.  In a scope that is not
empty this cuts the scope into runs and gaps that alternate.  An empty scope inside a run passes
both tests too, and the clipped run is then empty. -/

namespace HdyUtils.Ltp.RangeSet

open Runs

/-- The covered ranges and the gaps of the scope cut it into pieces, in alternation. -/
structure Partitions (s : RangeSet) (scope : Range) : Prop where
  nonempty : ∀ p ∈ s.runsWithin scope ++ s.gaps scope, p.start < p.stop
  runs_ascend : (s.runsWithin scope).Pairwise fun p q => p.stop ≤ q.start
  gaps_ascend : (s.gaps scope).Pairwise fun p q => p.stop ≤ q.start
  disjoint : (s.runsWithin scope ++ s.gaps scope).Pairwise Run.Disjoint
  covers : ∀ x, Covers (s.runsWithin scope ++ s.gaps scope) x ↔ scope.start ≤ x ∧ x < scope.stop
  runs_in : ∀ x, Covers (s.runsWithin scope) x → x ∈ s
  gaps_out : ∀ x, Covers (s.gaps scope) x → x ∉ s
  /-- No two gaps touch, and no two runs. -/
  apart : ∀ l, l = s.runsWithin scope ∨ l = s.gaps scope → ∀ p ∈ l, ∀ q ∈ l, p.stop ≠ q.start
  run_between : ∀ p ∈ s.gaps scope, ∀ q ∈ s.gaps scope, p.stop ≤ q.start →
    ∃ r ∈ s.runsWithin scope, p.stop ≤ r.start ∧ r.stop ≤ q.start
  gap_between : ∀ p ∈ s.runsWithin scope, ∀ q ∈ s.runsWithin scope, p.stop ≤ q.start →
    ∃ r ∈ s.gaps scope, p.stop ≤ r.start ∧ r.stop ≤ q.start

/-- Pieces that complement each other in the scope partition it. -/
theorem partitions_of_complements {s : RangeSet} {scope : Range}
    (h : Complements scope (s.runsWithin scope) (s.gaps scope))
    (hruns : ∀ x, Covers (s.runsWithin scope) x → x ∈ s)
    (hgaps : ∀ x, Covers (s.gaps scope) x → x ∉ s) : Partitions s scope where
  nonempty := by
    intro p hp
    rcases List.mem_append.mp hp with hp | hp
    · exact h.left.nonempty p hp
    · exact h.right.nonempty p hp
  runs_ascend := h.left.ascending
  gaps_ascend := h.right.ascending
  disjoint := h.pairwise_disjoint
  covers := h.covers_append_iff
  runs_in := hruns
  gaps_out := hgaps
  apart := by
    rintro l (rfl | rfl) p hp q hq heq
    · exact absurd heq (h.left.stop_lt hp hq heq.le).ne
    · exact absurd heq (h.right.stop_lt hp hq heq.le).ne
  run_between := fun _ hp _ hq => h.symm.between hp hq
  gap_between := fun _ hp _ hq => h.between hp hq

theorem partitions_of_lt {s : RangeSet} {scope : Range} (h : scope.start < scope.stop) :
    Partitions s scope := by
  apply partitions_of_complements (complements_within_gaps s.separated h)
  · intro x hx
    exact (mem_runsWithin_iff.mp hx).2.2
  · intro x hx
    exact ((mem_gaps_iff h).mp hx).2.2

/-- Outside the runs an empty scope has no pieces. -/
theorem partitions_of_empty {s : RangeSet} {a : Nat}
    (h : ∀ run ∈ s.runs, ¬(run.start < a ∧ a < run.stop)) : Partitions s ⟨a, a⟩ := by
  have hruns : s.runsWithin ⟨a, a⟩ = [] := (within_empty_iff s.separated).mpr h
  have hgaps : s.gaps ⟨a, a⟩ = [] := by
    rw [gaps, Runs.gaps]
    change gapsFrom a a (s.runsWithin ⟨a, a⟩) = []
    rw [hruns, gapsFrom, if_neg (lt_irrefl a)]
  apply partitions_of_complements
  · rw [hruns, hgaps]
    refine ⟨.nil, .nil, fun x hx => absurd hx (not_covers_nil x), fun x => ?_⟩
    simp only [not_covers_nil, not_false_eq_true, and_true, false_iff, Run.Contains]
    omega
  · rw [hruns]
    exact fun x hx => absurd hx (not_covers_nil x)
  · rw [hgaps]
    exact fun x hx => absurd hx (not_covers_nil x)

/-- A scope is partitioned unless it is empty and lies inside a run, where the run clipped to it is
an empty range. -/
theorem partitions_iff (s : RangeSet) {a b : Nat} (hab : a ≤ b) :
    Partitions s ⟨a, b⟩ ↔ a < b ∨ ∀ run ∈ s.runs, ¬(run.start < a ∧ a < run.stop) := by
  constructor
  · intro h
    rcases Nat.lt_or_eq_of_le hab with hlt | rfl
    · exact .inl hlt
    · right
      rintro run hrun ⟨hstart, hstop⟩
      have hpiece : Run.clip ⟨a, a⟩ run ∈ s.runsWithin ⟨a, a⟩ :=
        (mem_within_iff s.separated).mpr ⟨run, hrun, hstop, hstart, rfl⟩
      have hne := h.nonempty _ (List.mem_append_left _ hpiece)
      simp only [Run.clip] at hne
      omega
  · intro h
    rcases Nat.lt_or_eq_of_le hab with hlt | rfl
    · exact partitions_of_lt hlt
    · exact partitions_of_empty (h.resolve_left (lt_irrefl a))

/-- The scope `3..25` of the runs `0..10` and `20..30`. -/
theorem partitions_iff_straddling :
    Partitions ((new.insert ⟨0, 10⟩).insert ⟨20, 30⟩) ⟨3, 25⟩ ↔
      3 < 25 ∨ ∀ run ∈ ((new.insert ⟨0, 10⟩).insert ⟨20, 30⟩).runs, ¬(run.start < 3 ∧ 3 < run.stop) :=
  partitions_iff _ (by decide)

/-- The empty scope `5..5` inside the run `0..10` gives the empty range `5..5`. -/
theorem not_partitions_inside_run :
    (new.insert ⟨0, 10⟩).runsWithin ⟨5, 5⟩ = [⟨5, 5⟩] ∧ ¬Partitions (new.insert ⟨0, 10⟩) ⟨5, 5⟩ := by
  have hpiece : (new.insert ⟨0, 10⟩).runsWithin ⟨5, 5⟩ = [⟨5, 5⟩] := by decide
  refine ⟨hpiece, fun h => ?_⟩
  have hne := h.nonempty ⟨5, 5⟩ (by simp [hpiece])
  exact lt_irrefl 5 hne

end HdyUtils.Ltp.RangeSet
