import HdyUtils.Lib.Runs

/-! Tilings: runs that follow one another without gap or overlap, and the list that a tiling of its
positions cuts into slices. -/

namespace Runs

section Order

variable {α : Type*} [LinearOrder α]

/-- The runs are not empty and lead from `lo` to `hi`, each one starting where the one before it
stops. -/
def Tiles : α → α → List (Run α) → Prop
  | lo, hi, [] => lo = hi
  | lo, hi, r :: l => r.start = lo ∧ lo < r.stop ∧ Tiles r.stop hi l

variable {lo mid hi x : α} {l l' : List (Run α)}

theorem Tiles.append (h : Tiles lo mid l) (h' : Tiles mid hi l') : Tiles lo hi (l ++ l') := by
  induction l generalizing lo with
  | nil =>
    cases h
    exact h'
  | cons r l ih => exact ⟨h.1, h.2.1, ih h.2.2⟩

theorem tiles_append_iff :
    Tiles lo hi (l ++ l') ↔ ∃ mid, Tiles lo mid l ∧ Tiles mid hi l' := by
  refine ⟨fun h => ?_, fun ⟨mid, h, h'⟩ => h.append h'⟩
  induction l generalizing lo with
  | nil => exact ⟨lo, rfl, h⟩
  | cons r l ih =>
    obtain ⟨mid, hl, hl'⟩ := ih h.2.2
    exact ⟨mid, ⟨h.1, h.2.1, hl⟩, hl'⟩

theorem Tiles.le (h : Tiles lo hi l) : lo ≤ hi := by
  induction l generalizing lo with
  | nil => exact le_of_eq h
  | cons r l ih => exact h.2.1.le.trans (ih h.2.2)

theorem Tiles.bounds (h : Tiles lo hi l) {r : Run α} (hr : r ∈ l) :
    lo ≤ r.start ∧ r.start < r.stop ∧ r.stop ≤ hi := by
  induction l generalizing lo with
  | nil => cases hr
  | cons q l ih =>
    obtain ⟨rfl, hlt, htail⟩ := h
    rcases List.mem_cons.mp hr with rfl | hr
    · exact ⟨le_rfl, hlt, htail.le⟩
    · obtain ⟨hstart, hne, hstop⟩ := ih htail hr
      exact ⟨hlt.le.trans hstart, hne, hstop⟩

theorem Tiles.covers_iff (h : Tiles lo hi l) : Covers l x ↔ lo ≤ x ∧ x < hi := by
  induction l generalizing lo with
  | nil =>
    cases h
    simp
  | cons r l ih =>
    obtain ⟨rfl, hlt, htail⟩ := h
    have hle := htail.le
    rw [covers_cons, ih htail, Run.Contains]
    constructor
    · rintro (⟨hstart, hstop⟩ | ⟨hstop, hx⟩)
      · exact ⟨hstart, hstop.trans_le hle⟩
      · exact ⟨hlt.le.trans hstop, hx⟩
    · rintro ⟨hstart, hx⟩
      rcases lt_or_ge x r.stop with hstop | hstop
      · exact .inl ⟨hstart, hstop⟩
      · exact .inr ⟨hstop, hx⟩

/-- A later run starts where an earlier one stops, or after it. -/
theorem Tiles.ascending (h : Tiles lo hi l) : l.Pairwise fun a b => a.stop ≤ b.start := by
  induction l generalizing lo with
  | nil => exact .nil
  | cons r l ih => exact .cons (fun q hq => (h.2.2.bounds hq).1) (ih h.2.2)

/-- A tiling of a stretch that is not empty has one run that stops at its end, which is the last. -/
theorem Tiles.exists_last (h : Tiles lo hi l) (hlt : lo < hi) :
    ∃ init last, l = init ++ [last] ∧ last.stop = hi ∧ Tiles lo last.start init ∧
      last.start < hi := by
  rcases List.eq_nil_or_concat l with rfl | ⟨init, last, rfl⟩
  · exact absurd h hlt.ne
  · rw [List.concat_eq_append] at h ⊢
    obtain ⟨mid, hinit, hstart, hpos, hstop⟩ := tiles_append_iff.mp h
    subst hstart
    exact ⟨init, last, rfl, hstop, hinit, hstop ▸ hpos⟩

theorem Tiles.countP_stop [DecidableEq α] (h : Tiles lo hi l) :
    l.countP (fun r => r.stop == hi) = if lo = hi then 0 else 1 := by
  split
  · rename_i heq
    refine List.countP_eq_zero.mpr fun r hr => ?_
    obtain ⟨hstart, hne, hstop⟩ := h.bounds hr
    exact absurd (hstart.trans_lt (hne.trans_le hstop)) (heq ▸ lt_irrefl _)
  · rename_i hne
    obtain ⟨init, last, rfl, hstop, hinit, hlt⟩ := h.exists_last (lt_of_le_of_ne h.le hne)
    have hzero : init.countP (fun r => r.stop == hi) = 0 := by
      refine List.countP_eq_zero.mpr fun r hr => ?_
      have hle := (hinit.bounds hr).2.2
      simpa using (hle.trans_lt hlt).ne
    rw [List.countP_append, hzero, List.countP_singleton, hstop]
    simp

end Order

/-! ### Slices -/

section Slices

variable {β : Type*} {lo hi : Nat} {l : List (Run Nat)}

/-- The elements of a list at the positions of a run. -/
def slice (xs : List β) (r : Run Nat) : List β := (xs.drop r.start).take (r.stop - r.start)

theorem slice_append (xs : List β) {lo mid hi : Nat} (hlo : lo ≤ mid) (hhi : mid ≤ hi) :
    slice xs ⟨lo, mid⟩ ++ slice xs ⟨mid, hi⟩ = slice xs ⟨lo, hi⟩ := by
  have hdrop : xs.drop mid = (xs.drop lo).drop (mid - lo) := by
    rw [List.drop_drop, Nat.add_sub_cancel' hlo]
  have hlen : hi - lo = (mid - lo) + (hi - mid) := by omega
  rw [slice, slice, slice, hdrop, hlen, List.take_add]

theorem Tiles.flatten_slices (h : Tiles lo hi l) (xs : List β) :
    (l.map (slice xs)).flatten = slice xs ⟨lo, hi⟩ := by
  induction l generalizing lo with
  | nil =>
    cases h
    simp [slice]
  | cons r l ih =>
    obtain ⟨start, stop⟩ := r
    obtain ⟨rfl, hlt, htail⟩ := h
    rw [List.map_cons, List.flatten_cons, ih htail, slice_append xs hlt.le htail.le]

/-- A run of a tiling starts after all that the runs before it take. -/
theorem Tiles.start_eq_sum {pre post : List (Run Nat)} {r : Run Nat}
    (h : Tiles lo hi (pre ++ r :: post)) :
    r.start = lo + (pre.map fun p => p.stop - p.start).sum := by
  induction pre generalizing lo with
  | nil => simpa using h.1
  | cons p pre ih =>
    obtain ⟨rfl, hlt, htail⟩ := h
    rw [ih htail, List.map_cons, List.sum_cons]
    omega

end Slices

end Runs
