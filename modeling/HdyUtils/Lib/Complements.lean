import HdyUtils.Lib.Runs

/-! Two separated lists of runs that complement each other in a scope: what one covers there the
other leaves.  Their runs are then pairwise disjoint and alternate.  The runs of a list inside a
scope and the gaps between them are such a pair. -/

namespace Runs

variable {α : Type*} [LinearOrder α]

/-- No point lies in both runs. -/
def Run.Disjoint (p q : Run α) : Prop := p.stop ≤ q.start ∨ q.stop ≤ p.start

/-- Non-empty runs without a common point are disjoint. -/
theorem Run.disjoint_of_not_both {p q : Run α} (hp : p.start < p.stop) (hq : q.start < q.stop)
    (h : ∀ x, ¬(p.Contains x ∧ q.Contains x)) : p.Disjoint q := by
  by_contra hn
  simp only [Run.Disjoint, not_or, not_le] at hn
  apply h (max p.start q.start)
  exact ⟨⟨le_max_left _ _, max_lt hp hn.1⟩, ⟨le_max_right _ _, max_lt hn.2 hq⟩⟩

/-- Disjoint runs that end by `n` hold at most `n` points. -/
theorem sum_lengths_le {l : List (Run Nat)} {n : Nat} (h : l.Pairwise Run.Disjoint)
    (hstop : ∀ r ∈ l, r.stop ≤ n) : (l.map fun r => r.stop - r.start).sum ≤ n := by
  have hpoints : ∃ points : Finset Nat, points.card = (l.map fun r => r.stop - r.start).sum ∧
      ∀ x ∈ points, Covers l x := by
    clear hstop
    induction l with
    | nil => exact ⟨∅, rfl, by simp⟩
    | cons r l ih =>
      obtain ⟨hhead, htail⟩ := List.pairwise_cons.mp h
      obtain ⟨points, hcard, hcovers⟩ := ih htail
      have hnew : Disjoint (Finset.Ico r.start r.stop) points := by
        refine Finset.disjoint_left.mpr fun x hx hpoint => ?_
        obtain ⟨hle, hlt⟩ := Finset.mem_Ico.mp hx
        obtain ⟨q, hq, hqle, hqlt⟩ := hcovers x hpoint
        rcases hhead q hq with hbefore | hafter <;> omega
      refine ⟨Finset.Ico r.start r.stop ∪ points, ?_, fun x hx => ?_⟩
      · rw [Finset.card_union_of_disjoint hnew, hcard, Nat.card_Ico, List.map_cons, List.sum_cons]
      · rw [covers_cons]
        exact (Finset.mem_union.mp hx).imp Finset.mem_Ico.mp (hcovers x)
  obtain ⟨points, hcard, hcovers⟩ := hpoints
  rw [← hcard, ← Finset.card_range n]
  refine Finset.card_le_card fun x hx => ?_
  obtain ⟨r, hr, -, hlt⟩ := hcovers x hx
  exact Finset.mem_range.mpr (hlt.trans_le (hstop r hr))

theorem Separated.ascending {l : List (Run α)} (h : Separated l) :
    l.Pairwise fun p q => p.stop ≤ q.start := h.apart.imp le_of_lt

/-- Of two runs of a separated list where one does not start after the other ends, the ends are
apart. -/
theorem Separated.stop_lt {l : List (Run α)} (h : Separated l) {p q : Run α} (hp : p ∈ l)
    (hq : q ∈ l) (hle : p.stop ≤ q.start) : p.stop < q.start := by
  refine lt_of_le_of_ne hle fun heq => h.not_covers_stop hp ?_
  exact ⟨q, hq, heq.ge, heq.trans_lt (h.nonempty q hq)⟩

/-- What `l` covers of the scope `m` leaves, and the other way round. -/
structure Complements (scope : Run α) (l m : List (Run α)) : Prop where
  left : Separated l
  right : Separated m
  inside : ∀ x, Covers l x → scope.Contains x
  covers : ∀ x, Covers m x ↔ scope.Contains x ∧ ¬Covers l x

namespace Complements

variable {scope : Run α} {l m : List (Run α)}

theorem symm (h : Complements scope l m) : Complements scope m l where
  left := h.right
  right := h.left
  inside := fun x hx => ((h.covers x).mp hx).1
  covers := fun x => by
    have hin := h.inside x
    rw [h.covers]
    tauto

theorem not_both (h : Complements scope l m) {x : α} (hl : Covers l x) : ¬Covers m x :=
  fun hm => ((h.covers x).mp hm).2 hl

theorem disjoint (h : Complements scope l m) {p q : Run α} (hp : p ∈ l) (hq : q ∈ m) :
    p.Disjoint q := by
  apply Run.disjoint_of_not_both (h.left.nonempty p hp) (h.right.nonempty q hq)
  rintro x ⟨hpx, hqx⟩
  exact h.not_both ⟨p, hp, hpx⟩ ⟨q, hq, hqx⟩

theorem covers_append_iff (h : Complements scope l m) (x : α) :
    Covers (l ++ m) x ↔ scope.Contains x := by
  have hin := h.inside x
  rw [covers_append, h.covers]
  tauto

/-- Between two runs of the one list lies a run of the other. -/
theorem between (h : Complements scope l m) {p q : Run α} (hp : p ∈ l) (hq : q ∈ l)
    (hpq : p.stop ≤ q.start) : ∃ r ∈ m, p.stop ≤ r.start ∧ r.stop ≤ q.start := by
  have hpne := h.left.nonempty p hp
  have hqne := h.left.nonempty q hq
  have hscope : scope.Contains p.stop := by
    have hstart := h.inside p.start ⟨p, hp, le_rfl, hpne⟩
    have hend := h.inside q.start ⟨q, hq, le_rfl, hqne⟩
    exact ⟨hstart.1.trans hpne.le, hpq.trans_lt hend.2⟩
  -- the end of `p` is not covered, so a run of the other list holds it
  obtain ⟨r, hr, hrx⟩ := (h.covers p.stop).mpr ⟨hscope, h.left.not_covers_stop hp⟩
  refine ⟨r, hr, ?_, ?_⟩
  · rcases h.disjoint hp hr with hle | hle
    · exact hle
    · exact absurd (hle.trans hpne.le) (not_le.mpr hrx.2)
  · rcases h.disjoint hq hr with hle | hle
    · exact absurd ((hqne.trans_le hle).trans_le hrx.1) (not_lt.mpr hpq)
    · exact hle

theorem pairwise_disjoint (h : Complements scope l m) : (l ++ m).Pairwise Run.Disjoint := by
  refine List.pairwise_append.mpr ⟨?_, ?_, fun p hp q hq => h.disjoint hp hq⟩
  · exact h.left.ascending.imp .inl
  · exact h.right.ascending.imp .inl

end Complements

theorem complements_within_gaps {l : List (Run α)} (hl : Separated l) {scope : Run α}
    (hscope : scope.start < scope.stop) :
    Complements scope (within l scope) (gaps l scope) where
  left := separated_within hl hscope
  right := (gaps_spec hl hscope).separated
  inside := fun x hx => ((covers_within hl scope x).mp hx).1
  covers := fun x => by
    rw [(gaps_spec hl hscope).covers, Run.Contains, and_assoc]

/-! ### Which runs a scope meets -/

theorem mem_dropWhile_iff {l : List (Run α)} (hl : Separated l) {a : α} {q : Run α} :
    q ∈ l.dropWhile (fun q => q.stop ≤ a) ↔ q ∈ l ∧ a < q.stop := by
  induction l with
  | nil => simp
  | cons p rest ih =>
    obtain ⟨hp, hrest⟩ := hl.head
    rw [List.dropWhile_cons]
    split
    · rename_i hpa
      have hpa : p.stop ≤ a := by simpa using hpa
      rw [ih hl.tail, List.mem_cons]
      refine and_congr_left fun hqa => (or_iff_right ?_).symm
      rintro rfl
      exact absurd hqa (not_lt.mpr hpa)
    · rename_i hpa
      have hpa : a < p.stop := by simpa using hpa
      refine ⟨fun hq => ⟨hq, ?_⟩, And.left⟩
      rcases List.mem_cons.mp hq with rfl | hq
      · exact hpa
      · exact hpa.trans ((hrest q hq).trans (hl.tail.nonempty q hq))

theorem mem_takeWhile_iff {l : List (Run α)} (hl : Separated l) {b : α} {q : Run α} :
    q ∈ l.takeWhile (fun q => q.start < b) ↔ q ∈ l ∧ q.start < b := by
  induction l with
  | nil => simp
  | cons p rest ih =>
    obtain ⟨hp, hrest⟩ := hl.head
    rw [List.takeWhile_cons]
    split
    · rename_i hpb
      have hpb : p.start < b := by simpa using hpb
      rw [List.mem_cons, ih hl.tail, List.mem_cons, or_and_right]
      refine or_congr_left (iff_self_and.mpr ?_)
      rintro rfl
      exact hpb
    · rename_i hpb
      have hpb : b ≤ p.start := by simpa using hpb
      simp only [List.not_mem_nil, false_iff, not_and, not_lt]
      intro hq
      rcases List.mem_cons.mp hq with rfl | hq
      · exact hpb
      · exact hpb.trans (hp.trans (hrest q hq)).le

theorem mem_within_iff {l : List (Run α)} (hl : Separated l) {scope r : Run α} :
    r ∈ within l scope ↔
      ∃ q ∈ l, scope.start < q.stop ∧ q.start < scope.stop ∧ Run.clip scope q = r := by
  rw [within, List.mem_map]
  refine exists_congr fun q => ?_
  rw [mem_takeWhile_iff (hl.dropWhile _), mem_dropWhile_iff hl]
  tauto

/-- An empty scope meets only a run that goes on at both sides of it. -/
theorem within_empty_iff {l : List (Run α)} (hl : Separated l) {a : α} :
    within l ⟨a, a⟩ = [] ↔ ∀ q ∈ l, ¬(q.start < a ∧ a < q.stop) := by
  rw [List.eq_nil_iff_forall_not_mem]
  constructor
  · rintro h q hq ⟨hstart, hstop⟩
    exact h _ ((mem_within_iff hl).mpr ⟨q, hq, hstop, hstart, rfl⟩)
  · rintro h r hr
    obtain ⟨q, hq, hstop, hstart, _⟩ := (mem_within_iff hl).mp hr
    exact h q hq ⟨hstart, hstop⟩

end Runs
