import HdyUtils.Lib.Tilings
import HdyUtils.Ltp.Engine.Sender

/-! How the sender cuts a block.  `chunkSpans` covers its extent with non-empty spans in order, and
only the last of them reaches the end; `gapChunks` does this for each gap of a report, and marks
as final the one span that ends the last gap. -/

namespace HdyUtils.Ltp

open Runs

theorem tiles_chunkSpansFrom {mtu : Nat} (hmtu : 0 < mtu) {fuel start stop : Nat}
    (hfuel : stop - start ≤ fuel) (hle : start ≤ stop) :
    Tiles start stop (chunkSpansFrom mtu fuel start stop) := by
  induction fuel generalizing start with
  | zero => exact (by omega : start = stop)
  | succ fuel ih =>
    rw [chunkSpansFrom]
    split
    · rename_i hlt
      have hnext : start < start + min (stop - start) mtu := by omega
      exact ⟨rfl, hnext, ih (by simp only; omega) (by simp only; omega)⟩
    · exact (by omega : start = stop)

theorem tiles_chunkSpans {mtu : Nat} (hmtu : 0 < mtu) {start stop : Nat} (hle : start ≤ stop) :
    Tiles start stop (chunkSpans mtu start stop) :=
  tiles_chunkSpansFrom hmtu le_rfl hle

theorem length_le_of_mem_chunkSpans {mtu start stop : Nat} {span : Range}
    (h : span ∈ chunkSpans mtu start stop) : span.stop - span.start ≤ mtu := by
  have hfrom : ∀ fuel start, span ∈ chunkSpansFrom mtu fuel start stop →
      span.stop - span.start ≤ mtu := by
    intro fuel
    induction fuel with
    | zero => simp [chunkSpansFrom]
    | succ fuel ih =>
      intro start h
      rw [chunkSpansFrom] at h
      split at h
      · rcases List.mem_cons.mp h with rfl | h
        · simp only
          omega
        · exact ih _ h
      · cases h
  exact hfrom _ _ h

theorem chunkSpans_eq_nil {mtu start stop : Nat} (h : stop ≤ start) :
    chunkSpans mtu start stop = [] := by
  rw [chunkSpans, Nat.sub_eq_zero_of_le h, chunkSpansFrom]

theorem chunkSpans_bounds {mtu : Nat} (hmtu : 0 < mtu) {start stop : Nat} {span : Range}
    (h : span ∈ chunkSpans mtu start stop) :
    start ≤ span.start ∧ span.start < span.stop ∧ span.stop ≤ stop := by
  rcases Nat.le_total start stop with hle | hle
  · exact (tiles_chunkSpans hmtu hle).bounds h
  · rw [chunkSpans_eq_nil hle] at h
    cases h

theorem covers_chunkSpans {mtu : Nat} (hmtu : 0 < mtu) (start stop x : Nat) :
    Covers (chunkSpans mtu start stop) x ↔ start ≤ x ∧ x < stop := by
  rcases Nat.le_total start stop with hle | hle
  · exact (tiles_chunkSpans hmtu hle).covers_iff
  · rw [chunkSpans_eq_nil hle]
    simp only [not_covers_nil, false_iff]
    omega

/-- Some span reaches the end of a non-empty extent. -/
theorem exists_last_chunkSpan {mtu : Nat} (hmtu : 0 < mtu) {start stop : Nat} (h : start < stop) :
    ∃ span ∈ chunkSpans mtu start stop, span.stop = stop := by
  obtain ⟨span, hspan, hx⟩ := (covers_chunkSpans hmtu start stop (stop - 1)).mpr (by omega)
  have hbounds := chunkSpans_bounds hmtu hspan
  exact ⟨span, hspan, by have := hx.2; omega⟩

/-! ### Gaps -/

namespace Engine

theorem mem_gapChunks {mtu : Nat} {gaps : List Range} {span : Range} {isFinal : Bool} :
    (span, isFinal) ∈ gapChunks mtu gaps ↔ ∃ gap gapIdx, gaps[gapIdx]? = some gap ∧
      span ∈ chunkSpans mtu gap.start gap.stop ∧
      isFinal = (gapIdx + 1 == gaps.length && span.stop == gap.stop) := by
  simp only [gapChunks, List.mem_flatMap, List.mem_map, Prod.exists, List.mem_zipIdx_iff_getElem?,
    Prod.mk.injEq]
  constructor
  · rintro ⟨gap, gapIdx, hgap, span, hspan, rfl, rfl⟩
    exact ⟨gap, gapIdx, hgap, hspan, rfl⟩
  · rintro ⟨gap, gapIdx, hgap, hspan, rfl⟩
    exact ⟨gap, gapIdx, hgap, span, hspan, rfl, rfl⟩

/-- What the spans of the gaps of a scope are, for gaps that end at `stop` or before. -/
structure ChunkOf (gaps : List Range) (stop : Nat) (chunk : Range × Bool) : Prop where
  nonempty : chunk.1.start < chunk.1.stop
  le_stop : chunk.1.stop ≤ stop
  inGap : ∃ gap ∈ gaps, gap.start ≤ chunk.1.start ∧ chunk.1.stop ≤ gap.stop
  /-- A span that is not final ends before the scope does. -/
  lt_stop : chunk.2 = false → chunk.1.stop < stop

theorem chunkOf_of_mem {mtu : Nat} (hmtu : 0 < mtu) {gaps : List Range} {stop : Nat}
    (hsep : Separated gaps) (hstop : ∀ g ∈ gaps, g.stop ≤ stop) {chunk : Range × Bool}
    (h : chunk ∈ gapChunks mtu gaps) : ChunkOf gaps stop chunk := by
  obtain ⟨span, isFinal⟩ := chunk
  obtain ⟨gap, gapIdx, hget, hspan, rfl⟩ := mem_gapChunks.mp h
  have hgap : gap ∈ gaps := List.mem_of_getElem? hget
  have hbounds := chunkSpans_bounds hmtu hspan
  have hle := hstop gap hgap
  refine ⟨hbounds.2.1, by simp only; omega, ⟨gap, hgap, hbounds.1, hbounds.2.2⟩, fun hf => ?_⟩
  simp only [Bool.and_eq_false_iff, beq_eq_false_iff_ne] at hf
  simp only
  rcases hf with hidx | hne
  · -- a later gap starts after this one ends
    obtain ⟨hlt, hgetEq⟩ := List.getElem?_eq_some_iff.mp hget
    have hnext : gapIdx + 1 < gaps.length := by omega
    have hapart := List.pairwise_iff_getElem.mp hsep.apart gapIdx (gapIdx + 1) hlt hnext (by omega)
    have hne := hsep.nonempty _ (List.getElem_mem hnext)
    have hnextStop := hstop _ (List.getElem_mem hnext)
    rw [hgetEq] at hapart
    omega
  · omega

theorem covers_gapChunks {mtu : Nat} (hmtu : 0 < mtu) {gaps : List Range} {x : Nat} :
    Covers ((gapChunks mtu gaps).map Prod.fst) x ↔ Covers gaps x := by
  constructor
  · rintro ⟨span, hspan, hx⟩
    obtain ⟨⟨span', isFinal⟩, hmem, rfl⟩ := List.mem_map.mp hspan
    obtain ⟨gap, gapIdx, hget, hchunk, -⟩ := mem_gapChunks.mp hmem
    have hbounds := chunkSpans_bounds hmtu hchunk
    simp only [Run.Contains] at hx
    exact ⟨gap, List.mem_of_getElem? hget, by simp only [Run.Contains]; omega⟩
  · rintro ⟨gap, hgap, hx⟩
    obtain ⟨gapIdx, hget⟩ := List.mem_iff_getElem?.mp hgap
    obtain ⟨span, hspan, hcontains⟩ := (covers_chunkSpans hmtu gap.start gap.stop x).mpr hx
    exact ⟨span, List.mem_map.mpr
      ⟨_, mem_gapChunks.mpr ⟨gap, gapIdx, hget, hspan, rfl⟩, rfl⟩, hcontains⟩

/-- Unless there is no gap, some span is final. -/
theorem exists_final_gapChunk {mtu : Nat} (hmtu : 0 < mtu) {gaps : List Range}
    (hsep : Separated gaps) (hne : gaps ≠ []) : ∃ span, (span, true) ∈ gapChunks mtu gaps := by
  obtain ⟨gap, hlast⟩ := Option.ne_none_iff_exists'.mp
    (mt List.getLast?_eq_none_iff.mp hne)
  have hget : gaps[gaps.length - 1]? = some gap := by rw [← List.getLast?_eq_getElem?, hlast]
  have hpos := List.length_pos_of_ne_nil hne
  obtain ⟨span, hspan, hstop⟩ := exists_last_chunkSpan hmtu
    (hsep.nonempty gap (List.mem_of_getElem? hget))
  refine ⟨span, mem_gapChunks.mpr ⟨gap, gaps.length - 1, hget, hspan, ?_⟩⟩
  simp [hstop]
  omega

/-- The gaps of a report lie in its scope and in the red part, outside what is claimed. -/
theorem scopeGaps_spec (session : SendSession) (rs : ReportSegment) :
    Separated (scopeGaps session rs) ∧ (∀ g ∈ scopeGaps session rs, g.stop ≤ session.redLen) ∧
      ∀ x, Covers (scopeGaps session rs) x ↔
        rs.lowerBound ≤ x ∧ x < rs.upperBound ∧ x < session.redLen ∧ x ∉ session.claimsReceived := by
  unfold scopeGaps
  simp only
  split
  · rename_i hlt
    have hscope : Run.start ⟨min rs.lowerBound session.redLen, min rs.upperBound session.redLen⟩ <
        Run.stop ⟨min rs.lowerBound session.redLen, min rs.upperBound session.redLen⟩ := hlt
    have hspec := gaps_spec session.claimsReceived.separated hscope
    refine ⟨hspec.separated, fun g hg => ?_, fun x => ?_⟩
    · have := (hspec.bounds g hg).2
      simp only at this
      omega
    · rw [RangeSet.mem_gaps_iff hscope]
      simp only
      constructor
      · rintro ⟨h1, h2, h3⟩
        exact ⟨by omega, by omega, by omega, h3⟩
      · rintro ⟨h1, h2, h3, h4⟩
        exact ⟨by omega, by omega, h4⟩
  · rename_i hlt
    refine ⟨.nil, by simp, fun x => ?_⟩
    simp only [not_covers_nil, false_iff]
    omega

end Engine

end HdyUtils.Ltp
