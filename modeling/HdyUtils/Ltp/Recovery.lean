import HdyUtils.Ltp.Exchange
import HdyUtils.Ltp.ReportScopes

/-! An exchange that loses segments.  Of the segments of a block, some do not reach B; B reports what
it has when the checkpoint comes, A sends the rest again, and with it B has all of the red part. -/

namespace HdyUtils.Ltp

open Runs

/-- The red octets in segments. -/
def gathered (segs : List DataSegment) : RangeSet :=
  (segs.filter fun ds => ds.kind.isRed).foldl (fun octets ds => octets.insert ds.span) .new

theorem mem_gathered {segs : List DataSegment} {x : Nat} :
    x ∈ gathered segs ↔
      ∃ ds ∈ segs, ds.kind.isRed = true ∧ ds.offset ≤ x ∧ x < ds.offset + ds.data.length := by
  have hfold : ∀ (l : List DataSegment) (octets : RangeSet),
      x ∈ l.foldl (fun octets ds => octets.insert ds.span) octets ↔
        x ∈ octets ∨ ∃ ds ∈ l, ds.offset ≤ x ∧ x < ds.offset + ds.data.length := by
    intro l
    induction l with
    | nil => simp
    | cons ds l ih =>
      intro octets
      rw [List.foldl_cons, ih, RangeSet.mem_insert]
      simp only [List.exists_mem_cons_iff, or_assoc]
      rfl
  rw [gathered, hfold]
  simp [and_assoc]

namespace Engine

section WholeReport

variable {serial : NonZeroU64} {cpSerial : UInt64} {upper : Nat} {received : RangeSet}

end WholeReport

end Engine

/-! ### The sender -/

/-- `s'` is session `s` with a report counted, but for its checkpoints. -/
structure SendSession.Counts (s : SendSession) (rs : ReportSegment) (s' : SendSession) : Prop where
  transfer : s'.transfer = s.transfer
  peer : s'.peer = s.peer
  reason : s'.cancelReason = s.cancelReason
  eobSent : s'.eobSent = s.eobSent
  seen : s'.reportSerialsSeen = s.reportSerialsSeen.insert rs.reportSerial.val
  claims : s'.claimsReceived =
    Engine.recordClaims s.redLen rs.lowerBound rs.claims s.claimsReceived

theorem SendSession.UpToCheckpoints.counts {s s' : SendSession} {rs : ReportSegment} {now : Nat}
    (h : (s.claim rs now).UpToCheckpoints s') : s.Counts rs s' := by
  obtain ⟨lastCpSerial, checkpoints, rfl⟩ := h
  exact ⟨rfl, rfl, rfl, rfl, rfl, rfl⟩

namespace Engine

variable {e : Engine} {sid : SessionId}

section Sender

variable {peer : EngineId} {t : Transfer} {segs : List DataSegment} {received : RangeSet}
  {s : SendSession}

end Sender

/-! ### The receiver -/

section Receiver

variable {source : EngineId} {t : Transfer} {segs arrived : List DataSegment} {ds : DataSegment}
  {now : Nat}

/-- The session that has answered a checkpoint with one report. -/
def answered (s : RecvSession) (r : ReportSegment) (now : Nat) : RecvSession :=
  { s.keepReport now r with
    cpSerialsAnswered := s.cpSerialsAnswered.insert r.checkpointSerial [r.reportSerial.val] }

end Receiver

/-! ### What is sent again -/

section Again

variable {t : Transfer} {mtu : Nat} {segs arrived again : List DataSegment} {s : SendSession}
  {rs : ReportSegment}

/-- What is sent again are the octets of the red part that have not arrived, each one once and in
order, with a checkpoint at the end. -/
structure Refills (t : Transfer) (arrived again : List DataSegment) : Prop where
  cuts : ∀ ds ∈ again, ds.Cuts t
  red : ∀ ds ∈ again, ds.kind.isRed = true
  covers : ∀ x, (∃ ds ∈ again, ds.offset ≤ x ∧ x < ds.offset + ds.data.length) ↔
    x < t.redLen ∧ x ∉ gathered arrived
  ascending : again.Pairwise fun a b => a.offset + a.data.length ≤ b.offset
  checkpoint : ∃ init final, again = init ++ [final] ∧ final.kind.checkpoint.isSome = true ∧
    ∀ ds ∈ init, ds.kind.checkpoint = none

namespace Refills

theorem apart (h : Refills t arrived again) {a b : DataSegment} (ha : a ∈ again) (hb : b ∈ again) :
    a = b ∨ a.offset + a.data.length ≤ b.offset ∨ b.offset + b.data.length ≤ a.offset :=
  List.Pairwise.forall_of_forall_of_flip
    (R := fun a b : DataSegment => a = b ∨ a.offset + a.data.length ≤ b.offset ∨
      b.offset + b.data.length ≤ a.offset)
    (fun _ _ => .inl rfl) (h.ascending.imp fun hle => .inr (.inl hle))
    (h.ascending.imp fun hle => .inr (.inr hle)) ha hb

/-- The checkpoint ends last. -/
theorem le_checkpoint (h : Refills t arrived again) {ds p : DataSegment} (hds : ds ∈ again)
    (hcp : ds.kind.checkpoint.isSome = true) (hp : p ∈ again) :
    p.offset + p.data.length ≤ ds.offset + ds.data.length := by
  obtain ⟨init, final, rfl, -, hinit⟩ := h.checkpoint
  obtain ⟨-, -, hbefore⟩ := List.pairwise_append.mp h.ascending
  rcases List.mem_append.mp hds with hin | hin
  · rw [hinit ds hin] at hcp
    cases hcp
  rw [List.mem_singleton.mp hin]
  rcases List.mem_append.mp hp with hp | hp
  · have hle := hbefore p hp final (by simp)
    omega
  · rw [List.mem_singleton.mp hp]

end Refills

/-- The green segments among `segs`. -/
def greens (segs : List DataSegment) : List DataSegment := segs.filter fun ds => !ds.kind.isRed

theorem mem_greens {ds : DataSegment} : ds ∈ greens segs ↔ ds ∈ segs ∧ ds.kind.isRed = false := by
  simp [greens]

namespace Refills

/-- What has come, what is sent again and the green segments fit together. -/
theorem pieces (h : Refills t arrived again) (hsegs : t.Segments mtu segs)
    (harrived : ∀ ds ∈ arrived, ds ∈ segs) : t.Pieces (arrived ++ (again ++ greens segs)) := by
  have hred : ∀ ds ∈ arrived ++ (again ++ greens segs), ds.kind.isRed = true →
      ds ∈ arrived ∨ ds ∈ again := by
    intro ds hds hisRed
    simp only [List.mem_append, mem_greens] at hds
    rcases hds with hin | hin | ⟨-, hgreen⟩
    · exact .inl hin
    · exact .inr hin
    · rw [hisRed] at hgreen
      cases hgreen
  -- a segment that has come does not meet one that is sent again
  have hcross : ∀ a ∈ arrived, ∀ b ∈ again, a.kind.isRed = true →
      a.offset + a.data.length ≤ b.offset ∨ b.offset + b.data.length ≤ a.offset := by
    intro a ha b hb hredA
    by_contra hmeet
    have hposA := ((hsegs.cuts (harrived a ha)).red hredA).1
    have hposB := ((h.cuts b hb).red (h.red b hb)).1
    have hin : max a.offset b.offset ∈ gathered arrived :=
      mem_gathered.mpr ⟨a, ha, hredA, by omega, by omega⟩
    exact ((h.covers _).mp ⟨b, hb, le_max_right _ _, by omega⟩).2 hin
  refine ⟨fun ds hds => ?_, fun a ha b hb hredA hredB => ?_⟩
  · simp only [List.mem_append, mem_greens] at hds
    rcases hds with hin | hin | ⟨hin, -⟩
    · exact hsegs.cuts (harrived ds hin)
    · exact h.cuts ds hin
    · exact hsegs.cuts hin
  · rcases hred a ha hredA with hinA | hinA
    · rcases hred b hb hredB with hinB | hinB
      · exact hsegs.pieces.apart a (harrived a hinA) b (harrived b hinB) hredA hredB
      · exact .inr (hcross a hinA b hinB hredA)
    · rcases hred b hb hredB with hinB | hinB
      · exact .inr (hcross b hinB a hinA hredB).symm
      · rcases h.apart hinA hinB with rfl | hapart
        · exact .inl ⟨rfl, rfl⟩
        · exact .inr hapart

variable {mid : List (DataSegment × Nat)} {final : DataSegment × Nat}

/-- The checkpoint that comes last is one of the segments sent again. -/
theorem mem_final (hsegs : t.Segments mtu segs)
    (harrives : Arrives (again ++ greens segs) mid final []) : final.1 ∈ again := by
  rcases List.mem_append.mp harrives.mem with hin | hin
  · exact hin
  · obtain ⟨hmem, hgreen⟩ := mem_greens.mp hin
    have hisRed := ((hsegs.checkpoint final.1 hmem).mp harrives.checkpoint).1
    rw [hgreen] at hisRed
    cases hisRed

/-- Until the checkpoint comes, its first octet is lacking. -/
theorem lacks (h : Refills t arrived again) (hsegs : t.Segments mtu segs)
    (harrives : Arrives (again ++ greens segs) mid final []) :
    final.1.offset < t.redLen ∧ final.1.offset ∉ gathered (arrived ++ mid.map Prod.fst) := by
  have hfinal : final.1 ∈ again := mem_final hsegs harrives
  have hpos := ((h.cuts final.1 hfinal).red (h.red final.1 hfinal)).1
  obtain ⟨hlt, hlost⟩ := (h.covers final.1.offset).mp ⟨final.1, hfinal, le_rfl, by omega⟩
  refine ⟨hlt, fun hin => ?_⟩
  obtain ⟨p, hp, hred, hle, hstop⟩ := mem_gathered.mp hin
  rcases List.mem_append.mp hp with hp | hp
  · exact hlost (mem_gathered.mpr ⟨p, hp, hred, hle, hstop⟩)
  · obtain ⟨a, ha, rfl⟩ := List.mem_map.mp hp
    obtain ⟨hmem, hnone⟩ := harrives.before a ha
    rcases List.mem_append.mp hmem with hagain | hgreen
    · rcases h.apart hagain hfinal with heq | hapart
      · have hsome := harrives.checkpoint
        rw [← heq, hnone] at hsome
        cases hsome
      · omega
    · rw [(mem_greens.mp hgreen).2] at hred
      cases hred

/-- With the checkpoint all of the red part has come. -/
theorem fills (h : Refills t arrived again) (hsegs : t.Segments mtu segs)
    (harrives : Arrives (again ++ greens segs) mid final []) {x : Nat} (hx : x < t.redLen) :
    x ∈ gathered (arrived ++ mid.map Prod.fst ++ [final.1]) := by
  by_cases hin : x ∈ gathered arrived
  · obtain ⟨p, hp, hcovers⟩ := mem_gathered.mp hin
    exact mem_gathered.mpr ⟨p, by simp [hp], hcovers⟩
  · obtain ⟨p, hp, hle, hlt⟩ := (h.covers x).mpr ⟨hx, hin⟩
    refine mem_gathered.mpr ⟨p, ?_, h.red p hp, hle, hlt⟩
    cases hkind : p.kind.checkpoint with
    | none =>
      have hmem := harrives.red p (List.mem_append_left _ hp) (h.red p hp) hkind
      exact List.mem_append_left _ (List.mem_append_right _ hmem)
    | some cp =>
      -- there is one checkpoint: both end last
      have hfinal : final.1 ∈ again := mem_final hsegs harrives
      have hposP := ((h.cuts p hp).red (h.red p hp)).1
      have hposF := ((h.cuts final.1 hfinal).red (h.red final.1 hfinal)).1
      have hleP := h.le_checkpoint hfinal harrives.checkpoint hp
      have hleF := h.le_checkpoint hp (by rw [hkind]; rfl) hfinal
      have hsame : p = final.1 := (h.apart hp hfinal).resolve_right (by omega)
      rw [hsame]
      exact List.mem_append_right _ (List.mem_singleton_self _)

/-- The octets that had not come end before the checkpoint does. -/
theorem below (h : Refills t arrived again) (hsegs : t.Segments mtu segs)
    (harrives : Arrives (again ++ greens segs) mid final []) {x : Nat} (hx : x < t.redLen) :
    x ∈ gathered arrived ∨ x < final.1.offset + final.1.data.length := by
  by_cases hin : x ∈ gathered arrived
  · exact .inl hin
  · obtain ⟨p, hp, -, hlt⟩ := (h.covers x).mpr ⟨hx, hin⟩
    have hfinal : final.1 ∈ again := mem_final hsegs harrives
    have hle := h.le_checkpoint hfinal harrives.checkpoint hp
    exact .inr (by omega)

/-- What is sent again arrives when it comes in order. -/
theorem inOrder (h : Refills t arrived again) (segs : List DataSegment) (now : Nat) :
    ∃ mid final, Arrives (again ++ greens segs) mid final [] ∧
      mid ++ [final] = again.map (·, now) := by
  obtain ⟨init, final, rfl, hcp, hinit⟩ := h.checkpoint
  refine ⟨init.map (·, now), (final, now), ⟨?_, by simp, hcp, by simp, ?_⟩, by simp⟩
  · intro x hx
    obtain ⟨ds, hds, rfl⟩ := List.mem_map.mp hx
    exact ⟨by simp [hds], hinit ds hds⟩
  · intro ds hds hred hnone
    rcases List.mem_append.mp hds with hin | hin
    · rcases List.mem_append.mp hin with hin | hin
      · simpa [Function.comp_def] using hin
      · rw [List.mem_singleton.mp hin] at hnone
        rw [hnone] at hcp
        cases hcp
    · rw [(mem_greens.mp hin).2] at hred
      cases hred

end Refills

end Again

/-! ### The receiver, before and after -/

section Rounds

variable {source : EngineId} {t : Transfer} {mtu : Nat} {segs arrived again : List DataSegment}

end Rounds

end Engine

open Engine

end HdyUtils.Ltp
