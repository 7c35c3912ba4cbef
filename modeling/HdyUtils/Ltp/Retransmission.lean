import HdyUtils.Ltp.Engine.Segmentation
import HdyUtils.Ltp.HostMove

/-! Retransmission (`Engine::handle_incoming_report`).  The answer to a report sends again what the
report's scope leaves unclaimed, each octet once, and asks for a report on it. -/

namespace HdyUtils.Ltp

open Runs Trace

/-! ### The chunks of the gaps -/

namespace Engine

variable {mtu : Nat} {gaps : List Range}

/-- The spans of all gaps, in order. -/
def gapSpans (mtu : Nat) (gaps : List Range) : List Range :=
  gaps.flatMap fun gap => chunkSpans mtu gap.start gap.stop

theorem gapChunks_concat (gaps : List Range) (last : Range) :
    gapChunks mtu (gaps ++ [last]) =
      (gapSpans mtu gaps).map (fun span => (span, false)) ++
        (chunkSpans mtu last.start last.stop).map fun span => (span, span.stop == last.stop) := by
  have hinit : ∀ c ∈ gaps.zipIdx, ((chunkSpans mtu c.1.start c.1.stop).map fun span =>
      (span, c.2 + 1 == gaps.length + 1 && span.stop == c.1.stop)) =
      (chunkSpans mtu c.1.start c.1.stop).map fun span => (span, false) := by
    intro c hc
    have hlt := (List.mem_zipIdx' hc).1
    have hne : (c.2 + 1 == gaps.length + 1) = false := by
      rw [beq_eq_false_iff_ne]
      omega
    simp only [hne, Bool.false_and]
  have hspans : gapSpans mtu gaps =
      gaps.zipIdx.flatMap fun c => chunkSpans mtu c.1.start c.1.stop := by
    conv_lhs => rw [gapSpans, ← List.zipIdx_map_fst 0 gaps, List.flatMap_map]
  rw [gapChunks, List.zipIdx_append, List.flatMap_append]
  simp only [List.length_append, List.length_singleton]
  rw [List.flatMap_congr hinit, hspans, List.map_flatMap]
  simp

/-- The spans of separated gaps are in ascending order. -/
theorem ascending_gapSpans (hmtu : 0 < mtu) (hsep : Separated gaps) :
    (gapSpans mtu gaps).Pairwise fun a b => a.stop ≤ b.start := by
  refine List.pairwise_flatMap.mpr ⟨fun gap hgap => ?_, hsep.apart.imp fun hapart a ha b hb => ?_⟩
  · exact (tiles_chunkSpans hmtu (hsep.nonempty gap hgap).le).ascending
  · have hstop := (chunkSpans_bounds hmtu ha).2.2
    have hstart := (chunkSpans_bounds hmtu hb).1
    omega

/-- The spans of the gaps come in order, and the last of them and no other is final. -/
theorem gapChunks_spec (hmtu : 0 < mtu) (hsep : Separated gaps) (hne : gaps ≠ []) :
    ∃ init last, gapSpans mtu gaps = init ++ [last] ∧
      gapChunks mtu gaps = init.map (fun span => (span, false)) ++ [(last, true)] := by
  rcases List.eq_nil_or_concat gaps with rfl | ⟨before, gap, rfl⟩
  · exact absurd rfl hne
  rw [List.concat_eq_append] at hsep ⊢
  have hgap := hsep.nonempty gap (by simp)
  obtain ⟨init, last, hsplit, hstop, hinit, hlt⟩ := (tiles_chunkSpans hmtu hgap.le).exists_last hgap
  refine ⟨gapSpans mtu before ++ init, last, ?_, ?_⟩
  · simp [gapSpans, hsplit]
  · have hbefore : init.map (fun span => (span, span.stop == gap.stop)) =
        init.map fun span => (span, false) := by
      refine List.map_congr_left fun span hspan => ?_
      have hle := (hinit.bounds hspan).2.2
      have hne : (span.stop == gap.stop) = false := by
        rw [beq_eq_false_iff_ne]
        omega
      rw [hne]
    rw [gapChunks_concat, hsplit, List.map_append, hbefore]
    simp [hstop]

end Engine

/-! ### The answer -/

/-- The octets of its block that a segment carries. -/
def DataSegment.span (ds : DataSegment) : Range := ⟨ds.offset, ds.offset + ds.data.length⟩

namespace SendSession

/-- The data segments send the octets of `R` again in order.  The last of them asks for a report in
answer to `rs`. -/
structure Retransmits (s : SendSession) (rs : ReportSegment) (mtu : Nat) (R : Set Nat)
    (segs : List DataSegment) : Prop where
  clientService : ∀ ds ∈ segs, ds.clientService = s.clientService
  length : ∀ ds ∈ segs, 0 < ds.data.length ∧ ds.data.length ≤ mtu
  bounds : ∀ ds ∈ segs, ds.offset + ds.data.length ≤ s.block.length
  payload : ∀ ds ∈ segs, ds.data = s.slice ds.offset (ds.offset + ds.data.length)
  covers : ∀ x, (∃ ds ∈ segs, ds.offset ≤ x ∧ x < ds.offset + ds.data.length) ↔ x ∈ R
  ascending : segs.Pairwise fun a b => a.offset + a.data.length ≤ b.offset
  plain : ∀ init last, segs = init ++ [last] → ∀ ds ∈ init, ds.kind = .red
  checkpoint : ∀ init last, segs = init ++ [last] → last.kind.isRed ∧
    (∃ cp, last.kind.checkpoint = some cp ∧ cp.reportSerial = rs.reportSerial.val) ∧
    (last.kind.isEorp ↔ last.offset + last.data.length = s.redLen) ∧
    (last.kind.isEob ↔ last.offset + last.data.length = s.redLen ∧
      last.offset + last.data.length = s.block.length)

/-- The record of the checkpoint that ends a retransmission. -/
def answerRecord (s : SendSession) (rs : ReportSegment) (span : Range) (now : Nat) :
    CheckpointRecord where
  serial := nextNonzeroSerial s.lastCpSerial
  reportSerial := rs.reportSerial.val
  offset := span.start
  length := span.stop - span.start
  isEorp := span.stop == s.redLen
  isEob := span.stop == s.block.length
  retries := 0
  transmittedAt := now

variable {s : SendSession} {rs : ReportSegment} {mtu : Nat}

theorem span_dataSegment (kind : DataSegKind) {span : Range} (h : span.start ≤ span.stop)
    (hstop : span.stop ≤ s.block.length) : (s.dataSegment kind span).span = span := by
  have hlength : (s.slice span.start span.stop).length = span.stop - span.start :=
    length_slice hstop
  rw [DataSegment.span, dataSegment, hlength]
  simp only [Nat.add_sub_cancel' h]

theorem segment_answerRecord (rs : ReportSegment) {span : Range} (h : span.start ≤ span.stop)
    (now : Nat) :
    (s.answerRecord rs span now).segment s =
      s.dataSegment (checkpointKind (span.stop == s.redLen) (span.stop == s.block.length)
        ⟨nextNonzeroSerial s.lastCpSerial, rs.reportSerial.val⟩) span := by
  simp only [CheckpointRecord.segment, answerRecord, dataSegment, Nat.add_sub_cancel' h]

variable (rs mtu) in
/-- Spans of the red part in order, the last one with a checkpoint, retransmit what they cover. -/
theorem retransmits_spans (init : List Range) (last : Range) (now : Nat)
    (hbounds : ∀ span ∈ init ++ [last], span.start < span.stop ∧ span.stop - span.start ≤ mtu ∧
      span.stop ≤ s.redLen)
    (hred : s.redLen ≤ s.block.length)
    (hascending : (init ++ [last]).Pairwise fun a b => a.stop ≤ b.start) :
    s.Retransmits rs mtu {x | Covers (init ++ [last]) x}
      (init.map (s.dataSegment .red) ++ [(s.answerRecord rs last now).segment s]) := by
  have hlast := hbounds last (by simp)
  generalize hsegs : init.map (s.dataSegment .red) ++ [(s.answerRecord rs last now).segment s] = segs
  have hmem : ∀ ds ∈ segs, ∃ span ∈ init ++ [last], ∃ kind, ds = s.dataSegment kind span := by
    intro ds hds
    rw [← hsegs, segment_answerRecord rs hlast.1.le] at hds
    rcases List.mem_append.mp hds with hds | hds
    · obtain ⟨span, hspan, rfl⟩ := List.mem_map.mp hds
      exact ⟨span, List.mem_append_left _ hspan, _, rfl⟩
    · rw [List.mem_singleton.mp hds]
      exact ⟨last, by simp, _, rfl⟩
  have hspan : ∀ span ∈ init ++ [last], ∀ kind, (s.dataSegment kind span).span = span :=
    fun span h kind => span_dataSegment kind (hbounds span h).1.le ((hbounds span h).2.2.trans hred)
  have hspans : segs.map DataSegment.span = init ++ [last] := by
    rw [← hsegs, segment_answerRecord rs hlast.1.le, List.map_append, List.map_map]
    congr 1
    · exact (List.map_congr_left fun span h => hspan span (List.mem_append_left _ h) _).trans
        (List.map_id _)
    · exact congrArg (· :: []) (hspan last (by simp) _)
  have hsplit : ∀ init' last', segs = init' ++ [last'] →
      init' = init.map (s.dataSegment .red) ∧ last' = (s.answerRecord rs last now).segment s := by
    intro init' last' h
    rw [← hsegs] at h
    obtain ⟨h1, h2⟩ := List.append_inj' h rfl
    exact ⟨h1.symm, (List.singleton_inj.mp h2).symm⟩
  have hstop : ∀ ds ∈ segs, ∃ span ∈ init ++ [last], ds.offset = span.start ∧
      ds.offset + ds.data.length = span.stop := by
    intro ds hds
    obtain ⟨span, h, kind, rfl⟩ := hmem ds hds
    exact ⟨span, h, rfl, congrArg Run.stop (hspan span h kind)⟩
  constructor
  · intro ds hds
    obtain ⟨span, -, kind, rfl⟩ := hmem ds hds
    rfl
  · intro ds hds
    obtain ⟨span, h, hoffset, hend⟩ := hstop ds hds
    have hb := hbounds span h
    omega
  · intro ds hds
    obtain ⟨span, h, -, hend⟩ := hstop ds hds
    have hb := hbounds span h
    omega
  · intro ds hds
    obtain ⟨span, h, kind, rfl⟩ := hmem ds hds
    have hend : (s.dataSegment kind span).offset + (s.dataSegment kind span).data.length = span.stop :=
      congrArg Run.stop (hspan span h kind)
    rw [hend]
    rfl
  · intro x
    show _ ↔ Covers (init ++ [last]) x
    rw [← hspans]
    simp [Covers, Run.Contains, DataSegment.span]
  · rw [← hspans, List.pairwise_map] at hascending
    exact hascending
  · intro init' last' h ds hds
    rw [(hsplit init' last' h).1] at hds
    obtain ⟨span, -, rfl⟩ := List.mem_map.mp hds
    rfl
  · intro init' last' h
    obtain rfl := (hsplit init' last' h).2
    have hend : ((s.answerRecord rs last now).segment s).offset +
        ((s.answerRecord rs last now).segment s).data.length = last.stop := by
      rw [segment_answerRecord rs hlast.1.le]
      exact congrArg Run.stop (hspan last (by simp) _)
    rw [hend, segment_answerRecord rs hlast.1.le]
    exact ⟨checkpointKind_isRed _ _ _, ⟨_, checkpointKind_checkpoint _ _ _, rfl⟩,
      by simp [dataSegment, checkpointKind_isEorp], by simp [dataSegment, checkpointKind_isEob]⟩

end SendSession

namespace Engine

variable {s : SendSession} {rs : ReportSegment} {sid : SessionId} {maxBlockSize : Nat}
  (dest : EngineId) (now : Nat)

/-- The spans that are not final leave the session as it is. -/
theorem foldl_retransmitChunk_init {spans : List Range} (e : Engine)
    (h : ∀ span ∈ spans, span.stop ≤ s.block.length) :
    (spans.map fun span => (span, false)).foldl (retransmitChunk dest rs now) (e, s) =
      ({ e with outbound := e.outbound ++ (spans.map (s.dataSegment .red)).map fun ds =>
          Push.wire s.id (dest, .data ds) }, s) := by
  induction spans generalizing e with
  | nil => simp
  | cons span spans ih =>
    have hle := h span (by simp)
    rw [List.map_cons, List.foldl_cons]
    simp only [retransmitChunk, hle, if_true, Bool.false_eq_true, if_false]
    rw [ih _ fun q hq => h q (by simp [hq])]
    simp [push, Push.wire]

/-- What keeping a checkpoint queues. -/
theorem issueCheckpoint_outbound (e : Engine) (record : CheckpointRecord) :
    (e.issueCheckpoint s dest record now).1.outbound =
      e.outbound ++ [Push.wire s.id (dest, .data (record.segment s))] := rfl

/-- The gaps in the scope of a report are sent again, up to a checkpoint with a new serial. -/
theorem answerReport_serial (hs : s.Sound sid maxBlockSize) (hgaps : scopeGaps s rs ≠ [])
    (e : Engine) :
    ∃ segs, (e.answerReport s dest rs now).1.outbound =
        e.outbound ++ segs.map (fun ds => Push.wire s.id (dest, .data ds)) ∧
      s.Retransmits rs e.config.mtu {x | Covers (scopeGaps s rs) x} segs ∧
      ∀ ds ∈ segs, ∀ cp, ds.kind.checkpoint = some cp →
        cp.serial = nextNonzeroSerial s.lastCpSerial := by
  obtain ⟨hsep, hstop, -⟩ := scopeGaps_spec s rs
  have hmtu := e.config.mtu_pos
  have hred := hs.red_le
  obtain ⟨init, last, hspans, hchunks⟩ := gapChunks_spec hmtu hsep hgaps
  have hbounds : ∀ span ∈ init ++ [last], span.start < span.stop ∧
      span.stop - span.start ≤ e.config.mtu ∧ span.stop ≤ s.redLen := by
    intro span hspan
    rw [← hspans] at hspan
    obtain ⟨gap, hgap, hspan⟩ := List.mem_flatMap.mp hspan
    obtain ⟨-, hne, hle⟩ := chunkSpans_bounds hmtu hspan
    exact ⟨hne, length_le_of_mem_chunkSpans hspan, hle.trans (hstop gap hgap)⟩
  have hinit : ∀ span ∈ init, span.stop ≤ s.block.length := fun span h =>
    (hbounds span (List.mem_append_left _ h)).2.2.trans hred
  have hlast : last.stop ≤ s.block.length := (hbounds last (by simp)).2.2.trans hred
  have hcovers : ∀ x, Covers (init ++ [last]) x ↔ Covers (scopeGaps s rs) x := by
    intro x
    have hgap : Covers ((gapChunks e.config.mtu (scopeGaps s rs)).map Prod.fst) x ↔
        Covers (scopeGaps s rs) x := covers_gapChunks hmtu
    rw [← hgap, hchunks, List.map_append, List.map_map]
    exact Iff.of_eq (congrArg (fun l => Covers (l ++ [last]) x) (List.map_id init).symm)
  have hascending := ascending_gapSpans hmtu hsep
  rw [hspans] at hascending
  have hretransmits := SendSession.retransmits_spans rs _ init last now hbounds hred hascending
  simp only [hcovers] at hretransmits
  refine ⟨_, ?_, hretransmits, fun ds hds cp hcp => ?_⟩
  · have hnot : (scopeGaps s rs).isEmpty = false := by simpa using hgaps
    simp only [answerReport, hnot, Bool.false_and, Bool.false_eq_true, if_false]
    rw [hchunks, List.foldl_append, foldl_retransmitChunk_init dest now e hinit]
    simp only [List.foldl_cons, List.foldl_nil, retransmitChunk, if_true, hlast]
    rw [issueCheckpoint_outbound, List.map_append, ← List.append_assoc]
    rfl
  · rcases List.mem_append.mp hds with hds | hds
    · obtain ⟨span, -, rfl⟩ := List.mem_map.mp hds
      cases hcp
    · rw [List.mem_singleton.mp hds, CheckpointRecord.segment, checkpointKind_checkpoint] at hcp
      cases hcp
      rfl

/-- The gaps in the scope of a report are sent again. -/
theorem answerReport_gaps (hs : s.Sound sid maxBlockSize) (hgaps : scopeGaps s rs ≠ []) (e : Engine) :
    ∃ segs, (e.answerReport s dest rs now).1.outbound =
        e.outbound ++ segs.map (fun ds => Push.wire s.id (dest, .data ds)) ∧
      s.Retransmits rs e.config.mtu {x | Covers (scopeGaps s rs) x} segs := by
  obtain ⟨segs, hout, hretransmits, -⟩ := answerReport_serial dest now hs hgaps e
  exact ⟨segs, hout, hretransmits⟩

/-- Without a gap, a session that would wait for nothing asks for a report on its last red octet. -/
theorem answerReport_no_gap (hs : s.Sound sid maxBlockSize) (hgaps : scopeGaps s rs = [])
    (e : Engine) :
    ∃ segs, (e.answerReport s dest rs now).1.outbound =
        e.outbound ++ segs.map (fun ds => Push.wire s.id (dest, .data ds)) ∧
      if s.claimsReceived.covers ⟨0, s.redLen⟩ = false ∧ s.checkpoints.isEmpty = true then
        ∃ ds, segs = [ds] ∧ ds.offset = s.redLen - 1 ∧ ds.data.length = 1 ∧
          s.Retransmits rs e.config.mtu {s.redLen - 1} segs
      else segs = [] := by
  have hmtu := e.config.mtu_pos
  have hpos := hs.red_pos
  have hred := hs.red_le
  simp only [answerReport, hgaps, gapChunks, List.zipIdx_nil, List.flatMap_nil, List.foldl_nil,
    List.isEmpty_nil, Bool.true_and, Bool.and_eq_true, Bool.not_eq_true']
  split
  · have hretransmits := SendSession.retransmits_spans rs e.config.mtu [] ⟨s.redLen - 1, s.redLen⟩ now
      (fun span h => by
        rw [List.nil_append, List.mem_singleton] at h
        subst h
        simp only
        omega) hred (by simp)
    have honly : {x | Covers [(⟨s.redLen - 1, s.redLen⟩ : Range)] x} = {s.redLen - 1} := by
      ext x
      simp only [covers_cons, not_covers_nil, or_false, Run.Contains, Set.mem_ofPred_eq,
        Set.mem_singleton_iff]
      omega
    rw [List.nil_append, honly] at hretransmits
    have hlength : ((s.answerRecord rs ⟨s.redLen - 1, s.redLen⟩ now).segment s).data.length = 1 := by
      have hslice : (s.slice (s.redLen - 1) s.redLen).length = s.redLen - (s.redLen - 1) :=
        SendSession.length_slice hred
      rw [SendSession.segment_answerRecord rs (Nat.sub_le _ _), SendSession.dataSegment, hslice]
      omega
    refine ⟨_, ?_, _, rfl, rfl, hlength, hretransmits⟩
    have hle : s.redLen - 1 + 1 ≤ s.block.length := by omega
    simp only [unstick, hpos, if_true, hle]
    rw [issueCheckpoint_outbound]
    have hone : s.redLen - (s.redLen - 1) = 1 := by omega
    simp [SendSession.answerRecord, hone]
  · exact ⟨[], by simp, rfl⟩

theorem settleSend_outbound (e : Engine) (sid : SessionId) (session : SendSession) :
    (e.settleSend sid session).outbound = e.outbound := by
  unfold settleSend
  split <;> rfl

/-- A report that the session has not seen is acknowledged and then answered. -/
theorem handleIncomingReport_outbound (e : Engine) (hs : e.sendSessions[sid]? = some s)
    (hopen : s.cancelReason = none) (hfresh : rs.reportSerial.val ∉ s.reportSerialsSeen) :
    ∃ e₁ : Engine, e₁.config = e.config ∧
      e₁.outbound = e.outbound ++ [Push.wire sid (dest, .reportAck rs.reportSerial.val)] ∧
      (e.handleIncomingReport dest sid rs now).outbound =
        (e₁.answerReport (s.claim rs now) dest rs now).1.outbound := by
  have hheard := heard_sampleCheckpoint sid e dest rs s.checkpoints[rs.checkpointSerial]? now
  have hseen : ¬s.reportSerialsSeen.contains rs.reportSerial.val = true :=
    mt Std.TreeSet.contains_iff_mem.mp hfresh
  have hreason : s.cancelReason.isSome = false := by simp [hopen]
  simp only [handleIncomingReport, cancelTimer_sendSessions, push_sendSessions, hs, hreason,
    Bool.false_eq_true, if_false, if_neg hseen]
  generalize ((((e.push dest sid (.reportAck rs.reportSerial.val)).cancelTimer
    (.checkpoint sid rs.checkpointSerial)).touchInactivity sid true now).sampleCheckpoint dest
      s.checkpoints[rs.checkpointSerial]? now) = e₁ at hheard ⊢
  exact ⟨e₁, hheard.acts.config, hheard.acts.outbound, settleSend_outbound _ _ _⟩

end Engine

/-! ### Every report -/

/-- The octets in the scope of a report that a session has yet to see claimed. -/
def SendSession.lacking (s : SendSession) (rs : ReportSegment) : Set Nat :=
  {x | rs.lowerBound ≤ x ∧ x < rs.upperBound ∧ x < s.redLen ∧ x ∉ s.claimsReceived}

theorem SendSession.covers_scopeGaps (s : SendSession) (rs : ReportSegment) :
    {x | Covers (Engine.scopeGaps s rs) x} = s.lacking rs :=
  Set.ext (Engine.scopeGaps_spec s rs).2.2

theorem SendSession.lacking_nonempty_iff (s : SendSession) (rs : ReportSegment) :
    (s.lacking rs).Nonempty ↔ Engine.scopeGaps s rs ≠ [] := by
  rw [← s.covers_scopeGaps rs]
  constructor
  · rintro ⟨x, hx⟩ hnil
    have hcovers : Covers (Engine.scopeGaps s rs) x := hx
    rw [hnil] at hcovers
    exact not_covers_nil x hcovers
  · intro hne
    obtain ⟨gap, hgap⟩ := List.exists_mem_of_ne_nil _ hne
    exact ⟨gap.start, gap, hgap, le_rfl, (Engine.scopeGaps_spec s rs).1.nonempty gap hgap⟩

/-- The segments with which session `s` answers report `rs`, once it has counted the report's claims:
what is lacking in its scope, or if nothing is, one octet when the session would wait for nothing. -/
structure SendSession.Reanswers (s : SendSession) (rs : ReportSegment) (mtu : Nat)
    (segs : List DataSegment) : Prop where
  gaps : (s.lacking rs).Nonempty → s.Retransmits rs mtu (s.lacking rs) segs
  stuck : s.lacking rs = ∅ → s.isComplete = false → s.checkpoints.isEmpty = true →
    ∃ ds, segs = [ds] ∧ ds.offset = s.redLen - 1 ∧ ds.data.length = 1 ∧
      s.Retransmits rs mtu {s.redLen - 1} segs
  silent : s.lacking rs = ∅ → ¬(s.isComplete = false ∧ s.checkpoints.isEmpty = true) → segs = []

theorem Engine.handleIncomingReport_reanswers {e : Engine} {sid : SessionId} {s : SendSession}
    {maxBlockSize : Nat} (hs : e.sendSessions[sid]? = some s) (hsound : s.Sound sid maxBlockSize)
    (hsent : s.eobSent = true) (hopen : s.cancelReason = none) {rs : ReportSegment}
    (hfresh : rs.reportSerial.val ∉ s.reportSerialsSeen) (source : EngineId) (now : Nat) :
    ∃ segs, (e.handleIncomingReport source sid rs now).outbound =
        e.outbound ++ Push.wire sid (source, .reportAck rs.reportSerial.val) ::
          segs.map (fun ds => Push.wire sid (source, .data ds)) ∧
      (s.claim rs now).Reanswers rs e.config.mtu segs := by
  obtain ⟨e₁, hconfig, hack, hout⟩ := handleIncomingReport_outbound source now e hs hopen hfresh
  have hclaim := hsound.claim rs now
  have hid : (s.claim rs now).id = sid := hclaim.id
  have hcomplete : (s.claim rs now).isComplete =
      (s.claim rs now).claimsReceived.covers ⟨0, (s.claim rs now).redLen⟩ := by
    have hsent' : (s.claim rs now).eobSent = true := hsent
    rw [SendSession.isComplete, hsent', Bool.true_and]
  by_cases hgaps : scopeGaps (s.claim rs now) rs = []
  · have hnone : ¬((s.claim rs now).lacking rs).Nonempty := by
      rw [SendSession.lacking_nonempty_iff]
      exact fun h => h hgaps
    obtain ⟨segs, hsegs, hanswer⟩ := answerReport_no_gap source now hclaim hgaps e₁
    refine ⟨segs, by rw [hout, hsegs, hack, hid]; simp, fun h => absurd h hnone, fun _ hinc hcps => ?_,
      fun _ hdone => ?_⟩
    · rw [← hcomplete, if_pos ⟨hinc, hcps⟩, hconfig] at hanswer
      exact hanswer
    · rw [← hcomplete, if_neg hdone] at hanswer
      exact hanswer
  · have hsome := (SendSession.lacking_nonempty_iff _ rs).mpr hgaps
    obtain ⟨segs, hsegs, hanswer⟩ := answerReport_gaps source now hclaim hgaps e₁
    rw [SendSession.covers_scopeGaps, hconfig] at hanswer
    exact ⟨segs, by rw [hout, hsegs, hack, hid]; simp, fun _ => hanswer,
      fun h => absurd h hsome.ne_empty, fun h => absurd h hsome.ne_empty⟩

/-! ### Runs -/

/-- Stored sessions stay sessions of which all segments were queued. -/
theorem SendMove.eobSent {config : EngineConfig} {sid : SessionId} {trigger : SendTrigger}
    {v v' : SendView} {p : List Push} {n : List Notice} (h : SendMove config sid trigger v p n v')
    (hv : ∀ s, v.session = some s → s.eobSent = true) :
    ∀ s, v'.session = some s → s.eobSent = true := by
  intro t ht
  cases h with
  | openGreen | reportIgnored | expiredIdle => exact hv t ht
  | openRed _ _ _ _ _ _ _ _ _ hsent =>
    cases ht
    exact hsent
  | @reportAnswered source rs now s armed pushes spans s' armed' hanswer =>
    cases ht
    obtain ⟨_, _, rfl⟩ := hanswer.session
    exact hv s rfl
  | @reportRepeated _ _ _ s =>
    cases ht
    exact hv s rfl
  | @checkpointResent _ _ s =>
    cases ht
    exact hv s rfl
  | @checkpointExhausted _ _ s =>
    cases ht
    exact hv s rfl
  | @cancelResent _ s =>
    cases ht
    exact hv s rfl
  | inactivityRearmed =>
    cases ht
    exact hv t rfl
  | _ => cases ht

namespace Host

/-- The send sessions of a host are its own, and all of their segments were queued. -/
structure Queued (h : Host) : Prop where
  owned : h.engine.Owned
  sent : ∀ (sid : SessionId) (s : SendSession), h.engine.sendSessions[sid]? = some s →
    s.eobSent = true

theorem queued_new (config : EngineConfig) : (Host.new config).Queued :=
  ⟨Engine.owned_new config, by simp [Host.new, Engine.new]⟩

theorem Queued.step {h : Host} (hq : h.Queued) (c : Call) : (h.step c).Queued := by
  have hown := owned_step hq.owned c
  refine ⟨hown, fun sid s hs => ?_⟩
  have hsid : sid.originator = h.engine.config.engineId := by
    rw [← config_step hq.owned c]
    exact (hown.send sid s hs).1
  cases sendChange hq.owned c hsid with
  | moved _ move => exact move.eobSent (hq.sent sid) s hs
  | tick _ session =>
    rw [session] at hs
    exact hq.sent sid s hs
  | other view =>
    have hsession : (h.step c).engine.sendSessions[sid]? = h.engine.sendSessions[sid]? :=
      congrArg SendView.session view
    rw [hsession] at hs
    exact hq.sent sid s hs

theorem queued_run (config : EngineConfig) (calls : List Call) :
    ((Host.new config).run calls).Queued :=
  run_invariant (fun _ c hq => hq.step c) calls (queued_new config)

end Host

/-- Whatever has happened, a report that an open session has not seen is acknowledged, and answered
with the octets of its scope that are still unclaimed. -/
theorem report_retransmits_gaps {config : EngineConfig} {calls : List Call} {sid : SessionId}
    {s : SendSession}
    (hs : ((Host.new config).run calls).engine.sendSessions[sid]? = some s)
    (hopen : s.cancelReason = none) {rs : ReportSegment}
    (hfresh : rs.reportSerial.val ∉ s.reportSerialsSeen) (source : EngineId) (now : Nat) :
    ∃ segs, (((Host.new config).run calls).engine.handleIncomingReport source sid rs now).outbound =
        ((Host.new config).run calls).engine.outbound ++
          Push.wire sid (source, .reportAck rs.reportSerial.val) ::
          segs.map (fun ds => Push.wire sid (source, .data ds)) ∧
      (s.claim rs now).Reanswers rs config.mtu segs := by
  have hqueued := Host.queued_run config calls
  have hconfig : ((Host.new config).run calls).engine.config = config :=
    Host.config_run (Engine.owned_new config) calls
  obtain ⟨segs, hout, hanswer⟩ := Engine.handleIncomingReport_reanswers hs
    (hqueued.owned.send sid s hs).2 (hqueued.sent sid s hs) hopen hfresh source now
  rw [hconfig] at hanswer
  exact ⟨segs, hout, hanswer⟩

/-- An engine that has been asked to send four red octets. -/
def fourOctets : Host := (Host.new .default).run [.request ⟨2⟩ 1 [7, 8, 9, 10] 4 0]

/-- A report on the second and third of four octets leaves two gaps. -/
theorem report_retransmits_gaps_two :
    ∃ segs, (fourOctets.engine.handleIncomingReport ⟨2⟩ ⟨⟨1⟩, 1⟩ ⟨.one, 1, 4, 0, [⟨1, 2⟩]⟩ 5).outbound =
        fourOctets.engine.outbound ++ Push.wire ⟨⟨1⟩, 1⟩ (⟨2⟩, .reportAck 1) ::
          segs.map (fun ds => Push.wire ⟨⟨1⟩, 1⟩ (⟨2⟩, .data ds)) ∧
      ((fourOctets.engine.sendSessions[(⟨⟨1⟩, 1⟩ : SessionId)]?.get (by decide +kernel)).claim
        ⟨.one, 1, 4, 0, [⟨1, 2⟩]⟩ 5).Reanswers ⟨.one, 1, 4, 0, [⟨1, 2⟩]⟩ 1400 segs :=
  report_retransmits_gaps (Option.some_get _).symm (by decide +kernel) (by decide +kernel) ⟨2⟩ 5

end HdyUtils.Ltp
