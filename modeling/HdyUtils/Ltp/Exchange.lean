import HdyUtils.Ltp.Engine.Reception

/-! An exchange in which nothing is lost.  A sends a block, all of its segments reach B, one of B's
reports reaches A and A's acknowledgment reaches B; then B has told of the red part, A of the end of
the session, and neither has the session any more. -/

namespace HdyUtils.Ltp

namespace Engine

variable {e : Engine} {sid : SessionId}

/-! ### The sender -/

/-- The sender of a block that waits for the first report on it. -/
structure Awaits (e : Engine) (sid : SessionId) (peer : EngineId) (t : Transfer)
    (segs : List DataSegment) (s : SendSession) : Prop where
  stored : e.sendSessions[sid]? = some s
  peer : s.peer = peer
  transfer : s.transfer = t
  isOpen : s.cancelReason = none
  eobSent : s.eobSent = true
  unseen : s.reportSerialsSeen = ∅
  unclaimed : s.claimsReceived = .new
  sound : s.Sound sid e.config.maxBlockSize.toNat
  serial : ∀ ds ∈ segs, ∀ cp, ds.kind.checkpoint = some cp → cp.serial.val = s.lastCpSerial

theorem Awaits.redLen {peer : EngineId} {t : Transfer} {segs : List DataSegment} {s : SendSession}
    (h : e.Awaits sid peer t segs s) : s.redLen = t.redLen := congrArg Transfer.redLen h.transfer

/-- The checkpoint in the first transmission has the serial after the session's last one. -/
theorem serial_firstSegment {s : SendSession} {span : Range} {cp : Checkpoint}
    (h : (s.firstSegment span).kind.checkpoint = some cp) :
    cp.serial = nextNonzeroSerial s.lastCpSerial := by
  simp only [SendSession.firstSegment, SendSession.dataSegment] at h
  split at h
  · split at h <;> cases h
  split at h
  · rw [checkpointKind_checkpoint] at h
    cases h
    rfl
  · cases h

theorem sound_of_request {config : EngineConfig} {peer : EngineId} {t : Transfer} {v v' : SendView}
    {pushes : List Push} {notices : List Notice} {s : SendSession}
    (h : SendMove config sid (.request peer t) v pushes notices v') (hred : 0 < t.redLen)
    (hs : v'.session = some s) : s.Sound sid config.maxBlockSize.toNat := by
  cases h with
  | openGreen hzero => exact absurd hzero hred.ne'
  | openRed hsound =>
    cases hs
    exact hsound

/-- A request for a block with a red part puts out its segments and waits for a report. -/
theorem awaits_of_request {a a₁ : Engine} {peer : EngineId} {clientService : UInt64} {block : Bytes}
    {redLen now : Nat} (hpos : 0 < redLen)
    (hreq : a.requestTransmission peer clientService block redLen now = .ok (sid, a₁)) :
    sid.originator = a.config.engineId ∧ a₁.config = a.config ∧
      Transfer.Valid ⟨clientService, block, redLen⟩ ∧
      ∃ segs s, Transfer.Segments ⟨clientService, block, redLen⟩ a.config.mtu segs ∧
        a₁.outbound = a.outbound ++ segs.map (fun ds => Push.wire sid (peer, .data ds)) ∧
        a₁.Awaits sid peer ⟨clientService, block, redLen⟩ segs s := by
  obtain ⟨-, -, pushes, notices, hmoves⟩ := movesSend_requestTransmission hreq
  simp only [requestTransmission] at hreq
  split at hreq
  · cases hreq
  rename_i hsize
  split at hreq
  · cases hreq
  rename_i hred
  cases hreq
  have hlt : block.length < 2 ^ 64 := (not_lt.mp hsize).trans_lt a.config.maxBlockSize.toNat_lt
  -- the number that the session takes is all that sets `numberSession` apart
  let s : SendSession := .new a.nextSessionId peer clientService block redLen 0 now
  have hsent := sent_openSession a.numberSession (s := s) (not_lt.mp hred) rfl rfl rfl now
  obtain ⟨lastSpan, -, -, hopened⟩ := openSession_eq_putSend a.numberSession (s := s) hpos rfl now
  have hstored : (a.numberSession.openSession s now).sendSessions[a.nextSessionId]? =
      some (firstSession s (firstRecord s lastSpan now)) := by
    rw [hopened]
    simp [s, SendSession.new]
  have hsound : (firstSession s (firstRecord s lastSpan now)).Sound a.nextSessionId
      a.config.maxBlockSize.toNat := by
    exact sound_of_request hmoves.move hpos hstored
  have hconfig : (a.numberSession.openSession s now).config = a.config := by
    rw [hopened]
    simp [numberSession]
  refine ⟨rfl, hconfig, ⟨not_lt.mp hred, hlt⟩, _,
    firstSession s (firstRecord s lastSpan now), hsent.segments, hsent.outbound, hstored, rfl, rfl,
    rfl, rfl, rfl, rfl, ?_, fun ds hds cp hcp => ?_⟩
  · rw [hconfig]
    exact hsound
  · obtain ⟨span, -, rfl⟩ := List.mem_map.mp hds
    exact congrArg NonZeroU64.val (serial_firstSegment hcp)

/-- A claim of all of a red part leaves no gap in it. -/
theorem covers_recordClaims_full (cpSerial : UInt64) {redLen : Nat} (hlt : redLen < 2 ^ 64)
    (claims : RangeSet) :
    (recordClaims redLen 0 (fullReport cpSerial redLen).claims claims).covers ⟨0, redLen⟩ = true := by
  have hend : min (satAdd 0 redLen) redLen = redLen := by
    simp only [satAdd, u64Max]
    omega
  have hzero : satAdd 0 0 = 0 := rfl
  refine RangeSet.covers_iff.mpr fun x _ hx => ?_
  simp only at hx
  simp only [recordClaims, fullReport, List.foldl_cons, List.foldl_nil, hzero, hend, Nat.zero_min]
  rw [if_pos (by omega), RangeSet.mem_insert]
  exact .inr ⟨Nat.zero_le x, hx⟩

/-- The report on all of a red part is one that a parser takes. -/
theorem bounded_fullReport (cpSerial : UInt64) {redLen : Nat} (hlt : redLen < 2 ^ 64) :
    (SegmentBody.report (fullReport cpSerial redLen)).Bounded :=
  ⟨hlt, by simp [fullReport], by simp [fullReport], by simpa [fullReport] using hlt⟩

theorem valid_fullReport (cpSerial : UInt64) {redLen : Nat} (hpos : 0 < redLen)
    (hlt : redLen < 2 ^ 64) : (SegmentBody.report (fullReport cpSerial redLen)).Valid := by
  refine ⟨hpos, by simp [fullReport, maxParsedClaims], ?_⟩
  simp only [fullReport, ClaimsValid, u64Max]
  refine ⟨hpos.ne', ?_, ?_, ?_, trivial⟩ <;> omega

/-- A session whose red part is claimed has nothing to retransmit. -/
theorem answerReport_covered {s : SendSession} {source : EngineId} {rs : ReportSegment} {now : Nat}
    (hcovers : s.claimsReceived.covers ⟨0, s.redLen⟩ = true) :
    e.answerReport s source rs now = (e, s) := by
  obtain ⟨hseparated, -, hgaps⟩ := scopeGaps_spec s rs
  have hnone : scopeGaps s rs = [] := by
    refine hseparated.eq_of_covers_iff .nil fun x => ?_
    rw [hgaps]
    simp only [Runs.not_covers_nil, iff_false]
    rintro ⟨-, -, hx, hmissing⟩
    exact hmissing (RangeSet.covers_iff.mp hcovers x (Nat.zero_le x) hx)
  simp [answerReport, hnone, gapChunks, hcovers]

/-- A report that claims all of the red part ends the session of its sender. -/
theorem handleIncomingReport_full (source : EngineId) (cpSerial : UInt64) (now : Nat)
    {s : SendSession} (hs : e.sendSessions[sid]? = some s) (hopen : s.cancelReason = none) (hsent : s.eobSent = true)
    (hunseen : s.reportSerialsSeen.contains 1 = false) (hlt : s.redLen < 2 ^ 64) :
    let e' := e.handleIncomingReport source sid (fullReport cpSerial s.redLen) now
    e'.sendSessions[sid]? = none ∧ e'.armed sid = ∅ ∧
      e'.notices = e.notices ++ [.transmissionSessionCompleted sid] ∧
      e'.outbound = e.outbound ++ [Push.wire sid (source, .reportAck 1)] := by
  intro e'
  have hcovers := covers_recordClaims_full cpSerial hlt s.claimsReceived
  -- The engine once the session was touched.
  generalize he₁ : ((((e.push source sid (.reportAck 1)).cancelTimer
    (.checkpoint sid cpSerial)).touchInactivity sid true now).sampleCheckpoint source
      s.checkpoints[cpSerial]? now) = e₁
  have hacts : Acts sid [(source, .reportAck 1)] [] e e₁ := by
    rw [← he₁]
    exact (((((Acts.refl sid e).push source _).cancelTimer (.checkpoint cpSerial)).touchInactivity
      true now).sampleCheckpoint source _ now)
  have heq : e' = ((e₁.notify (.transmissionSessionCompleted sid)).removeSend sid).cancelSession sid := by
    simp only [e', handleIncomingReport, fullReport, NonZeroU64.one, cancelTimer_sendSessions,
      push_sendSessions, hs, hopen, Option.isSome_none, Bool.false_eq_true, if_false, hunseen, he₁]
    rw [answerReport_covered hcovers]
    simp only [settleSend, SendSession.isComplete, hsent, Bool.true_and]
    exact if_pos hcovers
  rw [heq]
  refine ⟨by simp, ?_, by simp [hacts.notices], by simp [hacts.outbound]⟩
  ext kind
  simp [armed]

/-! ### The receiver -/

/-- The session once a report is acknowledged. -/
def acked (s : RecvSession) (serial : UInt64) (rec : ReportRecord) (now : Nat) : RecvSession :=
  { s with
    lastActivity := now
    reports := s.reports.insert serial { rec with acked := true }
    reportedCoverage := coverClaims rec.report s.reportedCoverage }

/-- The acknowledgment of a report of an open session. -/
theorem handleIncomingReportAck_acked {s : RecvSession} {serial : UInt64} {rec : ReportRecord}
    (now : Nat) (hs : e.recvSessions[sid]? = some s) (hopen : s.cancelReason = none)
    (hrec : s.reports[serial]? = some rec) :
    ∃ e₁, Yields [] [] e e₁ ∧
      e.handleIncomingReportAck sid serial now = e₁.settleRecv sid (acked s serial rec now) := by
  have htouch := Yields.touchInactivity (e.cancelTimer (.report sid serial)) sid false now
  refine ⟨_, ?_, by
    simp only [handleIncomingReportAck, cancelTimer_recvSessions, hs, hopen, Option.isSome_none,
      Bool.false_eq_true, if_false, hrec, acked]
    rfl⟩
  unfold sampleReport
  split
  · exact ⟨htouch.config, htouch.closed, htouch.cancelled, htouch.outbound, htouch.notices⟩
  · exact ⟨htouch.config, htouch.closed, htouch.cancelled, htouch.outbound, htouch.notices⟩

/-- A session that has all of its red part, and whose reports on it are acknowledged, closes. -/
theorem settleRecv_closes {s : RecvSession} {redLen : Nat} (hlen : s.redPartLen = some redLen)
    (hreceived : ∀ x < redLen, x ∈ s.redReceived) (hdelivered : s.redDelivered = true)
    (hcovered : ∀ x < redLen, x ∈ s.reportedCoverage) :
    let e' := e.settleRecv sid s
    e'.recvSessions[sid]? = none ∧ e'.armed sid = ∅ ∧ e'.closedRecvSessions.contains sid = true ∧
      e'.notices = e.notices ∧ e'.outbound = e.outbound := by
  intro e'
  have hred : s.isRedComplete = true := by
    rw [RecvSession.isRedComplete, hlen]
    exact RangeSet.covers_iff.mpr fun x _ hx => hreceived x hx
  have hcovers : s.reportedCoverage.covers ⟨0, redLen⟩ = true :=
    RangeSet.covers_iff.mpr fun x _ hx => hcovered x hx
  have heq : e' = ((e.removeRecv sid).cancelSession sid).recordClosed sid := by
    simp only [e', settleRecv, hred, hdelivered, hlen, Option.getD_some, hcovers, Bool.and_self,
      if_true]
  rw [heq]
  refine ⟨by simp, ?_, ?_, by simp, by simp⟩
  · ext kind
    simp [armed]
  · exact RecentSet.contains_iff.mpr (RecentSet.mem_record_self (by decide) _ sid)

/-- The acknowledgment of the report on all of the red part closes the session. -/
theorem handleIncomingReportAck_full (now : Nat) {t : Transfer} {segs arrived : List DataSegment}
    {cpSerial : UInt64} {s : RecvSession} (hlt : t.redLen < 2 ^ 64)
    (hs : e.recvSessions[sid]? = some s) (hcomplete : Complete t segs arrived cpSerial s) :
    let e' := e.handleIncomingReportAck sid 1 now
    e'.recvSessions[sid]? = none ∧ e'.armed sid = ∅ ∧ e'.closedRecvSessions.contains sid = true ∧
      e'.notices = e.notices ∧ e'.outbound = e.outbound := by
  intro e'
  obtain ⟨transmittedAt, hreport⟩ := hcomplete.report
  obtain ⟨e₁, hyields, heq⟩ := handleIncomingReportAck_acked now hs hcomplete.collects.isOpen hreport
  have hcovered : ∀ x < t.redLen,
      x ∈ coverClaims (fullReport cpSerial t.redLen) s.reportedCoverage := by
    have hzero : satAdd 0 0 = 0 := rfl
    have hend : satAdd 0 t.redLen = t.redLen := by
      simp only [satAdd, u64Max]
      omega
    intro x hx
    simp only [coverClaims, fullReport, List.foldl_cons, List.foldl_nil, hzero, hend]
    exact RangeSet.mem_insert.mpr (.inr ⟨Nat.zero_le x, hx⟩)
  obtain ⟨hnone, harmed, hclosed, hnotices, hout⟩ := @settleRecv_closes e₁ sid
    (acked s 1 ⟨fullReport cpSerial t.redLen, 0, false, transmittedAt⟩ now) t.redLen
    hcomplete.redPartLen (hcomplete.collects.complete hcomplete.delivered) hcomplete.delivered hcovered
  rw [show e' = _ from heq]
  exact ⟨hnone, harmed, hclosed, by rw [hnotices, hyields.notices, List.append_nil],
    by rw [hout, hyields.outbound, List.append_nil]⟩

/-! ### The link -/

/-- The engine after the segments that a link brings, each at its time. -/
def receiveAll (e : Engine) (source : EngineId) (arrivals : List (Bytes × Nat)) :
    Except Error Engine :=
  arrivals.foldlM (fun e x => e.handleIncomingSegment source x.1 x.2) e

/-- Data segments of a session on the link. -/
def wires (sid : SessionId) (arrivals : List (DataSegment × Nat)) : List (Bytes × Nat) :=
  arrivals.map fun x => ((Segment.plain sid (.data x.1)).encodeToVec, x.2)

theorem handleIncomingSegment_plain (e : Engine) (source : EngineId) (sid : SessionId)
    {body : SegmentBody} (hbounded : body.Bounded) (hvalid : body.Valid) (now : Nat) :
    e.handleIncomingSegment source (Segment.plain sid body).encodeToVec now =
      .ok (e.handleSegment source (Segment.plain sid body) now) := by
  simp [handleIncomingSegment, parse_encodeToVec (Segment.bounded_plain hbounded) hvalid]

/-- A report reaches the session of its sender, whoever brought it. -/
theorem handleIncomingSegment_report (source : EngineId) {s : SendSession} {r : ReportSegment}
    (hown : sid.originator = e.config.engineId) (hs : e.sendSessions[sid]? = some s)
    (hbounded : (SegmentBody.report r).Bounded) (hvalid : (SegmentBody.report r).Valid) (now : Nat) :
    e.handleIncomingSegment source (Segment.plain sid (.report r)).encodeToVec now =
      .ok (e.handleIncomingReport s.peer sid r now) := by
  rw [handleIncomingSegment_plain e source sid hbounded hvalid]
  simp [handleSegment, Segment.plain, effectiveFrom, hown, hs]

theorem handleIncomingSegment_reportAck (source : EngineId)
    (hforeign : sid.originator ≠ e.config.engineId) (serial : UInt64) (now : Nat) :
    e.handleIncomingSegment source (Segment.plain sid (.reportAck serial)).encodeToVec now =
      .ok (e.handleIncomingReportAck sid serial now) := by
  rw [handleIncomingSegment_plain e source sid
    (show (SegmentBody.reportAck serial).Bounded from trivial) trivial]
  simp [handleSegment, Segment.plain, hforeign]

theorem receiveAll_wires (source : EngineId) {arrivals : List (DataSegment × Nat)}
    (hforeign : sid.originator ≠ e.config.engineId)
    (hbounded : ∀ x ∈ arrivals, (SegmentBody.data x.1).Bounded) :
    e.receiveAll source (wires sid arrivals) =
      .ok (arrivals.foldl (arrive sid.originator sid) e) := by
  induction arrivals generalizing e with
  | nil => rfl
  | cons x arrivals ih =>
    obtain ⟨hx, hrest⟩ := List.forall_mem_cons.mp hbounded
    have hstep : e.handleIncomingSegment source (Segment.plain sid (.data x.1)).encodeToVec x.2 =
        .ok (e.arrive sid.originator sid x) := by
      rw [handleIncomingSegment_plain e source sid hx trivial]
      simp [handleSegment, Segment.plain, hforeign, effectiveFrom, arrive]
    obtain ⟨p, n, hmoves⟩ := @movesRecv_handleIncomingData sid e sid.originator x.1 x.2
    have hconfig : (e.arrive sid.originator sid x).config = e.config := hmoves.acts.config
    have hnext := ih (e := e.arrive sid.originator sid x) (by rw [hconfig]; exact hforeign) hrest
    simp only [receiveAll, wires, List.map_cons, List.foldlM_cons, hstep, List.foldl_cons]
    exact hnext

end Engine

open Engine

/-- When nothing is lost, an exchange completes.  Whatever states A and B are in, if A accepts a block
with a red part for B and B has room for it, and if all of A's segments reach B, in any order and any
number of times as long as the checkpoint comes after the other red ones, then B tells of the red
part exactly once and reports it; when a report reaches A, A ends the session and tells so; and when
A's acknowledgment reaches B, B closes the session. -/
theorem exchange_completes {a b a₁ : Engine} {sid : SessionId} {clientService : UInt64}
    {block : Bytes} {redLen now : Nat}
    (hreq : a.requestTransmission b.config.engineId clientService block redLen now = .ok (sid, a₁))
    (hpos : 0 < redLen) (hother : a.config.engineId ≠ b.config.engineId)
    (haccepts : b.Accepts sid ⟨clientService, block, redLen⟩) (hnone : b.recvSessions[sid]? = none)
    (hroom : b.recvSessions.size < b.config.maxRecvSessions) :
    ∃ segs, Transfer.Segments ⟨clientService, block, redLen⟩ a.config.mtu segs ∧
      a₁.outbound = a.outbound ++ segs.map (fun ds => Push.wire sid (b.config.engineId, .data ds)) ∧
      ∀ pre last post, Arrives segs pre last post → ∀ (source : EngineId) (later : Nat),
        ∃ b₁ report ack, b.receiveAll source (wires sid (pre ++ last :: post)) = .ok b₁ ∧
          b₁.notices = b.notices ++
            ((pre.flatMap fun x => greenNotices a.config.engineId sid x.1) ++
              .redPartReceived sid a.config.engineId clientService (block.take redLen)
                (decide (redLen = block.length)) ::
              post.flatMap fun x => greenNotices a.config.engineId sid x.1) ∧
          b₁.outbound = b.outbound ++
            List.replicate ((last :: post).countP fun x => x.1.kind.checkpoint.isSome)
              (a.config.engineId, report) ∧
          ∃ a₂, a₁.handleIncomingSegment source report later = .ok a₂ ∧
            a₂.notices = a₁.notices ++ [.transmissionSessionCompleted sid] ∧
            a₂.outbound = a₁.outbound ++ [(b.config.engineId, ack)] ∧
            a₂.sendSessions[sid]? = none ∧ a₂.armed sid = ∅ ∧
            ∃ b₂, b₁.handleIncomingSegment source ack later = .ok b₂ ∧
              b₂.recvSessions[sid]? = none ∧ b₂.armed sid = ∅ ∧
              b₂.closedRecvSessions.contains sid = true ∧
              b₂.notices = b₁.notices ∧ b₂.outbound = b₁.outbound := by
  obtain ⟨horiginator, hconfig, hvalid, segs, s, hsegs, houtbound, hawaits⟩ :=
    awaits_of_request hpos hreq
  refine ⟨segs, hsegs, houtbound, fun pre last post harrives source later => ?_⟩
  obtain ⟨cp, hcp⟩ := Option.isSome_iff_exists.mp harrives.checkpoint
  have hlt : redLen < 2 ^ 64 := hvalid.red_le.trans_lt hvalid.lt
  have hforeign : sid.originator ≠ b.config.engineId := by
    rw [horiginator]
    exact hother
  -- B, once the segments have come.
  have hbounded : ∀ x ∈ pre ++ last :: post, (SegmentBody.data x.1).Bounded := by
    intro x hx
    have hle : x.1.offset + x.1.data.length ≤ block.length := (hsegs.cuts (harrives.of_mem hx)).le_block
    have hblock : block.length < 2 ^ 64 := hvalid.lt
    exact ⟨by omega, by omega⟩
  obtain ⟨r, hyields, hsession, hcomplete⟩ := arrive_all sid.originator haccepts hnone
    hroom hsegs hvalid harrives hcp
  have hb₁ := receiveAll_wires source hforeign hbounded
  generalize (pre ++ last :: post).foldl (arrive sid.originator sid) b = b₁ at hyields hsession hb₁
  -- A, once a report has come.
  have hown : sid.originator = a₁.config.engineId := by rw [horiginator, hconfig]
  have ha₂ := handleIncomingSegment_report source hown hawaits.stored
    (bounded_fullReport cp.serial.val hlt) (valid_fullReport cp.serial.val hpos hlt) later
  obtain ⟨hgone, hunarmed, hnotices, hout⟩ := handleIncomingReport_full b.config.engineId
    cp.serial.val later hawaits.stored hawaits.isOpen hawaits.eobSent
    (by simp [hawaits.unseen]) (by rw [hawaits.redLen]; exact hlt)
  rw [hawaits.peer] at ha₂
  rw [hawaits.redLen] at hgone hunarmed hnotices hout
  -- B, once the acknowledgment has come.
  have hb₂ := handleIncomingSegment_reportAck source (by rw [hyields.config]; exact hforeign) 1 later
  obtain ⟨hclosed, hunarmed', hcontains, hnotices', hout'⟩ :=
    handleIncomingReportAck_full later hlt hsession hcomplete
  rw [horiginator] at hyields
  exact ⟨b₁, _, _, hb₁, hyields.notices, hyields.outbound, _, ha₂, hnotices, hout, hgone, hunarmed,
    _, hb₂, hclosed, hunarmed', hcontains, hnotices', hout'⟩

/-- Two engines and a block of three octets, two of them red, whose segments come in order. -/
theorem exchange_completes_inOrder :
    ∃ (sid : SessionId) (a₁ b₁ a₂ b₂ : Engine) (p m : List Notice),
      (Engine.new .default).requestTransmission ⟨2⟩ 1 [7, 8, 9] 2 0 = .ok (sid, a₁) ∧
      b₁.notices = p ++ .redPartReceived sid ⟨1⟩ 1 [7, 8] false :: m ∧
      a₂.notices = a₁.notices ++ [.transmissionSessionCompleted sid] ∧
      a₂.sendSessions[sid]? = none ∧ b₂.recvSessions[sid]? = none := by
  have haccepts : (Engine.new { EngineConfig.default with engineId := ⟨2⟩ }).Accepts ⟨⟨1⟩, 1⟩
      ⟨1, [7, 8, 9], 2⟩ := ⟨rfl, rfl, rfl, by decide, by decide⟩
  obtain ⟨segs, hsegs, -, hall⟩ := @exchange_completes (.new .default)
    (.new { EngineConfig.default with engineId := ⟨2⟩ }) _ _ 1 [7, 8, 9] 2 0 rfl (by decide)
    (by decide) haccepts (by simp [Engine.new]) (by simp [Engine.new, EngineConfig.default])
  obtain ⟨pre, last, post, harrives, -⟩ := Engine.Arrives.inOrder hsegs (by decide) (by decide) 0
  obtain ⟨b₁, -, -, -, hnotices, -, a₂, -, hcompleted, -, hgone, -, b₂, -, hclosed, -⟩ :=
    hall pre last post harrives ⟨1⟩ 5
  exact ⟨_, _, b₁, a₂, b₂, _, _, rfl, hnotices, hcompleted, hgone, hclosed⟩

end HdyUtils.Ltp
