import HdyUtils.Ltp.Engine.State

/-! The receiving half of the engine (`engine/mod.rs`): admitting data, answering checkpoints with
reports, delivering the red part, and retransmitting reports.  A stage of `handleIncomingData` that
may end the call early returns the final state as an error. -/

namespace HdyUtils.Ltp

/-- Consecutive chunks of `n` elements, the last one possibly shorter. -/
def chunksFrom {α : Type} (n : Nat) : Nat → List α → List (List α)
  | 0, _ => []
  | fuel + 1, l => if l.isEmpty then [] else l.take n :: chunksFrom n fuel (l.drop n)

/-- The chunks of a list, as `slice::chunks` cuts them. -/
def chunks {α : Type} (n : Nat) (l : List α) : List (List α) := chunksFrom n l.length l

/-- The report on one chunk of the received runs. -/
def chunkReport (serial : NonZeroU64) (cpSerial : UInt64) (upperBound numChunks chunkIdx : Nat)
    (chunk : List Range) : ReportSegment :=
  let lowerBound := if chunkIdx = 0 then 0 else (chunk.head?.map Runs.Run.start).getD 0
  let chunkUpper :=
    if chunkIdx + 1 = numChunks then upperBound else (chunk.getLast?.map Runs.Run.stop).getD 0
  { reportSerial := serial
    checkpointSerial := cpSerial
    upperBound := chunkUpper
    lowerBound := lowerBound
    claims := chunk.map fun r => { offset := r.start - lowerBound, length := r.stop - r.start } }

namespace RecvSession

/-- The ends of the red part and of the block that a red segment reveals. -/
def markEnds (s : RecvSession) (ds : DataSegment) : RecvSession :=
  let stop := ds.offset + ds.data.length
  let checkedEnd := if u64Max < stop then none else some stop
  let s := if ds.kind.isEorp then { s with redPartLen := checkedEnd } else s
  if ds.kind.isEob then { s with blockLen := checkedEnd, redEndsBlock := ds.kind.isEorp } else s

/-- A red segment reaches past the red part or past green data, or moves the end of the red part. -/
def redMiscolored (s : RecvSession) (ds : DataSegment) : Bool :=
  (match s.redPartLen with | some r => decide (r < ds.segEnd) | none => false) ||
  (match s.minGreenOffset with | some g => decide (g < ds.segEnd) | none => false) ||
  (ds.kind.isEorp && (match s.redPartLen with | some r => decide (r ≠ ds.segEnd) | none => false))

/-- A green segment starts inside the red part. -/
def greenMiscolored (s : RecvSession) (ds : DataSegment) : Bool :=
  (match s.redPartLen with | some r => decide (ds.offset < r) | none => false) ||
  decide (ds.offset < s.maxRedEnd)

/-- Lowers the least green offset to that of a green segment. -/
def markGreen (s : RecvSession) (ds : DataSegment) : RecvSession :=
  { s with
    minGreenOffset := some (match s.minGreenOffset with
      | some m => min m ds.offset
      | none => ds.offset) }

end RecvSession

namespace Engine

/-- Starts the cancellation of a receive session. -/
def initiateCancelReceiver (e : Engine) (sid : SessionId) (peer : EngineId) (reason : CancelReason)
    (now : Nat) : Engine :=
  match e.recvSessions[sid]? with
  | none => e
  | some session =>
    let e := e.putRecv sid { session with cancelReason := some reason, cancelRetries := 1 }
    let e := e.recordCancelled sid
    let e := e.push peer sid (.cancelReceiver reason)
    let e := e.setTimer (.cancel sid false) (e.peerTimeoutDeadline peer now)
    e.notify (.transmissionSessionCancelled sid reason)

/-- Reports the whole extent of a checkpoint for a session that was delivered and closed. -/
def reportClosed (e : Engine) (source : EngineId) (sid : SessionId) (ds : DataSegment) : Engine :=
  match ds.kind.checkpoint with
  | none => e
  | some cp =>
    let upperBound := ds.segEnd
    e.push source sid (.report
      { reportSerial := .one
        checkpointSerial := cp.serial.val
        upperBound := upperBound
        lowerBound := 0
        claims := [{ offset := 0, length := upperBound }] })

/-- Queues a report again and restarts its timer, unless it was acknowledged. -/
def reemitReport (source : EngineId) (sid : SessionId) (session : RecvSession) (now : Nat)
    (e : Engine) (rsSerial : UInt64) : Engine :=
  match session.reports[rsSerial]? with
  | some rec =>
    if rec.acked then e
    else
      let e := e.push source sid (.report rec.report)
      e.setTimer (.report sid rsSerial) (e.peerTimeoutDeadline source now)
  | none => e

/-- Queues a new report, keeps it and arms its timer. -/
def issueReport (e : Engine) (source : EngineId) (sid : SessionId) (session : RecvSession)
    (report : ReportSegment) (now : Nat) : Engine × RecvSession :=
  let e := e.push source sid (.report report)
  let session := { session with
    lastReportSerial := report.reportSerial.val
    reports := session.reports.insert report.reportSerial.val
      { report, retries := 0, acked := false, transmittedAt := now } }
  (e.setTimer (.report sid report.reportSerial.val) (e.peerTimeoutDeadline source now), session)

/-- Issues the reports on the chunks of the received runs, each with its index, and collects their
serials.  It ends in a cancellation when the session holds too many reports. -/
def issueChunkReports (source : EngineId) (sid : SessionId) (cpSerial : UInt64)
    (upperBound numChunks now : Nat) :
    List (List Range × Nat) → Engine → RecvSession → List UInt64 →
      Except Engine (Engine × RecvSession × List UInt64)
  | [], e, session, rsSerials => .ok (e, session, rsSerials)
  | (chunk, chunkIdx) :: rest, e, session, rsSerials =>
    if e.config.maxReportsPerSession ≤ session.reports.size then
      .error ((e.putRecv sid session).initiateCancelReceiver sid source .rlexc now)
    else
      let serial := nextNonzeroSerial session.lastReportSerial
      let report := chunkReport serial cpSerial upperBound numChunks chunkIdx chunk
      let (e, session) := e.issueReport source sid session report now
      issueChunkReports source sid cpSerial upperBound numChunks now rest e session
        (rsSerials ++ [serial.val])

/-- Answers a checkpoint that the session has not seen. -/
def answerFreshCheckpoint (e : Engine) (source : EngineId) (sid : SessionId)
    (session : RecvSession) (cpSerial : UInt64) (upperBound now : Nat) :
    Except Engine (Engine × RecvSession) :=
  if e.config.maxReportsPerSession ≤ session.reports.size then
    .error ((e.putRecv sid session).initiateCancelReceiver sid source .rlexc now)
  else
    let allRuns := session.redReceived.runsWithin ⟨0, upperBound⟩
    let maxClaims := max e.config.maxClaimsPerReport 1
    if allRuns.isEmpty then
      let serial := nextNonzeroSerial session.lastReportSerial
      let report : ReportSegment :=
        { reportSerial := serial, checkpointSerial := cpSerial, upperBound, lowerBound := 0,
          claims := [] }
      let (e, session) := e.issueReport source sid session report now
      .ok (e, { session with
        cpSerialsAnswered := session.cpSerialsAnswered.insert cpSerial [serial.val] })
    else
      let chunks := chunks maxClaims allRuns
      match issueChunkReports source sid cpSerial upperBound chunks.length now chunks.zipIdx e
          session [] with
      | .error e => .error e
      | .ok (e, session, rsSerials) =>
        .ok (e, { session with
          cpSerialsAnswered := session.cpSerialsAnswered.insert cpSerial rsSerials })

/-- Answers a checkpoint: again with the reports already issued for it, or with new ones. -/
def answerCheckpoint (e : Engine) (source : EngineId) (sid : SessionId) (session : RecvSession)
    (cpSerial : UInt64) (upperBound now : Nat) : Except Engine (Engine × RecvSession) :=
  match session.cpSerialsAnswered[cpSerial]? with
  | some serials => .ok (serials.foldl (reemitReport source sid session now) e, session)
  | none => e.answerFreshCheckpoint source sid session cpSerial upperBound now

/-- Stores the session, after delivering its red part if that has just become complete. -/
def deliverRed (e : Engine) (source : EngineId) (sid : SessionId) (session : RecvSession) :
    Engine :=
  if session.isRedComplete && !session.redDelivered then
    let redLen := session.redPartLen.getD 0
    let data := session.redBuf.take redLen
    let e := e.notify
      (.redPartReceived sid source session.clientService data session.redEndsBlock)
    e.putRecv sid { session with redBuf := [], redDelivered := true }
  else e.putRecv sid session

/-- Accepts a red segment for a session in the table. -/
def acceptRed (e : Engine) (source : EngineId) (sid : SessionId) (session : RecvSession)
    (ds : DataSegment) (now : Nat) : Engine :=
  if session.redMiscolored ds then
    (e.putRecv sid session).initiateCancelReceiver sid source .miscolored now
  else
    let (session, stored) := session.insertRed ds.offset ds.data e.config.maxBlockSize.toNat
    if !stored then e.putRecv sid session
    else
      let session := session.markEnds ds
      match ds.kind.checkpoint with
      | none => e.deliverRed source sid session
      | some cp =>
        match e.answerCheckpoint source sid session cp.serial.val ds.segEnd now with
        | .error e => e
        | .ok (e, session) => e.deliverRed source sid session

/-- Accepts a green segment for a session in the table. -/
def acceptGreen (e : Engine) (source : EngineId) (sid : SessionId) (session : RecvSession)
    (ds : DataSegment) (now : Nat) : Engine :=
  let session := session.markGreen ds
  if session.greenMiscolored ds then
    (e.putRecv sid session).initiateCancelReceiver sid source .miscolored now
  else
    (e.notify (.greenSegmentArrived sid source ds.offset ds.data ds.kind.isEob)).deliverRed source
      sid session

/-- Accepts a data segment for a session, which is new or open. -/
def acceptData (e : Engine) (source : EngineId) (sid : SessionId) (session : RecvSession)
    (ds : DataSegment) (now : Nat) : Engine :=
  let session := { session with lastActivity := now }
  let e := e.touchInactivity sid false now
  if !e.config.allows ds.clientService then
    (e.putRecv sid session).initiateCancelReceiver sid source .unreach now
  else if ds.kind.isRed then e.acceptRed source sid session ds now
  else e.acceptGreen source sid session ds now

def handleIncomingData (e : Engine) (source : EngineId) (sid : SessionId) (ds : DataSegment)
    (now : Nat) : Engine :=
  if e.closedRecvSessions.contains sid then e.reportClosed source sid ds
  else if e.cancelledSessions.contains sid then e
  else
    match e.recvSessions[sid]? with
    | some session =>
      if session.cancelReason.isSome then e else e.acceptData source sid session ds now
    | none =>
      if e.config.maxRecvSessions ≤ e.recvSessions.size then e
      else e.acceptData source sid (.new sid source ds.clientService 0 now) ds now

/-! ### Acknowledgments -/

/-- Samples the round-trip time on a report that was never retransmitted. -/
def sampleReport (e : Engine) (session : RecvSession) (rec : ReportRecord) (now : Nat) : Engine :=
  if !rec.acked && rec.retries == 0 && decide (rec.transmittedAt ≤ now) then
    e.updatePeerRttSample session.peer (now - rec.transmittedAt)
  else e

/-- Adds the claims of an acknowledged report. -/
def coverClaims (report : ReportSegment) (covered : RangeSet) : RangeSet :=
  report.claims.foldl (fun covered claim =>
    let start := satAdd report.lowerBound claim.offset
    covered.insert ⟨start, satAdd start claim.length⟩) covered

/-- Stores a receive session, or closes it if all of its delivered red part is acknowledged. -/
def settleRecv (e : Engine) (sid : SessionId) (session : RecvSession) : Engine :=
  if session.isRedComplete && session.redDelivered &&
      session.reportedCoverage.covers ⟨0, session.redPartLen.getD 0⟩ then
    ((e.removeRecv sid).cancelSession sid).recordClosed sid
  else e.putRecv sid session

def handleIncomingReportAck (e : Engine) (sid : SessionId) (reportSerial : UInt64) (now : Nat) :
    Engine :=
  let e := e.cancelTimer (.report sid reportSerial)
  match e.recvSessions[sid]? with
  | none => e
  | some session =>
    if session.cancelReason.isSome then e
    else
      let session := { session with lastActivity := now }
      let e := e.touchInactivity sid false now
      match session.reports[reportSerial]? with
      | none => e.settleRecv sid session
      | some rec =>
        let e := e.sampleReport session rec now
        e.settleRecv sid { session with
          reports := session.reports.insert reportSerial { rec with acked := true }
          reportedCoverage := coverClaims rec.report session.reportedCoverage }

/-! ### Timeouts -/

/-- Starts the cancellation of a receive session whose reports go unanswered. -/
def cancelRecvSession (e : Engine) (sid : SessionId) (session : RecvSession)
    (reason : CancelReason) (now : Nat) : Engine :=
  let session := { session with cancelReason := some reason, cancelRetries := 1 }
  let e := e.putRecv sid session
  let e := e.push session.peer sid (.cancelReceiver reason)
  let e := e.setTimer (.cancel sid false) (e.peerTimeoutDeadline session.peer now)
  e.notify (.transmissionSessionCancelled sid reason)

def handleRsTimeout (e : Engine) (sid : SessionId) (serial : UInt64) (now : Nat) : Engine :=
  match e.recvSessions[sid]? with
  | none => e
  | some session =>
    match session.reports[serial]? with
    | none => e
    | some rec =>
      if rec.acked then e
      else if rec.retries < e.config.reportRtxLimit then
        let e := e.putRecv sid
          { session with
            reports := session.reports.insert serial { rec with retries := rec.retries + 1 } }
        let e := e.push session.peer sid (.report rec.report)
        e.setTimer (.report sid serial) (e.peerTimeoutDeadline session.peer now)
      else e.cancelRecvSession sid session .rlexc now

end Engine

end HdyUtils.Ltp
