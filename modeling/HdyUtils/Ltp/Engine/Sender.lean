import HdyUtils.Ltp.Engine.State

/-! The sending half of the engine (`engine/mod.rs`): segmenting a block, answering reports with
retransmissions, and retransmitting checkpoints. -/

namespace HdyUtils.Ltp

/-- The consecutive spans of at most `mtu` octets from `offset` up to `stop`, at most `fuel` of
them: the iterations of the loops `while offset < stop`. -/
def chunkSpansFrom (mtu : Nat) : Nat → Nat → Nat → List Range
  | 0, _, _ => []
  | fuel + 1, offset, stop =>
    if offset < stop then
      let chunkLen := min (stop - offset) mtu
      ⟨offset, offset + chunkLen⟩ :: chunkSpansFrom mtu fuel (offset + chunkLen) stop
    else []

/-- The spans into which the engine cuts the octets from `start` up to `stop`. -/
def chunkSpans (mtu start stop : Nat) : List Range := chunkSpansFrom mtu (stop - start) start stop

/-- The kind of a checkpoint segment. -/
def checkpointKind (isEorp isEob : Bool) (cp : Checkpoint) : DataSegKind :=
  match isEorp, isEob with
  | true, true => .redCpEorpEob cp
  | true, false => .redCpEorp cp
  | false, _ => .redCp cp

/-- The checkpoint segment of a record, with the data of its session's block. -/
def CheckpointRecord.segment (record : CheckpointRecord) (session : SendSession) : DataSegment where
  clientService := session.clientService
  offset := record.offset
  kind := checkpointKind record.isEorp record.isEob
    { serial := record.serial, reportSerial := record.reportSerial }
  data := session.slice record.offset (record.offset + record.length)

/-- A data segment without a checkpoint. -/
def SendSession.dataSegment (session : SendSession) (kind : DataSegKind) (span : Range) :
    DataSegment where
  clientService := session.clientService
  offset := span.start
  kind := kind
  data := session.slice span.start span.stop

namespace Engine

/-- Queues the checkpoint of a new record, keeps the record and arms its timer. -/
def issueCheckpoint (e : Engine) (session : SendSession) (dest : EngineId)
    (record : CheckpointRecord) (now : Nat) : Engine × SendSession :=
  let e := e.push dest session.id (.data (record.segment session))
  let session := { session with
    lastCpSerial := record.serial.val
    checkpoints := session.checkpoints.insert record.serial.val record }
  (e.setTimer (.checkpoint session.id record.serial.val)
    (e.peerTimeoutDeadline session.peer now), session)

/-- Queues one span of the red part; the last one is a checkpoint. -/
def sendRedSpan (now : Nat) (st : Engine × SendSession) (span : Range) : Engine × SendSession :=
  let (e, session) := st
  let isLastRed := span.stop == session.redLen
  if isLastRed then
    let record : CheckpointRecord :=
      { serial := nextNonzeroSerial session.lastCpSerial
        reportSerial := 0
        offset := span.start
        length := span.stop - span.start
        isEorp := true
        isEob := span.stop == session.block.length
        retries := 0
        transmittedAt := now }
    e.issueCheckpoint session session.peer record now
  else (e.push session.peer session.id (.data (session.dataSegment .red span)), session)

/-- Queues one span of the green part. -/
def sendGreenSpan (session : SendSession) (e : Engine) (span : Range) : Engine :=
  let kind := if span.stop == session.block.length then .greenEob else .green
  e.push session.peer session.id (.data (session.dataSegment kind span))

/-- The identifier of the next session that this engine opens. -/
def nextSessionId (e : Engine) : SessionId :=
  { originator := e.config.engineId, number := e.nextSessionNumber }

/-- Takes the next session number, skipping zero. -/
def numberSession (e : Engine) : Engine :=
  let next := e.nextSessionNumber + 1
  { e with nextSessionNumber := if next = 0 then 1 else next }

/-- Stores a session whose segments are all queued, unless it is complete at once. -/
def storeSend (e : Engine) (session : SendSession) (now : Nat) : Engine :=
  if session.isComplete then e.notify (.transmissionSessionCompleted session.id)
  else (e.touchInactivity session.id true now).putSend session.id session

/-- Queues the segments of a new session. -/
def openSession (e : Engine) (session : SendSession) (now : Nat) : Engine :=
  let (e, session) :=
    (chunkSpans e.config.mtu 0 session.redLen).foldl (sendRedSpan now) (e, session)
  let e := (chunkSpans e.config.mtu session.redLen session.block.length).foldl
    (sendGreenSpan session) e
  e.storeSend { session with eobSent := true } now

/-- Requests transmission of a block. -/
def requestTransmission (e : Engine) (peer : EngineId) (clientService : UInt64) (block : Bytes)
    (redLen now : Nat) : Except Error (SessionId × Engine) :=
  let blockLen := block.length
  if e.config.maxBlockSize.toNat < blockLen then
    .error (.blockTooLarge blockLen e.config.maxBlockSize.toNat)
  else if blockLen < redLen then .error (.invalidRedLength redLen blockLen)
  else
    let sessionId := e.nextSessionId
    let session := SendSession.new sessionId peer clientService block redLen 0 now
    .ok (sessionId, e.numberSession.openSession session now)

/-- Returns the destination of an active send session. -/
def peerForSession (e : Engine) (sid : SessionId) : Option EngineId :=
  e.sendSessions[sid]?.map SendSession.peer

/-! ### Reports -/

/-- Adds the claims of a report, clamped to the red part. -/
def recordClaims (redLen lowerBound : Nat) (claims : List ReceptionClaim) (received : RangeSet) :
    RangeSet :=
  claims.foldl (fun received claim =>
    let start := satAdd lowerBound claim.offset
    let stop := satAdd start claim.length
    let clampedStart := min start redLen
    let clampedEnd := min stop redLen
    if clampedStart < clampedEnd then received.insert ⟨clampedStart, clampedEnd⟩ else received)
    received

/-- The gaps of the claims inside the scope of a report, clamped to the red part. -/
def scopeGaps (session : SendSession) (rs : ReportSegment) : List Range :=
  let scopeLower := min rs.lowerBound session.redLen
  let scopeUpper := min rs.upperBound session.redLen
  if scopeLower < scopeUpper then session.claimsReceived.gaps ⟨scopeLower, scopeUpper⟩ else []

/-- The spans of all gaps in order, each with whether it is the final one. -/
def gapChunks (mtu : Nat) (gaps : List Range) : List (Range × Bool) :=
  gaps.zipIdx.flatMap fun (gap, gapIdx) =>
    let isLastGap := gapIdx + 1 == gaps.length
    (chunkSpans mtu gap.start gap.stop).map fun span => (span, isLastGap && span.stop == gap.stop)

/-- Retransmits one span of a gap; the final one is a checkpoint that answers the report. -/
def retransmitChunk (dest : EngineId) (rs : ReportSegment) (now : Nat) (st : Engine × SendSession)
    (chunk : Range × Bool) : Engine × SendSession :=
  let (e, session) := st
  let (span, isFinalChunk) := chunk
  if isFinalChunk then
    let record : CheckpointRecord :=
      { serial := nextNonzeroSerial session.lastCpSerial
        reportSerial := rs.reportSerial.val
        offset := span.start
        length := span.stop - span.start
        isEorp := span.stop == session.redLen
        isEob := span.stop == session.block.length
        retries := 0
        transmittedAt := now }
    if span.stop ≤ session.block.length then e.issueCheckpoint session dest record now
    else (e, { session with lastCpSerial := record.serial.val })
  else if span.stop ≤ session.block.length then
    (e.push dest session.id (.data (session.dataSegment .red span)), session)
  else (e, session)

/-- Issues a checkpoint of the last red octet when a report leaves the sender without one. -/
def unstick (e : Engine) (session : SendSession) (dest : EngineId) (rs : ReportSegment)
    (now : Nat) : Engine × SendSession :=
  let cpLen := if 0 < session.redLen then 1 else 0
  let record : CheckpointRecord :=
    { serial := nextNonzeroSerial session.lastCpSerial
      reportSerial := rs.reportSerial.val
      offset := session.redLen - 1
      length := cpLen
      isEorp := true
      isEob := session.redLen == session.block.length
      retries := 0
      transmittedAt := now }
  if session.redLen - 1 + cpLen ≤ session.block.length then
    e.issueCheckpoint session dest record now
  else (e, { session with lastCpSerial := record.serial.val })

/-- Retransmits the gaps of a report, or issues a checkpoint if there is none and the session would
otherwise wait for nothing. -/
def answerReport (e : Engine) (session : SendSession) (dest : EngineId) (rs : ReportSegment)
    (now : Nat) : Engine × SendSession :=
  let gaps := scopeGaps session rs
  let (e, session) :=
    (gapChunks e.config.mtu gaps).foldl (retransmitChunk dest rs now) (e, session)
  if gaps.isEmpty && !session.claimsReceived.covers ⟨0, session.redLen⟩ &&
      session.checkpoints.isEmpty then
    e.unstick session dest rs now
  else (e, session)

/-- Samples the round-trip time on a reported checkpoint that was never retransmitted. -/
def sampleCheckpoint (e : Engine) (source : EngineId) (record? : Option CheckpointRecord)
    (now : Nat) : Engine :=
  match record? with
  | some cpRec =>
    if cpRec.retries = 0 ∧ cpRec.transmittedAt ≤ now then
      e.updatePeerRttSample source (now - cpRec.transmittedAt)
    else e
  | none => e

/-- Stores a send session, or ends it if it is complete. -/
def settleSend (e : Engine) (sid : SessionId) (session : SendSession) : Engine :=
  if session.isComplete then
    ((e.notify (.transmissionSessionCompleted sid)).removeSend sid).cancelSession sid
  else e.putSend sid session

def handleIncomingReport (e : Engine) (source : EngineId) (sid : SessionId) (rs : ReportSegment)
    (now : Nat) : Engine :=
  -- the acknowledgment goes out whatever becomes of the report
  let e := e.push source sid (.reportAck rs.reportSerial.val)
  let e := e.cancelTimer (.checkpoint sid rs.checkpointSerial)
  match e.sendSessions[sid]? with
  | none => e
  | some session =>
    if session.cancelReason.isSome then e
    else
      let e := e.touchInactivity sid true now
      let e := e.sampleCheckpoint source session.checkpoints[rs.checkpointSerial]? now
      let session := { session with
        lastActivity := now
        checkpoints := session.checkpoints.erase rs.checkpointSerial }
      if session.reportSerialsSeen.contains rs.reportSerial.val then e.putSend sid session
      else
        let session := { session with
          reportSerialsSeen := session.reportSerialsSeen.insert rs.reportSerial.val
          claimsReceived :=
            recordClaims session.redLen rs.lowerBound rs.claims session.claimsReceived }
        let (e, session) := e.answerReport session source rs now
        e.settleSend sid session

/-! ### Timeouts -/

/-- Starts the cancellation of a send session. -/
def cancelSendSession (e : Engine) (sid : SessionId) (session : SendSession)
    (reason : CancelReason) (now : Nat) : Engine :=
  let session := { session with cancelReason := some reason, cancelRetries := 1 }
  let e := e.putSend sid session
  let e := e.push session.peer sid (.cancelSender reason)
  let e := e.setTimer (.cancel sid true) (e.peerTimeoutDeadline session.peer now)
  e.notify (.transmissionSessionCancelled sid reason)

def handleCpTimeout (e : Engine) (sid : SessionId) (serial : UInt64) (now : Nat) : Engine :=
  match e.sendSessions[sid]? with
  | none => e
  | some session =>
    match session.checkpoints[serial]? with
    | none => e
    | some cp =>
      if cp.retries < e.config.checkpointRtxLimit then
        let cp := { cp with retries := cp.retries + 1 }
        let e := e.putSend sid
          { session with checkpoints := session.checkpoints.insert serial cp }
        let e := e.push session.peer sid (.data (cp.segment session))
        e.setTimer (.checkpoint sid serial) (e.peerTimeoutDeadline session.peer now)
      else e.cancelSendSession sid session .rlexc now

end Engine

end HdyUtils.Ltp
