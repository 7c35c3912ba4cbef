import HdyUtils.Ltp.Engine.Receiver
import HdyUtils.Ltp.Engine.Sender

/-! Cancellation, inactivity, and the engine's entry points (`engine/mod.rs`): incoming segments and
timer ticks. -/

namespace HdyUtils.Ltp

namespace Engine

/-! ### Cancellation -/

def handleIncomingCancel (e : Engine) (source : EngineId) (sid : SessionId) (reason : CancelReason)
    (fromSender : Bool) : Engine :=
  let e := e.push source sid (if fromSender then .cancelAckSender else .cancelAckReceiver)
  let open? (cancelReason : Option CancelReason) := cancelReason.isNone
  let sendOpen := match e.sendSessions[sid]? with
    | some s => open? s.cancelReason
    | none => false
  let recvOpen := match e.recvSessions[sid]? with
    | some r => open? r.cancelReason
    | none => false
  let e := (e.removeSend sid).removeRecv sid
  let e := (e.cancelSession sid).recordCancelled sid
  if sendOpen || recvOpen then e.notify (.transmissionSessionCancelled sid reason) else e

def handleIncomingCancelAck (e : Engine) (sid : SessionId) (isSender : Bool) : Engine :=
  let e := e.cancelTimer (.cancel sid isSender)
  let e := if isSender then e.removeSend sid else e.removeRecv sid
  (e.cancelSession sid).recordCancelled sid

def handleCancelTimeout (e : Engine) (sid : SessionId) (isSender : Bool) (now : Nat) : Engine :=
  if isSender then
    match e.sendSessions[sid]? with
    | none => e
    | some session =>
      if session.cancelRetries < e.config.cancelRtxLimit then
        let session := { session with cancelRetries := session.cancelRetries + 1 }
        let e := e.putSend sid session
        let e := e.push session.peer sid (.cancelSender (session.cancelReason.getD .rlexc))
        e.setTimer (.cancel sid true) (e.peerTimeoutDeadline session.peer now)
      else ((e.removeSend sid).cancelSession sid).recordCancelled sid
  else
    match e.recvSessions[sid]? with
    | none => e
    | some session =>
      if session.cancelRetries < e.config.cancelRtxLimit then
        let session := { session with cancelRetries := session.cancelRetries + 1 }
        let e := e.putRecv sid session
        let e := e.push session.peer sid (.cancelReceiver (session.cancelReason.getD .rlexc))
        e.setTimer (.cancel sid false) (e.peerTimeoutDeadline session.peer now)
      else ((e.removeRecv sid).cancelSession sid).recordCancelled sid

/-! ### Inactivity -/

/-- Whether a session that was last active at `lastActivity` has timed out at `now`. -/
def timedOut (e : Engine) (lastActivity now : Nat) : Bool :=
  let timeout := e.config.sessionInactivityTimeoutMicros
  decide (0 < timeout) && decide (timeout ≤ now - lastActivity)

/-- Arms the inactivity timer again for a session that has not timed out. -/
def rearmInactivity (e : Engine) (sid : SessionId) (isSender : Bool) (lastActivity : Nat) :
    Engine :=
  let timeout := e.config.sessionInactivityTimeoutMicros
  if 0 < timeout then e.setTimer (.inactivity sid isSender) (satAdd lastActivity timeout) else e

def handleInactivityTimeout (e : Engine) (sid : SessionId) (isSender : Bool) (now : Nat) :
    Engine :=
  if isSender then
    match e.sendSessions[sid]? with
    | none => e
    | some session =>
      if e.timedOut session.lastActivity now then
        let e := ((e.removeSend sid).cancelSession sid).recordCancelled sid
        (e.push session.peer sid (.cancelSender .rlexc)).notify
          (.transmissionSessionCancelled sid .rlexc)
      else e.rearmInactivity sid true session.lastActivity
  else
    match e.recvSessions[sid]? with
    | none => e
    | some session =>
      if e.timedOut session.lastActivity now then
        let e := ((e.removeRecv sid).cancelSession sid).recordCancelled sid
        (e.push session.peer sid (.cancelReceiver .rlexc)).notify
          (.transmissionSessionCancelled sid .rlexc)
      else e.rearmInactivity sid false session.lastActivity

/-! ### Entry points -/

/-- The peer that a segment comes from: its originator, or for a session of this engine the
session's peer, or else the address that it came from. -/
def effectiveFrom (e : Engine) (source : EngineId) (session : SessionId) : EngineId :=
  if session.originator ≠ e.config.engineId then session.originator
  else
    match e.sendSessions[session]? with
    | some sendSess => sendSess.peer
    | none => source

/-- Handles a parsed segment. -/
def handleSegment (e : Engine) (source : EngineId) (segment : Segment) (now : Nat) : Engine :=
  let effective := e.effectiveFrom source segment.session
  let own := segment.session.originator == e.config.engineId
  match segment.body with
  | .data ds => if own then e else e.handleIncomingData effective segment.session ds now
  | .reportAck reportSerial =>
    if own then e else e.handleIncomingReportAck segment.session reportSerial now
  | .cancelSender reason =>
    if own then e else e.handleIncomingCancel effective segment.session reason true
  | .cancelAckReceiver => if own then e else e.handleIncomingCancelAck segment.session false
  | .report rs => if own then e.handleIncomingReport effective segment.session rs now else e
  | .cancelReceiver reason =>
    if own then e.handleIncomingCancel effective segment.session reason false else e
  | .cancelAckSender => if own then e.handleIncomingCancelAck segment.session true else e

/-- Processes a raw segment received from `source`. -/
def handleIncomingSegment (e : Engine) (source : EngineId) (segmentBytes : Bytes) (now : Nat) :
    Except Error Engine :=
  match Segment.parse segmentBytes with
  | .error err => .error (.parse err)
  | .ok (segment, consumed) =>
    if consumed ≠ segmentBytes.length then .error (.trailingBytes consumed segmentBytes.length)
    else .ok (e.handleSegment source segment now)

/-- Handles an expired timer. -/
def handleExpired (e : Engine) (now : Nat) (key : TimerKey) : Engine :=
  match key.kind with
  | .checkpoint serial => e.handleCpTimeout key.session serial now
  | .report serial => e.handleRsTimeout key.session serial now
  | .cancel isSender => e.handleCancelTimeout key.session isSender now
  | .inactivity isSender => e.handleInactivityTimeout key.session isSender now

/-- Takes the timers that have expired at `now` out of the table, at most `fuel` of them. -/
def drainExpired (now : Nat) : Nat → TimerTable → List TimerKey × TimerTable
  | 0, table => ([], table)
  | fuel + 1, table =>
    match table.pollExpired now with
    | none => ([], table)
    | some (key, table) =>
      let (expired, table) := drainExpired now fuel table
      (key :: expired, table)

/-- The timers that a tick at `now` handles, in order, and the engine without them. -/
def expire (e : Engine) (now : Nat) : List TimerKey × Engine :=
  let (expired, table) := drainExpired now e.timerTable.byDeadline.size e.timerTable
  (expired, { e with timerTable := table })

def handleTimerTick (e : Engine) (now : Nat) : Engine :=
  let (expired, e) := e.expire now
  expired.foldl (fun e key => e.handleExpired now key) e

def nextTimerDeadline (e : Engine) : Option Nat := e.timerTable.nextDeadline

/-- Pulls the next segment to transmit. -/
def pollOutput (e : Engine) : Option (EngineId × Bytes) × Engine :=
  (e.outbound.head?, { e with outbound := e.outbound.tail })

/-- Pulls the next notice. -/
def pollNotice (e : Engine) : Option Notice × Engine :=
  (e.notices.head?, { e with notices := e.notices.tail })

end Engine

end HdyUtils.Ltp
