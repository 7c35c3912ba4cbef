import HdyUtils.Lib.RecentSet
import HdyUtils.Ltp.Engine.Config
import HdyUtils.Ltp.Engine.Session
import HdyUtils.Ltp.Engine.Timer
import HdyUtils.Ltp.Segment.Parse
import HdyUtils.Ltp.Segment.Write

/-! The engine's state (`engine/mod.rs`) and the updates from which its handlers are built: pushing a
segment or a notice, arming and cancelling timers, storing and removing sessions, and recording
closed and cancelled sessions. -/

namespace HdyUtils.Ltp

open Std (TreeMap TreeSet)

inductive Error
  | parse (error : ParseError)
  | invalidRedLength (redLen blockLen : Nat)
  | blockTooLarge (blockLen maxBlockSize : Nat)
  | trailingBytes (consumed total : Nat)
deriving DecidableEq, Repr

inductive Notice
  | greenSegmentArrived (session : SessionId) (source : EngineId) (offset : Nat) (data : Bytes)
      (eob : Bool)
  | redPartReceived (session : SessionId) (source : EngineId) (clientService : UInt64)
      (data : Bytes) (eob : Bool)
  | transmissionSessionCompleted (session : SessionId)
  | transmissionSessionCancelled (session : SessionId) (reason : CancelReason)
deriving DecidableEq, Repr

namespace Notice

def session : Notice → SessionId
  | greenSegmentArrived session .. | redPartReceived session .. | transmissionSessionCompleted session
  | transmissionSessionCancelled session _ => session

/-- Whether the notice ends a transmission session. -/
def isTerminal : Notice → Bool
  | transmissionSessionCompleted _ | transmissionSessionCancelled .. => true
  | _ => false

end Notice

/-- The recently closed, or recently cancelled, sessions. -/
abbrev RecentSessions := RecentSet SessionId 1024

structure Engine where
  config : EngineConfig
  nextSessionNumber : UInt64
  sendSessions : TreeMap SessionId SendSession
  recvSessions : TreeMap SessionId RecvSession
  timerTable : TimerTable
  closedRecvSessions : RecentSessions
  cancelledSessions : RecentSessions
  /-- The wire segments to transmit, each with its destination. -/
  outbound : List (EngineId × Bytes)
  notices : List Notice
  peerTimings : TreeMap EngineId PeerTiming

namespace Engine

def new (config : EngineConfig) : Engine where
  config := config
  nextSessionNumber := max config.initialSessionNumber 1
  sendSessions := ∅
  recvSessions := ∅
  timerTable := .new
  closedRecvSessions := .empty
  cancelledSessions := .empty
  outbound := []
  notices := []
  peerTimings := ∅

/-- The deadline of an operation directed to `peer` that starts at `now`. -/
def peerTimeoutDeadline (e : Engine) (peer : EngineId) (now : Nat) : Nat :=
  let timeout := match e.peerTimings[peer]? with
    | some timing => timing.timeoutDurationMicros
    | none => satAdd e.config.rttMicros e.config.ackMarginMicros
  satAdd now timeout

/-! ### Updates -/

/-- Queues a segment without extensions. -/
@[simps] def push (e : Engine) (dest : EngineId) (session : SessionId) (body : SegmentBody) :
    Engine :=
  { e with outbound := e.outbound ++ [(dest, (Segment.plain session body).encodeToVec)] }

@[simps] def notify (e : Engine) (notice : Notice) : Engine :=
  { e with notices := e.notices ++ [notice] }

@[simps] def setTimer (e : Engine) (key : TimerKey) (deadline : Nat) : Engine :=
  { e with timerTable := e.timerTable.set key deadline }

@[simps] def cancelTimer (e : Engine) (key : TimerKey) : Engine :=
  { e with timerTable := e.timerTable.cancel key }

@[simps] def cancelSession (e : Engine) (session : SessionId) : Engine :=
  { e with timerTable := e.timerTable.cancelSession session }

@[simps] def putSend (e : Engine) (sid : SessionId) (session : SendSession) : Engine :=
  { e with sendSessions := e.sendSessions.insert sid session }

@[simps] def removeSend (e : Engine) (sid : SessionId) : Engine :=
  { e with sendSessions := e.sendSessions.erase sid }

@[simps] def putRecv (e : Engine) (sid : SessionId) (session : RecvSession) : Engine :=
  { e with recvSessions := e.recvSessions.insert sid session }

@[simps] def removeRecv (e : Engine) (sid : SessionId) : Engine :=
  { e with recvSessions := e.recvSessions.erase sid }

@[simps] def recordClosed (e : Engine) (sid : SessionId) : Engine :=
  { e with closedRecvSessions := e.closedRecvSessions.record sid }

@[simps] def recordCancelled (e : Engine) (sid : SessionId) : Engine :=
  { e with cancelledSessions := e.cancelledSessions.record sid }

@[simps] def setPeerTiming (e : Engine) (peer : EngineId) (rttMicros ackMarginMicros : Nat) :
    Engine :=
  { e with peerTimings := e.peerTimings.insert peer { rttMicros, ackMarginMicros } }

/-- Smooths the round-trip time of `peer` with a sample. -/
def updatePeerRttSample (e : Engine) (peer : EngineId) (sampleRttMicros : Nat) : Engine :=
  let current := match e.peerTimings[peer]? with
    | some timing => timing
    | none => { rttMicros := e.config.rttMicros, ackMarginMicros := e.config.ackMarginMicros }
  let updatedRtt :=
    if current.rttMicros = 0 then sampleRttMicros
    else satAdd (min (current.rttMicros * 7) u64Max) sampleRttMicros / 8
  e.setPeerTiming peer updatedRtt current.ackMarginMicros

/-- Restarts the inactivity timer of a session, if sessions time out at all. -/
def touchInactivity (e : Engine) (sid : SessionId) (isSender : Bool) (now : Nat) : Engine :=
  let inact := e.config.sessionInactivityTimeoutMicros
  if 0 < inact then e.setTimer (.inactivity sid isSender) (satAdd now inact) else e

end Engine

end HdyUtils.Ltp
