import HdyUtils.Lib.Trace
import HdyUtils.Ltp.Engine.RecvMove

/-! An engine under a host that calls it.  A host keeps what it has polled and what it has requested.
A tick is split into its parts: `tick` takes the expired timers, and each `fire` handles the next of
them; every other call waits until none is left.  `run_tick` says that this is `handleTimerTick`. -/

namespace HdyUtils.Ltp

open Trace

/-- An accepted request for transmission. -/
structure Request where
  session : SessionId
  peer : EngineId
  transfer : Transfer
deriving DecidableEq

structure Host where
  engine : Engine
  /-- The expired timers that the tick has yet to handle. -/
  pending : List TimerKey
  /-- The time of the latest tick. -/
  tickTime : Nat
  /-- The segments polled so far. -/
  sent : List (EngineId × Bytes)
  /-- The notices polled so far. -/
  told : List Notice
  requests : List Request

inductive Call
  | request (peer : EngineId) (clientService : UInt64) (block : Bytes) (redLen now : Nat)
  | segment (source : EngineId) (bytes : Bytes) (now : Nat)
  | tick (now : Nat)
  | fire
  | pollOutput
  | pollNotice
  | setPeerTiming (peer : EngineId) (rttMicros ackMarginMicros : Nat)
  | updatePeerRttSample (peer : EngineId) (sampleRttMicros : Nat)
deriving DecidableEq

namespace Host

/-- A host with a new engine. -/
def new (config : EngineConfig) : Host where
  engine := .new config
  pending := []
  tickTime := 0
  sent := []
  told := []
  requests := []

/-- All segments queued so far. -/
def pushed (h : Host) : List (EngineId × Bytes) := h.sent ++ h.engine.outbound

/-- All notices given so far. -/
def emitted (h : Host) : List Notice := h.told ++ h.engine.notices

/-- Handles the next expired timer. -/
def fire (h : Host) : Host :=
  match h.pending with
  | key :: rest => { h with engine := h.engine.handleExpired h.tickTime key, pending := rest }
  | [] => h

def request (h : Host) (peer : EngineId) (clientService : UInt64) (block : Bytes)
    (redLen now : Nat) : Host :=
  match h.engine.requestTransmission peer clientService block redLen now with
  | .ok (session, engine) =>
    { h with
      engine
      requests := h.requests ++ [⟨session, peer, ⟨clientService, block, redLen⟩⟩] }
  | .error _ => h

def receive (h : Host) (source : EngineId) (bytes : Bytes) (now : Nat) : Host :=
  match h.engine.handleIncomingSegment source bytes now with
  | .ok engine => { h with engine }
  | .error _ => h

/-- Takes the expired timers. -/
def tick (h : Host) (now : Nat) : Host :=
  { h with engine := (h.engine.expire now).2, pending := (h.engine.expire now).1, tickTime := now }

def pollOutput (h : Host) : Host :=
  { h with
    engine := h.engine.pollOutput.2
    sent := h.sent ++ h.engine.pollOutput.1.toList }

def pollNotice (h : Host) : Host :=
  { h with
    engine := h.engine.pollNotice.2
    told := h.told ++ h.engine.pollNotice.1.toList }

/-- A call into an engine that is not in a tick. -/
def call (h : Host) : Call → Host
  | .request peer clientService block redLen now => h.request peer clientService block redLen now
  | .segment source bytes now => h.receive source bytes now
  | .tick now => h.tick now
  | .fire => h.fire
  | .pollOutput => h.pollOutput
  | .pollNotice => h.pollNotice
  | .setPeerTiming peer rttMicros ackMarginMicros =>
    { h with engine := h.engine.setPeerTiming peer rttMicros ackMarginMicros }
  | .updatePeerRttSample peer sampleRttMicros =>
    { h with engine := h.engine.updatePeerRttSample peer sampleRttMicros }

/-- During a tick the host makes no other call. -/
def step (h : Host) (c : Call) : Host := if h.pending = [] ∨ c = .fire then h.call c else h

@[simp] theorem request_pending (h : Host) (peer : EngineId) (clientService : UInt64)
    (block : Bytes) (redLen now : Nat) :
    (h.request peer clientService block redLen now).pending = h.pending := by
  unfold request
  split <;> rfl

@[simp] theorem request_told (h : Host) (peer : EngineId) (clientService : UInt64) (block : Bytes)
    (redLen now : Nat) : (h.request peer clientService block redLen now).told = h.told := by
  unfold request
  split <;> rfl

@[simp] theorem receive_pending (h : Host) (source : EngineId) (bytes : Bytes) (now : Nat) :
    (h.receive source bytes now).pending = h.pending := by
  unfold receive
  split <;> rfl

@[simp] theorem receive_told (h : Host) (source : EngineId) (bytes : Bytes) (now : Nat) :
    (h.receive source bytes now).told = h.told := by
  unfold receive
  split <;> rfl

theorem step_idle {h : Host} (hidle : h.pending = []) (c : Call) : h.step c = h.call c :=
  if_pos (.inl hidle)

theorem step_fire (h : Host) : h.step .fire = h.fire := if_pos (.inr rfl)

/-- A run of calls. -/
abbrev run (h : Host) (calls : List Call) : Host := Trace.run step h calls

theorem run_fire (h : Host) :
    h.run (List.replicate h.pending.length .fire) =
      { h with
        engine := h.pending.foldl (fun e key => e.handleExpired h.tickTime key) h.engine
        pending := [] } := by
  obtain ⟨engine, pending, tickTime, sent, told, requests⟩ := h
  induction pending generalizing engine with
  | nil => rfl
  | cons key rest ih =>
    rw [List.length_cons, List.replicate_succ, run, run_cons, step_fire]
    exact ih _

/-- A tick and the timers that it takes are one call of `handleTimerTick`. -/
theorem run_tick (h : Host) (hp : h.pending = []) (now : Nat) :
    h.run (.tick now :: List.replicate (h.engine.expire now).1.length .fire) =
      { h with engine := h.engine.handleTimerTick now, tickTime := now } := by
  have htick : h.step (.tick now) = h.tick now := step_idle hp _
  rw [run, run_cons, htick]
  refine (run_fire (h.tick now)).trans ?_
  simp [Engine.handleTimerTick, tick, hp]

end Host

end HdyUtils.Ltp
