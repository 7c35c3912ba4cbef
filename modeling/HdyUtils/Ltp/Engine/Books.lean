import HdyUtils.Ltp.Engine.Step
import HdyUtils.Ltp.Segment.Timers
import HdyUtils.Lib.Maps

/-! The engine's books on what awaits an answer.  A checkpoint record and a report record say when the
segment was first sent and how often its timer has sent it again; every handler but those of the two
timers either leaves a record as it is or opens it for a segment that it puts out. -/

namespace HdyUtils.Ltp

open Std (TreeMap)

/-- What the record of a checkpoint or of a report says of its transmissions. -/
structure Tally where
  serial : UInt64
  retries : Nat
  transmittedAt : Nat
deriving DecidableEq

def CheckpointRecord.tally (cp : CheckpointRecord) : Tally :=
  ⟨cp.serial.val, cp.retries, cp.transmittedAt⟩

def ReportRecord.tally (rec : ReportRecord) : Tally :=
  ⟨rec.report.reportSerial.val, rec.retries, rec.transmittedAt⟩

def SendSession.tally (s : SendSession) (serial : UInt64) : Option Tally :=
  s.checkpoints[serial]?.map CheckpointRecord.tally

def RecvSession.tally (s : RecvSession) (serial : UInt64) : Option Tally :=
  s.reports[serial]?.map ReportRecord.tally

/-- The timers of the segments that are put out. -/
def timersOf (out : List (EngineId × Bytes)) : List TimerKey := out.filterMap fun x => timerOf x.2

@[simp] theorem timersOf_nil : timersOf [] = [] := rfl

@[simp] theorem timersOf_append (out out' : List (EngineId × Bytes)) :
    timersOf (out ++ out') = timersOf out ++ timersOf out' := List.filterMap_append

@[simp] theorem timersOf_singleton (dest : EngineId) (sid : SessionId) (body : SegmentBody) :
    timersOf [(dest, (Segment.plain sid body).encodeToVec)] =
      (body.timer.map fun kind => (⟨sid, kind⟩ : TimerKey)).toList := by
  simp only [timersOf, List.filterMap_cons, timerOf_encodeToVec, List.filterMap_nil]
  cases body.timer <;> rfl

namespace Engine

/-- The engine's tally of the segment that goes with a timer. -/
def tally (e : Engine) (key : TimerKey) : Option Tally :=
  match key.kind with
  | .checkpoint serial => e.sendSessions[key.session]?.bind fun s => s.tally serial
  | .report serial => e.recvSessions[key.session]?.bind fun s => s.tally serial
  | .inactivity _ | .cancel _ => none

@[simp] theorem tally_checkpoint (e : Engine) (sid : SessionId) (serial : UInt64) :
    e.tally (.checkpoint sid serial) = e.sendSessions[sid]?.bind fun s => s.tally serial := rfl

@[simp] theorem tally_report (e : Engine) (sid : SessionId) (serial : UInt64) :
    e.tally (.report sid serial) = e.recvSessions[sid]?.bind fun s => s.tally serial := rfl

/-- Storing a session that differs in one tally changes no other tally. -/
theorem tally_putSend_of_ne {e : Engine} {sid : SessionId} {serial : UInt64} {s s' : SendSession}
    (hs : e.sendSessions[sid]? = some s)
    (hs' : ∀ serial', serial' ≠ serial → s'.tally serial' = s.tally serial') {key : TimerKey}
    (hkey : key ≠ .checkpoint sid serial) : (e.putSend sid s').tally key = e.tally key := by
  obtain ⟨sid', kind⟩ := key
  cases kind with
  | checkpoint serial' =>
    change ((e.putSend sid s').sendSessions[sid']?.bind fun s => s.tally serial') =
      e.sendSessions[sid']?.bind fun s => s.tally serial'
    rw [putSend_sendSessions, Maps.getElem?_insert]
    split
    · rename_i heq
      subst heq
      rw [hs]
      exact hs' serial' fun h => hkey (by rw [h]; rfl)
    · rfl
  | report | inactivity | cancel => rfl

theorem tally_putRecv_of_ne {e : Engine} {sid : SessionId} {serial : UInt64} {s s' : RecvSession}
    (hs : e.recvSessions[sid]? = some s)
    (hs' : ∀ serial', serial' ≠ serial → s'.tally serial' = s.tally serial') {key : TimerKey}
    (hkey : key ≠ .report sid serial) : (e.putRecv sid s').tally key = e.tally key := by
  obtain ⟨sid', kind⟩ := key
  cases kind with
  | report serial' =>
    change ((e.putRecv sid s').recvSessions[sid']?.bind fun s => s.tally serial') =
      e.recvSessions[sid']?.bind fun s => s.tally serial'
    rw [putRecv_recvSessions, Maps.getElem?_insert]
    split
    · rename_i heq
      subst heq
      rw [hs]
      exact hs' serial' fun h => hkey (by rw [h]; rfl)
    · rfl
  | checkpoint | inactivity | cancel => rfl

/-- The tally is one that the engine had, or that of a segment first put out at `now`. -/
def Booked (now : Nat) (out : List (EngineId × Bytes)) (e : Engine) (key : TimerKey) (t : Tally) :
    Prop :=
  e.tally key = some t ∨ t = ⟨key.kind.field, 0, now⟩ ∧ key ∈ timersOf out

theorem Booked.append_right {now : Nat} {out : List (EngineId × Bytes)} {e : Engine}
    {key : TimerKey} {t : Tally} (h : Booked now out e key t) (out' : List (EngineId × Bytes)) :
    Booked now (out ++ out') e key t := by
  rcases h with h | ⟨ht, hkey⟩
  · exact .inl h
  · rw [Booked, timersOf_append]
    exact .inr ⟨ht, List.mem_append_left _ hkey⟩

/-- From `e` to `e'` the engine puts out `out` at `now`, and its tallies are booked. -/
structure Books (now : Nat) (out : List (EngineId × Bytes)) (e e' : Engine) : Prop where
  timings : e'.peerTimings = e.peerTimings
  outbound : e'.outbound = e.outbound ++ out
  tally : ∀ key t, e'.tally key = some t → Booked now out e key t

/-- The sessions of `e'` are among those of `e`. -/
theorem tally_of_le {e e' : Engine}
    (hsend : ∀ (sid : SessionId) (s : SendSession), e'.sendSessions[sid]? = some s →
      e.sendSessions[sid]? = some s)
    (hrecv : ∀ (sid : SessionId) (s : RecvSession), e'.recvSessions[sid]? = some s →
      e.recvSessions[sid]? = some s) {key : TimerKey} {t : Tally} (h : e'.tally key = some t) :
    e.tally key = some t := by
  obtain ⟨sid, kind⟩ := key
  cases kind with
  | checkpoint serial =>
    obtain ⟨s, hs, ht⟩ := Option.bind_eq_some_iff.mp h
    exact Option.bind_eq_some_iff.mpr ⟨s, hsend sid s hs, ht⟩
  | report serial =>
    obtain ⟨s, hs, ht⟩ := Option.bind_eq_some_iff.mp h
    exact Option.bind_eq_some_iff.mpr ⟨s, hrecv sid s hs, ht⟩
  | inactivity | cancel => cases h

namespace Books

variable {now : Nat} {out out' : List (EngineId × Bytes)} {e e' e'' : Engine} {sid : SessionId}

theorem refl (now : Nat) (e : Engine) : Books now [] e e :=
  ⟨rfl, (List.append_nil _).symm, fun _ _ => .inl⟩

theorem trans (h : Books now out e e') (h' : Books now out' e' e'') :
    Books now (out ++ out') e e'' := by
  refine ⟨h'.timings.trans h.timings, ?_, fun key t ht => ?_⟩
  · rw [h'.outbound, h.outbound, List.append_assoc]
  · rcases h'.tally key t ht with hold | ⟨hfresh, hkey⟩
    · exact (h.tally key t hold).append_right out'
    · rw [Booked, timersOf_append]
      exact .inr ⟨hfresh, List.mem_append_right _ hkey⟩

/-- A change of nothing that the books are about, except that sessions may end. -/
theorem then_le (h : Books now out e e') (htimings : e''.peerTimings = e'.peerTimings)
    (houtbound : e''.outbound = e'.outbound)
    (hsend : ∀ (sid : SessionId) (s : SendSession), e''.sendSessions[sid]? = some s →
      e'.sendSessions[sid]? = some s)
    (hrecv : ∀ (sid : SessionId) (s : RecvSession), e''.recvSessions[sid]? = some s →
      e'.recvSessions[sid]? = some s) : Books now out e e'' :=
  ⟨htimings.trans h.timings, houtbound.trans h.outbound,
    fun key t ht => h.tally key t (tally_of_le hsend hrecv ht)⟩

theorem setTimer (h : Books now out e e') (key : TimerKey) (deadline : Nat) :
    Books now out e (e'.setTimer key deadline) :=
  h.then_le rfl rfl (fun _ _ => id) fun _ _ => id

theorem cancelTimer (h : Books now out e e') (key : TimerKey) :
    Books now out e (e'.cancelTimer key) := h.then_le rfl rfl (fun _ _ => id) fun _ _ => id

theorem cancelSession (h : Books now out e e') (sid : SessionId) :
    Books now out e (e'.cancelSession sid) := h.then_le rfl rfl (fun _ _ => id) fun _ _ => id

theorem touchInactivity (h : Books now out e e') (sid : SessionId) (isSender : Bool) (now' : Nat) :
    Books now out e (e'.touchInactivity sid isSender now') := by
  unfold Engine.touchInactivity
  simp only
  split
  · exact h.setTimer _ _
  · exact h

theorem notify (h : Books now out e e') (notice : Notice) : Books now out e (e'.notify notice) :=
  h.then_le rfl rfl (fun _ _ => id) fun _ _ => id

theorem recordClosed (h : Books now out e e') (sid : SessionId) :
    Books now out e (e'.recordClosed sid) := h.then_le rfl rfl (fun _ _ => id) fun _ _ => id

theorem recordCancelled (h : Books now out e e') (sid : SessionId) :
    Books now out e (e'.recordCancelled sid) := h.then_le rfl rfl (fun _ _ => id) fun _ _ => id

theorem removeSend (h : Books now out e e') (sid : SessionId) :
    Books now out e (e'.removeSend sid) := by
  refine h.then_le rfl rfl (fun t s hs => ?_) fun _ _ => id
  rw [removeSend_sendSessions, Maps.getElem?_erase] at hs
  split at hs
  · cases hs
  · exact hs

theorem removeRecv (h : Books now out e e') (sid : SessionId) :
    Books now out e (e'.removeRecv sid) := by
  refine h.then_le rfl rfl (fun _ _ => id) fun t s hs => ?_
  rw [removeRecv_recvSessions, Maps.getElem?_erase] at hs
  split at hs
  · cases hs
  · exact hs

theorem push (h : Books now out e e') (dest : EngineId) (sid : SessionId) (body : SegmentBody) :
    Books now (out ++ [(dest, (Segment.plain sid body).encodeToVec)]) e (e'.push dest sid body) := by
  refine ⟨h.timings, ?_, fun key t ht => ?_⟩
  · rw [push_outbound, h.outbound, List.append_assoc]
  · exact (h.tally key t (tally_of_le (fun _ _ => id) (fun _ _ => id) ht)).append_right _

theorem putSend (h : Books now out e e') {s : SendSession}
    (hs : ∀ serial t, s.tally serial = some t → Booked now out e (.checkpoint sid serial) t) :
    Books now out e (e'.putSend sid s) := by
  refine ⟨h.timings, h.outbound, fun key t ht => ?_⟩
  obtain ⟨sid', kind⟩ := key
  cases kind with
  | checkpoint serial =>
    obtain ⟨s', hs', ht'⟩ := Option.bind_eq_some_iff.mp ht
    rw [putSend_sendSessions, Maps.getElem?_insert] at hs'
    split at hs'
    · rename_i heq
      cases hs'
      subst heq
      exact hs serial t ht'
    · exact h.tally _ t (Option.bind_eq_some_iff.mpr ⟨s', hs', ht'⟩)
  | report serial => exact h.tally _ t ht
  | inactivity | cancel => cases ht

theorem putRecv (h : Books now out e e') {s : RecvSession}
    (hs : ∀ serial t, s.tally serial = some t → Booked now out e (.report sid serial) t) :
    Books now out e (e'.putRecv sid s) := by
  refine ⟨h.timings, h.outbound, fun key t ht => ?_⟩
  obtain ⟨sid', kind⟩ := key
  cases kind with
  | checkpoint serial => exact h.tally _ t ht
  | report serial =>
    obtain ⟨s', hs', ht'⟩ := Option.bind_eq_some_iff.mp ht
    rw [putRecv_recvSessions, Maps.getElem?_insert] at hs'
    split at hs'
    · rename_i heq
      cases hs'
      subst heq
      exact hs serial t ht'
    · exact h.tally _ t (Option.bind_eq_some_iff.mpr ⟨s', hs', ht'⟩)
  | inactivity | cancel => cases ht

/-- A session is stored with the records that it had. -/
theorem keepSend (h : Books now out e e') {s s' : SendSession} (hs : e.sendSessions[sid]? = some s)
    (hkept : s'.checkpoints = s.checkpoints) : Books now out e (e'.putSend sid s') := by
  refine h.putSend fun serial t ht => .inl ?_
  rw [SendSession.tally, hkept] at ht
  exact Option.bind_eq_some_iff.mpr ⟨s, hs, ht⟩

theorem keepRecv (h : Books now out e e') {s s' : RecvSession} (hs : e.recvSessions[sid]? = some s)
    (hkept : s'.reports = s.reports) : Books now out e (e'.putRecv sid s') := by
  refine h.putRecv fun serial t ht => .inl ?_
  rw [RecvSession.tally, hkept] at ht
  exact Option.bind_eq_some_iff.mpr ⟨s, hs, ht⟩

end Books

/-- The engine puts out nothing that awaits an answer. -/
def Silent (now : Nat) (e e' : Engine) : Prop := ∃ out, timersOf out = [] ∧ Books now out e e'

theorem Books.silent {now : Nat} {out : List (EngineId × Bytes)} {e e' : Engine}
    (h : Books now out e e') (hout : timersOf out = []) : Silent now e e' := ⟨out, hout, h⟩

/-- The segment that goes with the timer is put out again, and its tally counts that. -/
structure Resends (key : TimerKey) (out : List (EngineId × Bytes)) (e e' : Engine) : Prop where
  timings : e'.peerTimings = e.peerTimings
  outbound : e'.outbound = e.outbound ++ out
  timers : timersOf out = [key]
  tally : ∃ t, e.tally key = some t ∧ e'.tally key = some { t with retries := t.retries + 1 }
  others : ∀ key', key' ≠ key → e'.tally key' = e.tally key'

/-! ### A session in hand -/

/-- From `e` and the tallies `f` of a session in hand, `out` is put out and the session's tallies become
`f'`; the engine's tables stay. -/
structure Enters (mk : UInt64 → TimerKey) (now : Nat) (out : List (EngineId × Bytes)) (e : Engine)
    (f : UInt64 → Option Tally) (e' : Engine) (f' : UInt64 → Option Tally) : Prop where
  send : e'.sendSessions = e.sendSessions
  recv : e'.recvSessions = e.recvSessions
  timings : e'.peerTimings = e.peerTimings
  outbound : e'.outbound = e.outbound ++ out
  tally : ∀ serial t, f' serial = some t →
    f serial = some t ∨ t = ⟨serial, 0, now⟩ ∧ mk serial ∈ timersOf out

namespace Enters

variable {mk : UInt64 → TimerKey} {now : Nat} {out out' : List (EngineId × Bytes)}
  {e e' e'' : Engine} {f f' f'' : UInt64 → Option Tally}

theorem refl (mk : UInt64 → TimerKey) (now : Nat) (e : Engine) (f : UInt64 → Option Tally) :
    Enters mk now [] e f e f :=
  ⟨rfl, rfl, rfl, (List.append_nil _).symm, fun _ _ => .inl⟩

theorem trans (h : Enters mk now out e f e' f') (h' : Enters mk now out' e' f' e'' f'') :
    Enters mk now (out ++ out') e f e'' f'' := by
  refine ⟨h'.send.trans h.send, h'.recv.trans h.recv, h'.timings.trans h.timings, ?_,
    fun serial t ht => ?_⟩
  · rw [h'.outbound, h.outbound, List.append_assoc]
  · rw [timersOf_append]
    rcases h'.tally serial t ht with hold | ⟨hfresh, hkey⟩
    · rcases h.tally serial t hold with hold | ⟨hfresh, hkey⟩
      · exact .inl hold
      · exact .inr ⟨hfresh, List.mem_append_left _ hkey⟩
    · exact .inr ⟨hfresh, List.mem_append_right _ hkey⟩

theorem push (h : Enters mk now out e f e' f') (dest : EngineId) (sid : SessionId)
    (body : SegmentBody) : Enters mk now (out ++ [(dest, (Segment.plain sid body).encodeToVec)]) e f
      (e'.push dest sid body) f' := by
  have hpush : Enters mk now [(dest, (Segment.plain sid body).encodeToVec)] e' f'
      (e'.push dest sid body) f' := ⟨rfl, rfl, rfl, rfl, fun _ _ => .inl⟩
  exact h.trans hpush

theorem setTimer (h : Enters mk now out e f e' f') (key : TimerKey) (deadline : Nat) :
    Enters mk now out e f (e'.setTimer key deadline) f' :=
  ⟨h.send, h.recv, h.timings, h.outbound, h.tally⟩

theorem cancelTimer (h : Enters mk now out e f e' f') (key : TimerKey) :
    Enters mk now out e f (e'.cancelTimer key) f' :=
  ⟨h.send, h.recv, h.timings, h.outbound, h.tally⟩

theorem touchInactivity (h : Enters mk now out e f e' f') (sid : SessionId) (isSender : Bool)
    (now' : Nat) : Enters mk now out e f (e'.touchInactivity sid isSender now') f' := by
  unfold Engine.touchInactivity
  simp only
  split
  · exact h.setTimer _ _
  · exact h

/-- Tallies that are given up. -/
theorem fewer (h : Enters mk now out e f e' f')
    (hf : ∀ serial t, f'' serial = some t → f' serial = some t) : Enters mk now out e f e' f'' :=
  ⟨h.send, h.recv, h.timings, h.outbound, fun serial t ht => h.tally serial t (hf serial t ht)⟩

/-- One more tally, of a segment that was put out. -/
theorem enter (h : Enters mk now out e f e' f') {serial : UInt64} (hkey : mk serial ∈ timersOf out)
    (hf : ∀ serial' t, f'' serial' = some t →
      f' serial' = some t ∨ serial' = serial ∧ t = ⟨serial, 0, now⟩) :
    Enters mk now out e f e' f'' := by
  refine ⟨h.send, h.recv, h.timings, h.outbound, fun serial' t ht => ?_⟩
  rcases hf serial' t ht with hold | ⟨rfl, rfl⟩
  · exact h.tally serial' t hold
  · exact .inr ⟨rfl, hkey⟩

/-- The engine's tables are still those of `e`. -/
theorem books (h : Enters mk now out e f e' f') : Books now out e e' :=
  ⟨h.timings, h.outbound, fun _ _ ht => .inl (tally_of_le
    (fun _ _ hs => by rwa [h.send] at hs) (fun _ _ hs => by rwa [h.recv] at hs) ht)⟩

theorem booked (h : Enters mk now out e f e' f') (hmk : ∀ serial, (mk serial).kind.field = serial)
    (hf : ∀ serial t, f serial = some t → e.tally (mk serial) = some t) (serial : UInt64) (t : Tally)
    (ht : f' serial = some t) : Booked now out e (mk serial) t := by
  rcases h.tally serial t ht with hold | hfresh
  · exact .inl (hf serial t hold)
  · rw [Booked, hmk]
    exact .inr hfresh

end Enters

/-! ### Sampling -/

end Engine

/-- A sample of the round-trip time to a peer, taken on the segment that goes with a timer. -/
structure Sample where
  key : TimerKey
  peer : EngineId
  micros : Nat
deriving DecidableEq

/-- The sample that a record gives at `now`, unless the segment was sent again. -/
def Tally.sample (t : Tally) (key : TimerKey) (peer : EngineId) (now : Nat) : Option Sample :=
  if t.retries = 0 ∧ t.transmittedAt ≤ now then some ⟨key, peer, now - t.transmittedAt⟩ else none

namespace Engine

/-- The sample that a report gives on its checkpoint. -/
def reportSample (e : Engine) (source : EngineId) (sid : SessionId) (rs : ReportSegment)
    (now : Nat) : Option Sample :=
  e.sendSessions[sid]?.bind fun s =>
    if s.cancelReason.isSome then none
    else
      (s.tally rs.checkpointSerial).bind fun t =>
        t.sample (.checkpoint sid rs.checkpointSerial) source now

/-- The sample that an acknowledgment gives on its report. -/
def ackSample (e : Engine) (sid : SessionId) (reportSerial : UInt64) (now : Nat) : Option Sample :=
  e.recvSessions[sid]?.bind fun s =>
    if s.cancelReason.isSome then none
    else
      s.reports[reportSerial]?.bind fun rec =>
        if rec.acked then none else rec.tally.sample (.report sid reportSerial) s.peer now

/-- The sample that a segment gives. -/
def segmentSample (e : Engine) (source : EngineId) (segment : Segment) (now : Nat) :
    Option Sample :=
  let own := segment.session.originator == e.config.engineId
  match segment.body with
  | .report rs =>
    if own then e.reportSample (e.effectiveFrom source segment.session) segment.session rs now
    else none
  | .reportAck reportSerial => if own then none else e.ackSample segment.session reportSerial now
  | _ => none

/-- The engine with a sample applied. -/
def applySample (e : Engine) : Option Sample → Engine
  | some sample => e.updatePeerRttSample sample.peer sample.micros
  | none => e

section Samples

variable (e : Engine) (sample : Option Sample)

@[simp] theorem applySample_sendSessions :
    (e.applySample sample).sendSessions = e.sendSessions := by
  cases sample <;> rfl

@[simp] theorem applySample_recvSessions :
    (e.applySample sample).recvSessions = e.recvSessions := by
  cases sample <;> rfl

@[simp] theorem applySample_outbound : (e.applySample sample).outbound = e.outbound := by
  cases sample <;> rfl

/-- What a sample does to the timings depends on the configuration and the timings only. -/
theorem applySample_timings {e e' : Engine} (hconfig : e'.config = e.config)
    (htimings : e'.peerTimings = e.peerTimings) (sample : Option Sample) :
    (e'.applySample sample).peerTimings = (e.applySample sample).peerTimings := by
  cases sample with
  | none => exact htimings
  | some sample =>
    simp only [applySample, updatePeerRttSample, setPeerTiming_peerTimings, hconfig, htimings]

theorem sampleCheckpoint_eq (source : EngineId) (sid : SessionId) (s : SendSession)
    (serial : UInt64) (now : Nat) :
    e.sampleCheckpoint source s.checkpoints[serial]? now = e.applySample
      ((s.tally serial).bind fun t => t.sample (.checkpoint sid serial) source now) := by
  unfold sampleCheckpoint SendSession.tally
  cases s.checkpoints[serial]? with
  | none => rfl
  | some cp =>
    simp only [Option.map_some, Option.bind_some, Tally.sample, CheckpointRecord.tally]
    split <;> rfl

theorem sampleReport_eq (sid : SessionId) (s : RecvSession) (rec : ReportRecord) (serial : UInt64)
    (now : Nat) :
    e.sampleReport s rec now = e.applySample
      (if rec.acked then none else rec.tally.sample (.report sid serial) s.peer now) := by
  have hsample : rec.tally.sample (.report sid serial) s.peer now =
      if rec.retries = 0 ∧ rec.transmittedAt ≤ now then
        some ⟨.report sid serial, s.peer, now - rec.transmittedAt⟩
      else none := rfl
  rw [sampleReport, hsample]
  cases rec.acked with
  | true => rfl
  | false =>
    simp only [Bool.not_false, Bool.true_and, Bool.false_eq_true, if_false, Bool.and_eq_true,
      beq_iff_eq, decide_eq_true_eq]
    split <;> rfl

end Samples

/-- Sampling in the middle of a handler is sampling before it. -/
theorem Enters.sampled {mk : UInt64 → TimerKey} {now : Nat} {out : List (EngineId × Bytes)}
    {e e' : Engine} {f f' : UInt64 → Option Tally} (h : Enters mk now out e f e' f')
    (hconfig : e'.config = e.config) (sample : Option Sample) :
    Enters mk now out (e.applySample sample) f (e'.applySample sample) f' where
  send := by simp only [applySample_sendSessions, h.send]
  recv := by simp only [applySample_recvSessions, h.recv]
  timings := applySample_timings hconfig h.timings sample
  outbound := by simp only [applySample_outbound, h.outbound]
  tally := h.tally

end Engine

end HdyUtils.Ltp
