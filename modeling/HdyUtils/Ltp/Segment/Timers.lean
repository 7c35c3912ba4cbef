import HdyUtils.Ltp.Engine.Timer
import HdyUtils.Ltp.Segment.RoundTrip

/-! The retransmission timer that a segment goes with: a checkpoint and a report are numbered, and are
sent again until they are answered.  `timerOf` reads the number off the octets that the engine puts
out, which need not parse. -/

namespace HdyUtils.Ltp

open Cursor

/-- The retransmission timer of a checkpoint or of a report. -/
def SegmentBody.timer : SegmentBody → Option TimerKind
  | .data ds => ds.kind.checkpoint.map fun cp => .checkpoint cp.serial.val
  | .report rs => some (.report rs.reportSerial.val)
  | _ => none

/-- The octets after the number at their start. -/
def skipNumber : Bytes → Bytes
  | [] => []
  | b :: rest => if b &&& 0x80 = 0 then rest else skipNumber rest

/-- The serial at the start of the octets. -/
def serialAt (buf : Bytes) : Option UInt64 :=
  match parseSerial.run buf with
  | .ok (serial, _) => some serial.val
  | .error _ => none

/-- The type code and the session of a segment, from which it continues without extensions. -/
def parseStart : Cursor (UInt8 × SessionId) := do
  let typeCode ← parseTypeCode
  let session ← parseSession
  let _ ← u8
  return (typeCode, session)

/-- The retransmission timer of a segment without extensions.  The serial of a checkpoint comes after
its client service, its offset and its length, and that of a report first. -/
def timerOf (bytes : Bytes) : Option TimerKey :=
  match parseStart.run bytes with
  | .ok ((typeCode, session), body) =>
    if typeCode = 8 then (serialAt body).map fun serial => .report session serial
    else if typeCode = 1 ∨ typeCode = 2 ∨ typeCode = 3 then
      (serialAt (skipNumber (skipNumber (skipNumber body)))).map fun serial =>
        .checkpoint session serial
    else none
  | .error _ => none

theorem skipNumber_append {init : Bytes} (hinit : ∀ b ∈ init, b &&& 0x80 ≠ 0) {last : UInt8}
    (hlast : last &&& 0x80 = 0) (rest : Bytes) : skipNumber (init ++ last :: rest) = rest := by
  induction init with
  | nil => simp only [List.nil_append, skipNumber, hlast, if_true]
  | cons b init ih =>
    have hb := hinit b List.mem_cons_self
    have hrest := ih fun c hc => hinit c (List.mem_cons_of_mem b hc)
    simp only [List.cons_append, skipNumber, hb, if_false, hrest]

@[simp] theorem skipNumber_encode (v : Nat) (rest : Bytes) :
    skipNumber (Sdnv.encode v ++ rest) = rest := by
  obtain ⟨n, hn⟩ := Nat.exists_eq_add_one.mpr (Sdnv.encodedLen_pos v)
  have hlast : Sdnv.octet v (n + 1) n &&& 0x80 = 0 := (Sdnv.octet_continues v (n + 1) n).mpr rfl
  rw [Sdnv.encode_eq_map, hn, List.range_succ, List.map_append, List.map_singleton,
    List.append_assoc]
  refine skipNumber_append (fun b hb => ?_) hlast rest
  obtain ⟨i, hi, rfl⟩ := List.mem_map.mp hb
  rw [ne_eq, Sdnv.octet_continues]
  have hlt := List.mem_range.mp hi
  omega

@[simp] theorem serialAt_encode (serial : NonZeroU64) (rest : Bytes) :
    serialAt (Sdnv.encode serial.val.toNat ++ rest) = some serial.val := by
  simp only [serialAt, run_parseSerial]

theorem run_parseStart (sid : SessionId) (body : SegmentBody) :
    parseStart.run (Segment.plain sid body).encodeToVec =
      .ok (((Segment.plain sid body).typeCode, sid), writeBody body) := by
  have hwrite : (Segment.plain sid body).encodeToVec = (Segment.plain sid body).typeCode ::
      (Sdnv.encode sid.originator.val.toNat ++
        (Sdnv.encode sid.number.toNat ++ extCounts [] [] :: writeBody body)) := by
    simp [Segment.encodeToVec, Segment.plain, writeExtensions]
  simp only [parseStart, hwrite, StateT.run_bind, run_parseTypeCode, run_parseSession, run_u8,
    ok_bind, run_pure]

/-- The engine's output names its timers. -/
@[simp] theorem timerOf_encodeToVec (sid : SessionId) (body : SegmentBody) :
    timerOf (Segment.plain sid body).encodeToVec = body.timer.map fun kind => ⟨sid, kind⟩ := by
  rw [timerOf, run_parseStart]
  cases body with
  | data ds =>
    cases hkind : ds.kind <;>
      simp [Segment.plain, Segment.typeCode, DataSegKind.typeCode, SegmentBody.timer, hkind,
        DataSegKind.checkpoint, writeBody, writeData, writeCheckpoint, TimerKey.checkpoint]
  | report rs =>
    simp [Segment.plain, Segment.typeCode, SegmentBody.timer, writeBody, writeReport,
      TimerKey.report]
  | reportAck | cancelSender | cancelAckSender | cancelReceiver | cancelAckReceiver =>
    simp [Segment.plain, Segment.typeCode, SegmentBody.timer]

end HdyUtils.Ltp
