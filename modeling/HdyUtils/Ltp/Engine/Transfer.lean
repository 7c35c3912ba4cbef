import HdyUtils.Ltp.Engine.Frame
import HdyUtils.Ltp.Engine.Spans

/-! What a request hands over, and data segments that are cut from it.  `SendSession.Sound` is the
invariant of a send session; under it the checkpoint of every record is cut from the session's
transfer. -/

namespace HdyUtils.Ltp

/-- A block for a client service, of which the first `redLen` octets are red. -/
structure Transfer where
  clientService : UInt64
  block : Bytes
  redLen : Nat
deriving DecidableEq

/-- The red part of the block. -/
def Transfer.redPart (t : Transfer) : Bytes := t.block.take t.redLen

/-- The segment carries the octets of the block at its offset, keeps to one colour, and is marked as
an end exactly where it is one. -/
structure DataSegment.Cuts (ds : DataSegment) (t : Transfer) : Prop where
  clientService : ds.clientService = t.clientService
  data : ds.data = (t.block.drop ds.offset).take ds.data.length
  le_block : ds.offset + ds.data.length ≤ t.block.length
  red : ds.kind.isRed → 0 < ds.data.length ∧ ds.offset + ds.data.length ≤ t.redLen
  green : ds.kind.isRed = false → t.redLen ≤ ds.offset
  eorp : ds.kind.isRed → (ds.kind.isEorp ↔ ds.offset + ds.data.length = t.redLen)
  eob : ds.kind.isEob ↔ ds.offset + ds.data.length = t.block.length

/-- The checkpoint of the record is cut from the transfer. -/
structure CheckpointRecord.Within (record : CheckpointRecord) (t : Transfer) : Prop where
  pos : 0 < record.length
  le_red : record.offset + record.length ≤ t.redLen
  eorp : record.isEorp ↔ record.offset + record.length = t.redLen
  eob : record.isEob ↔ record.offset + record.length = t.block.length

namespace SendSession

/-- What the session transmits. -/
@[simps] def transfer (s : SendSession) : Transfer where
  clientService := s.clientService
  block := s.block
  redLen := s.redLen

structure Sound (s : SendSession) (sid : SessionId) (maxBlockSize : Nat) : Prop where
  id : s.id = sid
  red_pos : 0 < s.redLen
  red_le : s.redLen ≤ s.block.length
  block_le : s.block.length ≤ maxBlockSize
  records : ∀ (serial : UInt64) (cp : CheckpointRecord), s.checkpoints[serial]? = some cp →
    cp.serial.val = serial ∧ cp.Within s.transfer

theorem length_slice {s : SendSession} {start stop : Nat}
    (hstop : stop ≤ s.block.length) : (s.slice start stop).length = stop - start := by
  simp [slice]
  omega

/-- A red span without a checkpoint ends before the red part does. -/
theorem cuts_red {s : SendSession} {span : Range} (h : span.start < span.stop)
    (hred : span.stop < s.redLen) (hle : s.redLen ≤ s.block.length) :
    (s.dataSegment .red span).Cuts s.transfer := by
  have hlen : (s.slice span.start span.stop).length = span.stop - span.start :=
    length_slice (by omega)
  constructor <;> simp only [dataSegment, transfer, hlen, DataSegKind.isRed, DataSegKind.isEorp,
    DataSegKind.isEob, Bool.false_eq_true, false_iff, forall_const, reduceCtorEq,
    IsEmpty.forall_iff]
  · rfl
  · omega
  · omega
  · omega
  · omega

theorem cuts_green {s : SendSession} {span : Range} (h : span.start < span.stop)
    (hred : s.redLen ≤ span.start) (hle : span.stop ≤ s.block.length) :
    (s.dataSegment (if span.stop == s.block.length then .greenEob else .green) span).Cuts
      s.transfer := by
  have hlen : (s.slice span.start span.stop).length = span.stop - span.start :=
    length_slice hle
  have hred' : (if span.stop == s.block.length then DataSegKind.greenEob else .green).isRed =
      false := by
    split <;> rfl
  have heob : (if span.stop == s.block.length then DataSegKind.greenEob else .green).isEob ↔
      span.stop = s.block.length := by
    by_cases hend : span.stop = s.block.length <;> simp [hend, DataSegKind.isEob]
  constructor <;> simp only [dataSegment, transfer, hlen, hred', heob, Bool.false_eq_true,
    forall_const, IsEmpty.forall_iff]
  · rfl
  · omega
  · omega
  · omega

end SendSession

theorem checkpointKind_isRed (isEorp isEob : Bool) (cp : Checkpoint) :
    (checkpointKind isEorp isEob cp).isRed = true := by
  cases isEorp <;> cases isEob <;> rfl

theorem checkpointKind_isEorp (isEorp isEob : Bool) (cp : Checkpoint) :
    (checkpointKind isEorp isEob cp).isEorp = isEorp := by
  cases isEorp <;> cases isEob <;> rfl

theorem checkpointKind_isEob (isEorp isEob : Bool) (cp : Checkpoint) :
    (checkpointKind isEorp isEob cp).isEob = (isEorp && isEob) := by
  cases isEorp <;> cases isEob <;> rfl

theorem checkpointKind_checkpoint (isEorp isEob : Bool) (cp : Checkpoint) :
    (checkpointKind isEorp isEob cp).checkpoint = some cp := by
  cases isEorp <;> cases isEob <;> rfl

theorem CheckpointRecord.Within.cuts {record : CheckpointRecord} {s : SendSession}
    (h : record.Within s.transfer) (hle : s.redLen ≤ s.block.length) :
    (record.segment s).Cuts s.transfer := by
  have hpos := h.pos
  have hred := h.le_red
  have heorp := h.eorp
  have heob := h.eob
  simp only [SendSession.transfer] at hred heorp heob
  have hlen : (s.slice record.offset (record.offset + record.length)).length = record.length := by
    rw [SendSession.length_slice (by omega)]
    omega
  constructor <;> simp only [CheckpointRecord.segment, SendSession.transfer, hlen,
    checkpointKind_isRed, checkpointKind_isEorp, checkpointKind_isEob, forall_const,
    Bool.true_eq_false, IsEmpty.forall_iff, Bool.and_eq_true, heorp, heob]
  · simp [SendSession.slice]
  · omega
  · omega
  · omega

end HdyUtils.Ltp
