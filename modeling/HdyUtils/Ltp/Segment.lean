import HdyUtils.Ltp.Types

/-! Segments (`segment/mod.rs`): the parts of a parsed segment and its type code. -/

namespace HdyUtils.Ltp

/-- A header or trailer extension. -/
structure Extension where
  tag : UInt8
  value : Bytes
deriving DecidableEq, Repr

/-- The serial fields of a checkpoint.  `reportSerial` is the report that the checkpoint answers, or
0 in the first transmission. -/
structure Checkpoint where
  serial : NonZeroU64
  reportSerial : UInt64
deriving DecidableEq

inductive DataSegKind
  | red
  | redCp (cp : Checkpoint)
  | redCpEorp (cp : Checkpoint)
  | redCpEorpEob (cp : Checkpoint)
  | green
  | greenEob
deriving DecidableEq

namespace DataSegKind

def isRed : DataSegKind → Bool
  | green | greenEob => false
  | _ => true

def checkpoint : DataSegKind → Option Checkpoint
  | redCp cp | redCpEorp cp | redCpEorpEob cp => some cp
  | red | green | greenEob => none

/-- Whether the segment ends the red part. -/
def isEorp : DataSegKind → Bool
  | redCpEorp _ | redCpEorpEob _ => true
  | _ => false

/-- Whether the segment ends the block. -/
def isEob : DataSegKind → Bool
  | redCpEorpEob _ | greenEob => true
  | _ => false

/-- The type code of a data segment of this kind. -/
def typeCode : DataSegKind → UInt8
  | red => 0
  | redCp _ => 1
  | redCpEorp _ => 2
  | redCpEorpEob _ => 3
  | green => 4
  | greenEob => 7

end DataSegKind

structure DataSegment where
  clientService : UInt64
  offset : Nat
  kind : DataSegKind
  data : Bytes
deriving DecidableEq

namespace DataSegment

/-- The end of the segment's data in its block, as `saturating_add` computes it. -/
def segEnd (ds : DataSegment) : Nat := satAdd ds.offset ds.data.length

end DataSegment

/-- Received data, at an offset from the lower bound of its report. -/
structure ReceptionClaim where
  offset : Nat
  length : Nat
deriving DecidableEq, Repr

structure ReportSegment where
  reportSerial : NonZeroU64
  checkpointSerial : UInt64
  upperBound : Nat
  lowerBound : Nat
  claims : List ReceptionClaim
deriving DecidableEq

inductive SegmentBody
  | data (ds : DataSegment)
  | report (rs : ReportSegment)
  | reportAck (reportSerial : UInt64)
  | cancelSender (reason : CancelReason)
  | cancelAckSender
  | cancelReceiver (reason : CancelReason)
  | cancelAckReceiver
deriving DecidableEq

structure Segment where
  session : SessionId
  headerExt : List Extension
  trailerExt : List Extension
  body : SegmentBody
deriving DecidableEq

namespace Segment

/-- A segment without extensions, as the engine builds them. -/
def plain (session : SessionId) (body : SegmentBody) : Segment :=
  { session, headerExt := [], trailerExt := [], body }

def typeCode (seg : Segment) : UInt8 :=
  match seg.body with
  | .data ds => ds.kind.typeCode
  | .report _ => 8
  | .reportAck _ => 9
  | .cancelSender _ => 12
  | .cancelAckSender => 13
  | .cancelReceiver _ => 14
  | .cancelAckReceiver => 15

end Segment

end HdyUtils.Ltp
