import HdyUtils.Ltp.Range
import HdyUtils.Ltp.Segment

/-! Send and receive sessions (`engine/session.rs`). -/

namespace HdyUtils.Ltp

open Std (TreeMap TreeSet)

/-- A checkpoint that awaits a report. -/
structure CheckpointRecord where
  serial : NonZeroU64
  reportSerial : UInt64
  offset : Nat
  length : Nat
  isEorp : Bool
  isEob : Bool
  retries : Nat
  transmittedAt : Nat

/-- The sender's state of a session. -/
structure SendSession where
  id : SessionId
  peer : EngineId
  clientService : UInt64
  block : Bytes
  redLen : Nat
  lastCpSerial : UInt64
  checkpoints : TreeMap UInt64 CheckpointRecord
  claimsReceived : RangeSet
  reportSerialsSeen : TreeSet UInt64
  eobSent : Bool
  lastActivity : Nat
  cancelReason : Option CancelReason
  cancelRetries : Nat

namespace SendSession

def new (id : SessionId) (peer : EngineId) (clientService : UInt64) (block : Bytes) (redLen : Nat)
    (initialCpSerial : UInt64) (now : Nat) : SendSession where
  id := id
  peer := peer
  clientService := clientService
  block := block
  redLen := redLen
  lastCpSerial := initialCpSerial
  checkpoints := ∅
  claimsReceived := .new
  reportSerialsSeen := ∅
  eobSent := false
  lastActivity := now
  cancelReason := none
  cancelRetries := 0

/-- The red part is claimed in full and every segment of the block was queued. -/
def isComplete (s : SendSession) : Bool :=
  s.eobSent && s.claimsReceived.covers ⟨0, s.redLen⟩

/-- The octets of the block from `start` up to `stop`. -/
def slice (s : SendSession) (start stop : Nat) : Bytes := (s.block.drop start).take (stop - start)

end SendSession

/-- A report that awaits its acknowledgment. -/
structure ReportRecord where
  report : ReportSegment
  retries : Nat
  acked : Bool
  transmittedAt : Nat

/-- The receiver's state of a session. -/
structure RecvSession where
  id : SessionId
  peer : EngineId
  clientService : UInt64
  redBuf : Bytes
  redReceived : RangeSet
  redPartLen : Option Nat
  blockLen : Option Nat
  redEndsBlock : Bool
  lastReportSerial : UInt64
  reports : TreeMap UInt64 ReportRecord
  cpSerialsAnswered : TreeMap UInt64 (List UInt64)
  reportedCoverage : RangeSet
  redDelivered : Bool
  lastActivity : Nat
  sparseRed : TreeMap Nat Bytes
  totalReceivedBytes : Nat
  minGreenOffset : Option Nat
  maxRedEnd : Nat
  cancelReason : Option CancelReason
  cancelRetries : Nat

/-- Writes `data` over `buf` from `start` on, first growing `buf` with zeros if `data` ends past
it. -/
def writeAt (buf : Bytes) (start : Nat) (data : Bytes) : Bytes :=
  let stop := start + data.length
  let buf := if buf.length < stop then buf ++ List.replicate (stop - buf.length) 0 else buf
  buf.take start ++ data ++ buf.drop stop

namespace RecvSession

def new (id : SessionId) (peer : EngineId) (clientService : UInt64) (initialRsSerial : UInt64)
    (now : Nat) : RecvSession where
  id := id
  peer := peer
  clientService := clientService
  redBuf := []
  redReceived := .new
  redPartLen := none
  blockLen := none
  redEndsBlock := false
  lastReportSerial := initialRsSerial
  reports := ∅
  cpSerialsAnswered := ∅
  reportedCoverage := .new
  redDelivered := false
  lastActivity := now
  sparseRed := ∅
  totalReceivedBytes := 0
  minGreenOffset := none
  maxRedEnd := 0
  cancelReason := none
  cancelRetries := 0

/-- The sparse segment with the least offset. -/
def firstSparse (s : RecvSession) : Option (Nat × Bytes) := s.sparseRed.toList.head?

/-- Moves to `redBuf` the sparse segments that it has reached, at most `fuel` of them. -/
def connectSparse : Nat → RecvSession → RecvSession
  | 0, s => s
  | fuel + 1, s =>
    match s.firstSparse with
    | some (spOffset, spBytes) =>
      if spOffset ≤ s.redBuf.length then
        connectSparse fuel
          { s with
            sparseRed := s.sparseRed.erase spOffset
            totalReceivedBytes := s.totalReceivedBytes - spBytes.length
            redBuf := writeAt s.redBuf spOffset spBytes }
      else s
    | none => s

/-- Stores a red segment, in `redBuf` if it starts there and in `sparseRed` otherwise.  The result
is false if the segment was refused. -/
def insertRed (s : RecvSession) (offset : Nat) (data : Bytes) (maxBlockSize : Nat) :
    RecvSession × Bool :=
  let stop := offset + data.length
  if u64Max < stop then (s, false)
  else if maxBlockSize < stop then (s, false)
  else if s.redReceived.covers ⟨offset, stop⟩ then (s, true)
  else
    let s := { s with maxRedEnd := max s.maxRedEnd stop }
    if offset ≤ s.redBuf.length then
      let s := { s with
        redBuf := writeAt s.redBuf offset data
        redReceived := s.redReceived.insert ⟨offset, stop⟩ }
      (connectSparse s.sparseRed.size s, true)
    else if maxBlockSize < satAdd s.totalReceivedBytes data.length then (s, false)
    else
      ({ s with
        sparseRed := s.sparseRed.insert offset data
        -- `+=` on a `usize`, which is not checked in a release build
        totalReceivedBytes := (s.totalReceivedBytes + data.length) % 2 ^ 64
        redReceived := s.redReceived.insert ⟨offset, stop⟩ }, true)

/-- The end of the red part is known and all of it was received. -/
def isRedComplete (s : RecvSession) : Bool :=
  match s.redPartLen with
  | some len => s.redReceived.covers ⟨0, len⟩
  | none => false

end RecvSession

end HdyUtils.Ltp
