import HdyUtils.Ltp.Sdnv
import HdyUtils.Ltp.Segment

/-! The segment parser (`segment/parse.rs`).  A cursor is the list of octets that remain; the number
of octets consumed is the length of the buffer less the length of what remains. -/

namespace HdyUtils.Ltp

inductive ParseError
  | sdnv (error : Sdnv.Error)
  | badVersion (version : UInt8)
  | undefinedType (typeCode : UInt8)
  | truncated
  | zeroSerial
  | boundsInvariant
  | claimCountInvalid
  | claimInvariant
  | reservedReason (code : UInt8)
deriving DecidableEq, Repr

/-- The largest accepted claim count of a report. -/
def maxParsedClaims : Nat := 65536

/-- A parser: a function of the octets that remain. -/
abbrev Cursor (α : Type) := StateT Bytes (Except ParseError) α

namespace Cursor

def u8 : Cursor UInt8 := fun buf =>
  match buf with
  | b :: rest => .ok (b, rest)
  | [] => .error .truncated

def sdnv : Cursor Nat := fun buf =>
  match Sdnv.decode buf with
  | .ok (val, consumed) => .ok (val, buf.drop consumed)
  | .error e => .error (.sdnv e)

def bytes (len : Nat) : Cursor Bytes := fun buf =>
  if len ≤ buf.length then .ok (buf.take len, buf.drop len) else .error .truncated

def remaining : Cursor Nat := fun buf => .ok (buf.length, buf)

end Cursor

open Cursor

def parseExtensions : Nat → Cursor (List Extension)
  | 0 => pure []
  | count + 1 => do
    let tag ← u8
    let len ← sdnv
    let value ← bytes len
    let out ← parseExtensions count
    return { tag, value } :: out

def parseSerial : Cursor NonZeroU64 := do
  let raw ← sdnv
  match NonZeroU64.new (UInt64.ofNat raw) with
  | some serial => return serial
  | none => throw .zeroSerial

def parseCheckpoint : Cursor Checkpoint := do
  let serial ← parseSerial
  let reportSerial ← sdnv
  return { serial, reportSerial := UInt64.ofNat reportSerial }

def parseKind (typeCode : UInt8) : Cursor DataSegKind :=
  match typeCode.toNat with
  | 0 => return .red
  | 1 => return .redCp (← parseCheckpoint)
  | 2 => return .redCpEorp (← parseCheckpoint)
  | 3 => return .redCpEorpEob (← parseCheckpoint)
  | 4 => return .green
  | 7 => return .greenEob
  | _ => throw (.undefinedType typeCode)

def parseData (typeCode : UInt8) : Cursor DataSegment := do
  let clientService ← sdnv
  let offset ← sdnv
  let length ← sdnv
  let kind ← parseKind typeCode
  let data ← bytes length
  return { clientService := UInt64.ofNat clientService, offset, kind, data }

/-- The claims from index `i` on, `count` of them, after a claim that ends at `prevEnd`. -/
def parseClaims (scope : Nat) : Nat → Nat → Nat → Cursor (List ReceptionClaim)
  | 0, _, _ => return []
  | count + 1, i, prevEnd => do
    let offset ← sdnv
    let length ← sdnv
    if length = 0 then throw .claimInvariant
    if 0 < i ∧ offset < prevEnd then throw .claimInvariant
    if u64Max < offset + length then throw .claimInvariant
    if scope < offset + length then throw .claimInvariant
    let claims ← parseClaims scope count (i + 1) (offset + length)
    return { offset, length } :: claims

def parseReport : Cursor ReportSegment := do
  let reportSerial ← parseSerial
  let checkpointSerial ← sdnv
  let upperBound ← sdnv
  let lowerBound ← sdnv
  if upperBound ≤ lowerBound then throw .boundsInvariant
  let claimCount ← sdnv
  let left ← remaining
  if maxParsedClaims < claimCount ∨ (0 < claimCount ∧ left / 2 < claimCount) then
    throw .claimCountInvalid
  let claims ← parseClaims (upperBound - lowerBound) claimCount 0 0
  return { reportSerial, checkpointSerial := UInt64.ofNat checkpointSerial, upperBound, lowerBound,
           claims }

def parseReason : Cursor CancelReason := do
  let code ← u8
  match CancelReason.fromCode code with
  | some reason => return reason
  | none => throw (.reservedReason code)

def parseBody (typeCode : UInt8) : Cursor SegmentBody :=
  match typeCode.toNat with
  | 0 | 1 | 2 | 3 | 4 | 7 => return .data (← parseData typeCode)
  | 8 => return .report (← parseReport)
  | 9 => return .reportAck (UInt64.ofNat (← sdnv))
  | 12 => return .cancelSender (← parseReason)
  | 13 => return .cancelAckSender
  | 14 => return .cancelReceiver (← parseReason)
  | 15 => return .cancelAckReceiver
  | _ => throw (.undefinedType typeCode)

/-- The control octet: version 0 in the high nibble, the type code in the low one. -/
def parseTypeCode : Cursor UInt8 := do
  let controlByte ← u8
  let version := controlByte >>> 4
  if version ≠ 0 then throw (.badVersion version)
  let typeCode := controlByte &&& 0x0F
  if typeCode = 5 ∨ typeCode = 6 ∨ typeCode = 10 ∨ typeCode = 11 then
    throw (.undefinedType typeCode)
  return typeCode

def parseSession : Cursor SessionId := do
  let originator ← sdnv
  let number ← sdnv
  return { originator := ⟨UInt64.ofNat originator⟩, number := UInt64.ofNat number }

def parseSegment : Cursor Segment := do
  let typeCode ← parseTypeCode
  let session ← parseSession
  let extCounts ← u8
  let headerExt ← parseExtensions (extCounts >>> 4).toNat
  let body ← parseBody typeCode
  let trailerExt ← parseExtensions (extCounts &&& 0x0F).toNat
  return { session, headerExt, trailerExt, body }

/-- Parses a segment from the start of `buf`: the segment and the number of octets consumed. -/
def Segment.parse (buf : Bytes) : Except ParseError (Segment × Nat) :=
  match parseSegment.run buf with
  | .ok (seg, rest) => .ok (seg, buf.length - rest.length)
  | .error e => .error e

/-- The session of a segment, without parsing what follows it. -/
def Segment.peekSession (buf : Bytes) : Except ParseError SessionId :=
  match (do let _ ← parseTypeCode; parseSession : Cursor SessionId).run buf with
  | .ok (session, _) => .ok session
  | .error e => .error e

end HdyUtils.Ltp
