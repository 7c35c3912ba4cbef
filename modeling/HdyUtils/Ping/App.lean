import HdyUtils.Lib.BigEndian
import HdyUtils.Lib.Maps
import HdyUtils.Security.Keys

/-! The pings of `dtnping` (`bin/dtnping.rs`): their payload, the counts, what a delivery does to them
and the steps of the loop that sends pings. -/

namespace HdyUtils.Ping

open BigEndian Security

/-! ### The payload -/

def encodePingPayload (seqNo paddingLen : Nat) : Bytes :=
  -- an array of two: the sequence number and a map of options
  [0x82] ++
  (if seqNo < 24 then [UInt8.ofNat seqNo]
    else if seqNo < 256 then [0x18, UInt8.ofNat seqNo]
    else if seqNo < 65536 then [0x19] ++ toBytes 2 seqNo
    else [0x1a] ++ toBytes 4 seqNo) ++
  (if 0 < paddingLen then
    [0xa1, 0x00] ++
    (if paddingLen < 24 then [0x40 + UInt8.ofNat paddingLen]
      else if paddingLen < 256 then [0x58, UInt8.ofNat paddingLen]
      else if paddingLen < 65536 then [0x59] ++ toBytes 2 paddingLen
      else [0x5a] ++ toBytes 4 paddingLen) ++
    List.replicate paddingLen 0
  else [0xa0])

def decodePingPayload : Bytes → Option Nat
  | tag :: b :: rest =>
    if tag ≠ 0x82 then none
    else if b < 24 then some b.toNat
    else if b = 0x18 then if rest.length < 1 then none else some (fromBytes (rest.take 1))
    else if b = 0x19 then if rest.length < 2 then none else some (fromBytes (rest.take 2))
    else if b = 0x1a then if rest.length < 4 then none else some (fromBytes (rest.take 4))
    else none
  | _ => none

/-- What echoes the payload of a ping names the ping. -/
theorem decodePingPayload_encode {seqNo : Nat} (h : seqNo < 2 ^ 32) (paddingLen : Nat) :
    decodePingPayload (encodePingPayload seqNo paddingLen) = some seqNo := by
  unfold encodePingPayload
  generalize (if 0 < paddingLen then _ else _ : Bytes) = options
  split
  · next hsmall =>
    have hoctet : (UInt8.ofNat seqNo).toNat = seqNo := by
      rw [UInt8.toNat_ofNat']
      omega
    have hlt : UInt8.ofNat seqNo < 24 := by
      rw [UInt8.lt_iff_toNat_lt, hoctet]
      exact hsmall
    simp [decodePingPayload, hlt, hoctet]
  split
  · next hbyte =>
    have hread := fromBytes_toBytes 1 seqNo
    rw [Nat.mod_eq_of_lt (by simpa using hbyte)] at hread
    have hone : toBytes 1 seqNo = [UInt8.ofNat seqNo] := rfl
    simp [decodePingPayload, ← hone, hread]
  split
  · next hshort =>
    have hread := fromBytes_toBytes 2 seqNo
    rw [Nat.mod_eq_of_lt (by simpa using hshort)] at hread
    have hlen : ¬(toBytes 2 seqNo ++ options).length < 2 := by
      rw [List.length_append, length_toBytes]
      omega
    simp only [List.cons_append, List.nil_append, decodePingPayload]
    rw [if_neg hlen, take_toBytes_append, hread]
    rfl
  · have hread := fromBytes_toBytes 4 seqNo
    rw [Nat.mod_eq_of_lt (by simpa using h)] at hread
    have hlen : ¬(toBytes 4 seqNo ++ options).length < 4 := by
      rw [List.length_append, length_toBytes]
      omega
    simp only [List.cons_append, List.nil_append, decodePingPayload]
    rw [if_neg hlen, take_toBytes_append, hread]
    rfl

/-! ### The counts -/

/-- A time in nanoseconds. -/
abbrev Instant := Nat

structure PingState where
  sent : Nat
  received : Nat
  minRtt : Option Duration
  maxRtt : Option Duration
  sumRtt : Duration
  sumRttSquaredUs : Nat
  sentTimes : Std.TreeMap Nat Instant
  replied : Std.TreeSet Nat

namespace PingState

def new : PingState where
  sent := 0
  received := 0
  minRtt := none
  maxRtt := none
  sumRtt := 0
  sumRttSquaredUs := 0
  sentTimes := ∅
  replied := ∅

/-- Records a ping that the BPA has taken. -/
def record (s : PingState) (seq : Nat) (sendTime : Instant) : PingState :=
  { s with sent := s.sent + 1, sentTimes := s.sentTimes.insert seq sendTime }

/-- Counts the reply to a ping, after this time. -/
def count (s : PingState) (seqNo : Nat) (rtt : Duration) : PingState :=
  let rttUs := rtt / 1000
  { s with
    received := s.received + 1
    minRtt := some (s.minRtt.elim rtt fun least => min least rtt)
    maxRtt := some (s.maxRtt.elim rtt fun most => max most rtt)
    sumRtt := s.sumRtt + rtt
    sumRttSquaredUs := s.sumRttSquaredUs + rttUs * rttUs
    replied := s.replied.insert seqNo }

end PingState

structure PingApp (E : Type) where
  destination : E
  keystore : KeyStore
  policy : VerifyPolicy

variable {E : Type}

namespace PingApp

section Deliver

variable [DecidableEq E] (hardy : Hardy E) (null : E) (app : PingApp E)

/-- The verification policy lets the bundle pass. -/
def accepts (data : Bytes) : Bool :=
  match app.policy with
  | .ignore => true
  | policy =>
    match verifyBundle hardy app.keystore data with
    | .valid => true
    | .invalid _ => decide (policy ≠ .strict)
    | .unsigned => decide (policy ≠ .strict)

/-- The source and the payload of a bundle; what is no bundle is taken for a payload. -/
def sourceAndPayload (data : Bytes) : E × Bytes :=
  match hardy.parse data with
  | .ok parsed => (parsed.bundle.primary.source, parsed.payload.getD data)
  | .error _ => (null, data)

/-- The sequence number of the ping that the bundle replies to. -/
def replySeqNo (data : Bytes) : Option Nat :=
  let (source, payload) := sourceAndPayload hardy null data
  if !app.accepts hardy data then none
  else if source ≠ app.destination then none
  else decodePingPayload payload

/-- What a delivery does to the counts, with the reply that it counts. -/
def onDeliver (receiveTime : Instant) (data : Bytes) (s : PingState) :
    PingState × Option (Nat × Duration) :=
  match app.replySeqNo hardy null data with
  | none => (s, none)
  | some seqNo =>
    match s.sentTimes[seqNo]? with
    | none => (s, none)
    | some sentTime =>
      let rtt := receiveTime - sentTime
      ({ s with sentTimes := s.sentTimes.erase seqNo }.count seqNo rtt, some (seqNo, rtt))

/-- A bundle from the destination that echoes the payload of a ping is a reply to it. -/
theorem replySeqNo_echo {data : Bytes} {seqNo paddingLen : Nat} (hseq : seqNo < 2 ^ 32)
    (haccepts : app.accepts hardy data = true)
    (hecho : sourceAndPayload hardy null data =
      (app.destination, encodePingPayload seqNo paddingLen)) :
    app.replySeqNo hardy null data = some seqNo := by
  simp [replySeqNo, haccepts, hecho, decodePingPayload_encode hseq]

end Deliver

end PingApp

/-! ### The loop of `main` -/

/-- `main` in its loop. -/
structure Main where
  /-- The number of pings to send, which is `u32::MAX` where none is given. -/
  limit : UInt32
  state : PingState
  seq : Nat
  /-- The send time of the ping that `main` has handed to the BPA and not recorded yet. -/
  sending : Option Instant

namespace Main

def start (limit : UInt32) : Main where
  limit := limit
  state := .new
  seq := 0
  sending := none

/-- A tick of the interval timer: the next ping is handed to the BPA. -/
def send (m : Main) (sendTime : Instant) : Main :=
  if m.sending.isNone ∧ m.seq < m.limit.toNat then { m with sending := some sendTime } else m

/-- `sink.send` has returned, with a bundle id or an error. -/
def finish (m : Main) (ok : Bool) : Main :=
  match m.sending with
  | none => m
  | some sendTime =>
    { m with
      state := if ok then m.state.record m.seq sendTime else m.state
      seq := m.seq + 1
      sending := none }

end Main

end HdyUtils.Ping
