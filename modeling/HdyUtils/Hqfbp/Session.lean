import HdyUtils.Ltp.Types

/-! The receiver of the HQFBP convergence layer (`hqfbp-cla/src/session.rs`): a manager that charges
each PDU to its sender, evicts senders to respect its limits, and takes reassembled messages from a
deframer.  The deframer and `unpack` belong to the `hqfbp_rs` crate and are parameters.  Instants
and durations are naturals. -/

namespace HdyUtils.Hqfbp

open Std (TreeMap TreeSet)

abbrev Bytes := Ltp.Bytes

/-- A transmitting station: its callsign, if its headers have one. -/
abbrev Sender := Option String

/-- A message of a sender. -/
structure MessageKey where
  sender : Sender
  messageId : UInt32
deriving DecidableEq, Repr

instance : Ord MessageKey :=
  ⟨compareLex (compareOn MessageKey.sender) (compareOn MessageKey.messageId)⟩

instance : Std.TransOrd MessageKey :=
  inferInstanceAs (Std.TransCmp
    (compareLex (compareOn MessageKey.sender) (compareOn MessageKey.messageId)))

instance : Std.LawfulEqOrd MessageKey where
  eq_of_compare {a b} h := by
    obtain ⟨hs, hm⟩ := Ordering.then_eq_eq.mp h
    have hsender : compare a.sender b.sender = .eq := hs
    have hid : compare a.messageId b.messageId = .eq := hm
    cases a
    cases b
    exact congrArg₂ MessageKey.mk (Std.LawfulEqCmp.eq_of_compare hsender)
      (Std.LawfulEqCmp.eq_of_compare hid)

/-- A payload of a sender, by its hash. -/
structure PayloadKey where
  sender : Sender
  hash : UInt64
deriving DecidableEq, Repr

instance : Ord PayloadKey := ⟨compareLex (compareOn PayloadKey.sender) (compareOn PayloadKey.hash)⟩

instance : Std.TransOrd PayloadKey :=
  inferInstanceAs (Std.TransCmp
    (compareLex (compareOn PayloadKey.sender) (compareOn PayloadKey.hash)))

instance : Std.LawfulEqOrd PayloadKey where
  eq_of_compare {a b} h := by
    obtain ⟨hs, hh⟩ := Ordering.then_eq_eq.mp h
    have hsender : compare a.sender b.sender = .eq := hs
    have hhash : compare a.hash b.hash = .eq := hh
    cases a
    cases b
    exact congrArg₂ PayloadKey.mk (Std.LawfulEqCmp.eq_of_compare hsender)
      (Std.LawfulEqCmp.eq_of_compare hhash)

/-- The fields of an HQFBP header that the manager reads. -/
structure Header where
  srcCallsign : Sender
  dstCallsign : Option String
  messageId : Option UInt32
  originalMessageId : Option UInt32
deriving DecidableEq, Repr

/-- `original_message_id.or(message_id)`. -/
def Header.message (header : Header) : Option UInt32 := header.originalMessageId.or header.messageId

/-- What the deframer reports, without what the manager only logs. -/
inductive Event
  | pdu (header : Header)
  | message (header : Header) (payload : Bytes)
  | sessionExpired
  | duplicate
deriving DecidableEq, Repr

/-- The part of `hqfbp_rs` that the manager calls, with the states `D` of a `Deframer`.
Each operation is told the instant at which it runs.  `nextEvents` takes every event that is waiting, as the loop over `next_event` does, and
`cleanupExpired` returns the messages that it dropped. -/
structure Deframer (D : Type) where
  new : D
  unpack : Bytes → Option Header
  receiveBytes : D → Bytes → (now : Nat) → D
  nextEvents : D → List Event × D
  cleanupExpired : D → (timeout now : Nat) → List MessageKey × D

/-- A reassembled bundle. -/
structure CompletedMessage where
  srcCallsign : Sender
  dstCallsign : Option String
  messageId : Option UInt32
  payload : Bytes
deriving DecidableEq, Repr

structure SenderState where
  lastActive : Nat
  bufferedBytes : Nat
  activeMessageIds : TreeSet UInt32
  sessionBytes : TreeMap UInt32 Nat

/-- The messages of a sender that a completed message finishes: the one it names, or all active
ones. -/
def SenderState.finishedIds (state : SenderState) (mid : Option UInt32) : List UInt32 :=
  match mid with
  | some id => [id]
  | none => state.activeMessageIds.toList

def SenderState.stillActive (state : SenderState) (mid : Option UInt32) : TreeSet UInt32 :=
  match mid with
  | some id => state.activeMessageIds.erase id
  | none => ∅

/-- The entry of a sender with `pduLen` bytes more. -/
def SenderState.charge (entry : SenderState) (mid : Option UInt32) (pduLen now : Nat) :
    SenderState :=
  let entry := { entry with bufferedBytes := entry.bufferedBytes + pduLen, lastActive := now }
  match mid with
  | some mid => { entry with
      sessionBytes := entry.sessionBytes.insert mid ((entry.sessionBytes[mid]?).getD 0 + pduLen)
      activeMessageIds := entry.activeMessageIds.insert mid }
  | none => entry

/-- The 64-bit FNV-1a hash. -/
def hashPayload (data : Bytes) : UInt64 :=
  data.foldl (fun hash b => (hash ^^^ b.toUInt64) * 0x100000001b3) 0xcbf29ce484222325

inductive Error
  | payloadTooLarge (size max : Nat)
  | memoryCapExceeded (current max : Nat)
deriving DecidableEq, Repr

structure RxSessionManager (D : Type) where
  deframer : D
  senders : TreeMap Sender SenderState
  lruSenders : List Sender
  completedSessions : TreeMap MessageKey Nat
  completedPayloads : TreeMap PayloadKey Nat
  completedMessages : List CompletedMessage
  totalBufferedBytes : Nat
  maxConcurrentSenders : Nat
  maxInFlightBytes : Nat
  sessionTtl : Nat

variable {D : Type}

namespace RxSessionManager

def new (api : Deframer D) (maxConcurrentSenders maxInFlightBytes sessionTtl : Nat) :
    RxSessionManager D where
  deframer := api.new
  senders := ∅
  lruSenders := []
  completedSessions := ∅
  completedPayloads := ∅
  completedMessages := []
  totalBufferedBytes := 0
  maxConcurrentSenders := maxConcurrentSenders
  maxInFlightBytes := maxInFlightBytes
  sessionTtl := sessionTtl

/-! ### Evicting -/

/-- Makes `sender` the most recently active one. -/
def touchSender (m : RxSessionManager D) (sender : Sender) : RxSessionManager D :=
  let lru := match m.lruSenders.idxOf? sender with
    | some pos => m.lruSenders.eraseIdx pos
    | none => m.lruSenders
  { m with lruSenders := lru ++ [sender] }

/-- Where the oldest sender stands in `lru_senders`, other than the one to `skip`. -/
def targetIdx (m : RxSessionManager D) (skip : Option Sender) : Option Nat :=
  match skip with
  | some skipSender => m.lruSenders.findIdx? (· ≠ skipSender)
  | none => if m.lruSenders.isEmpty then none else some 0

/-- The deframer after one `cleanup_expired(Duration::ZERO)` for each of `ids`. -/
def purge (api : Deframer D) (deframer : D) (now : Nat) (ids : List UInt32) : D :=
  ids.foldl (fun d _ => (api.cleanupExpired d 0 now).2) deframer

/-- Evicts the oldest sender, and says whether there was one. -/
def evictOldestSender (api : Deframer D) (m : RxSessionManager D) (skip : Option Sender)
    (now : Nat) : Bool × RxSessionManager D :=
  match m.targetIdx skip with
  | none => (false, m)
  | some idx =>
    match m.lruSenders[idx]? with
    | none => (false, m)
    | some oldestSender =>
      let m := { m with lruSenders := m.lruSenders.eraseIdx idx }
      match m.senders[oldestSender]? with
      | none => (false, m)
      | some state =>
        (true, { m with
          senders := m.senders.erase oldestSender
          totalBufferedBytes := m.totalBufferedBytes - state.bufferedBytes
          deframer := purge api m.deframer now state.activeMessageIds.toList })

/-- The loop that makes room for `pduLen` bytes of `sender`.  Every turn but the last one takes a
sender off `lru_senders`, so `fuel` above its length is enough. -/
def makeRoom (api : Deframer D) (pduLen : Nat) (sender : Sender) (now : Nat) :
    Nat → RxSessionManager D → Except Error Unit × RxSessionManager D
  | 0, m => (.error (.memoryCapExceeded (m.totalBufferedBytes + pduLen) m.maxInFlightBytes), m)
  | fuel + 1, m =>
    if m.maxInFlightBytes < m.totalBufferedBytes + pduLen then
      match m.evictOldestSender api (some sender) now with
      | (true, m) => makeRoom api pduLen sender now fuel m
      | (false, m) =>
        (.error (.memoryCapExceeded (m.totalBufferedBytes + pduLen) m.maxInFlightBytes), m)
    else (.ok (), m)

/-! ### Events of the deframer -/

/-- What the loop over the finished messages of a sender adds up. -/
structure Release where
  sessionBytes : TreeMap UInt32 Nat
  deducted : Nat
  foundSession : Bool

def Release.add (r : Release) (id : UInt32) : Release :=
  match r.sessionBytes[id]? with
  | some bytes => ⟨r.sessionBytes.erase id, r.deducted + bytes, true⟩
  | none => r

/-- Releases the memory that a completed message `mid` of `src` had taken. -/
def releaseMessage (m : RxSessionManager D) (src : Sender) (mid : Option UInt32)
    (completionTime : Nat) : RxSessionManager D :=
  match m.senders[src]? with
  | none => m
  | some state =>
    let finishedIds := state.finishedIds mid
    let release := finishedIds.foldl Release.add ⟨state.sessionBytes, 0, false⟩
    let deducted := if release.foundSession then release.deducted else state.bufferedBytes
    { m with
      senders := m.senders.insert src { state with
        bufferedBytes := state.bufferedBytes - deducted
        activeMessageIds := state.stillActive mid
        sessionBytes := release.sessionBytes }
      completedSessions := finishedIds.foldl
        (fun sessions id => sessions.insert ⟨src, id⟩ completionTime) m.completedSessions
      totalBufferedBytes := m.totalBufferedBytes - deducted }

/-- The message that a completed message belongs to: the one in its header, or that of the last PDU
of its sender. -/
def messageOf (lastMidBySender : TreeMap Sender UInt32) (header : Header) : Option UInt32 :=
  header.message.or lastMidBySender[header.srcCallsign]?

/-- One turn of the loop over the events.  The second component is `last_mid_by_sender`. -/
def handleEvent (now : Nat) (s : RxSessionManager D × TreeMap Sender UInt32) :
    Event → RxSessionManager D × TreeMap Sender UInt32
  | .pdu header =>
    match header.message with
    | some id => (s.1, s.2.insert header.srcCallsign id)
    | none => s
  | .message header payload =>
    let src := header.srcCallsign
    let mid := messageOf s.2 header
    let dupKey : PayloadKey := ⟨src, hashPayload payload⟩
    if s.1.completedPayloads.contains dupKey then s
    else
      let m := { s.1 with completedPayloads := s.1.completedPayloads.insert dupKey now }
      let m := m.releaseMessage src mid now
      ({ m with
        completedMessages := m.completedMessages ++ [⟨src, header.dstCallsign, mid, payload⟩] },
        s.2)
  | .sessionExpired => s
  | .duplicate => s

def pollDeframerEvents (api : Deframer D) (m : RxSessionManager D) (now : Nat) :
    RxSessionManager D :=
  let (events, deframer) := api.nextEvents m.deframer
  (events.foldl (handleEvent now) ({ m with deframer := deframer }, ∅)).1

/-! ### Operations -/

/-- The sender and the message that `unpack` reads from a PDU. -/
def peek (api : Deframer D) (pdu : Bytes) : Sender × Option UInt32 :=
  match api.unpack pdu with
  | some header => (header.srcCallsign, header.message)
  | none => (none, none)

/-- Charges `pduLen` bytes to `sender`, and to its message `mid`. -/
def charge (m : RxSessionManager D) (sender : Sender) (mid : Option UInt32) (pduLen now : Nat) :
    RxSessionManager D :=
  let m := { m with totalBufferedBytes := m.totalBufferedBytes + pduLen }
  let m := m.touchSender sender
  let senderEntry := (m.senders[sender]?).getD ⟨now, 0, ∅, ∅⟩
  { m with senders := m.senders.insert sender (senderEntry.charge mid pduLen now) }

/-- Frees a place for a sender that is not there yet. -/
def makePlace (api : Deframer D) (m : RxSessionManager D) (sender : Sender) (now : Nat) :
    RxSessionManager D :=
  if ¬ m.senders.contains sender ∧ m.maxConcurrentSenders ≤ m.senders.size then
    (m.evictOldestSender api none now).2
  else m

/-- Chunks of a message that is already complete are dropped. -/
def isCompleted (m : RxSessionManager D) (sender : Sender) (mid : Option UInt32) : Bool :=
  match mid with
  | some mid => m.completedSessions.contains ⟨sender, mid⟩
  | none => false

/-- `process_pdu` up to the deframer, and whether the deframer was fed. -/
def admitPdu (api : Deframer D) (m : RxSessionManager D) (pdu : Bytes) (now : Nat) :
    Except Error Bool × RxSessionManager D :=
  let pduLen := pdu.length
  if m.maxInFlightBytes < pduLen then
    (.error (.payloadTooLarge pduLen m.maxInFlightBytes), m)
  else
    let (sender, mid) := peek api pdu
    if m.isCompleted sender mid then (.ok false, m)
    else
      let m := m.makePlace api sender now
      match makeRoom api pduLen sender now (m.lruSenders.length + 1) m with
      | (.error e, m) => (.error e, m)
      | (.ok (), m) =>
        let m := m.charge sender mid pduLen now
        (.ok true, { m with deframer := api.receiveBytes m.deframer pdu now })

def processPdu (api : Deframer D) (m : RxSessionManager D) (pdu : Bytes) (now : Nat) :
    Except Error Unit × RxSessionManager D :=
  match m.admitPdu api pdu now with
  | (.error e, m) => (.error e, m)
  | (.ok fed, m) => (.ok (), if fed then m.pollDeframerEvents api now else m)

def drainCompletedMessages (api : Deframer D) (m : RxSessionManager D) (now : Nat) :
    List CompletedMessage × RxSessionManager D :=
  let m := m.pollDeframerEvents api now
  (m.completedMessages, { m with completedMessages := [] })

/-- Drops a sender that was silent for too long. -/
def dropStale (m : RxSessionManager D) (stale : Sender) : RxSessionManager D :=
  let m := match m.senders[stale]? with
    | some removed => { m with
        senders := m.senders.erase stale
        totalBufferedBytes := m.totalBufferedBytes - removed.bufferedBytes }
    | none => m
  { m with
    lruSenders := match m.lruSenders.idxOf? stale with
      | some pos => m.lruSenders.eraseIdx pos
      | none => m.lruSenders }

/-- The senders whose last activity is `timeout` or more ago. -/
def staleSenders (m : RxSessionManager D) (now timeout : Nat) : List Sender :=
  (m.senders.filter fun _ state => timeout ≤ now - state.lastActive).keys

/-- `sweep_expired_at`. -/
def sweepExpired (api : Deframer D) (m : RxSessionManager D) (now timeout : Nat) :
    Nat × RxSessionManager D :=
  let (expired, deframer) := api.cleanupExpired m.deframer timeout now
  let m := { m with deframer := deframer }
  let m := (m.staleSenders now timeout).foldl dropStale m
  (expired.length, { m with
    completedSessions := m.completedSessions.filter fun _ time => now - time < timeout
    completedPayloads := m.completedPayloads.filter fun _ time => now - time < timeout })

/-- `sweep_expired_default`. -/
def sweepExpiredDefault (api : Deframer D) (m : RxSessionManager D) (now : Nat) :
    Nat × RxSessionManager D :=
  m.sweepExpired api now m.sessionTtl

/-! ### Runs -/

inductive Action
  | processPdu (pdu : Bytes) (now : Nat)
  | drainCompletedMessages (now : Nat)
  | sweepExpired (now timeout : Nat)

def step (api : Deframer D) (m : RxSessionManager D) : Action → RxSessionManager D
  | .processPdu pdu now => (m.processPdu api pdu now).2
  | .drainCompletedMessages now => (m.drainCompletedMessages api now).2
  | .sweepExpired now timeout => (m.sweepExpired api now timeout).2

end RxSessionManager

end HdyUtils.Hqfbp
