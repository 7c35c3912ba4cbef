import HdyUtils.Ltp.Host

/-! The driver of the convergence layer adapter (`ltp-cla/src/driver.rs`): an engine between the
bundle agent's commands and a link of datagrams or KISS frames.  A driver handles one event at a
time, and the loops of the source drain outputs and notices between events.  It keeps a log of what
it told the bundle agent and of what it put on the link. -/

namespace HdyUtils.Cla

open Ltp
open Std (TreeMap)

/-! ### Configuration (`ltp-cla/src/config.rs`) -/

structure PeerEntry where
  engineId : EngineId
  rttMicros : Option Nat
  ackMarginMicros : Option Nat

inductive TransportMode
  | udp
  | kissTcp (minFrameLen : Nat)

structure Config where
  engineId : EngineId
  transport : TransportMode
  maxSegmentPayloadLen : Nat
  rttMicros : Nat
  ackMarginMicros : Nat
  checkpointRtxLimit : Nat
  reportRtxLimit : Nat
  peers : List PeerEntry

/-- A duration in microseconds as a `u64`. -/
def microsU64 (micros : Nat) : Nat := min micros u64Max

/-- The configuration of the engine that `Driver::spawn` creates. -/
def Config.engineConfig (config : Config) : EngineConfig :=
  { EngineConfig.default with
    engineId := config.engineId
    maxSegmentPayloadLen := config.maxSegmentPayloadLen
    checkpointRtxLimit := config.checkpointRtxLimit
    reportRtxLimit := config.reportRtxLimit
    rttMicros := microsU64 config.rttMicros
    ackMarginMicros := microsU64 config.ackMarginMicros
    allowedClientServices := some [1] }

/-- The timings of the configured peers, as calls on the new engine. -/
def Config.peerTimings (config : Config) : List Call :=
  config.peers.filterMap fun peer =>
    match peer.rttMicros, peer.ackMarginMicros with
    | some rtt, some ackMargin =>
      some (.setPeerTiming peer.engineId (microsU64 rtt) (microsU64 ackMargin))
    | _, _ => none

/-! ### The driver's state -/

inductive TransferOutcome
  | completed
  | failed
deriving DecidableEq, Repr

structure GreenReassembly where
  data : Bytes
  receivedBytes : Nat
  totalLen : Option Nat
  lastUpdate : Nat

namespace GreenReassembly

/-- The reassembly with one more segment. -/
def add (r : GreenReassembly) (offset : Nat) (data : Bytes) (eob : Bool) (now : Nat) :
    GreenReassembly where
  data := writeAt r.data offset data
  receivedBytes := r.receivedBytes + data.length
  totalLen := if eob then some (offset + data.length) else r.totalLen
  lastUpdate := now

/-- The reassembled block is complete. -/
def isComplete (r : GreenReassembly) : Bool :=
  match r.totalLen with
  | some total => decide (total ≤ r.receivedBytes) && r.data.length == total
  | none => false

end GreenReassembly

/-- A bundle handed to the bundle agent. -/
structure Dispatch (ν : Type) where
  node : Option ν
  source : EngineId
  data : Bytes

/-- A driver of bundles named by `β`, with nodes `ν` and link addresses `α`. -/
structure Driver (β ν α : Type) [Ord α] where
  config : Config
  host : Host
  engineToAddr : TreeMap EngineId α
  addrToEngine : TreeMap α EngineId
  engineToNode : TreeMap EngineId ν
  pendingTransfers : TreeMap SessionId β
  greenReassemblies : TreeMap SessionId GreenReassembly
  running : Bool
  /-- The forwards answered with `Accepted`. -/
  accepted : List (SessionId × β)
  /-- The transfer outcomes, with the session of each. -/
  outcomes : List (SessionId × β × TransferOutcome)
  dispatched : List (Dispatch ν)
  /-- What was put on the link; KISS frames have no address. -/
  transmitted : List (Option α × Bytes)

inductive DriverCommand (β ν α : Type)
  | forward (bundleId : β) (destinationEngine : EngineId) (data : Bytes) (redLen : Nat)
  | registerPeer (engineId : EngineId) (addr : α) (nodeId : Option ν)
  | unregisterPeer (engineId : EngineId)
  | setPeerTiming (engineId : EngineId) (rttMicros ackMarginMicros : Nat)
  | shutdown

/-- Pads a segment with a trailer extension to the frame length that a TNC requires. -/
def padSegmentForTnc (bytes : Bytes) (minFrameLen : Nat) : Bytes :=
  if minFrameLen = 0 ∨ minFrameLen ≤ bytes.length then bytes
  else
    match Segment.parse bytes with
    | .ok (seg, consumed) =>
      if consumed = bytes.length ∧ seg.trailerExt.length < 15 then
        let padLen := minFrameLen - (bytes.length + 2)
        let padding : Extension := { tag := 0, value := List.replicate padLen 0 }
        { seg with trailerExt := seg.trailerExt ++ [padding] }.encodeToVec
      else bytes
    | .error _ => bytes

namespace Driver

variable {β ν α : Type} [Ord α]

/-- The driver that `Driver::spawn` sets up. -/
def new (config : Config) : Driver β ν α where
  config := config
  host := (Host.new config.engineConfig).run config.peerTimings
  engineToAddr := ∅
  addrToEngine := ∅
  engineToNode := ∅
  pendingTransfers := ∅
  greenReassemblies := ∅
  running := true
  accepted := []
  outcomes := []
  dispatched := []
  transmitted := []

/-! ### Receiving -/

/-- The engine at the other end of a session: its originator, or the peer of a session of this
engine, or else `other`. -/
def sessionPeer (d : Driver β ν α) (session : SessionId) (other : EngineId) : EngineId :=
  if session.originator ≠ d.config.engineId then session.originator
  else
    match d.host.engine.peerForSession session with
    | some peer => peer
    | none => other

/-- The engine behind a datagram, and the driver with what it learnt about the address. -/
def udpPeer (d : Driver β ν α) (peerAddr : α) (port : UInt64) (buf : Bytes) :
    EngineId × Driver β ν α :=
  match d.addrToEngine[peerAddr]? with
  | some id =>
    if d.engineToAddr.contains id then
      (id, { d with engineToAddr := d.engineToAddr.insert id peerAddr })
    else (id, d)
  | none =>
    match Segment.peekSession buf with
    | .ok session =>
      let other :=
        if d.engineToAddr.size = 1 then (d.engineToAddr.keys.head?).getD ⟨port⟩ else ⟨port⟩
      let id := d.sessionPeer session other
      let addrToEngine := if 1024 ≤ d.addrToEngine.size then ∅ else d.addrToEngine
      (id, { d with
        addrToEngine := addrToEngine.insert peerAddr id
        engineToAddr := d.engineToAddr.insert id peerAddr })
    | .error _ => (⟨port⟩, d)

/-- A datagram, unless it is a keep-alive. -/
def receiveDatagram (d : Driver β ν α) (peerAddr : α) (port : UInt64) (buf : Bytes) (now : Nat) :
    Driver β ν α :=
  if buf = [0, 0, 0, 0] then d
  else
    let (peerEngine, d) := d.udpPeer peerAddr port buf
    { d with host := d.host.receive peerEngine buf now }

/-- The key of `engineToAddr` that a hash map yields first.  It may be any, so `first` says which. -/
def firstPeer (d : Driver β ν α) (first : EngineId) : EngineId :=
  if d.engineToAddr.contains first then first else (d.engineToAddr.keys.head?).getD ⟨2⟩

/-- The engine behind a KISS frame. -/
def kissPeer (d : Driver β ν α) (payload : Bytes) (first : EngineId) : EngineId :=
  match Segment.peekSession payload with
  | .ok session => d.sessionPeer session (d.firstPeer first)
  | .error _ => d.firstPeer first

def receiveFrame (d : Driver β ν α) (payload : Bytes) (first : EngineId) (now : Nat) :
    Driver β ν α :=
  { d with host := d.host.receive (d.kissPeer payload first) payload now }

def tick (d : Driver β ν α) (now : Nat) : Driver β ν α :=
  { d with
    host := { d.host with engine := d.host.engine.handleTimerTick now, tickTime := now } }

/-! ### Commands -/

/-- Requests the transmission of a bundle as a block for client service 1. -/
def forward (d : Driver β ν α) (bundleId : β) (destinationEngine : EngineId) (data : Bytes)
    (redLen now : Nat) : Driver β ν α :=
  if d.engineToAddr.contains destinationEngine then
    match d.host.engine.requestTransmission destinationEngine 1 data redLen now with
    | .ok (sessionId, _) =>
      { d with
        host := d.host.request destinationEngine 1 data redLen now
        pendingTransfers := d.pendingTransfers.insert sessionId bundleId
        accepted := d.accepted ++ [(sessionId, bundleId)] }
    | .error _ => d
  else d

def registerPeer (d : Driver β ν α) (engineId : EngineId) (addr : α) (nodeId : Option ν) :
    Driver β ν α :=
  { d with
    engineToAddr := d.engineToAddr.insert engineId addr
    addrToEngine := d.addrToEngine.insert addr engineId
    engineToNode := match nodeId with
      | some node => d.engineToNode.insert engineId node
      | none => d.engineToNode }

def unregisterPeer (d : Driver β ν α) (engineId : EngineId) : Driver β ν α :=
  { d with
    engineToAddr := d.engineToAddr.erase engineId
    addrToEngine := match d.engineToAddr[engineId]? with
      | some addr => d.addrToEngine.erase addr
      | none => d.addrToEngine
    engineToNode := d.engineToNode.erase engineId }

/-- Ends the driver: every transfer that is still pending has failed. -/
def stop (d : Driver β ν α) : Driver β ν α :=
  { d with
    pendingTransfers := ∅
    running := false
    outcomes := d.outcomes ++ d.pendingTransfers.toList.map fun (session, bundleId) =>
      (session, bundleId, .failed) }

def handleCommand (d : Driver β ν α) (now : Nat) : DriverCommand β ν α → Driver β ν α
  | .forward bundleId destinationEngine data redLen =>
    d.forward bundleId destinationEngine data redLen now
  | .registerPeer engineId addr nodeId => d.registerPeer engineId addr nodeId
  | .unregisterPeer engineId => d.unregisterPeer engineId
  | .setPeerTiming engineId rttMicros ackMarginMicros =>
    { d with
      host := d.host.call (.setPeerTiming engineId (microsU64 rttMicros) (microsU64 ackMarginMicros)) }
  | .shutdown => d.stop

/-! ### Draining -/

/-- Puts a segment on the link. -/
def transmit (d : Driver β ν α) (peer : EngineId) (bytes : Bytes) : Driver β ν α :=
  match d.config.transport with
  | .udp =>
    match d.engineToAddr[peer]? with
    | some addr => { d with transmitted := d.transmitted ++ [(some addr, bytes)] }
    | none => d
  | .kissTcp minFrameLen =>
    { d with transmitted := d.transmitted ++ [(none, padSegmentForTnc bytes minFrameLen)] }

/-- Polls and transmits the queued segments, at most `fuel` of them. -/
def drainOutputs : Nat → Driver β ν α → Driver β ν α
  | 0, d => d
  | fuel + 1, d =>
    match d.host.engine.outbound with
    | (peer, bytes) :: _ =>
      drainOutputs fuel ({ d with host := d.host.call .pollOutput }.transmit peer bytes)
    | [] => d

/-- Reports the end of a session's transfer. -/
def settle (d : Driver β ν α) (session : SessionId) (outcome : TransferOutcome) : Driver β ν α :=
  match d.pendingTransfers[session]? with
  | some bundleId =>
    { d with
      pendingTransfers := d.pendingTransfers.erase session
      outcomes := d.outcomes ++ [(session, bundleId, outcome)] }
  | none => d

def dispatch (d : Driver β ν α) (source : EngineId) (data : Bytes) : Driver β ν α :=
  { d with dispatched := d.dispatched ++ [⟨d.engineToNode[source]?, source, data⟩] }

/-- `MAX_GREEN_REASSEMBLIES`. -/
def maxGreenReassemblies : Nat := 64

/-- `MAX_GREEN_BUNDLE_SIZE`. -/
def maxGreenBundleSize : Nat := 16 * 1024 * 1024

/-- The reassemblies updated in the last `seconds`. -/
def recentReassemblies (reassemblies : TreeMap SessionId GreenReassembly) (now seconds : Nat) :
    TreeMap SessionId GreenReassembly :=
  reassemblies.filter fun _ r => decide (now - r.lastUpdate < seconds * 1000000)

/-- Adds a segment to the green block of its session, and dispatches the block once it is
complete. -/
def reassembleGreen (d : Driver β ν α) (session : SessionId) (source : EngineId) (offset : Nat)
    (data : Bytes) (eob : Bool) (now : Nat) : Driver β ν α :=
  let endOffset := offset + data.length
  if u64Max < endOffset then d
  else if maxGreenBundleSize < endOffset then
    { d with greenReassemblies := d.greenReassemblies.erase session }
  else
    let crowded := !d.greenReassemblies.contains session &&
      decide (maxGreenReassemblies ≤ d.greenReassemblies.size)
    let d :=
      if crowded then
        { d with greenReassemblies := recentReassemblies d.greenReassemblies now 60 }
      else d
    if crowded && decide (maxGreenReassemblies ≤ d.greenReassemblies.size) then d
    else
      let entry : GreenReassembly := (d.greenReassemblies[session]?).getD
        { data := [], receivedBytes := 0, totalLen := none, lastUpdate := now }
      let entry := entry.add offset data eob now
      let d :=
        if entry.isComplete then
          { d with greenReassemblies := d.greenReassemblies.erase session }.dispatch source
            entry.data
        else { d with greenReassemblies := d.greenReassemblies.insert session entry }
      if 128 < d.greenReassemblies.size then
        { d with greenReassemblies := recentReassemblies d.greenReassemblies now 30 }
      else d

def handleNotice (d : Driver β ν α) (now : Nat) : Notice → Driver β ν α
  | .redPartReceived _ source clientService data _ =>
    if clientService ≠ 1 then d else d.dispatch source data
  | .transmissionSessionCompleted session => d.settle session .completed
  | .transmissionSessionCancelled session _ => d.settle session .failed
  | .greenSegmentArrived session source offset data eob =>
    if offset = 0 ∧ eob then d.dispatch source data
    else d.reassembleGreen session source offset data eob now

/-- Polls and handles the notices, at most `fuel` of them. -/
def drainNotices (now : Nat) : Nat → Driver β ν α → Driver β ν α
  | 0, d => d
  | fuel + 1, d =>
    match d.host.engine.notices with
    | notice :: _ =>
      drainNotices now fuel ({ d with host := d.host.call .pollNotice }.handleNotice now notice)
    | [] => d

/-! ### Events -/

inductive Event (β ν α : Type)
  | command (cmd : DriverCommand β ν α) (now : Nat)
  | datagram (peerAddr : α) (port : UInt64) (buf : Bytes) (now : Nat)
  | frame (payload : Bytes) (first : EngineId) (now : Nat)
  | tick (now : Nat)
  | drainOutputs
  | drainNotices (now : Nat)
  | stop

def handle (d : Driver β ν α) : Event β ν α → Driver β ν α
  | .command cmd now => d.handleCommand now cmd
  | .datagram peerAddr port buf now => d.receiveDatagram peerAddr port buf now
  | .frame payload first now => d.receiveFrame payload first now
  | .tick now => d.tick now
  | .drainOutputs => drainOutputs d.host.engine.outbound.length d
  | .drainNotices now => drainNotices now d.host.engine.notices.length d
  | .stop => d.stop

/-- A driver that has stopped handles nothing more. -/
def step (d : Driver β ν α) (event : Event β ν α) : Driver β ν α :=
  if d.running then d.handle event else d

end Driver

end HdyUtils.Cla
