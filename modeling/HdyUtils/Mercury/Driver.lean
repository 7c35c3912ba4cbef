import HdyUtils.Ltp.Types
import HdyUtils.Lib.Maps
import HdyUtils.Lib.Trace

/-! The driver of the Mercury convergence layer (`mercury-cla/src/driver.rs`): one task that owns the
control socket of a modem, the session with the peer of its single link, and the queue of the task
that writes bundles to the data socket.  Instants and durations are naturals. -/

namespace HdyUtils.Mercury

open Std (TreeMap)

abbrev Bytes := Ltp.Bytes

/-- What the driver takes from elsewhere: the case mappings of Unicode, and the parser of node ids,
of type `N`. -/
structure Platform (N : Type) where
  toUppercase : String → String
  toLowercase : String → String
  parseNodeId : String → Option N

/-- Case mappings of ASCII, and node ids that are their text. -/
def ascii : Platform String := ⟨String.toUpper, String.toLower, some⟩

/-- The address of a neighbour.  The driver makes only the private ones. -/
inductive ClaAddress
  | tcp (address : String)
  | privateAddress (bytes : Bytes)
deriving DecidableEq, Repr

inductive Error
  | io
  | control (message : String)
  | connectionFailed
  | busy
deriving DecidableEq, Repr

/-- The channel on which a command is answered. -/
abbrev ReplyId := Nat

inductive Reply
  | ok
  | error (e : Error)
  | connected (isConn : Bool)
deriving DecidableEq, Repr

variable {N : Type}

inductive DriverCommand (N : Type)
  | connect (callsign : String) (nodeId : N) (reply : ReplyId)
  | disconnect (reply : ReplyId)
  | forwardBundle (data : Bytes) (reply : ReplyId)
  | registerPeer (callsign : String) (effectiveNodeId : N)
  | isConnected (reply : ReplyId)
  | shutdown

inductive SessionState (N : Type)
  | disconnected
  | connecting (peerCallsign : String) (peerNodeId : N)
  | connected (peerCallsign : String) (peerNodeId : N) (connectedAt lastActivity : Nat)
  | disconnecting
deriving DecidableEq

/-- The callsign of the peer that the session is connected to. -/
def SessionState.peer : SessionState N → Option String
  | .connected peerCallsign _ _ _ => some peerCallsign
  | _ => none

structure Config where
  myCallsign : String
  idleTimeout : Option Nat

/-! ### Text -/

/-- The characters with the Unicode property `White_Space`. -/
def isWhitespace (c : Char) : Bool :=
  let n := c.toNat
  (0x09 ≤ n ∧ n ≤ 0x0D) ∨ (0x2000 ≤ n ∧ n ≤ 0x200A) ∨
    n ∈ [0x20, 0x85, 0xA0, 0x1680, 0x2028, 0x2029, 0x202F, 0x205F, 0x3000]

/-- `split_whitespace`. -/
def splitWhitespace (line : String) : List String :=
  ((line.toList.splitOnP isWhitespace).filter (· ≠ [])).map String.ofList

/-- `trim`. -/
def trim (s : String) : String :=
  String.ofList (((s.toList.dropWhile isWhitespace).reverse.dropWhile isWhitespace).reverse)

def isValidCallsign (call : String) : Bool :=
  let call := trim call
  !call.isEmpty && call.utf8ByteSize ≤ 15 && call.toList.all fun c => c.isAlphanum || c = '-'

variable (platform : Platform N)

def callsignToClaAddress (callsign : String) : ClaAddress :=
  .privateAddress (platform.toUppercase callsign).toUTF8.data.toList

/-- The peer that a `CONNECTED` line names: the one of its two stations that is not this one. -/
def connectedPeer (config : Config) (line : String) : String :=
  let (src, dst) := match splitWhitespace line with
    | _ :: src :: dst :: _ => (platform.toUppercase src, platform.toUppercase dst)
    | _ => ("", "")
  if src = platform.toUppercase config.myCallsign then dst else src

/-! ### States -/

/-- What the session loop keeps for one pair of sockets. -/
structure Link (N : Type) where
  session : SessionState N
  pendingConnectReply : Option ReplyId
  pendingDisconnectReply : Option ReplyId
  /-- The channel to the task that writes to the data socket. -/
  dataQueue : List (Bytes × ReplyId)
  writerRunning : Bool
  /-- The commands written to the control socket. -/
  control : List String
  /-- The bytes written to the data socket. -/
  stream : Bytes
deriving DecidableEq

/-- The link of a pair of sockets that was just opened. -/
def Link.new : Link N := ⟨.disconnected, none, none, [], true, [], []⟩

inductive Phase (N : Type)
  | offline
  | online (link : Link N)
  | stopped
deriving DecidableEq

/-- The session that the driver is in, if it has a link. -/
def Phase.session : Phase N → Option (SessionState N)
  | .online link => some link.session
  | _ => none

/-- A bundle that went to the data socket, and the peer that the session was connected to. -/
structure Written where
  data : Bytes
  reply : ReplyId
  peer : Option String
deriving DecidableEq, Repr

structure Driver (N : Type) where
  peers : TreeMap String N
  phase : Phase N
  /-- The addresses given to `add_peer` and not yet to `remove_peer`. -/
  registered : Finset ClaAddress
  /-- The bundles given to the agent. -/
  dispatched : List (N × ClaAddress × Bytes)
  replies : List (ReplyId × Reply)
  written : List Written

inductive Event (N : Type)
  /-- Both sockets are open, and the modem is set up. -/
  | opened
  | idleTick (now : Nat) (writeOk : Bool)
  | ctlLine (line : String) (now : Nat)
  | ctlClosed
  | bundle (data : Bytes) (now : Nat)
  | dataClosed
  /-- A command; `writeOk` says whether the control socket takes what is written for it. -/
  | command (cmd : DriverCommand N) (now : Nat) (writeOk : Bool)
  | commandsClosed
  /-- The writer task writes the bundle at the front of its channel. -/
  | dataWrite (writeOk : Bool)

namespace Driver

def new (peers : TreeMap String N) : Driver N := ⟨peers, .offline, ∅, [], [], []⟩

def answer (d : Driver N) (reply : ReplyId) (result : Reply) : Driver N :=
  { d with replies := d.replies ++ [(reply, result)] }

/-- Answers a reply that is pending. -/
def answerPending (d : Driver N) (pending : Option ReplyId) (result : Reply) : Driver N :=
  match pending with
  | some reply => d.answer reply result
  | none => d

def addPeer (d : Driver N) (addr : ClaAddress) : Driver N :=
  { d with registered := insert addr d.registered }

def removePeer (d : Driver N) (addr : ClaAddress) : Driver N :=
  { d with registered := d.registered.erase addr }

def online (d : Driver N) (link : Link N) : Driver N := { d with phase := .online link }

/-- `break 'session_loop`. -/
def loseLink (d : Driver N) : Driver N := { d with phase := .offline }

def stop (d : Driver N) : Driver N := { d with phase := .stopped }

variable (config : Config)

/-- The node of a peer, entered in the table if it is new.  An id that does not parse is a panic. -/
def peerNode (d : Driver N) (peer : String) : Option (N × Driver N) :=
  match d.peers[peer]? with
  | some node => some (node, d)
  | none =>
    (platform.parseNodeId ("dtn://" ++ platform.toLowercase peer ++ "/")).map fun node =>
      (node, { d with peers := d.peers.insert peer node })

def handleCtlLine (d : Driver N) (link : Link N) (line : String) (now : Nat) : Driver N :=
  if "CONNECTED".toList.isPrefixOf line.toList then
    let peer := connectedPeer platform config line
    match d.peerNode platform peer with
    | none => d.stop
    | some (node, d) =>
      ((d.addPeer (callsignToClaAddress platform peer)).answerPending
        link.pendingConnectReply .ok).online
        { link with session := .connected peer node now now, pendingConnectReply := none }
  else if line = "DISCONNECTED" then
    let d := match link.session with
      | .connected peer _ _ _ => d.removePeer (callsignToClaAddress platform peer)
      | _ => d
    ((d.answerPending link.pendingConnectReply (.error .connectionFailed)).answerPending
      link.pendingDisconnectReply .ok).online
      { link with
        session := .disconnected, pendingConnectReply := none, pendingDisconnectReply := none }
  else if line = "WRONG" then
    (d.answerPending link.pendingConnectReply
      (.error (.control "Mercury rejected command"))).online
      { link with pendingConnectReply := none }
  else d

/-- A turn of the session loop for the idle timer. -/
def handleTick (d : Driver N) (link : Link N) (now : Nat) (writeOk : Bool) : Driver N :=
  match link.session, config.idleTimeout with
  | .connected peer _ _ lastActivity, some idle =>
    if idle ≤ now - lastActivity then
      (d.removePeer (callsignToClaAddress platform peer)).online
        { link with
          session := .disconnecting
          control := if writeOk then link.control ++ ["DISCONNECT\r"] else link.control }
    else d
  | _, _ => d

/-- A turn for a bundle read from the data socket. -/
def handleBundle (d : Driver N) (link : Link N) (data : Bytes) (now : Nat) : Driver N :=
  match link.session with
  | .connected peer node connectedAt _ =>
    { d with
      dispatched := d.dispatched ++ [(node, callsignToClaAddress platform peer, data)]
      phase := .online { link with session := .connected peer node connectedAt now } }
  | _ => d

def handleConnect (d : Driver N) (link : Link N) (callsign : String) (nodeId : N)
    (reply : ReplyId) (writeOk : Bool) : Driver N :=
  if !isValidCallsign callsign || !isValidCallsign config.myCallsign then
    d.answer reply (.error (.control "Invalid callsign format"))
  else
    let upperCall := platform.toUppercase callsign
    match link.session with
    | .disconnected =>
      if writeOk then
        d.online { link with
          session := .connecting upperCall nodeId
          pendingConnectReply := some reply
          control := link.control ++ ["CONNECT " ++ config.myCallsign ++ " " ++ upperCall ++ "\r"] }
      else d.answer reply (.error .io)
    | .connected peer _ _ _ =>
      if peer = upperCall then d.answer reply .ok else d.answer reply (.error .busy)
    | _ => d.answer reply (.error .busy)

def handleDisconnect (d : Driver N) (link : Link N) (reply : ReplyId) (writeOk : Bool) :
    Driver N :=
  let close (peer : String) : Driver N :=
    let d := d.removePeer (callsignToClaAddress platform peer)
    if writeOk then
      d.online { link with
        session := .disconnecting
        pendingDisconnectReply := some reply
        control := link.control ++ ["DISCONNECT\r"] }
    else d.answer reply (.error .io)
  match link.session with
  | .connected peer _ _ _ => close peer
  | .connecting peer _ => close peer
  | _ => d.answer reply .ok

/-- A full channel makes the loop wait for the writer, as if the command came later. -/
def handleForward (d : Driver N) (link : Link N) (data : Bytes) (reply : ReplyId) (now : Nat) :
    Driver N :=
  match link.session with
  | .connected peer node connectedAt _ =>
    if link.writerRunning then
      d.online { link with
        session := .connected peer node connectedAt now
        dataQueue := link.dataQueue ++ [(data, reply)] }
    else d.loseLink
  | _ => d.answer reply (.error .connectionFailed)

def handleShutdown (d : Driver N) (link : Link N) : Driver N :=
  match link.session with
  | .connected peer _ _ _ => (d.removePeer (callsignToClaAddress platform peer)).stop
  | _ => d.stop

def handleCommand (d : Driver N) (link : Link N) (now : Nat) (writeOk : Bool) :
    DriverCommand N → Driver N
  | .connect callsign nodeId reply =>
    d.handleConnect platform config link callsign nodeId reply writeOk
  | .disconnect reply => d.handleDisconnect platform link reply writeOk
  | .forwardBundle data reply => d.handleForward link data reply now
  | .registerPeer callsign node =>
    { d with peers := d.peers.insert (platform.toUppercase callsign) node }
  | .isConnected reply => d.answer reply (.connected link.session.peer.isSome)
  | .shutdown => d.handleShutdown platform link

/-- A command while the modem is not reachable. -/
def handleOffline (d : Driver N) : DriverCommand N → Driver N
  | .connect _ _ reply => d.answer reply (.error (.control "Mercury TNC offline"))
  | .disconnect reply => d.answer reply .ok
  | .forwardBundle _ reply => d.answer reply (.error (.control "Mercury TNC offline"))
  | .registerPeer callsign node =>
    { d with peers := d.peers.insert (platform.toUppercase callsign) node }
  | .isConnected reply => d.answer reply (.connected false)
  | .shutdown => d.stop

end Driver

/-- The frame of a bundle: its length in four octets, and its bytes. -/
def frame (bundle : Bytes) : Bytes :=
  let len := bundle.length % 2 ^ 32
  [UInt8.ofNat (len / 2 ^ 24), UInt8.ofNat (len / 2 ^ 16), UInt8.ofNat (len / 2 ^ 8),
    UInt8.ofNat len] ++ bundle

namespace Driver

/-- A turn of the writer task.  A write that fails ends the task, and the replies that wait in its
channel are dropped. -/
def handleWrite (d : Driver N) (link : Link N) (writeOk : Bool) : Driver N :=
  match link.dataQueue with
  | [] => d
  | (data, reply) :: queue =>
    if writeOk then
      { d.answer reply .ok with
        written := d.written ++ [⟨data, reply, link.session.peer⟩]
        phase := .online { link with dataQueue := queue, stream := link.stream ++ frame data } }
    else
      (d.answer reply (.error .io)).online { link with dataQueue := [], writerRunning := false }

def stepOnline (config : Config) (d : Driver N) (link : Link N) : Event N → Driver N
  | .opened => d
  | .idleTick now writeOk => d.handleTick platform config link now writeOk
  | .ctlLine line now => d.handleCtlLine platform config link line now
  | .ctlClosed => d.loseLink
  | .bundle data now => d.handleBundle platform link data now
  | .dataClosed => d.loseLink
  | .command cmd now writeOk => d.handleCommand platform config link now writeOk cmd
  | .commandsClosed => d.stop
  | .dataWrite writeOk => d.handleWrite link writeOk

def step (config : Config) (d : Driver N) (event : Event N) : Driver N :=
  match d.phase with
  | .offline =>
    match event with
    | .opened => d.online .new
    | .command cmd _ _ => d.handleOffline platform cmd
    | .commandsClosed => d.stop
    | _ => d
  | .online link => d.stepOnline platform config link event
  | .stopped => d

theorem step_online {platform : Platform N} {config : Config} {d : Driver N} {link : Link N}
    (hphase : d.phase = .online link) (event : Event N) :
    d.step platform config event = d.stepOnline platform config link event := by
  unfold step
  rw [hphase]

/-! ### What the small operations change -/

section Small

variable {platform} (d : Driver N) (pending : Option ReplyId) (reply : ReplyId) (result : Reply)
  (addr : ClaAddress) (link : Link N)

@[simp] theorem answer_registered : (d.answer reply result).registered = d.registered := rfl
@[simp] theorem answer_phase : (d.answer reply result).phase = d.phase := rfl
@[simp] theorem answer_replies :
    (d.answer reply result).replies = d.replies ++ [(reply, result)] := rfl

@[simp] theorem answerPending_registered :
    (d.answerPending pending result).registered = d.registered := by
  cases pending <;> rfl

@[simp] theorem answerPending_phase : (d.answerPending pending result).phase = d.phase := by
  cases pending <;> rfl

@[simp] theorem answerPending_replies : (d.answerPending pending result).replies =
    d.replies ++ (pending.map fun reply => (reply, result)).toList := by
  cases pending
  · exact (List.append_nil _).symm
  · rfl

@[simp] theorem answerPending_written :
    (d.answerPending pending result).written = d.written := by
  cases pending <;> rfl

@[simp] theorem addPeer_registered : (d.addPeer addr).registered = insert addr d.registered := rfl
@[simp] theorem addPeer_phase : (d.addPeer addr).phase = d.phase := rfl
@[simp] theorem addPeer_replies : (d.addPeer addr).replies = d.replies := rfl
@[simp] theorem removePeer_registered :
    (d.removePeer addr).registered = d.registered.erase addr := rfl
@[simp] theorem removePeer_phase : (d.removePeer addr).phase = d.phase := rfl
@[simp] theorem removePeer_replies : (d.removePeer addr).replies = d.replies := rfl
@[simp] theorem online_registered : (d.online link).registered = d.registered := rfl
@[simp] theorem online_phase : (d.online link).phase = .online link := rfl
@[simp] theorem online_replies : (d.online link).replies = d.replies := rfl
@[simp] theorem online_written : (d.online link).written = d.written := rfl
@[simp] theorem loseLink_registered : d.loseLink.registered = d.registered := rfl
@[simp] theorem loseLink_phase : d.loseLink.phase = .offline := rfl
@[simp] theorem loseLink_replies : d.loseLink.replies = d.replies := rfl
@[simp] theorem stop_registered : d.stop.registered = d.registered := rfl
@[simp] theorem stop_phase : d.stop.phase = .stopped := rfl
@[simp] theorem stop_replies : d.stop.replies = d.replies := rfl

theorem peerNode_some {peer : String} {node : N} {d' : Driver N}
    (h : d.peerNode platform peer = some (node, d')) :
    d'.registered = d.registered ∧ d'.phase = d.phase ∧ d'.replies = d.replies ∧
      d'.written = d.written := by
  unfold peerNode at h
  split at h
  · cases h
    exact ⟨rfl, rfl, rfl, rfl⟩
  · rw [Option.map_eq_some_iff] at h
    obtain ⟨node', -, heq⟩ := h
    cases heq
    exact ⟨rfl, rfl, rfl, rfl⟩

end Small

/-- Only the writer task writes to the data socket. -/
theorem stepOnline_wire (platform : Platform N) (config : Config) {d : Driver N} {link : Link N}
    (hphase : d.phase = .online link) {event : Event N}
    (hevent : ∀ writeOk, event ≠ .dataWrite writeOk) :
    (d.stepOnline platform config link event).written = d.written ∧
    ∀ link', (d.stepOnline platform config link event).phase = .online link' →
      link'.stream = link.stream := by
  have hsame : ∀ {d' : Driver N}, d'.written = d.written → d'.phase = d.phase →
      d'.written = d.written ∧ ∀ link', d'.phase = .online link' → link'.stream = link.stream := by
    intro d' hwritten h
    refine ⟨hwritten, ?_⟩
    intro link' h'
    rw [h, hphase] at h'
    cases h'
    rfl
  have honline : ∀ {d' : Driver N} {l : Link N}, d'.written = d.written → d'.phase = .online l →
      l.stream = link.stream →
      d'.written = d.written ∧ ∀ link', d'.phase = .online link' → link'.stream = link.stream := by
    intro d' l hwritten h hstream
    refine ⟨hwritten, ?_⟩
    intro link' h'
    rw [h] at h'
    cases h'
    exact hstream
  have hlost : ∀ {d' : Driver N}, d'.written = d.written → d'.phase.session = none →
      d'.written = d.written ∧ ∀ link', d'.phase = .online link' → link'.stream = link.stream := by
    intro d' hwritten h
    refine ⟨hwritten, ?_⟩
    intro link' h'
    rw [h'] at h
    cases h
  cases event with
  | opened => exact hsame rfl rfl
  | idleTick now writeOk =>
    simp only [stepOnline, handleTick]
    split
    · split
      · exact honline rfl rfl rfl
      · exact hsame rfl rfl
    · exact hsame rfl rfl
  | ctlLine line now =>
    simp only [stepOnline, handleCtlLine]
    split
    · split
      · exact hlost rfl rfl
      · next hnode =>
        obtain ⟨-, -, -, hwritten⟩ := d.peerNode_some hnode
        refine honline ?_ rfl rfl
        rw [online_written, answerPending_written]
        exact hwritten
    · split
      · refine honline ?_ rfl rfl
        rw [online_written, answerPending_written, answerPending_written]
        split <;> rfl
      · split
        · refine honline ?_ rfl rfl
          rw [online_written, answerPending_written]
        · exact hsame rfl rfl
  | ctlClosed => exact hlost rfl rfl
  | bundle data now =>
    simp only [stepOnline, handleBundle]
    split
    · exact honline rfl rfl rfl
    · exact hsame rfl rfl
  | dataClosed => exact hlost rfl rfl
  | command cmd now writeOk =>
    cases cmd with
    | connect callsign nodeId reply =>
      simp only [stepOnline, handleCommand, handleConnect]
      split
      · exact hsame rfl rfl
      · split
        · split
          · exact honline rfl rfl rfl
          · exact hsame rfl rfl
        · split <;> exact hsame rfl rfl
        · exact hsame rfl rfl
    | disconnect reply =>
      simp only [stepOnline, handleCommand, handleDisconnect]
      split
      · split
        · exact honline rfl rfl rfl
        · exact hsame rfl rfl
      · split
        · exact honline rfl rfl rfl
        · exact hsame rfl rfl
      · exact hsame rfl rfl
    | forwardBundle data reply =>
      simp only [stepOnline, handleCommand, handleForward]
      split
      · split
        · exact honline rfl rfl rfl
        · exact hlost rfl rfl
      · exact hsame rfl rfl
    | registerPeer callsign node => exact hsame rfl rfl
    | isConnected reply => exact hsame rfl rfl
    | shutdown =>
      simp only [stepOnline, handleCommand, handleShutdown]
      split <;> exact hlost rfl rfl
  | commandsClosed => exact hlost rfl rfl
  | dataWrite writeOk => exact absurd rfl (hevent writeOk)

end Driver

end HdyUtils.Mercury
