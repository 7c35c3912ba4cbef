import HdyUtils.Mercury.Driver

/-! Bundles on the way to the peer of the link.  `MercuryCla::forward` is told the address that its
bundle is for, and hands the driver the bundle alone; whom it reaches depends on the session when the
writer task gets to it. -/

namespace HdyUtils.Mercury

open Std (TreeMap)

variable {N : Type} {platform : Platform N} {config : Config}

/-- What the agent and the coordinator ask of the driver. -/
inductive Call (N : Type)
  | connect (callsign : String) (nodeId : N)
  | disconnect
  | forward (claAddr : ClaAddress) (data : Bytes)
  | registerPeer (callsign : String) (effectiveNodeId : N)
  | isConnected
  | shutdown

/-- The command that a call becomes. -/
def Call.command (reply : ReplyId) : Call N → DriverCommand N
  | .connect callsign nodeId => .connect callsign nodeId reply
  | .disconnect => .disconnect reply
  | .forward _ data => .forwardBundle data reply
  | .registerPeer callsign node => .registerPeer callsign node
  | .isConnected => .isConnected reply
  | .shutdown => .shutdown

/-- The bundle of a call, and whom it is for. -/
def Call.bundle : Call N → Option (ClaAddress × Bytes)
  | .forward claAddr data => some (claAddr, data)
  | _ => none

def Event.isCommand : Event N → Bool
  | .command _ _ _ => true
  | _ => false

inductive Move (N : Type)
  | call (call : Call N) (now : Nat) (writeOk : Bool)
  | event (event : Event N) (h : event.isCommand = false)

/-- What a move is to the driver, if a call has the given number. -/
def Move.toEvent (number : ReplyId) : Move N → Event N
  | .call c now writeOk => .command (c.command number) now writeOk
  | .event e _ => e

/-- The bundle of the call that a move makes. -/
def Move.made : Move N → List (Option (ClaAddress × Bytes))
  | .call c _ _ => [c.bundle]
  | .event _ _ => []

/-- The writer task writes the bundle at the front of its channel. -/
def Move.write : Move N := .event (.dataWrite true) rfl

/-- A driver and the calls that were made to it, with their bundles.  A call is answered on the channel
of its own number. -/
structure Outbox (N : Type) where
  driver : Driver N
  calls : List (Option (ClaAddress × Bytes))

namespace Outbox

def new (peers : TreeMap String N) : Outbox N := ⟨.new peers, []⟩

def step (platform : Platform N) (config : Config) (x : Outbox N) (move : Move N) : Outbox N where
  driver := x.driver.step platform config (move.toEvent x.calls.length)
  calls := x.calls ++ move.made

/-- The call with this number forwards `data` to `claAddr`. -/
def Forwards (x : Outbox N) (reply : ReplyId) (claAddr : ClaAddress) (data : Bytes) : Prop :=
  x.calls[reply]? = some (some (claAddr, data))

/-- The call with this number forwards nothing. -/
def Other (x : Outbox N) (reply : ReplyId) : Prop := x.calls[reply]? = some none

/-- `forward` returned `Sent` to this call. -/
def Sent (x : Outbox N) (reply : ReplyId) : Prop := (reply, .ok) ∈ x.driver.replies

instance (x : Outbox N) (reply : ReplyId) (claAddr : ClaAddress) (data : Bytes) :
    Decidable (x.Forwards reply claAddr data) := inferInstanceAs (Decidable (_ = _))

instance (x : Outbox N) (reply : ReplyId) : Decidable (x.Sent reply) :=
  inferInstanceAs (Decidable (_ ∈ _))

variable (platform) in
/-- A bundle that was sent went to the data socket while the session was connected to the peer that it
is for, and to no other one. -/
def Delivered (x : Outbox N) : Prop :=
  ∀ reply claAddr data, x.Forwards reply claAddr data → x.Sent reply →
    (∃ w ∈ x.driver.written, w.reply = reply ∧ w.data = data) ∧
    ∀ w ∈ x.driver.written, w.reply = reply →
      w.peer.map (callsignToClaAddress platform) = some claAddr

variable (platform config) in
/-- A bundle is accepted in a session with the peer that it is for, and while bundles wait for the
writer task the session stays with its peer. -/
def Undisturbed (x : Outbox N) (move : Move N) : Bool :=
  match x.driver.phase with
  | .online link =>
    match move with
    | .call (.forward claAddr _) _ _ =>
      !link.writerRunning ||
        link.session.peer.all fun peer => callsignToClaAddress platform peer = claAddr
    | .call .disconnect _ writeOk => link.dataQueue.isEmpty || !writeOk
    | .event (.idleTick now _) _ =>
      link.dataQueue.isEmpty ||
        match link.session, config.idleTimeout with
        | .connected _ _ _ lastActivity, some idle => now - lastActivity < idle
        | _, _ => true
    | .event (.ctlLine line _) _ =>
      link.dataQueue.isEmpty ||
        if "CONNECTED".toList.isPrefixOf line.toList then
          (x.driver.peerNode platform (connectedPeer platform config line)).isNone ||
            link.session.peer.all fun peer => callsignToClaAddress platform peer =
              callsignToClaAddress platform (connectedPeer platform config line)
        else line != "DISCONNECTED"
    | _ => true
  | _ => true

end Outbox

/-! ### The books of the driver -/

section Books

variable (other : ReplyId → Prop) (forwards : ReplyId → Bytes → Prop)

/-- What a link holds back for calls that forward nothing, and what waits for its writer task. -/
structure Link.Booked (link : Link N) : Prop where
  connects : ∀ reply, link.pendingConnectReply = some reply → other reply
  disconnects : ∀ reply, link.pendingDisconnectReply = some reply → other reply
  queued : ∀ item ∈ link.dataQueue, forwards item.2 item.1

/-- A good answer is of a call that forwards nothing, or of a bundle that was written; and what was
written is the bundle of its call. -/
structure Driver.Logged (d : Driver N) : Prop where
  answers : ∀ p ∈ d.replies, p.2 = .ok → other p.1 ∨ ∃ w ∈ d.written, w.reply = p.1
  written : ∀ w ∈ d.written, forwards w.reply w.data

structure Driver.Booked (d : Driver N) : Prop where
  link : ∀ link, d.phase = .online link → link.Booked other forwards
  logged : d.Logged other forwards

/-- A command bears the number of its call. -/
def Event.Numbered : Event N → Prop
  | .command (.connect _ _ reply) _ _ => other reply
  | .command (.disconnect reply) _ _ => other reply
  | .command (.forwardBundle data reply) _ _ => forwards reply data
  | _ => True

end Books

namespace Driver

variable {other : ReplyId → Prop} {forwards : ReplyId → Bytes → Prop} {d d' : Driver N}
  {link link' : Link N}

theorem Logged.congr (h : d.Logged other forwards) (hreplies : d'.replies = d.replies)
    (hwritten : d'.written = d.written) : d'.Logged other forwards := by
  constructor
  · rw [hreplies, hwritten]
    exact h.answers
  · rw [hwritten]
    exact h.written

theorem Logged.answer (h : d.Logged other forwards) {reply : ReplyId} {result : Reply}
    (hother : result = .ok → other reply) : (d.answer reply result).Logged other forwards := by
  refine ⟨?_, h.written⟩
  intro p hp hok
  rw [answer_replies, List.mem_append, List.mem_singleton] at hp
  rcases hp with hp | rfl
  · exact h.answers p hp hok
  · exact .inl (hother hok)

theorem Logged.answerPending (h : d.Logged other forwards) {pending : Option ReplyId}
    (hother : ∀ reply, pending = some reply → other reply) (result : Reply) :
    (d.answerPending pending result).Logged other forwards := by
  cases pending with
  | none => exact h
  | some reply => exact h.answer fun _ => hother reply rfl

theorem Booked.of_online (hphase : d'.phase = .online link') (hlink : link'.Booked other forwards)
    (hlogged : d'.Logged other forwards) : d'.Booked other forwards := by
  refine ⟨?_, hlogged⟩
  intro l hl
  rw [hphase] at hl
  cases hl
  exact hlink

theorem Booked.of_offline (hphase : d'.phase.session = none)
    (hlogged : d'.Logged other forwards) : d'.Booked other forwards := by
  refine ⟨?_, hlogged⟩
  intro l hl
  rw [hl] at hphase
  cases hphase

section Handlers

variable (hlink : link.Booked other forwards) (hlogged : d.Logged other forwards)

include hlink hlogged

theorem handleCtlLine_booked (hphase : d.phase = .online link) (line : String) (now : Nat) :
    (d.handleCtlLine platform config link line now).Booked other forwards := by
  unfold handleCtlLine
  split
  · dsimp only
    split
    · exact .of_offline rfl (hlogged.congr rfl rfl)
    · next node noted hnode =>
      obtain ⟨-, -, hreplies, hwritten⟩ := d.peerNode_some hnode
      refine .of_online rfl ⟨nofun, hlink.disconnects, hlink.queued⟩ ?_
      have hadded : ∀ addr, (noted.addPeer addr).Logged other forwards :=
        fun _ => hlogged.congr hreplies hwritten
      exact ((hadded _).answerPending hlink.connects .ok).congr rfl rfl
  · split
    · refine .of_online rfl ⟨nofun, nofun, hlink.queued⟩ ?_
      have hremoved : ∀ addr, (d.removePeer addr).Logged other forwards :=
        fun _ => hlogged.congr rfl rfl
      split
      · exact (((hremoved _).answerPending hlink.connects _).answerPending
          hlink.disconnects .ok).congr rfl rfl
      · exact ((hlogged.answerPending hlink.connects _).answerPending
          hlink.disconnects .ok).congr rfl rfl
    · split
      · refine .of_online rfl ⟨nofun, hlink.disconnects, hlink.queued⟩ ?_
        exact (hlogged.answerPending hlink.connects _).congr rfl rfl
      · exact .of_online hphase hlink hlogged

theorem handleTick_booked (hphase : d.phase = .online link) (now : Nat) (writeOk : Bool) :
    (d.handleTick platform config link now writeOk).Booked other forwards := by
  unfold handleTick
  split
  · split
    · exact .of_online rfl ⟨hlink.connects, hlink.disconnects, hlink.queued⟩ (hlogged.congr rfl rfl)
    · exact .of_online hphase hlink hlogged
  · exact .of_online hphase hlink hlogged

theorem handleBundle_booked (hphase : d.phase = .online link) (data : Bytes) (now : Nat) :
    (d.handleBundle platform link data now).Booked other forwards := by
  unfold handleBundle
  split
  · exact .of_online rfl ⟨hlink.connects, hlink.disconnects, hlink.queued⟩ (hlogged.congr rfl rfl)
  · exact .of_online hphase hlink hlogged

theorem handleConnect_booked (hphase : d.phase = .online link) (callsign : String) (nodeId : N)
    {reply : ReplyId} (hother : other reply) (writeOk : Bool) :
    (d.handleConnect platform config link callsign nodeId reply writeOk).Booked other forwards := by
  have hanswer : ∀ result, (d.answer reply result).Booked other forwards :=
    fun _ => .of_online hphase hlink (hlogged.answer fun _ => hother)
  unfold handleConnect
  split
  · exact hanswer _
  · dsimp only
    split
    · split
      · refine .of_online rfl ⟨?_, hlink.disconnects, hlink.queued⟩ (hlogged.congr rfl rfl)
        rintro _ ⟨⟩
        exact hother
      · exact hanswer _
    · split <;> exact hanswer _
    · exact hanswer _

theorem handleDisconnect_booked (hphase : d.phase = .online link) {reply : ReplyId}
    (hother : other reply) (writeOk : Bool) :
    (d.handleDisconnect platform link reply writeOk).Booked other forwards := by
  have hremoved : ∀ addr, (d.removePeer addr).Logged other forwards :=
    fun _ => hlogged.congr rfl rfl
  have hclosed : ∀ addr control, ((d.removePeer addr).online { link with
      session := .disconnecting, pendingDisconnectReply := some reply,
      control := control }).Booked other forwards := by
    intro addr control
    refine .of_online rfl ⟨hlink.connects, ?_, hlink.queued⟩ ((hremoved addr).congr rfl rfl)
    rintro _ ⟨⟩
    exact hother
  have hkept : ∀ addr result, ((d.removePeer addr).answer reply result).Booked other forwards :=
    fun addr _ => .of_online hphase hlink ((hremoved addr).answer fun _ => hother)
  unfold handleDisconnect
  dsimp only
  split
  · split
    · exact hclosed _ _
    · exact hkept _ _
  · split
    · exact hclosed _ _
    · exact hkept _ _
  · exact .of_online hphase hlink (hlogged.answer fun _ => hother)

theorem handleForward_booked (hphase : d.phase = .online link) {data : Bytes} {reply : ReplyId}
    (hforwards : forwards reply data) (now : Nat) :
    (d.handleForward link data reply now).Booked other forwards := by
  unfold handleForward
  split
  · split
    · refine .of_online rfl ⟨hlink.connects, hlink.disconnects, ?_⟩ (hlogged.congr rfl rfl)
      intro item hitem
      rcases List.mem_append.mp hitem with hitem | hitem
      · exact hlink.queued item hitem
      · rw [List.mem_singleton] at hitem
        subst hitem
        exact hforwards
    · exact .of_offline rfl (hlogged.congr rfl rfl)
  · exact .of_online hphase hlink (hlogged.answer nofun)

theorem handleWrite_booked (hphase : d.phase = .online link) (writeOk : Bool) :
    (d.handleWrite link writeOk).Booked other forwards := by
  unfold handleWrite
  split
  · exact .of_online hphase hlink hlogged
  · next data reply queue hqueue =>
    have hqueued := hlink.queued
    rw [hqueue] at hqueued
    split
    · refine .of_online rfl ⟨hlink.connects, hlink.disconnects, ?_⟩ ⟨?_, ?_⟩
      · intro item hitem
        exact hqueued item (List.mem_cons_of_mem _ hitem)
      · intro p hp hok
        rcases List.mem_append.mp hp with hp | hp
        · rcases hlogged.answers p hp hok with hother | ⟨w, hw, hreply⟩
          · exact .inl hother
          · exact .inr ⟨w, List.mem_append_left _ hw, hreply⟩
        · rw [List.mem_singleton] at hp
          subst hp
          exact .inr ⟨_, List.mem_append_right _ List.mem_cons_self, rfl⟩
      · intro w hw
        rcases List.mem_append.mp hw with hw | hw
        · exact hlogged.written w hw
        · rw [List.mem_singleton] at hw
          subst hw
          exact hqueued _ List.mem_cons_self
    · refine .of_online rfl ⟨hlink.connects, hlink.disconnects, nofun⟩ ?_
      have hfailed : (d.answer reply (.error .io)).Logged other forwards := hlogged.answer nofun
      exact hfailed.congr rfl rfl

theorem stepOnline_booked (hphase : d.phase = .online link) (event : Event N)
    (hnumbered : event.Numbered other forwards) :
    (d.stepOnline platform config link event).Booked other forwards := by
  cases event with
  | opened => exact .of_online hphase hlink hlogged
  | idleTick now writeOk => exact handleTick_booked hlink hlogged hphase now writeOk
  | ctlLine line now => exact handleCtlLine_booked hlink hlogged hphase line now
  | ctlClosed => exact .of_offline rfl (hlogged.congr rfl rfl)
  | bundle data now => exact handleBundle_booked hlink hlogged hphase data now
  | dataClosed => exact .of_offline rfl (hlogged.congr rfl rfl)
  | command cmd now writeOk =>
    cases cmd with
    | connect callsign nodeId reply =>
      exact handleConnect_booked hlink hlogged hphase callsign nodeId hnumbered writeOk
    | disconnect reply => exact handleDisconnect_booked hlink hlogged hphase hnumbered writeOk
    | forwardBundle data reply => exact handleForward_booked hlink hlogged hphase hnumbered now
    | registerPeer callsign node => exact .of_online hphase hlink (hlogged.congr rfl rfl)
    | isConnected reply => exact .of_online hphase hlink (hlogged.answer nofun)
    | shutdown =>
      simp only [stepOnline, handleCommand, handleShutdown]
      split <;> exact .of_offline rfl (hlogged.congr rfl rfl)
  | commandsClosed => exact .of_offline rfl (hlogged.congr rfl rfl)
  | dataWrite writeOk => exact handleWrite_booked hlink hlogged hphase writeOk

end Handlers

theorem Booked.step (h : d.Booked other forwards) {event : Event N}
    (hnumbered : event.Numbered other forwards) :
    (d.step platform config event).Booked other forwards := by
  cases hphase : d.phase with
  | online link =>
    rw [step_online hphase]
    exact stepOnline_booked (h.link link hphase) h.logged hphase event hnumbered
  | stopped =>
    unfold Driver.step
    rw [hphase]
    exact h
  | offline =>
    unfold Driver.step
    rw [hphase]
    cases event with
    | opened => exact .of_online rfl ⟨nofun, nofun, nofun⟩ (h.logged.congr rfl rfl)
    | commandsClosed => exact .of_offline rfl (h.logged.congr rfl rfl)
    | command cmd now writeOk =>
      have hoffline : ∀ {d' : Driver N}, d'.phase = d.phase → d'.phase.session = none := by
        intro d' h'
        rw [h', hphase]
        rfl
      cases cmd with
      | connect callsign nodeId reply => exact .of_offline (hoffline rfl) (h.logged.answer nofun)
      | disconnect reply => exact .of_offline (hoffline rfl) (h.logged.answer fun _ => hnumbered)
      | forwardBundle data reply => exact .of_offline (hoffline rfl) (h.logged.answer nofun)
      | registerPeer callsign node => exact .of_offline (hoffline rfl) (h.logged.congr rfl rfl)
      | isConnected reply => exact .of_offline (hoffline rfl) (h.logged.answer nofun)
      | shutdown => exact .of_offline rfl (h.logged.congr rfl rfl)
    | _ => exact h

end Driver

end HdyUtils.Mercury
