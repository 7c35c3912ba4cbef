import HdyUtils.Mercury.Driver

/-! The replies that the driver holds back, against the session: a connect is answered when its attempt
ends, and a disconnect when the session has ended. -/

namespace HdyUtils.Mercury

open Std (TreeMap)

variable {N : Type} {platform : Platform N} {config : Config}

def SessionState.isConnecting : SessionState N → Bool
  | .connecting _ _ => true
  | _ => false

def SessionState.isDisconnecting : SessionState N → Bool
  | .disconnecting => true
  | _ => false

/-- A session that is being set up has a connect to answer, and a connect waits for its answer only
while the session is being set up or taken down. -/
structure Link.InOrder (link : Link N) : Prop where
  connecting : link.session.isConnecting = true → link.pendingConnectReply ≠ none
  pending : link.pendingConnectReply ≠ none →
    link.session.isConnecting = true ∨ link.session.isDisconnecting = true

/-- A driver with its callers: the connects that they gave up after their timeout, and the
disconnects that took the session down. -/
structure Exchange (N : Type) where
  driver : Driver N
  timedOut : List ReplyId
  moved : List ReplyId

inductive Action (N : Type)
  | event (event : Event N)
  | timeout (reply : ReplyId)

/-- The disconnect with which an event takes the session down, from `d` to `d'`. -/
def movedBy (d d' : Driver N) : Event N → Option ReplyId
  | .command (.disconnect reply) _ _ =>
    if d'.phase.session.any SessionState.isDisconnecting ∧
        ¬ d.phase.session.any SessionState.isDisconnecting then some reply
    else none
  | _ => none

namespace Exchange

def new (peers : TreeMap String N) : Exchange N := ⟨.new peers, [], []⟩

def step (platform : Platform N) (config : Config) (x : Exchange N) : Action N → Exchange N
  | .event event =>
    let driver := x.driver.step platform config event
    { x with driver := driver, moved := x.moved ++ (movedBy x.driver driver event).toList }
  | .timeout reply => { x with timedOut := reply :: x.timedOut }

/-- The replies are in step with the session, and every disconnect that took it down is answered or
still to be answered. -/
structure Tracked (x : Exchange N) : Prop where
  inOrder : ∀ link, x.driver.phase = .online link → link.InOrder
  answered : ∀ reply ∈ x.moved, (∃ result, (reply, result) ∈ x.driver.replies) ∨
    ∃ link, x.driver.phase = .online link ∧ link.pendingDisconnectReply = some reply

/-- What is to hold of an action: the replies stay in step, and a connect that is refused because of
another attempt is refused because of one that waits for its answer and was not given up. -/
structure InStep (platform : Platform N) (config : Config) (x : Exchange N) (action : Action N) :
    Prop where
  tracked : (x.step platform config action).Tracked
  alive : ∀ link callsign nodeId reply now writeOk, x.driver.phase = .online link →
    link.session.isConnecting = true →
    action = .event (.command (.connect callsign nodeId reply) now writeOk) →
    (x.step platform config action).driver.replies =
      x.driver.replies ++ [(reply, .error .busy)] →
    ∃ attempt, link.pendingConnectReply = some attempt ∧ attempt ∉ x.timedOut

end Exchange

namespace Driver

variable (platform config) in
/-- The event makes the driver drop the reply of a disconnect that it holds: it loses the link or
stops, or another disconnect takes the session down. -/
def dropsReply (d : Driver N) (link : Link N) : Event N → Bool
  | .ctlClosed => true
  | .dataClosed => true
  | .commandsClosed => true
  | .ctlLine line _ => "CONNECTED".toList.isPrefixOf line.toList &&
      (d.peerNode platform (connectedPeer platform config line)).isNone
  | .command .shutdown _ _ => true
  | .command (.disconnect _) _ writeOk =>
    writeOk && (link.session.peer.isSome || link.session.isConnecting)
  | .command (.forwardBundle _ _) _ _ => link.session.peer.isSome && !link.writerRunning
  | _ => false

end Driver

/-- The event is none of those that put the replies out of step: a `WRONG` during an attempt, a connect
during an attempt that was given up, and one that drops the reply of a disconnect. -/
def Exchange.Orderly (platform : Platform N) (config : Config) (x : Exchange N) :
    Action N → Bool
  | .timeout _ => true
  | .event event =>
    match x.driver.phase with
    | .online link =>
      (!x.driver.dropsReply platform config link event || link.pendingDisconnectReply.isNone) &&
        match event with
        | .ctlLine line _ => line != "WRONG" || !link.session.isConnecting
        | .command (.connect callsign _ _) _ _ =>
          !isValidCallsign callsign || !isValidCallsign config.myCallsign ||
            !link.session.isConnecting || link.pendingConnectReply.all (· ∉ x.timedOut)
        | _ => true
    | _ => true

/-! ### Links in order -/

/-- No connect waits, and none is to be answered. -/
theorem Link.inOrder_of_settled {link : Link N} (hsession : link.session.isConnecting = false)
    (hpending : link.pendingConnectReply = none) : link.InOrder where
  connecting h := absurd h (by simp [hsession])
  pending h := absurd hpending h

theorem Link.InOrder.settled {link : Link N} (h : link.InOrder)
    (hconnecting : link.session.isConnecting = false)
    (hdisconnecting : link.session.isDisconnecting = false) : link.pendingConnectReply = none := by
  by_contra hpending
  rcases h.pending hpending with hsession | hsession
  · rw [hconnecting] at hsession
    cases hsession
  · rw [hdisconnecting] at hsession
    cases hsession

namespace Driver

/-- The link of the driver, if it has one, is in order. -/
def InOrder (d : Driver N) : Prop := ∀ link, d.phase = .online link → link.InOrder

theorem inOrder_of_online {d : Driver N} {link : Link N} (h : d.phase = .online link)
    (hlink : link.InOrder) : d.InOrder := by
  intro link' h'
  rw [h] at h'
  cases h'
  exact hlink

theorem inOrder_of_offline {d : Driver N} (h : d.phase.session = none) : d.InOrder := by
  intro link' h'
  rw [h'] at h
  cases h

section Online

variable {d : Driver N} {link : Link N}

theorem handleCtlLine_inOrder (h : link.InOrder) (hphase : d.phase = .online link) (line : String)
    (now : Nat) (hwrong : line = "WRONG" → link.session.isConnecting = false) :
    (d.handleCtlLine platform config link line now).InOrder := by
  unfold handleCtlLine
  split
  · dsimp only
    split
    · exact inOrder_of_offline rfl
    · exact inOrder_of_online rfl (Link.inOrder_of_settled rfl rfl)
  · split
    · exact inOrder_of_online rfl (Link.inOrder_of_settled rfl rfl)
    · split
      · next hline => exact inOrder_of_online rfl (Link.inOrder_of_settled (hwrong hline) rfl)
      · exact inOrder_of_online hphase h

theorem handleTick_inOrder (h : link.InOrder) (hphase : d.phase = .online link) (now : Nat)
    (writeOk : Bool) : (d.handleTick platform config link now writeOk).InOrder := by
  unfold handleTick
  split
  · next hsession _ =>
    split
    · refine inOrder_of_online rfl (Link.inOrder_of_settled rfl ?_)
      exact h.settled (by rw [hsession]; rfl) (by rw [hsession]; rfl)
    · exact inOrder_of_online hphase h
  · exact inOrder_of_online hphase h

theorem handleBundle_inOrder (h : link.InOrder) (hphase : d.phase = .online link) (data : Bytes)
    (now : Nat) : (d.handleBundle platform link data now).InOrder := by
  unfold handleBundle
  split
  · next hsession =>
    refine inOrder_of_online rfl (Link.inOrder_of_settled rfl ?_)
    exact h.settled (by rw [hsession]; rfl) (by rw [hsession]; rfl)
  · exact inOrder_of_online hphase h

theorem handleConnect_inOrder (h : link.InOrder) (hphase : d.phase = .online link)
    (callsign : String) (nodeId : N) (reply : ReplyId) (writeOk : Bool) :
    (d.handleConnect platform config link callsign nodeId reply writeOk).InOrder := by
  have hanswer : ∀ result, (d.answer reply result).InOrder :=
    fun _ => inOrder_of_online hphase h
  unfold handleConnect
  split
  · exact hanswer _
  · dsimp only
    split
    · split
      · refine inOrder_of_online rfl ⟨?_, ?_⟩
        · intro _ hnone
          cases hnone
        · intro _
          exact .inl rfl
      · exact hanswer _
    · split <;> exact hanswer _
    · exact hanswer _

theorem handleDisconnect_inOrder (h : link.InOrder) (hphase : d.phase = .online link)
    (reply : ReplyId) (writeOk : Bool) :
    (d.handleDisconnect platform link reply writeOk).InOrder := by
  have hsame : ∀ addr result, ((d.removePeer addr).answer reply result).InOrder :=
    fun _ _ => inOrder_of_online hphase h
  have hclosed : ∀ {d' : Driver N} {control : List String}, d'.phase = .online { link with
      session := .disconnecting, pendingDisconnectReply := some reply, control := control } →
      d'.InOrder := by
    intro d' control hphase'
    refine inOrder_of_online hphase' ⟨?_, ?_⟩
    · intro hconnecting
      cases hconnecting
    · intro _
      exact .inr rfl
  unfold handleDisconnect
  dsimp only
  split
  · split
    · exact hclosed rfl
    · exact hsame _ _
  · split
    · exact hclosed rfl
    · exact hsame _ _
  · exact inOrder_of_online hphase h

theorem handleForward_inOrder (h : link.InOrder) (hphase : d.phase = .online link) (data : Bytes)
    (reply : ReplyId) (now : Nat) : (d.handleForward link data reply now).InOrder := by
  unfold handleForward
  split
  · next hsession =>
    split
    · refine inOrder_of_online rfl (Link.inOrder_of_settled rfl ?_)
      exact h.settled (by rw [hsession]; rfl) (by rw [hsession]; rfl)
    · exact inOrder_of_offline rfl
  · exact inOrder_of_online hphase h

theorem handleWrite_inOrder (h : link.InOrder) (hphase : d.phase = .online link)
    (writeOk : Bool) : (d.handleWrite link writeOk).InOrder := by
  unfold handleWrite
  split
  · exact inOrder_of_online hphase h
  · split
    · exact inOrder_of_online rfl ⟨h.connecting, h.pending⟩
    · exact inOrder_of_online rfl ⟨h.connecting, h.pending⟩

theorem stepOnline_inOrder (h : link.InOrder) (hphase : d.phase = .online link) (event : Event N)
    (hwrong : ∀ now, event = .ctlLine "WRONG" now → link.session.isConnecting = false) :
    (d.stepOnline platform config link event).InOrder := by
  cases event with
  | opened => exact inOrder_of_online hphase h
  | idleTick now writeOk => exact handleTick_inOrder h hphase now writeOk
  | ctlLine line now =>
    refine handleCtlLine_inOrder h hphase line now ?_
    rintro rfl
    exact hwrong now rfl
  | ctlClosed => exact inOrder_of_offline rfl
  | bundle data now => exact handleBundle_inOrder h hphase data now
  | dataClosed => exact inOrder_of_offline rfl
  | command cmd now writeOk =>
    cases cmd with
    | connect callsign nodeId reply =>
      exact handleConnect_inOrder h hphase callsign nodeId reply writeOk
    | disconnect reply => exact handleDisconnect_inOrder h hphase reply writeOk
    | forwardBundle data reply => exact handleForward_inOrder h hphase data reply now
    | registerPeer callsign node => exact inOrder_of_online hphase h
    | isConnected reply => exact inOrder_of_online hphase h
    | shutdown =>
      refine inOrder_of_offline ?_
      show (d.handleShutdown platform link).phase.session = none
      unfold handleShutdown
      split <;> rfl
  | commandsClosed => exact inOrder_of_offline rfl
  | dataWrite writeOk => exact handleWrite_inOrder h hphase writeOk

end Online

/-! ### Answers -/

/-- An answer that was sent stays sent. -/
theorem stepOnline_replies (d : Driver N) (link : Link N) (event : Event N) :
    d.replies <+: (d.stepOnline platform config link event).replies := by
  have hsame : ∀ {d' : Driver N}, d'.replies = d.replies → d.replies <+: d'.replies :=
    fun h => h ▸ List.prefix_refl _
  have hmore : ∀ {d' : Driver N} {more : List (ReplyId × Reply)}, d'.replies = d.replies ++ more →
      d.replies <+: d'.replies := fun h => h ▸ List.prefix_append _ _
  cases event with
  | opened => exact hsame rfl
  | idleTick now writeOk =>
    simp only [stepOnline, handleTick]
    split
    · split <;> exact hsame rfl
    · exact hsame rfl
  | ctlLine line now =>
    simp only [stepOnline, handleCtlLine]
    split
    · split
      · exact hsame rfl
      · next hnode =>
        obtain ⟨-, -, hreplies, -⟩ := d.peerNode_some hnode
        apply hmore
        rw [online_replies, answerPending_replies, addPeer_replies, hreplies]
    · split
      · rw [online_replies, answerPending_replies, answerPending_replies, List.append_assoc]
        split <;> exact List.prefix_append _ _
      · split
        · rw [online_replies, answerPending_replies]
          exact List.prefix_append _ _
        · exact hsame rfl
  | ctlClosed => exact hsame rfl
  | bundle data now =>
    simp only [stepOnline, handleBundle]
    split <;> exact hsame rfl
  | dataClosed => exact hsame rfl
  | command cmd now writeOk =>
    cases cmd with
    | connect callsign nodeId reply =>
      simp only [stepOnline, handleCommand, handleConnect]
      split
      · exact hmore rfl
      · split
        · split
          · exact hsame rfl
          · exact hmore rfl
        · split <;> exact hmore rfl
        · exact hmore rfl
    | disconnect reply =>
      simp only [stepOnline, handleCommand, handleDisconnect]
      split
      · split
        · exact hsame rfl
        · exact hmore rfl
      · split
        · exact hsame rfl
        · exact hmore rfl
      · exact hmore rfl
    | forwardBundle data reply =>
      simp only [stepOnline, handleCommand, handleForward]
      split
      · split <;> exact hsame rfl
      · exact hmore rfl
    | registerPeer callsign node => exact hsame rfl
    | isConnected reply => exact hmore rfl
    | shutdown =>
      simp only [stepOnline, handleCommand, handleShutdown]
      split <;> exact hsame rfl
  | commandsClosed => exact hsame rfl
  | dataWrite writeOk =>
    simp only [stepOnline, handleWrite]
    split
    · exact hsame rfl
    · split <;> exact hmore rfl

theorem handleOffline_replies (d : Driver N) (cmd : DriverCommand N) :
    d.replies <+: (d.handleOffline platform cmd).replies := by
  cases cmd with
  | registerPeer => exact List.prefix_refl _
  | shutdown => exact List.prefix_refl _
  | _ => exact List.prefix_append _ _

theorem step_replies (d : Driver N) (event : Event N) :
    d.replies <+: (d.step platform config event).replies := by
  unfold step
  split
  · split
    · exact List.prefix_refl _
    · exact handleOffline_replies d _
    · exact List.prefix_refl _
    · exact List.prefix_refl _
  · exact stepOnline_replies d _ event
  · exact List.prefix_refl _

/-- The disconnect is still to be answered. -/
def Holds (d : Driver N) (reply : ReplyId) : Prop :=
  ∃ link, d.phase = .online link ∧ link.pendingDisconnectReply = some reply

def Answered (d : Driver N) (reply : ReplyId) : Prop := ∃ result, (reply, result) ∈ d.replies

/-- A disconnect that is held back is answered, or stays held back, unless the event drops it. -/
theorem stepOnline_holds {d : Driver N} {link : Link N} {reply : ReplyId} (event : Event N)
    (hphase : d.phase = .online link) (hheld : link.pendingDisconnectReply = some reply)
    (hkeeps : d.dropsReply platform config link event = false) :
    (d.stepOnline platform config link event).Answered reply ∨
      (d.stepOnline platform config link event).Holds reply := by
  have hsame : ∀ {d' : Driver N}, d'.phase = d.phase → d'.Answered reply ∨ d'.Holds reply :=
    fun h => .inr ⟨link, h.trans hphase, hheld⟩
  have honline : ∀ {d' : Driver N} {link' : Link N}, d'.phase = .online link' →
      link'.pendingDisconnectReply = link.pendingDisconnectReply →
      d'.Answered reply ∨ d'.Holds reply := fun h h' => .inr ⟨_, h, h'.trans hheld⟩
  cases event with
  | opened => exact hsame rfl
  | idleTick now writeOk =>
    simp only [stepOnline, handleTick]
    split
    · split
      · exact honline rfl rfl
      · exact hsame rfl
    · exact hsame rfl
  | ctlLine line now =>
    simp only [stepOnline, handleCtlLine]
    split
    · next hconnected =>
      split
      · next hnode =>
        simp only [dropsReply, hconnected, hnode] at hkeeps
        cases hkeeps
      · exact honline rfl rfl
    · split
      · refine .inl ⟨.ok, ?_⟩
        rw [online_replies, answerPending_replies, hheld]
        exact List.mem_append_right _ List.mem_cons_self
      · split
        · exact honline rfl rfl
        · exact hsame rfl
  | ctlClosed => cases hkeeps
  | bundle data now =>
    simp only [stepOnline, handleBundle]
    split
    · exact honline rfl rfl
    · exact hsame rfl
  | dataClosed => cases hkeeps
  | command cmd now writeOk =>
    cases cmd with
    | connect callsign nodeId reply' =>
      simp only [stepOnline, handleCommand, handleConnect]
      split
      · exact hsame rfl
      · split
        · split
          · exact honline rfl rfl
          · exact hsame rfl
        · split <;> exact hsame rfl
        · exact hsame rfl
    | disconnect reply' =>
      simp only [stepOnline, handleCommand, handleDisconnect]
      simp only [dropsReply] at hkeeps
      split
      · next hsession =>
        rw [hsession] at hkeeps
        cases writeOk with
        | true => cases hkeeps
        | false => exact hsame rfl
      · next hsession =>
        rw [hsession] at hkeeps
        cases writeOk with
        | true => cases hkeeps
        | false => exact hsame rfl
      · exact hsame rfl
    | forwardBundle data reply' =>
      simp only [stepOnline, handleCommand, handleForward]
      simp only [dropsReply] at hkeeps
      split
      · next hsession =>
        rw [hsession] at hkeeps
        split
        · exact honline rfl rfl
        · next hstopped =>
          simp only [hstopped] at hkeeps
          cases hkeeps
      · exact hsame rfl
    | registerPeer callsign node => exact hsame rfl
    | isConnected reply' => exact hsame rfl
    | shutdown => cases hkeeps
  | commandsClosed => cases hkeeps
  | dataWrite writeOk =>
    simp only [stepOnline, handleWrite]
    split
    · exact hsame rfl
    · split
      · exact honline rfl rfl
      · exact honline rfl rfl

/-- The disconnect that takes the session down is held back. -/
theorem movedBy_holds {d : Driver N} {event : Event N} {reply : ReplyId}
    (h : movedBy d (d.step platform config event) event = some reply) :
    (d.step platform config event).Holds reply := by
  unfold movedBy at h
  split at h
  · next reply' now writeOk =>
    split at h
    · next hmoved =>
      cases h
      obtain ⟨hafter, hbefore⟩ := hmoved
      revert hafter hbefore
      unfold step
      cases hphase : d.phase with
      | offline => simp [handleOffline, hphase, Phase.session]
      | stopped => simp [hphase, Phase.session]
      | online link =>
        simp only [stepOnline, handleCommand, handleDisconnect]
        intro hafter hbefore
        split at hafter
        · split at hafter
          · next hsession hok =>
            simp only [hok, if_true]
            exact ⟨_, rfl, rfl⟩
          · exact absurd (hphase ▸ hafter) hbefore
        · split at hafter
          · next hsession hok =>
            simp only [hok, if_true]
            exact ⟨_, rfl, rfl⟩
          · exact absurd (hphase ▸ hafter) hbefore
        · exact absurd (hphase ▸ hafter) hbefore
    · cases h
  · cases h

end Driver

open Driver

namespace Exchange

/-- A step that is none of those that put the replies out of step. -/
theorem Tracked.step {x : Exchange N} (h : x.Tracked) {action : Action N}
    (hok : x.Orderly platform config action = true) :
    (x.step platform config action).Tracked := by
  cases action with
  | timeout reply => exact ⟨h.inOrder, h.answered⟩
  | event event =>
    constructor
    case inOrder =>
      show (x.driver.step platform config event).InOrder
      unfold Driver.step
      cases hphase : x.driver.phase with
      | offline =>
        dsimp only
        split
        · refine inOrder_of_online rfl (Link.inOrder_of_settled rfl rfl)
        · next cmd _ _ =>
          refine inOrder_of_offline ?_
          cases cmd <;> simp [handleOffline, hphase, Phase.session]
        · exact inOrder_of_offline rfl
        · exact inOrder_of_offline (by rw [hphase]; rfl)
      | stopped => exact inOrder_of_offline (by rw [hphase]; rfl)
      | online link =>
        refine stepOnline_inOrder (h.inOrder link hphase) hphase event ?_
        rintro now rfl
        simp only [Orderly, hphase, Bool.and_eq_true] at hok
        simpa using hok.2
    case answered =>
      intro reply hreply
      rcases List.mem_append.mp hreply with hold | hnew
      · rcases h.answered reply hold with ⟨result, hmem⟩ | ⟨link, hphase, hheld⟩
        · exact .inl ⟨result, (step_replies x.driver event).subset hmem⟩
        · simp only [Orderly, hphase, Bool.and_eq_true, hheld] at hok
          have hkeeps : x.driver.dropsReply platform config link event = false := by
            simpa using hok.1
          show (x.driver.step platform config event).Answered reply ∨
            (x.driver.step platform config event).Holds reply
          rw [step_online hphase]
          exact stepOnline_holds event hphase hheld hkeeps
      · exact .inr (movedBy_holds (Option.mem_toList.mp hnew))

/-- A connect that meets an attempt is refused. -/
theorem Orderly.inStep {x : Exchange N} (h : x.Tracked) {action : Action N}
    (hok : x.Orderly platform config action = true) : x.InStep platform config action where
  tracked := h.step hok
  alive := by
    rintro link callsign nodeId reply now writeOk hphase hconnecting rfl hbusy
    obtain ⟨attempt, hattempt⟩ :=
      Option.ne_none_iff_exists'.mp ((h.inOrder link hphase).connecting hconnecting)
    refine ⟨attempt, hattempt, ?_⟩
    simp only [Orderly, hphase, hattempt, hconnecting, Bool.and_eq_true] at hok
    by_cases hvalid : (!isValidCallsign callsign || !isValidCallsign config.myCallsign) = true
    · -- A connect with a bad callsign is answered with another error.
      simp only [Exchange.step, Driver.step, hphase, stepOnline, handleCommand, handleConnect,
        hvalid, if_true, answer_replies] at hbusy
      simp at hbusy
    · simpa [hvalid] using hok.2

end Exchange

/-- In a run of orderly actions the replies stay in step with the session. -/
theorem replies_in_step (platform : Platform N) (config : Config) (peers : TreeMap String N)
    (actions : List (Action N))
    (horderly : Trace.Along (Exchange.step platform config)
      (fun x action => x.Orderly platform config action = true) (.new peers) actions) :
    Trace.Along (Exchange.step platform config) (Exchange.InStep platform config) (.new peers)
      actions := by
  have hnew : (Exchange.new peers).Tracked := by
    constructor
    · exact inOrder_of_offline rfl
    · intro reply h
      cases h
  have hstep : ∀ (x : Exchange N) (action : Action N), x.Tracked →
      x.Orderly platform config action = true → (x.step platform config action).Tracked :=
    fun _ _ hx hok => hx.step hok
  exact horderly.strengthen hstep (fun _ _ hx hok => Exchange.Orderly.inStep hx hok) hnew

/-- A session that a station accepts, and that its caller takes down. -/
theorem replies_in_step_session :
    Trace.Along (Exchange.step ascii ⟨"N0CALL", none⟩) (Exchange.InStep ascii ⟨"N0CALL", none⟩)
      (.new ∅) [.event .opened, .event (.command (.connect "W1AW" "dtn://w1aw/" 0) 0 true),
        .event (.ctlLine "CONNECTED N0CALL W1AW 500" 1), .event (.command (.disconnect 1) 2 true),
        .event (.ctlLine "DISCONNECTED" 3)] :=
  replies_in_step ascii ⟨"N0CALL", none⟩ ∅ _ (by decide +kernel)

/-- The modem rejects a connect: the connect is answered, and the session stays in its attempt, which
no connect can end. -/
theorem rejected_connect_stays_connecting :
    ¬ Trace.Along (Exchange.step ascii ⟨"N0CALL", none⟩) (Exchange.InStep ascii ⟨"N0CALL", none⟩)
      (.new ∅) [.event .opened, .event (.command (.connect "W1AW" "dtn://w1aw/" 0) 0 true),
        .event (.ctlLine "WRONG" 1), .event (.command (.connect "W1AW" "dtn://w1aw/" 1) 2 true)] := by
  intro h
  let attempt : SessionState String := .connecting "W1AW" "dtn://w1aw/"
  have hlink : Link.InOrder ⟨attempt, none, none, [], true, ["CONNECT N0CALL W1AW\r"], []⟩ :=
    h.2.2.1.tracked.inOrder _ (by decide +kernel)
  exact hlink.connecting rfl rfl

end HdyUtils.Mercury
