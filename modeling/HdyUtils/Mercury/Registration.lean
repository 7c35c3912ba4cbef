import HdyUtils.Mercury.Driver

/-! The peers that the driver registers with the agent, against the session that it is in: the agent
is to know exactly the current peer. -/

namespace HdyUtils.Mercury

open Std (TreeMap)

variable {N : Type} {platform : Platform N} {config : Config}

namespace Driver

/-! ### The law -/

variable (platform) in
/-- The addresses that the agent is to know: that of the peer of the session, if it is connected. -/
def currentPeers (d : Driver N) : Finset ClaAddress :=
  match d.phase.session.bind SessionState.peer with
  | some peer => {callsignToClaAddress platform peer}
  | none => ∅

variable (platform) in
def Matched (d : Driver N) : Prop := d.registered = d.currentPeers platform

instance (d : Driver N) : Decidable (d.Matched platform) := inferInstanceAs (Decidable (_ = _))

variable (platform config) in
/-- What an event is to be while the session is connected to `peer`: no `CONNECTED` line names another
station, no socket and no command channel closes, a disconnect gets written, and a bundle finds the
writer task running. -/
def keepsPeer (d : Driver N) (link : Link N) (peer : String) : Event N → Bool
  | .ctlLine line _ =>
    !"CONNECTED".toList.isPrefixOf line.toList ||
      ((d.peerNode platform (connectedPeer platform config line)).isSome &&
        callsignToClaAddress platform (connectedPeer platform config line) =
          callsignToClaAddress platform peer)
  | .ctlClosed => false
  | .dataClosed => false
  | .commandsClosed => false
  | .command (.disconnect _) _ writeOk => writeOk
  | .command (.forwardBundle _ _) _ _ => link.writerRunning
  | _ => true

variable (platform config) in
/-- The event leaves the registrations balanced. -/
def Balanced (d : Driver N) (event : Event N) : Bool :=
  match d.phase with
  | .online link => link.session.peer.all fun peer => d.keepsPeer platform config link peer event
  | _ => true

theorem balanced_iff {d : Driver N} {link : Link N} (hphase : d.phase = .online link)
    (event : Event N) : d.Balanced platform config event = true ↔
      ∀ peer, link.session.peer = some peer → d.keepsPeer platform config link peer event = true := by
  unfold Balanced
  rw [hphase]
  dsimp only
  cases link.session.peer <;> simp

/-! ### Sessions -/

theorem matched_iff_of_none {d : Driver N} (h : d.phase.session.bind SessionState.peer = none) :
    d.Matched platform ↔ d.registered = ∅ := by
  rw [Matched, currentPeers, h]

theorem matched_iff_of_some {d : Driver N} {peer : String}
    (h : d.phase.session.bind SessionState.peer = some peer) :
    d.Matched platform ↔ d.registered = {callsignToClaAddress platform peer} := by
  rw [Matched, currentPeers, h]

theorem matched_of_offline {d : Driver N} (h : d.phase.session = none) :
    d.Matched platform ↔ d.registered = ∅ :=
  matched_iff_of_none (by rw [h]; rfl)

section Online

variable {d : Driver N} {link : Link N}

theorem matched_online {session : SessionState N} (hsession : link.session = session) :
    (d.online link).Matched platform ↔
      d.registered = match session.peer with
        | some peer => {callsignToClaAddress platform peer}
        | none => ∅ := by
  subst hsession
  exact Iff.rfl

/-- What a matched driver on a link has registered. -/
theorem Matched.registered (h : d.Matched platform) (hphase : d.phase = .online link) :
    d.registered = match link.session.peer with
      | some peer => {callsignToClaAddress platform peer}
      | none => ∅ := by
  rw [Matched, currentPeers, hphase] at h
  exact h

/-! ### Handlers -/

theorem handleTick_matched (h : d.Matched platform) (hphase : d.phase = .online link) (now : Nat)
    (writeOk : Bool) : (d.handleTick platform config link now writeOk).Matched platform := by
  have hregistered := h.registered hphase
  unfold handleTick
  split
  · next peer node connectedAt lastActivity idle hsession hidle =>
    rw [hsession] at hregistered
    split
    · rw [matched_online rfl]
      show d.registered.erase _ = ∅
      rw [hregistered]
      simp [SessionState.peer]
    · exact h
  · exact h

theorem handleBundle_matched (h : d.Matched platform) (hphase : d.phase = .online link)
    (data : Bytes) (now : Nat) : (d.handleBundle platform link data now).Matched platform := by
  have hregistered := h.registered hphase
  unfold handleBundle
  split
  · next hsession =>
    rw [hsession] at hregistered
    exact hregistered
  · exact h

theorem handleConnect_matched (h : d.Matched platform) (hphase : d.phase = .online link)
    (callsign : String) (nodeId : N) (reply : ReplyId) (writeOk : Bool) :
    (d.handleConnect platform config link callsign nodeId reply writeOk).Matched platform := by
  have hregistered := h.registered hphase
  have hanswer : ∀ result, (d.answer reply result).Matched platform := fun _ => h
  unfold handleConnect
  split
  · exact hanswer _
  · dsimp only
    split
    · next hsession =>
      rw [hsession] at hregistered
      split
      · rw [matched_online rfl]
        exact hregistered
      · exact hanswer _
    · split <;> exact hanswer _
    · exact hanswer _

/-- A disconnect that cannot be written takes the peer from the agent, and leaves the session. -/
theorem handleDisconnect_matched_iff (h : d.Matched platform) (hphase : d.phase = .online link)
    (reply : ReplyId) (writeOk : Bool) :
    (d.handleDisconnect platform link reply writeOk).Matched platform ↔
      link.session.peer = none ∨ writeOk = true := by
  have hregistered := h.registered hphase
  unfold handleDisconnect
  cases hsession : link.session with
  | disconnected =>
    refine iff_of_true ?_ (.inl rfl)
    exact h
  | disconnecting =>
    refine iff_of_true ?_ (.inl rfl)
    exact h
  | connecting peer node =>
    rw [hsession] at hregistered
    have hnone : d.registered = ∅ := hregistered
    refine iff_of_true ?_ (.inl rfl)
    dsimp only
    split
    · rw [matched_online rfl]
      show d.registered.erase _ = ∅
      rw [hnone, Finset.erase_empty]
    · have hpeer : (d.removePeer (callsignToClaAddress platform peer)).phase.session.bind
          SessionState.peer = none := by
        rw [removePeer_phase, hphase]
        simp [Phase.session, hsession, SessionState.peer]
      show (d.removePeer (callsignToClaAddress platform peer)).Matched platform
      rw [matched_iff_of_none hpeer, removePeer_registered, hnone, Finset.erase_empty]
  | connected peer node connectedAt lastActivity =>
    rw [hsession] at hregistered
    have hpeer : d.registered = {callsignToClaAddress platform peer} := hregistered
    have herase : (d.removePeer (callsignToClaAddress platform peer)).registered = ∅ := by
      rw [removePeer_registered, hpeer]
      simp
    cases writeOk with
    | true =>
      refine iff_of_true ?_ (.inr rfl)
      show (Driver.online _ _).Matched platform
      rw [matched_online rfl]
      exact herase
    | false =>
      refine iff_of_false ?_ (by simp [SessionState.peer])
      have hsome : (d.removePeer (callsignToClaAddress platform peer)).phase.session.bind
          SessionState.peer = some peer := by
        rw [removePeer_phase, hphase]
        simp [Phase.session, hsession, SessionState.peer]
      show ¬ (d.removePeer (callsignToClaAddress platform peer)).Matched platform
      rw [matched_iff_of_some hsome, herase]
      simp

/-- A driver that forgets its session is matched only if it was not connected. -/
theorem forget_matched_iff {d' : Driver N} (h : d.Matched platform)
    (hphase : d.phase = .online link) (hregistered : d'.registered = d.registered)
    (hforget : d'.phase.session = none) :
    d'.Matched platform ↔ link.session.peer = none := by
  rw [matched_of_offline hforget, hregistered, h.registered hphase]
  cases link.session.peer <;> simp

theorem loseLink_matched_iff (h : d.Matched platform) (hphase : d.phase = .online link) :
    d.loseLink.Matched platform ↔ link.session.peer = none :=
  forget_matched_iff h hphase rfl rfl

theorem stop_matched_iff (h : d.Matched platform) (hphase : d.phase = .online link) :
    d.stop.Matched platform ↔ link.session.peer = none :=
  forget_matched_iff h hphase rfl rfl

theorem peer_eq_none_of_ne (hother : ∀ peer node connectedAt lastActivity,
    link.session ≠ .connected peer node connectedAt lastActivity) : link.session.peer = none := by
  cases hsession : link.session with
  | connected peer node connectedAt lastActivity => exact absurd hsession (hother _ _ _ _)
  | _ => rfl

theorem handleForward_matched_iff (h : d.Matched platform) (hphase : d.phase = .online link)
    (data : Bytes) (reply : ReplyId) (now : Nat) :
    (d.handleForward link data reply now).Matched platform ↔
      link.session.peer = none ∨ link.writerRunning = true := by
  have hregistered := h.registered hphase
  unfold handleForward
  split
  · next hsession =>
    rw [hsession] at hregistered
    split
    · next hrunning =>
      refine iff_of_true ?_ (.inr hrunning)
      rw [matched_online rfl]
      exact hregistered
    · next hstopped =>
      rw [loseLink_matched_iff h hphase]
      simp [hstopped]
  · next hother => exact iff_of_true h (.inl (peer_eq_none_of_ne hother))

theorem handleShutdown_matched (h : d.Matched platform) (hphase : d.phase = .online link) :
    (d.handleShutdown platform link).Matched platform := by
  have hregistered := h.registered hphase
  unfold handleShutdown
  split
  · next hsession =>
    rw [hsession] at hregistered
    rw [matched_of_offline rfl]
    show d.registered.erase _ = ∅
    rw [hregistered]
    simp [SessionState.peer]
  · next hother =>
    rw [stop_matched_iff h hphase]
    exact peer_eq_none_of_ne hother

theorem handleWrite_matched (h : d.Matched platform) (hphase : d.phase = .online link)
    (writeOk : Bool) : (d.handleWrite link writeOk).Matched platform := by
  have hregistered := h.registered hphase
  unfold handleWrite
  split
  · exact h
  · split <;> exact hregistered

theorem insert_eq_singleton_iff (a b : ClaAddress) :
    insert a {b} = ({a} : Finset ClaAddress) ↔ a = b := by
  constructor
  · intro h
    have hmem : b ∈ ({a} : Finset ClaAddress) := by
      rw [← h]
      simp
    exact (Finset.mem_singleton.mp hmem).symm
  · rintro rfl
    simp

/-- A line that names a station replaces the registration only of the same station. -/
theorem handleCtlLine_matched_iff (h : d.Matched platform) (hphase : d.phase = .online link)
    (line : String) (now : Nat) :
    (d.handleCtlLine platform config link line now).Matched platform ↔
      ∀ peer, link.session.peer = some peer →
        d.keepsPeer platform config link peer (.ctlLine line now) = true := by
  have hregistered := h.registered hphase
  unfold handleCtlLine keepsPeer
  by_cases hconnected : "CONNECTED".toList.isPrefixOf line.toList = true
  · simp only [hconnected, if_true]
    cases hnode : d.peerNode platform (connectedPeer platform config line) with
    | none =>
      dsimp only
      rw [stop_matched_iff h hphase]
      cases link.session.peer <;> simp
    | some found =>
      obtain ⟨node, d'⟩ := found
      obtain ⟨hregistered', -⟩ := d.peerNode_some hnode
      dsimp only
      rw [matched_online rfl, answerPending_registered, addPeer_registered, hregistered',
        hregistered]
      show _ = ({callsignToClaAddress platform (connectedPeer platform config line)} :
        Finset ClaAddress) ↔ _
      cases link.session.peer with
      | none => simp
      | some peer =>
        dsimp only
        rw [insert_eq_singleton_iff]
        simp
  · simp only [hconnected, Bool.false_eq_true, if_false]
    refine iff_of_true ?_ (by simp)
    split
    · rw [matched_online rfl]
      simp only [answerPending_registered, SessionState.peer]
      split
      · next hsession =>
        rw [hsession] at hregistered
        rw [removePeer_registered, hregistered]
        simp [SessionState.peer]
      · next hother => rw [hregistered, peer_eq_none_of_ne hother]
    · split
      · rw [matched_online rfl, answerPending_registered]
        exact hregistered
      · exact h

theorem handleCommand_matched_iff (h : d.Matched platform) (hphase : d.phase = .online link)
    (now : Nat) (writeOk : Bool) (cmd : DriverCommand N) :
    (d.handleCommand platform config link now writeOk cmd).Matched platform ↔
      ∀ peer, link.session.peer = some peer →
        d.keepsPeer platform config link peer (.command cmd now writeOk) = true := by
  cases cmd with
  | connect callsign nodeId reply =>
    refine iff_of_true ?_ fun _ _ => rfl
    exact handleConnect_matched h hphase callsign nodeId reply writeOk
  | disconnect reply =>
    show (d.handleDisconnect platform link reply writeOk).Matched platform ↔ _
    rw [handleDisconnect_matched_iff h hphase]
    cases link.session.peer <;> simp [keepsPeer]
  | forwardBundle data reply =>
    show (d.handleForward link data reply now).Matched platform ↔ _
    rw [handleForward_matched_iff h hphase]
    cases link.session.peer <;> simp [keepsPeer]
  | registerPeer callsign node => exact iff_of_true h fun _ _ => rfl
  | isConnected reply => exact iff_of_true h fun _ _ => rfl
  | shutdown => exact iff_of_true (handleShutdown_matched h hphase) fun _ _ => rfl

theorem stepOnline_matched_iff (h : d.Matched platform) (hphase : d.phase = .online link)
    (event : Event N) : (d.stepOnline platform config link event).Matched platform ↔
      ∀ peer, link.session.peer = some peer →
        d.keepsPeer platform config link peer event = true := by
  cases event with
  | opened => exact iff_of_true h fun _ _ => rfl
  | idleTick now writeOk =>
    exact iff_of_true (handleTick_matched h hphase now writeOk) fun _ _ => rfl
  | ctlLine line now => exact handleCtlLine_matched_iff h hphase line now
  | ctlClosed =>
    show d.loseLink.Matched platform ↔ _
    rw [loseLink_matched_iff h hphase]
    cases link.session.peer <;> simp [keepsPeer]
  | bundle data now => exact iff_of_true (handleBundle_matched h hphase data now) fun _ _ => rfl
  | dataClosed =>
    show d.loseLink.Matched platform ↔ _
    rw [loseLink_matched_iff h hphase]
    cases link.session.peer <;> simp [keepsPeer]
  | command cmd now writeOk => exact handleCommand_matched_iff h hphase now writeOk cmd
  | commandsClosed =>
    show d.stop.Matched platform ↔ _
    rw [stop_matched_iff h hphase]
    cases link.session.peer <;> simp [keepsPeer]
  | dataWrite writeOk => exact iff_of_true (handleWrite_matched h hphase writeOk) fun _ _ => rfl

end Online

variable (platform) in
/-- Without a link nothing is registered, and nothing gets registered. -/
theorem handleOffline_registered (d : Driver N) (cmd : DriverCommand N) :
    (d.handleOffline platform cmd).registered = d.registered ∧
      ((d.handleOffline platform cmd).phase = d.phase ∨
        (d.handleOffline platform cmd).phase = .stopped) := by
  cases cmd with
  | shutdown => exact ⟨rfl, .inr rfl⟩
  | _ => exact ⟨rfl, .inl rfl⟩

/-- A step of a driver that knows exactly the current peer. -/
theorem step_matched_iff {d : Driver N} (h : d.Matched platform) (event : Event N) :
    (d.step platform config event).Matched platform ↔ d.Balanced platform config event = true := by
  cases hphase : d.phase with
  | online link =>
    rw [balanced_iff hphase, step_online hphase]
    exact stepOnline_matched_iff h hphase event
  | offline =>
    refine iff_of_true ?_ (by rw [Balanced, hphase])
    have hempty : d.registered = ∅ := (matched_of_offline (by rw [hphase]; rfl)).mp h
    unfold step
    rw [hphase]
    cases event with
    | opened => exact hempty
    | command cmd now writeOk =>
      obtain ⟨hregistered, hphase'⟩ := handleOffline_registered platform d cmd
      rw [hphase] at hphase'
      show (d.handleOffline platform cmd).Matched platform
      rw [matched_of_offline (by rcases hphase' with h | h <;> rw [h] <;> rfl), hregistered]
      exact hempty
    | commandsClosed => exact hempty
    | _ => exact h
  | stopped =>
    refine iff_of_true ?_ (by rw [Balanced, hphase])
    unfold step
    rw [hphase]
    exact h

end Driver

open Driver

/-- In every state of a run the agent knows exactly the current peer, exactly when every event leaves
the registrations balanced. -/
theorem registrations_match_iff (platform : Platform N) (config : Config) (peers : TreeMap String N)
    (events : List (Event N)) :
    Trace.Along (step platform config)
        (fun d event => (d.step platform config event).Matched platform) (.new peers) events ↔
      Trace.Along (step platform config)
        (fun d event => d.Balanced platform config event = true) (.new peers) events := by
  have hnew : (Driver.new peers).Matched platform := rfl
  constructor
  · intro h
    have hstep : ∀ (d : Driver N) (event : Event N), d.Matched platform →
        (d.step platform config event).Matched platform →
          (d.step platform config event).Matched platform := fun _ _ _ hnext => hnext
    exact h.strengthen hstep (fun d event hd => (step_matched_iff hd event).mp) hnew
  · intro h
    have hstep : ∀ (d : Driver N) (event : Event N), d.Matched platform →
        d.Balanced platform config event = true →
          (d.step platform config event).Matched platform :=
      fun d event hd => (step_matched_iff hd event).mpr
    exact h.strengthen hstep (fun d event hd => (step_matched_iff hd event).mpr) hnew

/-- The control socket closes in a session: the peer stays registered. -/
theorem lost_link_keeps_registration :
    ¬ (Trace.run (step ascii ⟨"N0CALL", none⟩) (.new ∅)
      [.opened, .ctlLine "CONNECTED W1AW N0CALL 500" 0, .ctlClosed]).Matched ascii := by
  decide +kernel

end HdyUtils.Mercury
