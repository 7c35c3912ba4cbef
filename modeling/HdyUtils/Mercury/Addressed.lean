import HdyUtils.Mercury.Outbox

/-! Bundles reach the peer that they are for: what waits for the writer task is for the peer of the
session as long as no move disturbs it. -/

namespace HdyUtils.Mercury

open Std (TreeMap)

variable {N : Type} {platform : Platform N} {config : Config}

namespace Driver

variable {d d' : Driver N} {link link' : Link N}

/-! ### What waits, and for whom -/

/-- The bundles that wait for the writer task. -/
def waiting (d : Driver N) : List (Bytes × ReplyId) :=
  match d.phase with
  | .online link => link.dataQueue
  | _ => []

/-- The peer that the driver is connected to. -/
def peer (d : Driver N) : Option String := d.phase.session.bind SessionState.peer

theorem waiting_online (h : d.phase = .online link) : d.waiting = link.dataQueue := by
  rw [waiting, h]

theorem waiting_of_offline (h : d.phase.session = none) : d.waiting = [] := by
  unfold waiting
  split
  · next hphase =>
    rw [hphase] at h
    cases h
  · rfl

theorem peer_online (h : d.phase = .online link) : d.peer = link.session.peer := by
  rw [peer, h]
  rfl

/-- Neither what waits nor the peer changes. -/
structure Steady (d d' : Driver N) : Prop where
  waiting : d'.waiting = d.waiting
  peer : d'.peer = d.peer

theorem Steady.of_phase (h : d'.phase = d.phase) : Steady d d' := by
  constructor
  · rw [Driver.waiting, Driver.waiting, h]
  · rw [Driver.peer, Driver.peer, h]

theorem Steady.of_online (hphase : d.phase = .online link) (hphase' : d'.phase = .online link')
    (hqueue : link'.dataQueue = link.dataQueue) (hpeer : link'.session.peer = link.session.peer) :
    Steady d d' := by
  constructor
  · rw [waiting_online hphase', waiting_online hphase, hqueue]
  · rw [peer_online hphase', peer_online hphase, hpeer]

theorem handleConnect_steady (hphase : d.phase = .online link) (callsign : String) (nodeId : N)
    (reply : ReplyId) (writeOk : Bool) :
    Steady d (d.handleConnect platform config link callsign nodeId reply writeOk) := by
  unfold handleConnect
  split
  · exact .of_phase rfl
  · dsimp only
    split
    · next hsession =>
      split
      · exact .of_online hphase rfl rfl (by rw [hsession]; rfl)
      · exact .of_phase rfl
    · split <;> exact .of_phase rfl
    · exact .of_phase rfl

theorem handleBundle_steady (hphase : d.phase = .online link) (data : Bytes) (now : Nat) :
    Steady d (d.handleBundle platform link data now) := by
  unfold handleBundle
  split
  · next hsession => exact .of_online hphase rfl rfl (by rw [hsession]; rfl)
  · exact .of_phase rfl

theorem handleOffline_written (d : Driver N) (cmd : DriverCommand N) :
    (d.handleOffline platform cmd).written = d.written := by
  cases cmd <;> rfl

/-- A step writes nothing, or the bundle at the front of what waits. -/
theorem step_written (platform : Platform N) (config : Config) (d : Driver N) (event : Event N) :
    (d.step platform config event).written = d.written ∨
    ∃ item ∈ d.waiting, (d.step platform config event).written =
      d.written ++ [⟨item.1, item.2, d.peer⟩] := by
  cases hphase : d.phase with
  | online link =>
    rw [step_online hphase, waiting_online hphase, peer_online hphase]
    by_cases hevent : ∃ writeOk, event = .dataWrite writeOk
    · obtain ⟨writeOk, rfl⟩ := hevent
      simp only [stepOnline, handleWrite]
      split
      · exact .inl rfl
      · next data reply queue hqueue =>
        split
        · exact .inr ⟨(data, reply), by rw [hqueue]; exact List.mem_cons_self, rfl⟩
        · exact .inl rfl
    · rw [not_exists] at hevent
      exact .inl (stepOnline_wire platform config hphase hevent).1
  | offline =>
    left
    unfold step
    rw [hphase]
    dsimp only
    split
    · rfl
    · exact handleOffline_written d _
    · rfl
    · rfl
  | stopped =>
    left
    unfold step
    rw [hphase]

end Driver

namespace Outbox

open Driver (waiting_online waiting_of_offline peer_online step_online)

variable {x x' : Outbox N} {link : Link N}

/-- The books of the driver, against the calls. -/
def Booked (x : Outbox N) : Prop :=
  x.driver.Booked x.Other fun reply data => ∃ claAddr, x.Forwards reply claAddr data

variable (platform) in
/-- What waits is for the peer of the session. -/
def Aimed (x : Outbox N) : Prop :=
  ∀ item ∈ x.driver.waiting, ∀ claAddr data, x.Forwards item.2 claAddr data →
    x.driver.peer.map (callsignToClaAddress platform) = some claAddr

variable (platform) in
/-- What was written went to the peer that it was for. -/
def Hit (x : Outbox N) : Prop :=
  ∀ w ∈ x.driver.written, ∀ claAddr data, x.Forwards w.reply claAddr data →
    w.peer.map (callsignToClaAddress platform) = some claAddr

theorem Booked.waiting (h : x.Booked) {item : Bytes × ReplyId} (hitem : item ∈ x.driver.waiting) :
    ∃ claAddr, x.Forwards item.2 claAddr item.1 := by
  cases hphase : x.driver.phase with
  | online link =>
    rw [waiting_online hphase] at hitem
    exact (h.link link hphase).queued item hitem
  | _ =>
    rw [waiting_of_offline (by rw [hphase]; rfl)] at hitem
    cases hitem

theorem Booked.delivered (h : x.Booked) (hhit : x.Hit platform) : x.Delivered platform := by
  intro reply claAddr data hforwards hsent
  refine ⟨?_, ?_⟩
  · rcases h.logged.answers _ hsent rfl with hother | ⟨w, hw, hreply⟩
    · rw [Other, hforwards] at hother
      cases hother
    · obtain ⟨claAddr', hforwards'⟩ := h.logged.written w hw
      rw [hreply, Forwards, hforwards] at hforwards'
      cases hforwards'
      exact ⟨w, hw, hreply, rfl⟩
  · rintro w hw rfl
    exact hhit w hw claAddr data hforwards

/-! ### Calls are numbered -/

theorem forwards_mono (h : x.calls <+: x'.calls) {reply : ReplyId} {claAddr : ClaAddress}
    {data : Bytes} (hforwards : x.Forwards reply claAddr data) : x'.Forwards reply claAddr data := by
  obtain ⟨more, hmore⟩ := h
  unfold Forwards at hforwards ⊢
  rw [← hmore, List.getElem?_append_left (List.getElem?_eq_some_iff.mp hforwards).1]
  exact hforwards

theorem other_mono (h : x.calls <+: x'.calls) {reply : ReplyId} (hother : x.Other reply) :
    x'.Other reply := by
  obtain ⟨more, hmore⟩ := h
  unfold Other at hother ⊢
  rw [← hmore, List.getElem?_append_left (List.getElem?_eq_some_iff.mp hother).1]
  exact hother

theorem step_calls (x : Outbox N) (move : Move N) :
    x.calls <+: (x.step platform config move).calls := List.prefix_append _ _

/-- A call known before is the same call afterwards. -/
theorem forwards_old (h : x.calls <+: x'.calls) {reply : ReplyId} {data data' : Bytes}
    {claAddr : ClaAddress} (hold : ∃ claAddr', x.Forwards reply claAddr' data')
    (hforwards : x'.Forwards reply claAddr data) : x.Forwards reply claAddr data := by
  obtain ⟨claAddr', hold⟩ := hold
  have hsame := forwards_mono h hold
  rw [Forwards, hforwards] at hsame
  cases hsame
  exact hold

theorem Booked.mono (h : x.Booked) (hcalls : x.calls <+: x'.calls) :
    x.driver.Booked x'.Other fun reply data => ∃ claAddr, x'.Forwards reply claAddr data where
  link link hphase :=
    let hlink := h.link link hphase
    { connects := fun reply hreply => other_mono hcalls (hlink.connects reply hreply)
      disconnects := fun reply hreply => other_mono hcalls (hlink.disconnects reply hreply)
      queued := fun item hitem => (hlink.queued item hitem).imp fun _ => forwards_mono hcalls }
  logged :=
    { answers := fun p hp hok => (h.logged.answers p hp hok).imp_left (other_mono hcalls)
      written := fun w hw => (h.logged.written w hw).imp fun _ => forwards_mono hcalls }

theorem Booked.step (h : x.Booked) (move : Move N) : (x.step platform config move).Booked := by
  apply Driver.Booked.step (h.mono (step_calls x move))
  cases move with
  | event event hevent =>
    cases event with
    | command cmd now writeOk => cases hevent
    | _ => trivial
  | call call now writeOk =>
    have hlast : (x.calls ++ [call.bundle])[x.calls.length]? = some call.bundle := by simp
    cases call with
    | forward claAddr data => exact ⟨claAddr, hlast⟩
    | registerPeer callsign node => trivial
    | isConnected => trivial
    | shutdown => trivial
    | _ => exact hlast

/-! ### What keeps bundles aimed -/

theorem Aimed.connected (hb : x.Booked) (h : x.Aimed platform) (hwaiting : x.driver.waiting ≠ []) :
    ∃ peer, x.driver.peer = some peer := by
  obtain ⟨item, hitem⟩ := List.exists_mem_of_ne_nil _ hwaiting
  obtain ⟨claAddr, hforwards⟩ := hb.waiting hitem
  have haim := h item hitem claAddr item.1 hforwards
  cases hpeer : x.driver.peer with
  | some peer => exact ⟨peer, rfl⟩
  | none =>
    rw [hpeer] at haim
    cases haim

theorem aimed_of_empty (h : x'.driver.waiting = []) : x'.Aimed platform := by
  intro item hitem
  rw [h] at hitem
  cases hitem

/-- When the same bundles wait, they stay aimed if the session stays with its peer. -/
theorem aimed_iff_of_waiting (hb : x.Booked) (h : x.Aimed platform) (hcalls : x.calls <+: x'.calls)
    (hwaiting : x'.driver.waiting = x.driver.waiting) :
    x'.Aimed platform ↔ x.driver.waiting = [] ∨
      x'.driver.peer.map (callsignToClaAddress platform) =
        x.driver.peer.map (callsignToClaAddress platform) := by
  constructor
  · intro h'
    by_cases hempty : x.driver.waiting = []
    · exact .inl hempty
    · right
      obtain ⟨item, hitem⟩ := List.exists_mem_of_ne_nil _ hempty
      obtain ⟨claAddr, hforwards⟩ := hb.waiting hitem
      rw [h item hitem claAddr item.1 hforwards]
      exact h' item (hwaiting ▸ hitem) claAddr item.1 (forwards_mono hcalls hforwards)
  · rintro (hempty | hpeer)
    · exact aimed_of_empty (hwaiting.trans hempty)
    · intro item hitem claAddr data hforwards
      rw [hwaiting] at hitem
      rw [hpeer]
      have hold := hb.waiting hitem
      exact h item hitem claAddr data (forwards_old hcalls hold hforwards)

theorem aimed_of_steady (hb : x.Booked) (h : x.Aimed platform) (hcalls : x.calls <+: x'.calls)
    (hsteady : Driver.Steady x.driver x'.driver) : x'.Aimed platform := by
  rw [aimed_iff_of_waiting hb h hcalls hsteady.waiting, hsteady.peer]
  exact .inr rfl

section Step

variable (hb : x.Booked) (h : x.Aimed platform) (hphase : x.driver.phase = .online link)
  (hcalls : x.calls <+: x'.calls)

include hb h hphase hcalls

theorem aimed_forget_iff {link' : Link N} (hphase' : x'.driver.phase = .online link')
    (hqueue : link'.dataQueue = link.dataQueue) (hpeer : link'.session.peer = none) :
    x'.Aimed platform ↔ link.dataQueue = [] := by
  have hwaiting : x'.driver.waiting = x.driver.waiting := by
    rw [waiting_online hphase', waiting_online hphase, hqueue]
  rw [aimed_iff_of_waiting hb h hcalls hwaiting, peer_online hphase', hpeer, waiting_online hphase]
  constructor
  · rintro (hempty | hnone)
    · exact hempty
    · by_contra hne
      obtain ⟨peer, hsome⟩ := h.connected hb (by rwa [waiting_online hphase])
      rw [hsome] at hnone
      cases hnone
  · exact .inl

theorem aimed_tick_iff (now : Nat) (writeOk : Bool)
    (hx' : x'.driver = x.driver.handleTick platform config link now writeOk) :
    x'.Aimed platform ↔ (link.dataQueue.isEmpty ||
      match link.session, config.idleTimeout with
      | .connected _ _ _ lastActivity, some idle => decide (now - lastActivity < idle)
      | _, _ => true) = true := by
  have hsame : x'.driver = x.driver → x'.Aimed platform := by
    intro heq
    exact aimed_of_steady hb h hcalls (.of_phase (by rw [heq]))
  unfold Driver.handleTick at hx'
  cases hsession : link.session with
  | connected peer node connectedAt lastActivity =>
    cases hidle : config.idleTimeout with
    | none =>
      simp only [hsession, hidle] at hx'
      exact iff_of_true (hsame hx') (by simp)
    | some idle =>
      simp only [hsession, hidle] at hx'
      split at hx'
      · next hlate =>
        have hphase' : ∃ link', x'.driver.phase = .online link' ∧
            link'.dataQueue = link.dataQueue ∧ link'.session.peer = none := by
          rw [hx']
          exact ⟨_, rfl, rfl, rfl⟩
        obtain ⟨link', hphase', hqueue, hpeer⟩ := hphase'
        rw [aimed_forget_iff hb h hphase hcalls hphase' hqueue hpeer]
        simp [Nat.not_lt.mpr hlate]
      · next hsoon =>
        refine iff_of_true (hsame hx') ?_
        simp [Nat.lt_of_not_le hsoon]
  | _ =>
    simp only [hsession] at hx'
    exact iff_of_true (hsame hx') (by simp)

theorem aimed_line_iff (line : String) (now : Nat)
    (hx' : x'.driver = x.driver.handleCtlLine platform config link line now) :
    x'.Aimed platform ↔ (link.dataQueue.isEmpty ||
      if "CONNECTED".toList.isPrefixOf line.toList then
        (x.driver.peerNode platform (connectedPeer platform config line)).isNone ||
          link.session.peer.all fun peer => callsignToClaAddress platform peer =
            callsignToClaAddress platform (connectedPeer platform config line)
      else line != "DISCONNECTED") = true := by
  unfold Driver.handleCtlLine at hx'
  split at hx'
  · next hconnected =>
    simp only [hconnected, if_true]
    dsimp only at hx'
    split at hx'
    · next hnode =>
      refine iff_of_true (aimed_of_empty (waiting_of_offline (by rw [hx']; rfl))) ?_
      simp [hnode]
    · next node noted hnode =>
      have hphase' : ∃ link', x'.driver.phase = .online link' ∧
          link'.dataQueue = link.dataQueue ∧
          link'.session.peer = some (connectedPeer platform config line) := by
        rw [hx']
        exact ⟨_, rfl, rfl, rfl⟩
      obtain ⟨link', hphase', hqueue, hpeer⟩ := hphase'
      have hwaiting : x'.driver.waiting = x.driver.waiting := by
        rw [waiting_online hphase', waiting_online hphase, hqueue]
      rw [aimed_iff_of_waiting hb h hcalls hwaiting, peer_online hphase', hpeer,
        peer_online hphase, waiting_online hphase]
      by_cases hempty : link.dataQueue = []
      · simp [hempty]
      · obtain ⟨peer, hsome⟩ := h.connected hb (by rwa [waiting_online hphase])
        rw [peer_online hphase] at hsome
        simpa [hempty, hnode, hsome] using eq_comm
  · next hconnected =>
    simp only [hconnected, Bool.false_eq_true, if_false]
    split at hx'
    · next hline =>
      have hphase' : ∃ link', x'.driver.phase = .online link' ∧
          link'.dataQueue = link.dataQueue ∧ link'.session.peer = none := by
        rw [hx']
        exact ⟨_, rfl, rfl, rfl⟩
      obtain ⟨link', hphase', hqueue, hpeer⟩ := hphase'
      rw [aimed_forget_iff hb h hphase hcalls hphase' hqueue hpeer, hline, bne_self_eq_false,
        Bool.or_false, List.isEmpty_iff]
    · next hline =>
      have haimed : x'.Aimed platform := by
        split at hx'
        · refine aimed_of_steady hb h hcalls ?_
          rw [hx']
          exact .of_online hphase rfl rfl rfl
        · exact aimed_of_steady hb h hcalls (.of_phase (by rw [hx']))
      refine iff_of_true haimed ?_
      simp [hline]

theorem aimed_disconnect_iff (reply : ReplyId) (writeOk : Bool)
    (hx' : x'.driver = x.driver.handleDisconnect platform link reply writeOk) :
    x'.Aimed platform ↔ (link.dataQueue.isEmpty || !writeOk) = true := by
  have hclosed : ∀ {addr control}, x'.driver = (x.driver.removePeer addr).online { link with
      session := .disconnecting, pendingDisconnectReply := some reply,
      control := control } → writeOk = true →
      (x'.Aimed platform ↔ (link.dataQueue.isEmpty || !writeOk) = true) := by
    intro addr control heq hok
    have hphase' : ∃ link', x'.driver.phase = .online link' ∧
        link'.dataQueue = link.dataQueue ∧ link'.session.peer = none := by
      rw [heq]
      exact ⟨_, rfl, rfl, rfl⟩
    obtain ⟨link', hphase', hqueue, hpeer⟩ := hphase'
    rw [aimed_forget_iff hb h hphase hcalls hphase' hqueue hpeer]
    simp [hok]
  have hsame : x'.driver.phase = x.driver.phase → x'.Aimed platform :=
    fun heq => aimed_of_steady hb h hcalls (.of_phase heq)
  unfold Driver.handleDisconnect at hx'
  dsimp only at hx'
  split at hx'
  · split at hx'
    · next hok => exact hclosed hx' hok
    · next hfailed =>
      refine iff_of_true (hsame (by rw [hx']; rfl)) ?_
      simp [hfailed]
  · split at hx'
    · next hok => exact hclosed hx' hok
    · next hfailed =>
      refine iff_of_true (hsame (by rw [hx']; rfl)) ?_
      simp [hfailed]
  · next hconnected hconnecting =>
    refine iff_of_true (hsame (by rw [hx']; rfl)) ?_
    have hnone : link.session.peer = none := by
      cases hsession : link.session with
      | connected peer node connectedAt lastActivity => exact absurd hsession (hconnected _ _ _ _)
      | _ => rfl
    by_cases hempty : link.dataQueue = []
    · simp [hempty]
    · obtain ⟨peer, hsome⟩ := h.connected hb (by rwa [waiting_online hphase])
      rw [peer_online hphase, hnone] at hsome
      cases hsome

theorem aimed_forward_iff (claAddr : ClaAddress) (data : Bytes) (reply : ReplyId) (now : Nat)
    (hforwards : x'.Forwards reply claAddr data)
    (hx' : x'.driver = x.driver.handleForward link data reply now) :
    x'.Aimed platform ↔ (!link.writerRunning ||
      link.session.peer.all fun peer => callsignToClaAddress platform peer = claAddr) = true := by
  unfold Driver.handleForward at hx'
  split at hx'
  · next peer node connectedAt lastActivity hsession =>
    split at hx'
    · next hrunning =>
      have hphase' : ∃ link', x'.driver.phase = .online link' ∧
          link'.dataQueue = link.dataQueue ++ [(data, reply)] ∧ link'.session.peer = some peer := by
        rw [hx']
        exact ⟨_, rfl, rfl, rfl⟩
      obtain ⟨link', hphase', hqueue, hpeer'⟩ := hphase'
      have hpeer : link.session.peer = some peer := by rw [hsession]; rfl
      have haimed : x'.Aimed platform ↔ callsignToClaAddress platform peer = claAddr := by
        unfold Aimed
        rw [waiting_online hphase', hqueue, peer_online hphase', hpeer']
        constructor
        · intro h'
          have hlast := h' (data, reply) (List.mem_append_right _ List.mem_cons_self) claAddr data
            hforwards
          exact Option.some.inj hlast
        · rintro rfl item hitem claAddr' data' hforwards'
          rcases List.mem_append.mp hitem with hold | hlast
          · have hitem' : item ∈ x.driver.waiting := by rwa [waiting_online hphase]
            have haim := h item hitem' claAddr' data'
              (forwards_old hcalls (hb.waiting hitem') hforwards')
            rwa [peer_online hphase, hpeer] at haim
          · rw [List.mem_singleton] at hlast
            subst hlast
            rw [Forwards, hforwards] at hforwards'
            cases hforwards'
            rfl
      rw [haimed, hpeer]
      simp [hrunning]
    · next hstopped =>
      refine iff_of_true (aimed_of_empty (waiting_of_offline (by rw [hx']; rfl))) ?_
      simp [hstopped]
  · next hother =>
    refine iff_of_true (aimed_of_steady hb h hcalls (.of_phase (by rw [hx']; rfl))) ?_
    have hnone : link.session.peer = none := by
      cases hsession : link.session with
      | connected peer node connectedAt lastActivity => exact absurd hsession (hother _ _ _ _)
      | _ => rfl
    simp [hnone]

theorem aimed_write (writeOk : Bool) (hx' : x'.driver = x.driver.handleWrite link writeOk) :
    x'.Aimed platform := by
  unfold Driver.handleWrite at hx'
  split at hx'
  · exact aimed_of_steady hb h hcalls (.of_phase (by rw [hx']))
  · next data reply queue hqueue =>
    split at hx'
    · have hphase' : ∃ link', x'.driver.phase = .online link' ∧ link'.dataQueue = queue ∧
          link'.session = link.session := by
        rw [hx']
        exact ⟨_, rfl, rfl, rfl⟩
      obtain ⟨link', hphase', hqueue', hsession⟩ := hphase'
      intro item hitem claAddr data' hforwards
      rw [waiting_online hphase', hqueue'] at hitem
      have hitem' : item ∈ x.driver.waiting := by
        rw [waiting_online hphase, hqueue]
        exact List.mem_cons_of_mem _ hitem
      have haim := h item hitem' claAddr data' (forwards_old hcalls (hb.waiting hitem') hforwards)
      rwa [peer_online hphase', hsession, ← peer_online hphase]
    · have hphase' : ∃ link', x'.driver.phase = .online link' ∧ link'.dataQueue = [] := by
        rw [hx']
        exact ⟨_, rfl, rfl⟩
      obtain ⟨link', hphase', hqueue'⟩ := hphase'
      exact aimed_of_empty ((waiting_online hphase').trans hqueue')

end Step

/-- A move keeps the bundles that wait aimed exactly when it does not disturb them. -/
theorem Aimed.step_iff (hb : x.Booked) (h : x.Aimed platform) (move : Move N) :
    (x.step platform config move).Aimed platform ↔ x.Undisturbed platform config move = true := by
  have hcalls : x.calls <+: (x.step platform config move).calls := step_calls x move
  have hsteady : ∀ {x' : Outbox N}, x.calls <+: x'.calls →
      Driver.Steady x.driver x'.driver → x'.Aimed platform :=
    fun hcalls' hsame => aimed_of_steady hb h hcalls' hsame
  unfold Undisturbed
  cases hphase : x.driver.phase with
  | stopped =>
    refine iff_of_true (aimed_of_empty (waiting_of_offline ?_)) rfl
    show (x.driver.step platform config _).phase.session = none
    unfold Driver.step
    rw [hphase]
    dsimp only
    rw [hphase]
    rfl
  | offline =>
    refine iff_of_true (aimed_of_empty ?_) rfl
    show (x.driver.step platform config _).waiting = []
    unfold Driver.step
    rw [hphase]
    dsimp only
    split
    · rfl
    · next cmd _ _ _ =>
      cases cmd <;> simp [Driver.handleOffline, Driver.waiting, hphase]
    · rfl
    · simp [Driver.waiting, hphase]
  | online link =>
    have hstep : (x.step platform config move).driver =
        x.driver.stepOnline platform config link (move.toEvent x.calls.length) :=
      step_online hphase _
    have hlost : (x.step platform config move).driver.phase.session = none →
        (x.step platform config move).Aimed platform :=
      fun hnone => aimed_of_empty (waiting_of_offline hnone)
    cases move with
    | call call now writeOk =>
      cases call with
      | forward claAddr data =>
        refine aimed_forward_iff hb h hphase hcalls claAddr data x.calls.length now ?_ hstep
        show (x.calls ++ [some (claAddr, data)])[x.calls.length]? = _
        simp
      | disconnect => exact aimed_disconnect_iff hb h hphase hcalls x.calls.length writeOk hstep
      | connect callsign nodeId =>
        refine iff_of_true (hsteady hcalls ?_) rfl
        rw [hstep]
        exact Driver.handleConnect_steady hphase callsign nodeId x.calls.length writeOk
      | registerPeer callsign node =>
        exact iff_of_true (hsteady hcalls (.of_phase (by rw [hstep]; rfl))) rfl
      | isConnected => exact iff_of_true (hsteady hcalls (.of_phase (by rw [hstep]; rfl))) rfl
      | shutdown =>
        refine iff_of_true (hlost ?_) rfl
        rw [hstep]
        show (x.driver.handleShutdown platform link).phase.session = none
        unfold Driver.handleShutdown
        split <;> rfl
    | event event hevent =>
      cases event with
      | opened => exact iff_of_true (hsteady hcalls (.of_phase (by rw [hstep]; rfl))) rfl
      | idleTick now writeOk => exact aimed_tick_iff hb h hphase hcalls now writeOk hstep
      | ctlLine line now => exact aimed_line_iff hb h hphase hcalls line now hstep
      | ctlClosed => exact iff_of_true (hlost (by rw [hstep]; rfl)) rfl
      | bundle data now =>
        refine iff_of_true (hsteady hcalls ?_) rfl
        rw [hstep]
        exact Driver.handleBundle_steady hphase data now
      | dataClosed => exact iff_of_true (hlost (by rw [hstep]; rfl)) rfl
      | command cmd now writeOk => cases hevent
      | commandsClosed => exact iff_of_true (hlost (by rw [hstep]; rfl)) rfl
      | dataWrite writeOk => exact iff_of_true (aimed_write hb h hphase hcalls writeOk hstep) rfl

/-! ### What was written -/

theorem Hit.step (hb : x.Booked) (h : x.Aimed platform) (hhit : x.Hit platform) (move : Move N) :
    (x.step platform config move).Hit platform := by
  have hcalls : x.calls <+: (x.step platform config move).calls := step_calls x move
  have hold : ∀ w ∈ x.driver.written, ∀ claAddr data,
      (x.step platform config move).Forwards w.reply claAddr data →
      w.peer.map (callsignToClaAddress platform) = some claAddr := by
    intro w hw claAddr data hforwards
    exact hhit w hw claAddr data (forwards_old hcalls (hb.logged.written w hw) hforwards)
  have hwritten := x.driver.step_written platform config (move.toEvent x.calls.length)
  rcases hwritten with heq | ⟨item, hitem, heq⟩
  · intro w hw
    exact hold w (heq ▸ hw)
  · intro w hw claAddr data hforwards
    have hw' : w ∈ x.driver.written ++ [⟨item.1, item.2, x.driver.peer⟩] := heq ▸ hw
    rw [List.mem_append, List.mem_singleton] at hw'
    rcases hw' with hw | rfl
    · exact hold w hw claAddr data hforwards
    · exact h item hitem claAddr data (forwards_old hcalls (hb.waiting hitem) hforwards)

end Outbox

open Outbox

end HdyUtils.Mercury
