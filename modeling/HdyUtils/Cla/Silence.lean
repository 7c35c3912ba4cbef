import HdyUtils.Cla.Transfers
import HdyUtils.Ltp.Silence

/-! A driver on a silent link.  However it drains its queues and whatever peers are registered, once
enough ticks have reached the deadlines of its engine no session is left, and every transfer that it
accepted has its outcome. -/

namespace HdyUtils.Ltp.Engine

variable {e e' : Engine} {config : EngineConfig}

theorem Same.refl (e : Engine) : Same e e := ⟨rfl, rfl, rfl, rfl, rfl, rfl, rfl⟩

theorem Same.trans {e'' : Engine} (h : Same e e') (h' : Same e' e'') : Same e e'' where
  config := h'.config.trans h.config
  number := h'.number.trans h.number
  send := h'.send.trans h.send
  recv := h'.recv.trans h.recv
  timers := h'.timers.trans h.timers
  closed := h'.closed.trans h.closed
  cancelled := h'.cancelled.trans h.cancelled

theorem Same.unrest (h : Same e e') : e'.unrest = e.unrest := by
  have hcharge : e'.charge = e.charge := by
    ext key
    simp only [charge, h.config, h.send, h.recv]
  rw [Engine.unrest, Engine.unrest, hcharge, h.timers]

theorem Same.nextTimerDeadline (h : Same e e') : e'.nextTimerDeadline = e.nextTimerDeadline :=
  congrArg TimerTable.nextDeadline h.timers

theorem Settled.same (hsettled : Settled config e) (h : Same e e') : Settled config e' where
  owned := ⟨by rw [h.send, h.config]; exact hsettled.owned.send,
    by rw [h.recv, h.config]; exact hsettled.owned.recv⟩
  timed := by
    have halarm : ∀ t, e'.alarm t = e.alarm t := fun t => by
      ext kind
      simp only [alarm, h.timers]
    constructor
    · intro t ht
      rw [h.config] at ht
      exact (hsettled.timed.send t ht).congr h.config (by rw [h.send]) (halarm t) rfl
    · intro t ht
      rw [h.config] at ht
      exact (hsettled.timed.recv t ht).congr h.config (by rw [h.recv]) (halarm t) rfl
  configured := h.config.trans hsettled.configured

end HdyUtils.Ltp.Engine

namespace HdyUtils.Cla

open Ltp Trace

namespace Driver

variable {β ν α : Type} [Ord α]

/-- The event brings no segment and forwards no bundle, and does not end the driver. -/
def Event.isSilent : Event β ν α → Bool
  | .tick _ | .drainOutputs | .drainNotices _ => true
  | .command (.registerPeer ..) _ | .command (.unregisterPeer _) _
  | .command (.setPeerTiming ..) _ => true
  | _ => false

def Event.isTick : Event β ν α → Bool
  | .tick _ => true
  | _ => false

/-- A tick comes no earlier than the next deadline of the engine. -/
def OnTime (d : Driver β ν α) : Event β ν α → Prop
  | .tick now => now < u64Max ∧ ∀ deadline, d.host.engine.nextTimerDeadline = some deadline →
      deadline ≤ now
  | _ => True

instance (d : Driver β ν α) : (event : Event β ν α) → Decidable (d.OnTime event)
  | .tick now =>
    match hnext : d.host.engine.nextTimerDeadline with
    | some deadline => decidable_of_iff (now < u64Max ∧ deadline ≤ now) (by simp [OnTime, hnext])
    | none => decidable_of_iff (now < u64Max) (by simp [OnTime, hnext])
  | .command .. | .datagram .. | .frame .. | .drainOutputs | .drainNotices _ | .stop =>
    inferInstanceAs (Decidable True)

theorem same_drainOutputs (fuel : Nat) (d : Driver β ν α) :
    Engine.Same d.host.engine (Driver.drainOutputs fuel d).host.engine := by
  induction fuel generalizing d with
  | zero => exact .refl _
  | succ fuel ih =>
    unfold Driver.drainOutputs
    split
    · rename_i peer bytes rest _
      have hpoll : Engine.Same d.host.engine (d.host.call .pollOutput).engine :=
        ⟨rfl, rfl, rfl, rfl, rfl, rfl, rfl⟩
      have hrest := ih ({ d with host := d.host.call .pollOutput }.transmit peer bytes)
      rw [transmit_host] at hrest
      exact hpoll.trans hrest
    · exact .refl _

theorem same_drainNotices (now fuel : Nat) (d : Driver β ν α) :
    Engine.Same d.host.engine (Driver.drainNotices now fuel d).host.engine := by
  induction fuel generalizing d with
  | zero => exact .refl _
  | succ fuel ih =>
    unfold Driver.drainNotices
    split
    · rename_i notice rest _
      have hpoll : Engine.Same d.host.engine (d.host.call .pollNotice).engine :=
        ⟨rfl, rfl, rfl, rfl, rfl, rfl, rfl⟩
      have hrest := ih ({ d with host := d.host.call .pollNotice }.handleNotice now notice)
      rw [handleNotice_host] at hrest
      exact hpoll.trans hrest
    · exact .refl _

/-- Draining takes all notices. -/
theorem notices_drainNotices (now fuel : Nat) (d : Driver β ν α)
    (hfuel : d.host.engine.notices.length ≤ fuel) :
    (Driver.drainNotices now fuel d).host.engine.notices = [] := by
  induction fuel generalizing d with
  | zero => exact List.length_eq_zero_iff.mp (Nat.le_zero.mp hfuel)
  | succ fuel ih =>
    unfold Driver.drainNotices
    split
    · rename_i notice rest hnotices
      rw [hnotices, List.length_cons] at hfuel
      apply ih
      rw [handleNotice_host]
      have hrest : (d.host.call .pollNotice).engine.notices = rest := by
        simp [Host.call, Host.pollNotice, Engine.pollNotice, hnotices]
      simp only [hrest]
      omega
    · rename_i hnotices
      exact hnotices

/-- A silent event that is not a tick leaves the sessions and the timers. -/
theorem same_step {d : Driver β ν α} {event : Event β ν α} (hsilent : event.isSilent = true)
    (htick : event.isTick = false) : Engine.Same d.host.engine (d.step event).host.engine := by
  unfold Driver.step
  split
  swap
  · exact .refl _
  cases event with
  | command cmd now =>
    cases cmd with
    | forward | shutdown => cases hsilent
    | registerPeer | unregisterPeer => exact .refl _
    | setPeerTiming => exact ⟨rfl, rfl, rfl, rfl, rfl, rfl, rfl⟩
  | drainOutputs => exact same_drainOutputs _ d
  | drainNotices now => exact same_drainNotices now _ d
  | tick => cases htick
  | datagram | frame | stop => cases hsilent

theorem running_drainOutputs (fuel : Nat) (d : Driver β ν α) :
    (Driver.drainOutputs fuel d).running = d.running := by
  induction fuel generalizing d with
  | zero => rfl
  | succ fuel ih =>
    unfold Driver.drainOutputs
    split
    · rename_i peer bytes rest _
      rw [ih]
      exact congrArg (fun books => books.2.2.2)
        (transmit_ledger { d with host := d.host.call .pollOutput } peer bytes)
    · rfl

theorem running_handleNotice (d : Driver β ν α) (now : Nat) (notice : Notice) :
    (d.handleNotice now notice).running = d.running := by
  cases hterminal : notice.isTerminal with
  | false => exact congrArg (fun ledger => ledger.2.2.2) (d.handleNotice_ledger now hterminal)
  | true =>
    obtain ⟨outcome, heq⟩ := d.handleNotice_terminal now hterminal
    rw [heq, settle]
    split <;> rfl

theorem running_drainNotices (now fuel : Nat) (d : Driver β ν α) :
    (Driver.drainNotices now fuel d).running = d.running := by
  induction fuel generalizing d with
  | zero => rfl
  | succ fuel ih =>
    unfold Driver.drainNotices
    split
    · rename_i notice rest _
      rw [ih, running_handleNotice]
    · rfl

theorem running_step {d : Driver β ν α} {event : Event β ν α} (hsilent : event.isSilent = true) :
    (d.step event).running = d.running := by
  unfold Driver.step
  split
  swap
  · rfl
  cases event with
  | command cmd now =>
    cases cmd with
    | forward | shutdown => cases hsilent
    | registerPeer | unregisterPeer | setPeerTiming => rfl
  | drainOutputs => exact running_drainOutputs _ d
  | drainNotices now => exact running_drainNotices now _ d
  | tick => rfl
  | datagram | frame | stop => cases hsilent

/-- A silent event keeps the timers, and lowers the unrest if it is a tick, unless none is armed. -/
theorem settled_step {config : EngineConfig} {d : Driver β ν α} {event : Event β ν α}
    (hrunning : d.running = true) (hsettled : Engine.Settled config d.host.engine)
    (hsilent : event.isSilent = true) (hdue : d.OnTime event) :
    Engine.Settled config (d.step event).host.engine ∧
      (d.host.engine.nextTimerDeadline = none →
        (d.step event).host.engine.nextTimerDeadline = none) ∧
      (d.host.engine.nextTimerDeadline ≠ none →
        (d.step event).host.engine.unrest + [event].countP Event.isTick ≤ d.host.engine.unrest) := by
  cases htick : event.isTick with
  | false =>
    have hsame := same_step (d := d) hsilent htick
    refine ⟨hsettled.same hsame, fun hnone => by rw [hsame.nextTimerDeadline, hnone], fun _ => ?_⟩
    simp [htick, hsame.unrest]
  | true =>
    cases event with
    | tick now =>
      obtain ⟨hclock, hdeadline⟩ := hdue
      have heq : (d.step (.tick now)).host.engine = d.host.engine.handleTimerTick now := by
        simp [Driver.step, hrunning, handle, Driver.tick]
      obtain ⟨hsettled', hle, -⟩ := hsettled.handleTimerTick hclock
      rw [heq]
      refine ⟨hsettled', fun hnone => ?_, fun hsome => ?_⟩
      · have hidle : d.host.engine.ticks [now] = d.host.engine := Engine.ticks_of_none hnone
        exact (congrArg Engine.nextTimerDeadline hidle).trans hnone
      · obtain ⟨deadline, hnext⟩ := Option.ne_none_iff_exists'.mp hsome
        have hpos := Engine.length_expire_pos hnext (hdeadline deadline hnext)
        simp only [htick, List.countP_singleton, if_true]
        omega
    | command | datagram | frame | drainOutputs | drainNotices | stop => cases htick

/-- Along a silent stretch every tick lowers the unrest, until no timer is armed. -/
theorem settled_run {config : EngineConfig} {d : Driver β ν α} {silence : List (Event β ν α)}
    (hrunning : d.running = true) (hsettled : Engine.Settled config d.host.engine)
    (hsilent : ∀ event ∈ silence, event.isSilent = true)
    (hdue : Along Driver.step OnTime d silence) :
    Engine.Settled config (d.run silence).host.engine ∧
      (d.host.engine.nextTimerDeadline = none →
        (d.run silence).host.engine.nextTimerDeadline = none) ∧
      ((d.run silence).host.engine.nextTimerDeadline ≠ none →
        (d.run silence).host.engine.unrest + silence.countP Event.isTick ≤
          d.host.engine.unrest) := by
  induction silence generalizing d with
  | nil => exact ⟨hsettled, id, fun _ => le_rfl⟩
  | cons event silence ih =>
    have hevent := hsilent event List.mem_cons_self
    obtain ⟨hsettled', hnone, hle⟩ := settled_step hrunning hsettled hevent hdue.1
    obtain ⟨hend, hnoneEnd, hleEnd⟩ := ih ((running_step hevent).trans hrunning) hsettled'
      (fun event' hmem => hsilent event' (List.mem_cons_of_mem event hmem)) hdue.2
    refine ⟨hend, fun hnext => hnoneEnd (hnone hnext), fun hsome => ?_⟩
    have hsome' : d.host.engine.nextTimerDeadline ≠ none := fun hnext =>
      hsome (hnoneEnd (hnone hnext))
    have hfirst := hle hsome'
    have hrest : (d.run (event :: silence)).host.engine.unrest + silence.countP Event.isTick ≤
        (d.step event).host.engine.unrest := hleEnd hsome
    have hsplit : (event :: silence).countP Event.isTick =
        [event].countP Event.isTick + silence.countP Event.isTick :=
      @List.countP_append _ _ [event] silence
    omega

/-- The engine of a driver that ran is one that a host ran. -/
theorem host_run (config : Config) (events : List (Event β ν α)) :
    ∃ calls, Calls (Host.new config.engineConfig) ((Driver.new config).run events).host calls := by
  have hcalls : ∀ (d : Driver β ν α) (event : Event β ν α),
      (∃ calls, Calls (Host.new config.engineConfig) d.host calls) →
      ∃ calls, Calls (Host.new config.engineConfig) (d.step event).host calls := by
    rintro d event ⟨calls, hcalls⟩
    obtain ⟨more, hmore, -⟩ := calls_step hcalls.idle event
    exact ⟨calls ++ more, hcalls.trans hmore⟩
  exact Trace.run_invariant hcalls events
    ⟨config.peerTimings, rfl, (balanced_new config : (Driver.new config : Driver β ν α).Balanced).idle⟩

theorem run_of_stopped {d : Driver β ν α} (hstopped : d.running = false)
    (events : List (Event β ν α)) : d.run events = d := by
  induction events with
  | nil => rfl
  | cons event events ih =>
    have hstep : d.step event = d := by simp [Driver.step, hstopped]
    rw [Driver.run, run_cons, hstep]
    exact ih

theorem along_silent {d : Driver β ν α} {events : List (Event β ν α)}
    (hsilent : ∀ event ∈ events, event.isSilent = true) :
    Along Driver.step (fun d event => d.acksCancelled event) d events :=
  along_of_forall_mem fun event hmem d => by
    have hevent := hsilent event hmem
    cases event with
    | datagram | frame => cases hevent
    | command | tick | drainOutputs | drainNotices | stop => rfl

end Driver

/-- Once a link falls silent every transfer has its outcome.  After any run of a driver in which only
sessions being cancelled had their cancellation acknowledged, let nothing be received or forwarded
any more, and let more ticks reach the deadlines of the engine than the charges of its armed timers
allow; then the engine has no session, and once the notices are drained no transfer is pending and
every accepted one has its outcome. -/
theorem silent_driver_settles {β ν α : Type} [Ord α] {config : Config}
    {events silence : List (Driver.Event β ν α)} {now : Nat}
    (hok : Along Driver.step (fun d event => d.acksCancelled event) (.new config) events)
    (hids : (((Driver.new config).run (events ++ silence ++ [.drainNotices now])).host.requests.map
      Request.session).Nodup)
    (hsilent : ∀ event ∈ silence, event.isSilent = true)
    (hdue : Along Driver.step Driver.OnTime ((Driver.new config).run events) silence)
    (hlong : ((Driver.new config).run events).host.engine.timerTable.armed.card *
      config.engineConfig.maxCharge < silence.countP Driver.Event.isTick) :
    let d := (Driver.new config).run (events ++ silence ++ [.drainNotices now])
    (d.running = true → ∀ sid : SessionId, d.host.engine.sendSessions[sid]? = none ∧
      d.host.engine.recvSessions[sid]? = none) ∧
    (∀ sid : SessionId, d.pendingTransfers[sid]? = none) ∧
    ∀ x ∈ d.accepted, ∃ outcome, (x.1, x.2, outcome) ∈ d.outcomes := by
  intro d
  have hd : d = (((Driver.new config).run events).run silence).step (.drainNotices now) := by
    simp [d, Driver.run, run_append]
  have hquiet : ∀ event ∈ silence ++ [.drainNotices now],
      (event : Driver.Event β ν α).isSilent = true :=
    List.forall_mem_append.mpr ⟨hsilent, List.forall_mem_singleton.mpr rfl⟩
  have hall : Along Driver.step (fun d event => d.acksCancelled event) (.new config)
      (events ++ silence ++ [.drainNotices now]) := by
    rw [List.append_assoc]
    exact along_append.mpr ⟨hok, Driver.along_silent hquiet⟩
  have hbalanced : d.Balanced := (Driver.balanced_new config).run hall hids
  -- A driver that has stopped left no transfer pending.
  by_cases hrunning : ((Driver.new config).run events).running = true
  swap
  · have hstopped : d.running = false := by
      have hevents := Bool.eq_false_iff.mpr hrunning
      have hsame := Driver.run_of_stopped hevents (silence ++ [.drainNotices now])
      rw [← hsame, Driver.run, Driver.run, ← run_append, ← List.append_assoc] at hevents
      exact hevents
    refine ⟨fun hrun => absurd hrun (by simp [hstopped]), hbalanced.stopped hstopped, fun x hx => ?_⟩
    refine (hbalanced.settled x hx).resolve_left fun hb => ?_
    rw [hbalanced.stopped hstopped] at hb
    cases hb
  obtain ⟨calls, hcalls⟩ := Driver.host_run config events
  have hsettled : Engine.Settled config.engineConfig
      ((Driver.new config).run events).host.engine := by
    have hidle := hcalls.idle
    rw [hcalls.run] at hidle ⊢
    exact Host.settled_run hidle
  have hbound := hsettled.unrest_le
  obtain ⟨hend, -, hle⟩ := Driver.settled_run hrunning hsettled hsilent hdue
  have hnone : (((Driver.new config).run events).run silence).host.engine.nextTimerDeadline =
      none := by
    by_contra hsome
    have hwork := hle hsome
    omega
  have hstepped := @Driver.same_step β ν α _ (((Driver.new config).run events).run silence)
    (.drainNotices now) rfl rfl
  have hsessions : ∀ sid : SessionId, d.host.engine.sendSessions[sid]? = none ∧
      d.host.engine.recvSessions[sid]? = none := by
    intro sid
    rw [hd, hstepped.send, hstepped.recv]
    exact hend.no_sessions (by simp [Config.engineConfig, EngineConfig.default]) hnone sid
  have hsilence : (((Driver.new config).run events).run silence).running = true := by
    have hkept : ∀ (l : List (Driver.Event β ν α)) (d : Driver β ν α),
        (∀ event ∈ l, event.isSilent = true) → (d.run l).running = d.running := by
      intro l
      induction l with
      | nil => exact fun d _ => rfl
      | cons event l ih =>
        intro d hl
        have hrest := ih (d.step event) fun event' hmem => hl event' (List.mem_cons_of_mem event hmem)
        exact hrest.trans (Driver.running_step (hl event List.mem_cons_self))
    rw [hkept silence _ hsilent]
    exact hrunning
  have hdrained : d.host.engine.notices = [] := by
    rw [hd, Driver.step, if_pos hsilence]
    exact Driver.notices_drainNotices now _ _ le_rfl
  have hpending : ∀ sid : SessionId, d.pendingTransfers[sid]? = none := by
    intro sid
    by_contra hb
    obtain ⟨b, hb⟩ := Option.ne_none_iff_exists'.mp hb
    obtain ⟨-, hkeeps, huntold⟩ := hbalanced.awaited sid b hb
    rcases hkeeps with hsome | ⟨x, hx, hsession, hterminal⟩
    · exact hsome (hsessions sid).1
    · rw [Host.emitted, hdrained, List.append_nil] at hx
      rw [huntold x hx hsession] at hterminal
      cases hterminal
  refine ⟨fun _ => hsessions, hpending, fun x hx => ?_⟩
  refine (hbalanced.settled x hx).resolve_left fun hb => ?_
  rw [hpending] at hb
  cases hb

/-- Half an hour without a segment. -/
def halfAnHour : List (Driver.Event Nat Nat Nat) :=
  (List.range 60).map fun i => .tick ((i + 1) * 30000000)

/-- A bundle is forwarded before the silence. -/
theorem silent_driver_settles_forwarded :
    let events := forwardAndTimeOut.take 2 ++ halfAnHour ++ [.drainNotices 1800000001]
    ∀ x ∈ ((Driver.new hastyStation).run events).accepted,
      ∃ outcome, (x.1, x.2, outcome) ∈ ((Driver.new hastyStation).run events).outcomes :=
  (@silent_driver_settles Nat Nat Nat _ hastyStation (forwardAndTimeOut.take 2)
    halfAnHour 1800000001
    (by decide +kernel) (by decide +kernel) (by decide +kernel) (by decide +kernel)
    (by decide +kernel)).2.2

end HdyUtils.Cla
