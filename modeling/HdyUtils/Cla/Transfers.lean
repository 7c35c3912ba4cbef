import HdyUtils.Cla.Driver
import HdyUtils.Ltp.Notices

/-! Transfers of the driver.  A driver makes only calls of its engine, so what holds along every run
of the engine holds in the driver; and a transfer is pending only while the engine keeps its
session. -/

namespace HdyUtils.Cla

open Ltp Trace

namespace Driver

variable {β ν α : Type} [Ord α]

/-! ### The driver as a host of its engine -/

/-- The event does not acknowledge the cancellation of a send session that is not being
cancelled. -/
def acksCancelled (d : Driver β ν α) : Event β ν α → Bool
  | .datagram _ _ buf now | .frame buf _ now =>
    d.host.acksCancelled (.segment d.config.engineId buf now)
  | _ => true

/-- The host moves by calls, and is not left in a tick. -/
structure Calls (h h' : Host) (calls : List Call) : Prop where
  run : h' = h.run calls
  idle : h'.pending = []

namespace Calls

theorem refl {h : Host} (hidle : h.pending = []) : Calls h h [] := ⟨rfl, hidle⟩

theorem trans {h h' h'' : Host} {cs cs' : List Call} (h₁ : Calls h h' cs) (h₂ : Calls h' h'' cs') :
    Calls h h'' (cs ++ cs') :=
  ⟨by rw [h₂.run, h₁.run, Host.run, Host.run, ← run_append], h₂.idle⟩

theorem one {h : Host} (hidle : h.pending = []) (c : Call) (hkeeps : (h.call c).pending = []) :
    Calls h (h.call c) [c] :=
  ⟨(Host.step_idle hidle c).symm, hkeeps⟩

theorem tick {h : Host} (hidle : h.pending = []) (now : Nat) :
    Calls h { h with engine := h.engine.handleTimerTick now, tickTime := now }
      (.tick now :: List.replicate (h.engine.expire now).1.length .fire) :=
  ⟨(h.run_tick hidle now).symm, hidle⟩

end Calls

/-- The books of the driver: its pending transfers, what was accepted and with what outcome, and
whether it runs. -/
def ledger (d : Driver β ν α) :
    Std.TreeMap SessionId β × List (SessionId × β) × List (SessionId × β × TransferOutcome) × Bool :=
  (d.pendingTransfers, d.accepted, d.outcomes, d.running)

@[simp] theorem udpPeer_host (d : Driver β ν α) (peerAddr : α) (port : UInt64) (buf : Bytes) :
    (d.udpPeer peerAddr port buf).2.host = d.host := by
  unfold udpPeer
  split
  · split <;> rfl
  · split <;> rfl

@[simp] theorem udpPeer_ledger (d : Driver β ν α) (peerAddr : α) (port : UInt64) (buf : Bytes) :
    (d.udpPeer peerAddr port buf).2.ledger = d.ledger := by
  unfold udpPeer
  split
  · split <;> rfl
  · split <;> rfl

@[simp] theorem transmit_host (d : Driver β ν α) (peer : EngineId) (bytes : Bytes) :
    (d.transmit peer bytes).host = d.host := by
  unfold transmit
  split
  · split <;> rfl
  · rfl

@[simp] theorem transmit_ledger (d : Driver β ν α) (peer : EngineId) (bytes : Bytes) :
    (d.transmit peer bytes).ledger = d.ledger := by
  unfold transmit
  split
  · split <;> rfl
  · rfl

@[simp] theorem settle_host (d : Driver β ν α) (session : SessionId) (outcome : TransferOutcome) :
    (d.settle session outcome).host = d.host := by
  unfold settle
  split <;> rfl

@[simp] theorem reassembleGreen_host (d : Driver β ν α) (session : SessionId) (source : EngineId)
    (offset : Nat) (data : Bytes) (eob : Bool) (now : Nat) :
    (d.reassembleGreen session source offset data eob now).host = d.host := by
  unfold reassembleGreen
  simp only
  split_ifs <;> rfl

@[simp] theorem reassembleGreen_ledger (d : Driver β ν α) (session : SessionId) (source : EngineId)
    (offset : Nat) (data : Bytes) (eob : Bool) (now : Nat) :
    (d.reassembleGreen session source offset data eob now).ledger = d.ledger := by
  unfold reassembleGreen
  simp only
  split_ifs <;> rfl

@[simp] theorem handleNotice_host (d : Driver β ν α) (now : Nat) (notice : Notice) :
    (d.handleNotice now notice).host = d.host := by
  cases notice with
  | redPartReceived =>
    simp only [handleNotice]
    split <;> rfl
  | greenSegmentArrived =>
    simp only [handleNotice]
    split
    · rfl
    · exact reassembleGreen_host ..
  | transmissionSessionCompleted | transmissionSessionCancelled => exact settle_host ..

/-- A notice that ends no session changes nothing in the books. -/
theorem handleNotice_ledger (d : Driver β ν α) (now : Nat) {notice : Notice}
    (h : notice.isTerminal = false) : (d.handleNotice now notice).ledger = d.ledger := by
  cases notice with
  | redPartReceived =>
    simp only [handleNotice]
    split <;> rfl
  | greenSegmentArrived =>
    simp only [handleNotice]
    split
    · rfl
    · exact reassembleGreen_ledger ..
  | transmissionSessionCompleted | transmissionSessionCancelled => cases h

/-- A notice that ends a session settles its transfer. -/
theorem handleNotice_terminal (d : Driver β ν α) (now : Nat) {notice : Notice}
    (h : notice.isTerminal = true) :
    ∃ outcome, d.handleNotice now notice = d.settle notice.session outcome := by
  cases notice with
  | redPartReceived | greenSegmentArrived => cases h
  | transmissionSessionCompleted => exact ⟨.completed, rfl⟩
  | transmissionSessionCancelled => exact ⟨.failed, rfl⟩

/-! ### Balance -/

/-- Every accepted transfer is pending or has its outcome, and a pending one has its session in the
engine or a notice of its end on the way. -/
structure Balanced (d : Driver β ν α) : Prop where
  idle : d.host.pending = []
  requested : d.host.Requested
  announced : d.host.CancelsAnnounced
  awaited : ∀ (sid : SessionId) (b : β), d.pendingTransfers[sid]? = some b →
    sid ∈ d.host.requests.map Request.session ∧ d.host.Keeps sid ∧
      ∀ x ∈ d.host.told, x.session = sid → x.isTerminal = false
  settled : ∀ x ∈ d.accepted, d.pendingTransfers[x.1]? = some x.2 ∨
    ∃ outcome, (x.1, x.2, outcome) ∈ d.outcomes
  stopped : d.running = false → ∀ sid : SessionId, d.pendingTransfers[sid]? = none

theorem Calls.requests {h h' : Host} {calls : List Call} (hcalls : Calls h h' calls)
    (hown : h.engine.Owned) : h.requests <+: h'.requests := by
  rw [hcalls.run]
  exact Host.requests_prefix_run hown calls

theorem Calls.requested {h h' : Host} {calls : List Call} (hcalls : Calls h h' calls)
    (hinv : h.Requested) : h'.Requested := by
  have hstep : ∀ h c, Host.Requested h → (h.step c).Requested := fun _ c hinv => hinv.step c
  rw [hcalls.run]
  exact run_invariant hstep calls hinv

theorem Calls.announced {h h' : Host} {calls : List Call} (hcalls : Calls h h' calls)
    (hok : Along Host.step (fun h c => h.acksCancelled c) h calls) (hinv : h.CancelsAnnounced) :
    h'.CancelsAnnounced := by
  rw [hcalls.run]
  exact hok.invariant (fun _ _ hinv hc => Host.CancelsAnnounced.step hinv hc) hinv

theorem Calls.keeps {h h' : Host} {calls : List Call} (hcalls : Calls h h' calls)
    (hok : Along Host.step (fun h c => h.acksCancelled c) h calls) {sid : SessionId}
    (hinv : h.KeepsOwn sid) : h'.KeepsOwn sid := by
  rw [hcalls.run]
  exact hok.invariant (fun _ _ hinv hc => Host.KeepsOwn.step hinv hc) hinv

/-- The pending transfers of a balanced driver after calls of its engine. -/
theorem Balanced.keeps {d : Driver β ν α} (hinv : d.Balanced) {h' : Host} {calls : List Call}
    (hcalls : Calls d.host h' calls)
    (hok : Along Host.step (fun h c => h.acksCancelled c) d.host calls) {sid : SessionId} {b : β}
    (hb : d.pendingTransfers[sid]? = some b) :
    sid ∈ h'.requests.map Request.session ∧ h'.Keeps sid := by
  obtain ⟨hmem, hkeeps, -⟩ := hinv.awaited sid b hb
  have hown : sid.originator = d.host.engine.config.engineId := by
    obtain ⟨r, hr, rfl⟩ := List.mem_map.mp hmem
    exact hinv.requested.own r hr
  exact ⟨((hcalls.requests hinv.requested.owned).map Request.session).subset hmem,
    (hcalls.keeps hok ⟨hinv.announced, hown, hkeeps⟩).keeps⟩

/-- Calls that tell the driver nothing keep the balance. -/
theorem Balanced.calls {d d' : Driver β ν α} (hinv : d.Balanced) {calls : List Call}
    (hcalls : Calls d.host d'.host calls)
    (hok : Along Host.step (fun h c => h.acksCancelled c) d.host calls)
    (hledger : d'.ledger = d.ledger) (htold : d'.host.told = d.host.told) : d'.Balanced := by
  obtain ⟨hpending, haccepted, houtcomes, hrunning⟩ : d'.pendingTransfers = d.pendingTransfers ∧
      d'.accepted = d.accepted ∧ d'.outcomes = d.outcomes ∧ d'.running = d.running := by
    simpa [ledger] using hledger
  refine ⟨hcalls.idle, hcalls.requested hinv.requested, hcalls.announced hok hinv.announced,
    fun sid b hb => ?_, ?_, ?_⟩
  · rw [hpending] at hb
    obtain ⟨hmem, hkeeps⟩ := hinv.keeps hcalls hok hb
    rw [htold]
    exact ⟨hmem, hkeeps, (hinv.awaited sid b hb).2.2⟩
  · rw [haccepted, hpending, houtcomes]
    exact hinv.settled
  · rw [hrunning, hpending]
    exact hinv.stopped

/-- Forwarding a bundle for a session that was not requested before keeps the balance. -/
theorem Balanced.forward {d : Driver β ν α} (hinv : d.Balanced) (hrunning : d.running = true)
    {bundleId : β} {dest : EngineId} {data : Bytes} {redLen now : Nat}
    (hdistinct : ((d.forward bundleId dest data redLen now).host.requests.map
      Request.session).Nodup) :
    (d.forward bundleId dest data redLen now).Balanced := by
  unfold Driver.forward at hdistinct ⊢
  split
  swap
  · exact hinv
  rename_i hknown
  rw [if_pos hknown] at hdistinct
  cases hreq : d.host.engine.requestTransmission dest 1 data redLen now with
  | error err => exact hinv
  | ok out =>
    obtain ⟨sid, e⟩ := out
    simp only [hreq] at hdistinct ⊢
    have hcalls : Calls d.host (d.host.request dest 1 data redLen now)
        [.request dest 1 data redLen now] :=
      .one hinv.idle (.request dest 1 data redLen now) (by simp [Host.call, hinv.idle])
    have hok : Along Host.step (fun h c => h.acksCancelled c) d.host
        [.request dest 1 data redLen now] := ⟨rfl, trivial⟩
    obtain ⟨hkeeps, hmem, hnew, hnotices⟩ := hinv.requested.request hreq hdistinct
    have hold : ∀ (t : SessionId) (b : β), d.pendingTransfers[t]? = some b → sid ≠ t :=
      fun t b hb heq => hnew (heq ▸ (hinv.awaited t b hb).1)
    refine ⟨hcalls.idle, hcalls.requested hinv.requested, hcalls.announced hok hinv.announced,
      fun t b hb => ?_, fun x hx => ?_, by simp [hrunning]⟩
    · rw [Maps.getElem?_insert] at hb
      rw [Host.request_told]
      split at hb
      · rename_i heq
        subst heq
        exact ⟨hmem, hkeeps, fun x hx hsession =>
          absurd hsession (hnotices x (List.mem_append_left _ hx))⟩
      · obtain ⟨hmem', hkeeps'⟩ := hinv.keeps hcalls hok hb
        exact ⟨hmem', hkeeps', (hinv.awaited t b hb).2.2⟩
    · rw [Maps.getElem?_insert]
      rcases List.mem_append.mp hx with hx | hx
      · refine (hinv.settled x hx).imp_left fun hb => ?_
        rw [if_neg (hold _ _ hb)]
        exact hb
      · rw [List.mem_singleton.mp hx]
        exact .inl (if_pos rfl)

/-- A polled notice, once handled, keeps the balance. -/
theorem Balanced.handleNotice {d : Driver β ν α} (hinv : d.Balanced) (hrunning : d.running = true)
    {notice : Notice} {rest : List Notice} (hnotices : d.host.engine.notices = notice :: rest)
    (now : Nat) :
    ({ d with host := d.host.call .pollNotice }.handleNotice now notice).Balanced ∧
      ({ d with host := d.host.call .pollNotice }.handleNotice now notice).running = true := by
  have hcalls : Calls d.host (d.host.call .pollNotice) [.pollNotice] :=
    .one hinv.idle .pollNotice hinv.idle
  have hok : Along Host.step (fun h c => h.acksCancelled c) d.host [.pollNotice] := ⟨rfl, trivial⟩
  have htold : (d.host.call .pollNotice).told = d.host.told ++ [notice] := by
    simp [Host.call, Host.pollNotice, Engine.pollNotice, hnotices]
  have hkeeps : ∀ (sid : SessionId) (b : β), d.pendingTransfers[sid]? = some b →
      (notice.session = sid → notice.isTerminal = false) →
      sid ∈ (d.host.call .pollNotice).requests.map Request.session ∧
        (d.host.call .pollNotice).Keeps sid ∧
        ∀ x ∈ (d.host.call .pollNotice).told, x.session = sid → x.isTerminal = false :=
    fun sid b hb hnotice => by
      obtain ⟨hmem, hkeeps⟩ := hinv.keeps hcalls hok hb
      refine ⟨hmem, hkeeps, fun x hx => ?_⟩
      rw [htold] at hx
      rcases List.mem_append.mp hx with hx | hx
      · exact (hinv.awaited sid b hb).2.2 x hx
      · rwa [List.mem_singleton.mp hx]
  cases hterminal : notice.isTerminal with
  | false =>
    have hledger := handleNotice_ledger { d with host := d.host.call .pollNotice } now hterminal
    obtain ⟨hpending, haccepted, houtcomes, hrunning'⟩ : _ ∧ _ ∧ _ ∧ _ := by
      simpa [ledger] using hledger
    refine ⟨⟨?_, ?_, ?_, fun sid b hb => ?_, ?_, ?_⟩, hrunning'.trans hrunning⟩
    · rw [handleNotice_host]
      exact hcalls.idle
    · rw [handleNotice_host]
      exact hcalls.requested hinv.requested
    · rw [handleNotice_host]
      exact hcalls.announced hok hinv.announced
    · rw [hpending] at hb
      rw [handleNotice_host]
      exact hkeeps sid b hb fun _ => hterminal
    · rw [haccepted, hpending, houtcomes]
      exact hinv.settled
    · rw [hrunning', hpending]
      exact hinv.stopped
  | true =>
    obtain ⟨outcome, heq⟩ := handleNotice_terminal { d with host := d.host.call .pollNotice } now
      hterminal
    rw [heq, settle]
    simp only
    cases hb : d.pendingTransfers[notice.session]? with
    | none =>
      refine ⟨⟨hcalls.idle, hcalls.requested hinv.requested, hcalls.announced hok hinv.announced,
        fun sid b hb' => hkeeps sid b hb' fun hsid => ?_, hinv.settled, hinv.stopped⟩, hrunning⟩
      rw [← hsid, hb] at hb'
      cases hb'
    | some bundleId =>
      refine ⟨⟨hcalls.idle, hcalls.requested hinv.requested, hcalls.announced hok hinv.announced,
        fun sid b hb' => ?_, fun x hx => ?_, by simp [hrunning]⟩, hrunning⟩
      · rw [Maps.getElem?_erase] at hb'
        split at hb'
        · cases hb'
        · rename_i hne
          exact hkeeps sid b hb' fun hsid => absurd hsid hne
      · rw [Maps.getElem?_erase]
        rcases hinv.settled x hx with hx | ⟨o, ho⟩
        · by_cases hsid : notice.session = x.1
          · rw [← hsid, hb] at hx
            cases hx
            exact .inr ⟨outcome, by rw [← hsid]; simp⟩
          · rw [if_neg hsid]
            exact .inl hx
        · exact .inr ⟨o, List.mem_append_left _ ho⟩

theorem Balanced.drainNotices {d : Driver β ν α} (hinv : d.Balanced) (hrunning : d.running = true)
    (now fuel : Nat) : (drainNotices now fuel d).Balanced := by
  induction fuel generalizing d with
  | zero => exact hinv
  | succ fuel ih =>
    unfold Driver.drainNotices
    split
    · rename_i notice rest hnotices
      obtain ⟨hinv', hrunning'⟩ := hinv.handleNotice hrunning hnotices now
      exact ih hinv' hrunning'
    · exact hinv

theorem Balanced.drainOutputs {d : Driver β ν α} (hinv : d.Balanced) (fuel : Nat) :
    (drainOutputs fuel d).Balanced := by
  induction fuel generalizing d with
  | zero => exact hinv
  | succ fuel ih =>
    unfold Driver.drainOutputs
    split
    · rename_i peer bytes rest houtbound
      have hcalls : Calls d.host (d.host.call .pollOutput) [.pollOutput] :=
        .one hinv.idle .pollOutput hinv.idle
      have hok : Along Host.step (fun h c => h.acksCancelled c) d.host [.pollOutput] :=
        ⟨rfl, trivial⟩
      exact ih (hinv.calls (by rw [transmit_host]; exact hcalls) hok (transmit_ledger _ peer bytes)
        (by rw [transmit_host]; rfl))
    · exact hinv

/-- A driver that stops fails what is pending. -/
theorem Balanced.stop {d : Driver β ν α} (hinv : d.Balanced) : d.stop.Balanced where
  idle := hinv.idle
  requested := hinv.requested
  announced := hinv.announced
  awaited := by simp [Driver.stop]
  settled := fun x hx => by
    refine .inr ?_
    simp only [Driver.stop, List.mem_append, List.mem_map]
    rcases hinv.settled x hx with hb | ⟨o, ho⟩
    · exact ⟨.failed, .inr ⟨x, Std.TreeMap.mem_toList_iff_getElem?_eq_some.mpr hb, rfl⟩⟩
    · exact ⟨o, .inl ho⟩
  stopped := by simp [Driver.stop]

/-- The calls on a new engine set timings of its peers. -/
theorem mem_peerTimings {config : Config} {c : Call} (hc : c ∈ config.peerTimings) :
    ∃ peer rtt ackMargin, c = .setPeerTiming peer rtt ackMargin := by
  obtain ⟨peer, -, hpeer⟩ := List.mem_filterMap.mp hc
  split at hpeer
  · cases hpeer
    exact ⟨_, _, _, rfl⟩
  · cases hpeer

theorem balanced_new (config : Config) : (new config : Driver β ν α).Balanced := by
  have htimings : ∀ calls : List Call,
      (∀ c ∈ calls, ∃ peer rtt ackMargin, c = .setPeerTiming peer rtt ackMargin) →
      ∀ h : Host, h.pending = [] →
        (h.run calls).pending = [] ∧ Along Host.step (fun h c => h.acksCancelled c) h calls := by
    intro calls
    induction calls with
    | nil => exact fun _ h hidle => ⟨hidle, trivial⟩
    | cons c calls ih =>
      intro hcalls h hidle
      obtain ⟨peer, rtt, ackMargin, rfl⟩ := hcalls c List.mem_cons_self
      rw [Host.run, run_cons]
      have hnext := ih (fun c hc => hcalls c (List.mem_cons_of_mem _ hc))
        (h.step (.setPeerTiming peer rtt ackMargin)) (by rw [Host.step_idle hidle]; exact hidle)
      exact ⟨hnext.1, rfl, hnext.2⟩
  obtain ⟨hidle, hok⟩ := htimings _ (fun c => mem_peerTimings) (Host.new config.engineConfig) rfl
  have hrun : Calls (Host.new config.engineConfig) (new config : Driver β ν α).host
      config.peerTimings := ⟨rfl, hidle⟩
  exact ⟨hidle, hrun.requested (Host.requested_new _),
    hrun.announced hok (Host.cancelsAnnounced_new _), by simp [new], by simp [new],
    by simp [new]⟩

/-- The segment that an event brings to the engine. -/
def Event.heard : Event β ν α → Option Segment
  | .datagram _ _ buf now | .frame buf _ now => Host.received (.segment ⟨0⟩ buf now)
  | _ => none

/-- An event of the driver is a run of calls of its engine, which hand over the segment that the event
brings, or none. -/
theorem calls_step {d : Driver β ν α} (hidle : d.host.pending = []) (event : Event β ν α) :
    ∃ calls, Calls d.host (d.step event).host calls ∧ ∀ c ∈ calls, Host.received c = event.heard := by
  have houtputs : ∀ fuel (d : Driver β ν α), d.host.pending = [] →
      ∃ calls, Calls d.host (Driver.drainOutputs fuel d).host calls ∧
        ∀ c ∈ calls, Host.received c = none := by
    intro fuel
    induction fuel with
    | zero => exact fun d hidle => ⟨_, .refl hidle, by simp⟩
    | succ fuel ih =>
      intro d hidle
      unfold Driver.drainOutputs
      split
      · rename_i peer bytes rest _
        have hcalls : Calls d.host (d.host.call .pollOutput) [.pollOutput] :=
          .one hidle .pollOutput hidle
        obtain ⟨calls, hrest, hnone⟩ :=
          ih ({ d with host := d.host.call .pollOutput }.transmit peer bytes)
            (by rw [transmit_host]; exact hidle)
        rw [transmit_host] at hrest
        exact ⟨_, hcalls.trans hrest, List.forall_mem_cons.mpr ⟨rfl, hnone⟩⟩
      · exact ⟨_, .refl hidle, by simp⟩
  have hnotices : ∀ now fuel (d : Driver β ν α), d.host.pending = [] →
      ∃ calls, Calls d.host (Driver.drainNotices now fuel d).host calls ∧
        ∀ c ∈ calls, Host.received c = none := by
    intro now fuel
    induction fuel with
    | zero => exact fun d hidle => ⟨_, .refl hidle, by simp⟩
    | succ fuel ih =>
      intro d hidle
      unfold Driver.drainNotices
      split
      · rename_i notice rest _
        have hcalls : Calls d.host (d.host.call .pollNotice) [.pollNotice] :=
          .one hidle .pollNotice hidle
        obtain ⟨calls, hrest, hnone⟩ := ih
          ({ d with host := d.host.call .pollNotice }.handleNotice now notice)
          (by rw [handleNotice_host]; exact hidle)
        rw [handleNotice_host] at hrest
        exact ⟨_, hcalls.trans hrest, List.forall_mem_cons.mpr ⟨rfl, hnone⟩⟩
      · exact ⟨_, .refl hidle, by simp⟩
  have hreceive : ∀ (source : EngineId) (buf : Bytes) (now : Nat),
      Calls d.host (d.host.receive source buf now) [.segment source buf now] :=
    fun source buf now => .one hidle (.segment source buf now) (by simp [Host.call, hidle])
  unfold Driver.step
  split
  swap
  · exact ⟨_, .refl hidle, by simp⟩
  cases event with
  | command cmd now =>
    cases cmd with
    | forward bundleId dest data redLen =>
      simp only [handle, handleCommand, Driver.forward]
      split
      · split
        · exact ⟨_, .one hidle (.request dest 1 data redLen now) (by simp [Host.call, hidle]),
            List.forall_mem_singleton.mpr rfl⟩
        · exact ⟨_, .refl hidle, by simp⟩
      · exact ⟨_, .refl hidle, by simp⟩
    | registerPeer | unregisterPeer | shutdown => exact ⟨_, .refl hidle, by simp⟩
    | setPeerTiming engineId rtt ackMargin =>
      exact ⟨_, .one hidle (.setPeerTiming engineId (microsU64 rtt) (microsU64 ackMargin)) hidle,
        List.forall_mem_singleton.mpr rfl⟩
  | datagram peerAddr port buf now =>
    simp only [handle, receiveDatagram]
    split
    · exact ⟨_, .refl hidle, by simp⟩
    · simp only [udpPeer_host]
      exact ⟨_, hreceive _ buf now, List.forall_mem_singleton.mpr rfl⟩
  | frame payload first now =>
    exact ⟨_, hreceive _ payload now, List.forall_mem_singleton.mpr rfl⟩
  | tick now =>
    refine ⟨_, .tick hidle now, List.forall_mem_cons.mpr ⟨rfl, fun c hc => ?_⟩⟩
    rw [List.eq_of_mem_replicate hc]
    rfl
  | drainOutputs => exact houtputs _ d hidle
  | drainNotices now => exact hnotices now _ d hidle
  | stop => exact ⟨_, .refl hidle, by simp⟩

/-- An event keeps the balance if it requests no session that was requested before. -/
theorem Balanced.step {d : Driver β ν α} (hinv : d.Balanced) {event : Event β ν α}
    (hok : d.acksCancelled event)
    (hdistinct : ((d.step event).host.requests.map Request.session).Nodup) :
    (d.step event).Balanced := by
  unfold Driver.step at hdistinct ⊢
  split
  swap
  · exact hinv
  rename_i hrunning
  rw [if_pos hrunning] at hdistinct
  have hreceive : ∀ (d' : Driver β ν α) (source : EngineId) (buf : Bytes) (now : Nat),
      d'.host = d.host.receive source buf now → d'.ledger = d.ledger →
      d.host.acksCancelled (.segment d.config.engineId buf now) → d'.Balanced := by
    intro d' source buf now hhost hledger hok
    have hcalls : Calls d.host (d.host.receive source buf now) [.segment source buf now] :=
      .one hinv.idle (.segment source buf now) (by simp [Host.call, hinv.idle])
    have hsegment : Along Host.step (fun h c => h.acksCancelled c) d.host
        [.segment source buf now] := ⟨hok, trivial⟩
    exact hinv.calls (by rw [hhost]; exact hcalls) hsegment hledger (by simp [hhost])
  cases event with
  | command cmd now =>
    cases cmd with
    | forward bundleId dest data redLen => exact hinv.forward hrunning hdistinct
    | registerPeer | unregisterPeer =>
      have hok : Along Host.step (fun h c => h.acksCancelled c) d.host [] := trivial
      exact hinv.calls (.refl hinv.idle) hok rfl rfl
    | setPeerTiming engineId rtt ackMargin =>
      have hok : Along Host.step (fun h c => h.acksCancelled c) d.host
          [.setPeerTiming engineId (microsU64 rtt) (microsU64 ackMargin)] := ⟨rfl, trivial⟩
      exact hinv.calls (.one hinv.idle (.setPeerTiming engineId (microsU64 rtt) (microsU64 ackMargin))
        hinv.idle) hok rfl rfl
    | shutdown => exact hinv.stop
  | datagram peerAddr port buf now =>
    simp only [handle, receiveDatagram]
    split
    · exact hinv
    · exact hreceive _ (d.udpPeer peerAddr port buf).1 buf now (by simp)
        (udpPeer_ledger d peerAddr port buf) hok
  | frame payload first now => exact hreceive _ _ payload now rfl rfl hok
  | tick now =>
    refine hinv.calls (.tick hinv.idle now) (along_of_forall_mem fun c hc h => ?_) rfl rfl
    rcases List.mem_cons.mp hc with rfl | hc
    · rfl
    · rw [List.eq_of_mem_replicate hc]
      rfl
  | drainOutputs => exact hinv.drainOutputs _
  | drainNotices now => exact hinv.drainNotices hrunning now _
  | stop => exact hinv.stop

abbrev run (d : Driver β ν α) (events : List (Event β ν α)) : Driver β ν α :=
  Trace.run step d events

theorem requests_prefix_run {d : Driver β ν α} (hinv : d.host.Requested)
    (hidle : d.host.pending = []) (events : List (Event β ν α)) :
    d.host.requests <+: (d.run events).host.requests := by
  induction events generalizing d with
  | nil => exact List.prefix_refl _
  | cons event events ih =>
    obtain ⟨calls, hcalls, -⟩ := calls_step hidle event
    exact (hcalls.requests hinv.owned).trans (ih (hcalls.requested hinv) hcalls.idle)

/-- The balance holds along every run in which no session is requested twice and only sessions being
cancelled have their cancellation acknowledged. -/
theorem Balanced.run {d : Driver β ν α} (hinv : d.Balanced) {events : List (Event β ν α)}
    (hok : Along Driver.step (fun d event => d.acksCancelled event) d events)
    (hids : ((d.run events).host.requests.map Request.session).Nodup) :
    (d.run events).Balanced := by
  induction events generalizing d with
  | nil => exact hinv
  | cons event events ih =>
    obtain ⟨calls, hcalls, -⟩ := calls_step hinv.idle event
    have hfirst := (requests_prefix_run (hcalls.requested hinv.requested) hcalls.idle events).map
      Request.session
    exact ih (hinv.step hok.1 (hids.sublist hfirst.sublist)) hok.2 hids

end Driver

/-- No send session vanishes silently, if only sessions being cancelled have their cancellation
acknowledged: the engine announces the end of every send session, and so the driver gives an outcome
to every transfer that it accepted, at the latest when it stops, and once its notices are drained
every pending transfer has its session in the engine. -/
theorem no_send_session_vanishes {β ν α : Type} [Ord α] :
    (∀ (engineConfig : EngineConfig) (calls : List Call) (c : Call) (sid : SessionId),
      Along Host.step (fun h c => h.acksCancelled c) (Host.new engineConfig) (calls ++ [c]) →
      ((Host.new engineConfig).run calls).engine.sendSessions[sid]? ≠ none →
      ((Host.new engineConfig).run (calls ++ [c])).engine.sendSessions[sid]? = none →
      ((Host.new engineConfig).run (calls ++ [c])).Announced sid) ∧
    ∀ (config : Config) (events : List (Driver.Event β ν α)),
      Along Driver.step (fun d event => d.acksCancelled event) (.new config) events →
      (((Driver.new config).run events).host.requests.map Request.session).Nodup →
      (∀ x ∈ ((Driver.new config).run events).accepted,
        ((Driver.new config).run events).pendingTransfers[x.1]? = some x.2 ∨
          ∃ outcome, (x.1, x.2, outcome) ∈ ((Driver.new config).run events).outcomes) ∧
      (((Driver.new config).run events).running = false →
        ∀ x ∈ ((Driver.new config).run events).accepted,
          ∃ outcome, (x.1, x.2, outcome) ∈ ((Driver.new config).run events).outcomes) ∧
      (((Driver.new config).run events).host.engine.notices = [] →
        ∀ sid : SessionId, ((Driver.new config).run events).pendingTransfers[sid]? ≠ none →
          ((Driver.new config).run events).host.engine.sendSessions[sid]? ≠ none) := by
  constructor
  · intro engineConfig calls c sid hok hsome hnone
    obtain ⟨hbefore, hc, -⟩ := along_append.mp hok
    have hinv : ((Host.new engineConfig).run calls).CancelsAnnounced :=
      hbefore.invariant (fun _ _ hinv hc => Host.CancelsAnnounced.step hinv hc)
        (Host.cancelsAnnounced_new engineConfig)
    rw [Host.run, run_append, run_cons, run_nil] at hnone ⊢
    obtain ⟨s, hs⟩ := Option.ne_none_iff_exists'.mp hsome
    exact Host.announced_step hinv hc (hinv.owned.send sid s hs).1 (.inr (.inr ⟨hsome, hnone⟩))
  · intro config events hok hids
    have hinv := (Driver.balanced_new config).run hok hids
    refine ⟨hinv.settled, fun hstopped x hx => ?_, fun hdrained sid hb => ?_⟩
    · refine (hinv.settled x hx).resolve_left fun hb => ?_
      rw [hinv.stopped hstopped x.1] at hb
      cases hb
    · obtain ⟨b, hb⟩ := Option.ne_none_iff_exists'.mp hb
      obtain ⟨-, hkeeps, huntold⟩ := hinv.awaited sid b hb
      refine hkeeps.resolve_right ?_
      rintro ⟨x, hx, hsession, hterminal⟩
      rw [Host.emitted, hdrained, List.append_nil] at hx
      rw [huntold x hx hsession] at hterminal
      cases hterminal

/-- A station that gives a checkpoint up at its first timeout. -/
def hastyStation : Config where
  engineId := ⟨1⟩
  transport := .kissTcp 0
  maxSegmentPayloadLen := 1400
  rttMicros := 500000
  ackMarginMicros := 250000
  checkpointRtxLimit := 0
  reportRtxLimit := 10
  peers := []

/-- The acknowledgment of a cancellation of the first session. -/
def cancelAck : Bytes := (Segment.plain ⟨⟨1⟩, 1⟩ .cancelAckSender).encodeToVec

/-- Bundle 5 is forwarded, and its session is cancelled when the checkpoint times out. -/
def forwardAndTimeOut : List (Driver.Event Nat Nat Nat) :=
  [.command (.registerPeer ⟨2⟩ 0 none) 0, .command (.forward 5 ⟨2⟩ [7] 1) 0, .tick 750000]

theorem no_send_session_vanishes_cancelled :
    ∃ outcome, (⟨⟨1⟩, 1⟩, 5, outcome) ∈ ((Driver.new hastyStation).run
      (forwardAndTimeOut ++ [.frame cancelAck ⟨2⟩ 750001, .drainNotices 750002, .stop])).outcomes :=
  ((@no_send_session_vanishes Nat Nat Nat _).2 hastyStation _ (by decide +kernel)
    (by decide +kernel)).2.1 (by decide +kernel) (⟨⟨1⟩, 1⟩, 5) (by decide +kernel)

/-- An acknowledgment for a session that is not being cancelled removes the session, and its transfer
stays pending. -/
theorem send_session_vanishes_unannounced :
    let events := forwardAndTimeOut.take 2 ++ [.frame cancelAck ⟨2⟩ 1, .drainNotices 2]
    let d := (Driver.new hastyStation).run events
    ((Driver.new hastyStation).run (forwardAndTimeOut.take 2)).host.engine.sendSessions[
      (⟨⟨1⟩, 1⟩ : SessionId)]? ≠ none ∧
      d.host.engine.sendSessions[(⟨⟨1⟩, 1⟩ : SessionId)]? = none ∧ d.host.emitted = [] ∧
      d.host.engine.notices = [] ∧ d.pendingTransfers[(⟨⟨1⟩, 1⟩ : SessionId)]? = some 5 ∧
      d.outcomes = [] := by
  decide +kernel

end HdyUtils.Cla
