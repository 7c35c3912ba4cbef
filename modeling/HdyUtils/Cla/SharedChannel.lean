import HdyUtils.Cla.TncPadding
import HdyUtils.Cla.Transfers
import HdyUtils.Ltp.Addressees

/-! Stations behind KISS TNCs on one channel.  What the driver of a station transmits, the driver of every
other one may read, any number of times, late and in any order, or not at all.  A driver hands all that
it reads to its engine, whomever it was meant for. -/

namespace HdyUtils.Ltp.Host

/-- What a host has polled it keeps. -/
theorem sent_subset_step (h : Host) (c : Call) : ∀ x ∈ h.sent, x ∈ (h.step c).sent := by
  intro x hx
  unfold step
  split
  swap
  · exact hx
  cases c with
  | request peer clientService block redLen now =>
    simp only [call, request]
    split <;> exact hx
  | segment source bytes now =>
    simp only [call, receive]
    split <;> exact hx
  | fire =>
    simp only [call, fire]
    split <;> exact hx
  | pollOutput => exact List.mem_append_left _ hx
  | tick | pollNotice | setPeerTiming | updatePeerRttSample => exact hx

theorem sent_subset_run (h : Host) (calls : List Call) : ∀ x ∈ h.sent, x ∈ (h.run calls).sent := by
  induction calls generalizing h with
  | nil => exact fun _ hx => hx
  | cons c calls ih => exact fun x hx => ih (h.step c) x (h.sent_subset_step c x hx)

theorem Unused.setPeerTiming {h : Host} (hunused : h.Unused) (peer : EngineId)
    (rttMicros ackMarginMicros : Nat) :
    (h.step (.setPeerTiming peer rttMicros ackMarginMicros)).Unused := by
  unfold step
  split
  · exact { hunused with }
  · exact hunused

end HdyUtils.Ltp.Host

namespace HdyUtils.Cla

open Ltp Trace

/-! ### What a driver puts on a KISS link -/

namespace Driver

variable {β ν α : Type} [Ord α]

/-- What the driver of a KISS link has transmitted is what it has polled, padded for its TNC. -/
structure Linked (config : Config) (d : Driver β ν α) : Prop where
  idle : d.host.pending = []
  reached : ∃ calls, d.host = (Host.new config.engineConfig).run calls
  kiss : ∃ minFrameLen : UInt64, d.config.transport = .kissTcp minFrameLen.toNat
  padded : ∀ x ∈ d.transmitted, ∃ y ∈ d.host.sent, ∃ minFrameLen : UInt64,
    x.2 = padSegmentForTnc y.2 minFrameLen.toNat

/-- The transport of the driver and what it has put on its link. -/
def link (d : Driver β ν α) : TransportMode × List (Option α × Bytes) :=
  (d.config.transport, d.transmitted)

@[simp] theorem udpPeer_link (d : Driver β ν α) (peerAddr : α) (port : UInt64) (buf : Bytes) :
    (d.udpPeer peerAddr port buf).2.link = d.link := by
  unfold udpPeer
  split
  · split <;> rfl
  · split <;> rfl

@[simp] theorem settle_link (d : Driver β ν α) (session : SessionId) (outcome : TransferOutcome) :
    (d.settle session outcome).link = d.link := by
  unfold settle
  split <;> rfl

@[simp] theorem reassembleGreen_link (d : Driver β ν α) (session : SessionId) (source : EngineId)
    (offset : Nat) (data : Bytes) (eob : Bool) (now : Nat) :
    (d.reassembleGreen session source offset data eob now).link = d.link := by
  unfold reassembleGreen
  simp only
  split_ifs <;> rfl

@[simp] theorem handleNotice_link (d : Driver β ν α) (now : Nat) (notice : Notice) :
    (d.handleNotice now notice).link = d.link := by
  cases notice with
  | redPartReceived =>
    simp only [handleNotice]
    split <;> rfl
  | greenSegmentArrived =>
    simp only [handleNotice]
    split
    · rfl
    · exact reassembleGreen_link ..
  | transmissionSessionCompleted | transmissionSessionCancelled => exact settle_link ..

theorem drainNotices_link (now fuel : Nat) (d : Driver β ν α) :
    (drainNotices now fuel d).link = d.link := by
  induction fuel generalizing d with
  | zero => rfl
  | succ fuel ih =>
    unfold drainNotices
    split
    · rw [ih, handleNotice_link]
      rfl
    · rfl

theorem unused_new (config : Config) : (Driver.new config : Driver β ν α).host.Unused := by
  have hcalls : ∀ c ∈ config.peerTimings, ∃ peer rtt ackMargin,
      c = .setPeerTiming peer rtt ackMargin := fun c => mem_peerTimings
  have hunused := Host.unused_new config.engineConfig
  simp only [Driver.new]
  generalize Host.new config.engineConfig = h at hunused ⊢
  generalize config.peerTimings = calls at hcalls ⊢
  induction calls generalizing h with
  | nil => exact hunused
  | cons c calls ih =>
    obtain ⟨peer, rtt, ackMargin, rfl⟩ := hcalls c List.mem_cons_self
    exact ih _ (hunused.setPeerTiming peer rtt ackMargin)
      fun c hc => hcalls c (List.mem_cons_of_mem _ hc)

/-- A frame is handed to the engine, unless the driver has stopped. -/
theorem frame_step {d : Driver β ν α} (hidle : d.host.pending = []) (payload : Bytes)
    (first : EngineId) (now : Nat) :
    (d.step (.frame payload first now)).host = d.host ∨
      ∃ source, (d.step (.frame payload first now)).host =
        d.host.step (.segment source payload now) := by
  unfold Driver.step
  split
  · exact .inr ⟨_, (Host.step_idle hidle (.segment (d.kissPeer payload first) payload now)).symm⟩
  · exact .inl rfl

/-- Only the outputs that are drained change the link. -/
theorem link_step (d : Driver β ν α) {event : Event β ν α} (h : event ≠ .drainOutputs) :
    (d.step event).link = d.link := by
  unfold Driver.step
  split
  swap
  · rfl
  cases event with
  | command cmd now =>
    cases cmd with
    | forward bundleId dest data redLen =>
      simp only [handle, handleCommand, forward]
      split
      · split <;> rfl
      · rfl
    | registerPeer | unregisterPeer | setPeerTiming | shutdown => rfl
  | datagram peerAddr port buf now =>
    simp only [handle, receiveDatagram]
    split
    · rfl
    · exact udpPeer_link d peerAddr port buf
  | frame | tick | stop => rfl
  | drainOutputs => exact absurd rfl h
  | drainNotices now => exact drainNotices_link now _ d

namespace Linked

variable {config : Config} {d : Driver β ν α}

theorem new (hkiss : ∃ minFrameLen : UInt64, config.transport = .kissTcp minFrameLen.toNat) :
    (Driver.new config : Driver β ν α).Linked config where
  idle := (balanced_new config).idle
  reached := ⟨config.peerTimings, rfl⟩
  kiss := hkiss
  padded := by simp [Driver.new]

/-- The host makes calls, and the link is as it was. -/
theorem calls (hlinked : d.Linked config) {d' : Driver β ν α} {calls : List Call}
    (hcalls : Calls d.host d'.host calls) (hlink : d'.link = d.link) : d'.Linked config := by
  obtain ⟨htransport, htransmitted⟩ : d'.config.transport = d.config.transport ∧
      d'.transmitted = d.transmitted := by
    simpa [link] using hlink
  obtain ⟨before, hbefore⟩ := hlinked.reached
  refine ⟨hcalls.idle, ⟨before ++ calls, ?_⟩, ?_, fun x hx => ?_⟩
  · rw [hcalls.run, hbefore, Host.run, Host.run, ← run_append]
  · rw [htransport]
    exact hlinked.kiss
  · rw [htransmitted] at hx
    obtain ⟨y, hy, hpad⟩ := hlinked.padded x hx
    refine ⟨y, ?_, hpad⟩
    rw [hcalls.run]
    exact d.host.sent_subset_run calls y hy

theorem drainOutputs (hlinked : d.Linked config) (fuel : Nat) :
    (Driver.drainOutputs fuel d).Linked config := by
  induction fuel generalizing d with
  | zero => exact hlinked
  | succ fuel ih =>
    unfold Driver.drainOutputs
    split
    swap
    · exact hlinked
    rename_i peer bytes rest houtbound
    obtain ⟨minFrameLen, hkiss⟩ := hlinked.kiss
    have hcalls : Calls d.host (d.host.call .pollOutput) [.pollOutput] :=
      .one hlinked.idle .pollOutput hlinked.idle
    obtain ⟨before, hbefore⟩ := hlinked.reached
    have hsent : (d.host.call .pollOutput).sent = d.host.sent ++ [(peer, bytes)] := by
      simp [Host.call, Host.pollOutput, Engine.pollOutput, houtbound]
    refine ih ⟨?_, ⟨before ++ [.pollOutput], ?_⟩, ?_, fun x hx => ?_⟩
    · rw [transmit_host]
      exact hlinked.idle
    · rw [transmit_host]
      refine hcalls.run.trans ?_
      rw [hbefore, Host.run, Host.run, ← run_append]
    · simp only [transmit, hkiss]
      exact ⟨minFrameLen, rfl⟩
    · rw [transmit_host]
      simp only [transmit, hkiss] at hx
      rw [hsent]
      rcases List.mem_append.mp hx with hx | hx
      · obtain ⟨y, hy, hpad⟩ := hlinked.padded x hx
        exact ⟨y, List.mem_append_left _ hy, hpad⟩
      · rw [List.mem_singleton.mp hx]
        exact ⟨(peer, bytes), by simp, minFrameLen, rfl⟩

theorem step (hlinked : d.Linked config) (event : Event β ν α) : (d.step event).Linked config := by
  by_cases h : event = .drainOutputs
  · subst h
    unfold Driver.step
    split
    · exact hlinked.drainOutputs _
    · exact hlinked
  · obtain ⟨calls, hcalls, -⟩ := calls_step hlinked.idle event
    exact hlinked.calls hcalls (d.link_step h)

theorem numbered (hlinked : d.Linked config) : d.host.Numbered := by
  obtain ⟨calls, hcalls⟩ := hlinked.reached
  rw [hcalls]
  exact Host.numbered_run (Engine.owned_new _) (Host.numbered_new _) calls

theorem owned (hlinked : d.Linked config) : d.host.engine.Owned := by
  obtain ⟨calls, hcalls⟩ := hlinked.reached
  rw [hcalls]
  exact Host.owned_run (Engine.owned_new _) calls

theorem engineConfig (hlinked : d.Linked config) : d.host.engine.config = config.engineConfig := by
  obtain ⟨calls, hcalls⟩ := hlinked.reached
  rw [hcalls]
  exact Host.config_run (Engine.owned_new _) calls

theorem transmits (hlinked : d.Linked config) {sid : SessionId}
    (hsid : sid.originator = config.engineId) : d.host.Transmits sid := by
  obtain ⟨calls, hcalls⟩ := hlinked.reached
  have hstep : ∀ (h : Host) (c : Call), h.Transmits sid → (h.step c).Transmits sid :=
    fun _ c hinv => hinv.step c
  rw [hcalls]
  exact run_invariant hstep calls (Host.transmits_new hsid)

/-- What is read of the link has the session and the body of what was polled. -/
theorem read (hlinked : d.Linked config) {x : Option α × Bytes} (hx : x ∈ d.transmitted)
    {seg : Segment} {n : Nat} (hparse : Segment.parse x.2 = .ok (seg, n)) :
    ∃ y ∈ d.host.sent, ∃ sent m, Segment.parse y.2 = .ok (sent, m) ∧
      sent.session = seg.session ∧ sent.body = seg.body := by
  obtain ⟨y, hy, minFrameLen, hpad⟩ := hlinked.padded x hx
  obtain ⟨calls, hcalls⟩ := hlinked.reached
  have hplain : Host.Plain y.2 := by
    rw [hcalls] at hy
    exact (Host.encodes_run config.engineConfig calls).pushed y (List.mem_append_left _ hy)
  rw [hpad] at hparse
  exact ⟨y, hy, parse_padSegmentForTnc hplain hparse⟩

end Linked

end Driver

/-! ### The stations -/

abbrev Stations (ι β ν α : Type) [Ord α] := ι → Driver β ν α

namespace Stations

variable {ι β ν α : Type} [Ord α]

def new (config : ι → Config) : Stations ι β ν α := fun i => .new (config i)

/-- The engines of the stations. -/
def hosts (w : Stations ι β ν α) : World ι := fun i => (w i).host

/-- A station reads only frames that another one has transmitted. -/
def Brings (w : Stations ι β ν α) : ι × Driver.Event β ν α → Prop
  | (i, .frame payload _ _) => ∃ j, j ≠ i ∧ ∃ x ∈ (w j).transmitted, x.2 = payload
  | (_, .datagram ..) => False
  | _ => True

/-- A station turns away data of a session of another one that was not requested for it. -/
def Heeds (w : Stations ι β ν α) (e : ι × Driver.Event β ν α) : Prop :=
  ∀ seg ∈ e.2.heard, seg.body.isData = true →
    seg.session.originator ≠ (w e.1).host.engine.config.engineId →
    ¬w.hosts.Addressed e.1 seg.session → (w e.1).host.engine.TurnsAway seg.session

/-- The octets of the red part of session `sid` in the data segments that station `i` reads. -/
def Heard (events : List (ι × Driver.Event β ν α)) (sid : SessionId) (i : ι) : Set Nat :=
  {x | ∃ event, (i, event) ∈ events ∧ ∃ seg ∈ event.heard, seg.session = sid ∧
    ∃ ds, seg.body = .data ds ∧ x ∈ ds.redOctets}

section Run

variable [DecidableEq ι]

def step (w : Stations ι β ν α) (e : ι × Driver.Event β ν α) : Stations ι β ν α :=
  Function.update w e.1 ((w e.1).step e.2)

instance [Fintype ι] (w : Stations ι β ν α) :
    (e : ι × Driver.Event β ν α) → Decidable (w.Brings e)
  | (i, .frame payload _ _) =>
    inferInstanceAs (Decidable (∃ j, j ≠ i ∧ ∃ x ∈ (w j).transmitted, x.2 = payload))
  | (_, .datagram ..) => inferInstanceAs (Decidable False)
  | (_, .command ..) | (_, .tick _) | (_, .drainOutputs) | (_, .drainNotices _) | (_, .stop) =>
    inferInstanceAs (Decidable True)

instance [Fintype ι] (w : World ι) (i : ι) (sid : SessionId) : Decidable (w.Addressed i sid) :=
  inferInstanceAs (Decidable (∃ j, ∃ r ∈ (w j).requests, r.session = sid ∧
    r.peer = (w i).engine.config.engineId))

instance [Fintype ι] (w : Stations ι β ν α) (e : ι × Driver.Event β ν α) : Decidable (w.Heeds e) :=
  inferInstanceAs (Decidable (∀ seg ∈ e.2.heard, seg.body.isData = true →
    seg.session.originator ≠ (w e.1).host.engine.config.engineId →
    ¬w.hosts.Addressed e.1 seg.session → (w e.1).host.engine.TurnsAway seg.session))

abbrev run (w : Stations ι β ν α) (events : List (ι × Driver.Event β ν α)) : Stations ι β ν α :=
  Trace.run step w events

theorem hosts_step (w : Stations ι β ν α) (e : ι × Driver.Event β ν α) :
    (w.step e).hosts = Function.update w.hosts e.1 ((w e.1).step e.2).host := by
  funext j
  by_cases hj : j = e.1
  · rw [hj, Function.update_self, hosts, step, Function.update_self]
  · rw [Function.update_of_ne hj, hosts, step, Function.update_of_ne hj, hosts]

/-- Every station transmits what its engine puts out. -/
def Linked (config : ι → Config) (w : Stations ι β ν α) : Prop := ∀ i, (w i).Linked (config i)

variable {config : ι → Config} {w : Stations ι β ν α} {i : ι} {r : Request} {got : ι → Set Nat}

theorem Linked.step (hw : w.Linked config) (e : ι × Driver.Event β ν α) :
    (w.step e).Linked config := by
  intro j
  by_cases hj : j = e.1
  · rw [hj, Stations.step, Function.update_self]
    exact (hw e.1).step e.2
  · rw [Stations.step, Function.update_of_ne hj]
    exact hw j

theorem requests_prefix_step (hw : w.Linked config) (e : ι × Driver.Event β ν α) (j : ι) :
    (w j).host.requests <+: (w.step e j).host.requests := by
  by_cases hj : j = e.1
  · rw [hj, Stations.step, Function.update_self]
    obtain ⟨calls, hcalls, -⟩ := Driver.calls_step (hw e.1).idle e.2
    exact hcalls.requests (hw e.1).owned
  · rw [Stations.step, Function.update_of_ne hj]

theorem requests_prefix_run (hw : w.Linked config) (events : List (ι × Driver.Event β ν α)) (j : ι) :
    (w j).host.requests <+: (w.run events j).host.requests := by
  induction events generalizing w with
  | nil => exact List.prefix_refl _
  | cons e events ih => exact (requests_prefix_step hw e j).trans (ih (hw.step e))

/-- An event by which a station heeds the addresses leaves the request to rest on its addressee. -/
theorem rests_step (h : World.Rests i r got w.hosts) (hw : w.Linked config)
    {e : ι × Driver.Event β ν α} (hdistinct : World.Distinct (w.step e).hosts)
    (honly : World.Only r (w.step e).hosts) (hvalid : r.transfer.Valid) (hbrings : w.Brings e)
    (hheeds : w.Heeds e) (hgot : Heard [e] r.session e.1 ⊆ got e.1) :
    World.Rests i r got (w.step e).hosts := by
  obtain ⟨k, event⟩ := e
  have hbefore : w.hosts.Distinct := fun j =>
    (hdistinct j).sublist ((requests_prefix_step hw (k, event) j).map _).sublist
  obtain ⟨calls, hcalls, hheard⟩ := Driver.calls_step (hw k).idle event
  rw [hosts_step] at hdistinct honly ⊢
  cases hevent : event.heard with
  | none =>
    rw [hcalls.run] at hdistinct honly ⊢
    rw [hevent] at hheard
    exact h.calls hheard hdistinct honly hvalid
  | some seg =>
    cases event with
    | datagram => exact hbrings.elim
    | command | tick | drainOutputs | drainNotices | stop => cases hevent
    | frame payload first now =>
      rcases Driver.frame_step (hw k).idle payload first now with hsame | ⟨source, hcall⟩
      · have hsame : ((w k).step (.frame payload first now)).host = w.hosts k := hsame
        rw [hsame, Function.update_eq_self]
        exact h
      rw [hcall] at honly ⊢
      refine h.call hbefore honly hvalid ?_ ?_ ?_
      · rintro seg' now' ⟨_, _, ⟨⟩, hparse⟩
        obtain ⟨j, hj, x, hx, rfl⟩ := hbrings
        exact ⟨j, hj, (hw j).read hx hparse⟩
      · intro seg' now' ds hreceives hbody
        exact hheeds seg' hreceives.received_eq (by rw [hbody]; rfl)
      · intro seg' now' ds hreceives hsid hbody x hx
        exact hgot ⟨_, List.mem_singleton_self _, seg', hreceives.received_eq, hsid, ds, hbody, hx⟩

theorem rests_run (h : World.Rests i r got w.hosts) (hw : w.Linked config)
    {events : List (ι × Driver.Event β ν α)} (hdistinct : World.Distinct (w.run events).hosts)
    (honly : World.Only r (w.run events).hosts) (hvalid : r.transfer.Valid)
    (hbrings : Along step Brings w events) (hheeds : Along step Heeds w events)
    (hgot : ∀ j, Heard events r.session j ⊆ got j) : World.Rests i r got (w.run events).hosts := by
  induction events generalizing w with
  | nil => exact h
  | cons e events ih =>
    have hlater := requests_prefix_run (hw.step e) events
    refine ih (rests_step h hw (fun j => ?_) (fun j r' hr' => ?_) hvalid hbrings.1 hheeds.1 ?_)
      (hw.step e) hdistinct honly hbrings.2 hheeds.2 fun j x hx => hgot j ?_
    · exact (hdistinct j).sublist ((hlater j).map _).sublist
    · exact honly j r' ((hlater j).subset hr')
    · rintro x ⟨event, hmem, hrest⟩
      rw [List.mem_singleton] at hmem
      exact hgot e.1 ⟨event, hmem ▸ List.mem_cons_self, hrest⟩
    · obtain ⟨event, hmem, hrest⟩ := hx
      exact ⟨event, List.mem_cons_of_mem e hmem, hrest⟩

theorem Linked.run (hw : w.Linked config) (events : List (ι × Driver.Event β ν α)) :
    (w.run events).Linked config := by
  have hstep : ∀ (w : Stations ι β ν α) (e : ι × Driver.Event β ν α), w.Linked config →
      (w.step e).Linked config := fun _ e hw => hw.step e
  exact run_invariant hstep events hw

end Run

end Stations

open Stations in
/-- Stations behind KISS TNCs on one channel, with distinct engine identifiers and fewer than 2 ^ 64
requests each.  Where every station turns away the data that is not addressed to it, a session has its
addressee to itself: every other station is aloof, the originator has claims only on what the addressee
has heard, and when it completes the addressee has heard all of the red part. -/
theorem addressee_isolated {ι β ν α : Type} [DecidableEq ι] [Ord α] {config : ι → Config}
    (hids : Function.Injective fun i => (config i).engineId)
    (hkiss : ∀ i, ∃ minFrameLen : UInt64, (config i).transport = .kissTcp minFrameLen.toNat)
    {events : List (ι × Driver.Event β ν α)} (hbrings : Along step Brings (new config) events)
    (hheeds : Along step Heeds (new config) events)
    (hrequests : ∀ i, (run (new config) events i).host.requests.length < 2 ^ 64) {i : ι} {r : Request}
    (hr : r ∈ (run (new config) events i).host.requests) :
    (∀ j, j ≠ i → r.peer ≠ (config j).engineId →
      (run (new config) events j).host.Aloof r.session) ∧
    (∀ s, (run (new config) events i).host.engine.sendSessions[r.session]? = some s →
      ∀ x ∈ s.claimsReceived,
        ∃ j, j ≠ i ∧ r.peer = (config j).engineId ∧ x ∈ Heard events r.session j) ∧
    (0 < r.transfer.redLen →
      .transmissionSessionCompleted r.session ∈ (run (new config) events i).host.emitted →
      ∀ x, x < r.transfer.redLen →
        ∃ j, j ≠ i ∧ r.peer = (config j).engineId ∧ x ∈ Heard events r.session j) := by
  have hnew : Linked config (new config : Stations ι β ν α) := fun j => .new (hkiss j)
  have hfinal := hnew.run events
  have hid : ∀ j, (run (new config) events j).host.engine.config.engineId = (config j).engineId :=
    fun j => congrArg EngineConfig.engineId (hfinal j).engineConfig
  have hown : r.session.originator = (config i).engineId := by
    obtain ⟨n, hn⟩ := List.getElem?_of_mem hr
    rw [(hfinal i).numbered.sessions n r hn, hid]
  have hvalid : r.transfer.Valid := ((hfinal i).transmits hown).valid r hr rfl
  have hdistinct : World.Distinct (run (new config) events).hosts := fun j =>
    (hfinal j).numbered.nodup (hrequests j)
  have honly : World.Only r (run (new config) events).hosts := by
    intro j r' hr' hsid
    obtain ⟨n, hn⟩ := List.getElem?_of_mem hr'
    have hsession := congrArg SessionId.originator ((hfinal j).numbered.sessions n r' hn)
    have hj : j = i := hids ((hid j).symm.trans (hsession.symm.trans (hsid ▸ hown)))
    subst hj
    exact List.inj_on_of_nodup_map (hdistinct j) hr' hr hsid
  have hstart : World.Rests i r (Heard events r.session) (new config : Stations ι β ν α).hosts := by
    have hnewId : ∀ j, ((new config : Stations ι β ν α).hosts j).engine.config.engineId =
        (config j).engineId := fun j => congrArg EngineConfig.engineId (hnew j).engineConfig
    refine World.rests_unused ?_ (fun j => Driver.unused_new (config j)) (hown.trans (hnewId i).symm)
    simp only [hnewId]
    exact hids
  have hrests := rests_run hstart hnew hdistinct honly hvalid hbrings hheeds fun _ => subset_rfl
  have hhad : ∀ x ∈ World.Had (run (new config) events).hosts i r (Heard events r.session),
      ∃ j, j ≠ i ∧ r.peer = (config j).engineId ∧ x ∈ Heard events r.session j := by
    rintro x ⟨j, hj, hpeer, hx⟩
    exact ⟨j, hj, hpeer.trans (hid j), hx⟩
  refine ⟨fun j hj hpeer => hrests.aloof j hj fun heq => hpeer (heq.trans (hid j)),
    fun s hs x hx => ?_, fun hpos hcompleted x hx => hhad x (hrests.completed hpos hcompleted x hx)⟩
  have htransmits := (hfinal i).transmits hown
  -- only a block with a red part has a session
  obtain ⟨r', hr', hsid, -, htransfer⟩ := htransmits.session s hs
  have hpos : 0 < r.transfer.redLen := by
    rw [← honly i r' hr' hsid, htransfer]
    exact (htransmits.owned.send r.session s hs).2.red_pos
  exact hhad x (hrests.claims hpos s hs x hx)

/-- Stations with the identifiers 1, 2 and 3. -/
def threeStations (i : Fin 3) : Config :=
  { hastyStation with engineId := ⟨UInt64.ofNat (i + 1)⟩, checkpointRtxLimit := 10 }

/-- Station 1 transmits a bundle of one octet for station 2. -/
def forwardToSecond : List (Fin 3 × Driver.Event Nat Nat Nat) :=
  [(0, .command (.registerPeer ⟨2⟩ 0 none) 0), (0, .command (.forward 5 ⟨2⟩ [7] 1) 0),
    (0, .drainOutputs)]

/-- The report on all of the bundle. -/
def wholeReport : Bytes := [8, 1, 1, 0, 1, 1, 1, 0, 1, 0, 1]

open Stations in
theorem addressee_isolated_reported :
    let events := forwardToSecond ++ [(1, .frame shortFrame ⟨1⟩ 1), (1, .drainOutputs),
      (2, .frame wholeReport ⟨1⟩ 2), (0, .frame wholeReport ⟨2⟩ 2)]
    (run (new threeStations) events 2).host.Aloof ⟨⟨1⟩, 1⟩ ∧
      ∀ x, x < 1 → ∃ j, j ≠ 0 ∧ ⟨2⟩ = (threeStations j).engineId ∧ x ∈ Heard events ⟨⟨1⟩, 1⟩ j := by
  intro events
  have hr : (⟨⟨⟨1⟩, 1⟩, ⟨2⟩, 1, [7], 1⟩ : Request) ∈
      (run (new threeStations) events 0).host.requests := by decide +kernel
  obtain ⟨haloof, -, hcompleted⟩ := addressee_isolated (by decide) (fun _ => ⟨0, rfl⟩)
    (by decide +kernel : Along step Brings (new threeStations) events) (by decide +kernel)
    (by decide +kernel) hr
  exact ⟨haloof 2 (by decide) (by decide), hcompleted (by decide) (by decide +kernel)⟩

open Stations in
/-- Station 3 overhears the bundle for station 2, delivers it and reports it, and the transfer is complete
though station 2 has read nothing. -/
theorem bystander_completes_transfer :
    let events := forwardToSecond ++ [(2, .frame shortFrame ⟨1⟩ 1), (2, .drainOutputs),
      (0, .frame wholeReport ⟨2⟩ 2), (0, .drainNotices 3)]
    let w := run (new threeStations) events
    Along step Brings (new threeStations) events ∧
      ⟨⟨⟨1⟩, 1⟩, ⟨2⟩, 1, [7], 1⟩ ∈ (w 0).host.requests ∧
      .redPartReceived ⟨⟨1⟩, 1⟩ ⟨1⟩ 1 [7] true ∈ (w 2).host.emitted ∧
      (none, wholeReport) ∈ (w 2).transmitted ∧ (⟨⟨1⟩, 1⟩, 5, .completed) ∈ (w 0).outcomes ∧
      (∀ e ∈ events, e.1 ≠ 1) ∧ (w 1).host.emitted = [] := by
  decide +kernel

end HdyUtils.Cla
