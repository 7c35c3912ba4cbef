import HdyUtils.Cla.GreenBlocks
import HdyUtils.Cla.SharedChannel

/-! What the stations of a channel carry.  Everything that a station hands its bundle agent is a bundle
that another station was asked to forward: a bundle of the red lane octet for octet, a bundle of the
green lane but for octets that never came and are zero. -/

namespace HdyUtils.Ltp

open Trace

/-- A notice of data names the originator of its session as the engine that the data is from. -/
def Notice.Sourced : Notice → Prop
  | .redPartReceived sid source _ _ _ => source = sid.originator
  | .greenSegmentArrived sid source _ _ _ => source = sid.originator
  | .transmissionSessionCompleted _ | .transmissionSessionCancelled .. => True

theorem Notice.sourced_of_carries_none {x : Notice} (h : x.carriesData = false) : x.Sourced := by
  cases x with
  | redPartReceived | greenSegmentArrived => cases h
  | transmissionSessionCompleted | transmissionSessionCancelled => trivial

theorem RecvSession.sourced_deliveryNotices (s : RecvSession) (sid : SessionId) :
    ∀ x ∈ s.deliveryNotices sid sid.originator, x.Sourced := by
  intro x hx
  rw [deliveryNotices] at hx
  split at hx
  · rw [List.mem_singleton.mp hx]
    exact rfl
  · cases hx

theorem RecvMove.sourced {config : EngineConfig} {sid : SessionId} {trigger : RecvTrigger}
    {v v' : RecvView} {p : List Push} {n : List Notice} (h : RecvMove config sid trigger v p n v')
    (hsource : ∀ source ds now, trigger = .data source ds now → source = sid.originator) :
    ∀ x ∈ n, x.Sourced := by
  intro x hx
  cases h with
  | dataStored =>
    obtain rfl := hsource _ _ _ rfl
    exact RecvSession.sourced_deliveryNotices _ sid x hx
  | dataGreen =>
    obtain rfl := hsource _ _ _ rfl
    rcases List.mem_cons.mp hx with rfl | hx
    · exact rfl
    · exact RecvSession.sourced_deliveryNotices _ sid x hx
  | dataCancelled | reportExhausted | inactivityExpired | peerCancelled =>
    rw [List.mem_singleton.mp hx]
    trivial
  | _ => cases hx

namespace Host

theorem RecvCause.source {sid : SessionId} {h h' : Host} {c : Call} {source : EngineId}
    {ds : DataSegment} {now : Nat} (hcause : h.RecvCause c sid h' (.data source ds now)) :
    source = sid.originator := by
  obtain ⟨-, -, seg, now', -, -, hbody⟩ := hcause
  cases hkind : seg.body <;> rw [hkind] at hbody <;> cases hbody
  rfl

/-- Every notice of data so far names the originator of its session. -/
def AllSourced (h : Host) : Prop := h.engine.Owned ∧ ∀ x ∈ h.emitted, x.Sourced

theorem AllSourced.step {h : Host} (hinv : h.AllSourced) (c : Call) : (h.step c).AllSourced := by
  obtain ⟨hown, hall⟩ := hinv
  refine ⟨owned_step hown c, ?_⟩
  have hmore : ∀ n, (h.step c).emitted = h.emitted ++ n → (∀ x ∈ n, x.Sourced) →
      ∀ x ∈ (h.step c).emitted, x.Sourced := by
    intro n hemitted hn x hx
    rw [hemitted] at hx
    exact (List.mem_append.mp hx).elim (hall x) (hn x)
  cases steps_step hown c with
  | same _ _ emitted => exact hmore [] (by simp [emitted]) (by simp)
  | tick _ _ heq =>
    rw [heq]
    exact hall
  | send _ _ acts move =>
    exact hmore _ acts.emitted fun x hx => Notice.sourced_of_carries_none (move.tells_nothing x hx)
  | recv _ cause acts move =>
    refine hmore _ acts.emitted (move.sourced ?_)
    rintro source ds now rfl
    exact cause.source

theorem allSourced_run (config : EngineConfig) (calls : List Call) :
    ((new config).run calls).AllSourced := by
  have hstep : ∀ (h : Host) (c : Call), h.AllSourced → (h.step c).AllSourced := fun _ c h => h.step c
  have hnew : (new config).AllSourced :=
    ⟨Engine.owned_new config, by simp [new, emitted, Engine.new]⟩
  exact run_invariant hstep calls hnew

end Host

namespace World

variable {ι : Type} {w : World ι} {i : ι} {c : Call}

/-- A request to another host than `i`. -/
def FromOthers (w : World ι) (i : ι) (r : Request) : Prop := ∃ j, j ≠ i ∧ r ∈ (w j).requests

/-- What is carried between the hosts is of the requests to other hosts. -/
abbrev Carried (w : World ι) : Prop := w.FaithfulTo w.FromOthers

/-- A session is requested once. -/
theorem Carried.unique (hw : w.Carried) (hdistinct : w.Distinct) {r r' : Request}
    (hr : w.FromOthers i r) (hr' : w.FromOthers i r') (hsid : r.session = r'.session) : r = r' := by
  obtain ⟨j, -, hr⟩ := hr
  obtain ⟨k, -, hr'⟩ := hr'
  have hjk : j = k := hw.ids ((hw.own j r hr).symm.trans (hsid ▸ hw.own k r' hr'))
  subst hjk
  exact List.inj_on_of_nodup_map (hdistinct j) hr hr' hsid

/-- A host makes a call that brings what another one has polled. -/
theorem Carried.call [DecidableEq ι] (hw : w.Carried) (hdistinct : w.Distinct)
    (hcarries : w.Carries i c) : Carried (Function.update w i ((w i).step c)) := by
  have hown := hw.owned i
  have hR : ∀ j r, w.FromOthers j r → FromOthers (Function.update w i ((w i).step c)) j r := by
    rintro j r ⟨k, hk, hr⟩
    exact ⟨k, hk, (requests_update_host (Host.requests_prefix_step hown c) k).subset hr⟩
  refine FaithfulTo.call hw hR ?_ (fun r r' hr hr' hsid => hw.unique hdistinct hr hr' hsid) ?_
  · intro sid _ seg now ds hreceives hsid hbody
    obtain ⟨j, hj, x, hx, sent, n, hparse, hsession, hsame⟩ := hcarries seg now hreceives
    obtain ⟨r, hr, hrsid, hcuts, -⟩ := hw.sent hx hparse (hsame.trans hbody)
    exact ⟨r, ⟨j, hj, hr⟩, hrsid.trans (hsession.trans hsid), hcuts⟩
  · rintro r ⟨j, -, hr⟩
    exact hw.valid hr

/-- A host makes calls that bring it nothing. -/
theorem Carried.calls [DecidableEq ι] (hw : w.Carried) {calls : List Call}
    (hnone : ∀ c ∈ calls, Host.received c = none)
    (hdistinct : Distinct (Function.update w i ((w i).run calls))) :
    Carried (Function.update w i ((w i).run calls)) := by
  induction calls generalizing w with
  | nil =>
    rw [Host.run, run_nil, Function.update_eq_self]
    exact hw
  | cons c calls ih =>
    have hquiet : w.Carries i c := fun seg now hreceives => by
      have hsome := hreceives.received_eq
      rw [hnone c List.mem_cons_self] at hsome
      cases hsome
    have hown := hw.owned i
    have hbefore : w.Distinct := fun j => by
      refine (hdistinct j).sublist (List.Sublist.map _ (List.IsPrefix.sublist ?_))
      exact requests_update_host (Host.requests_prefix_run hown (c :: calls)) j
    have hstep := ih (hw.call hbefore hquiet) fun c' hc' => hnone c' (List.mem_cons_of_mem c hc')
    rw [Function.update_self, Function.update_idem] at hstep
    exact hstep hdistinct

end World

end HdyUtils.Ltp

namespace HdyUtils.Cla

open Ltp Trace

/-- Handling the notice can hand over a bundle as from this engine, with these octets if the notice
brings all of it. -/
def Dispatches (source : EngineId) (data : Bytes) : Notice → Prop
  | .redPartReceived _ from' _ data' _ => source = from' ∧ data = data'
  | .greenSegmentArrived _ from' offset data' eob =>
    source = from' ∧ (offset = 0 ∧ eob = true → data = data')
  | .transmissionSessionCompleted _ | .transmissionSessionCancelled .. => False

/-- The reassembly holds green slices of the block. -/
def Gathers (t : Transfer) (entry : GreenReassembly) : Prop :=
  ∃ l : List (Slice t.block), (∀ s ∈ l, t.redLen ≤ s.start) ∧ Holds l entry

/-- What is handed over of a transfer: the red part, or the block, or as many octets as the block has
in green slices of it, with zeros where none of them was. -/
inductive Delivers (t : Transfer) (data : Bytes) : Prop
  | red (hpos : 0 < t.redLen) (heq : data = t.redPart)
  | whole (heq : data = t.block)
  | gathered (l : List (Slice t.block)) (hgreen : ∀ s ∈ l, t.redLen ≤ s.start)
      (hcompletes : Completes l) (hlength : data.length = t.block.length)
      (hoctets : ∀ p, data.getD p 0 = t.block.getD p 0 ∨ data.getD p 0 = 0)

/-- A bundle of the red lane is handed over octet for octet. -/
theorem Delivers.of_red {t : Transfer} {data : Bytes} (h : Delivers t data)
    (hred : t.redLen = t.block.length) : data = t.block := by
  cases h with
  | red _ heq => rw [heq, Transfer.redPart, hred, List.take_length]
  | whole heq => exact heq
  | gathered l hgreen hcompletes hlength =>
    -- the slices past the red part are empty, and so is the block
    have hempty : (l.map fun s => s.stop - s.start).sum = 0 := by
      refine List.sum_eq_zero fun n hn => ?_
      obtain ⟨s, hs, rfl⟩ := List.mem_map.mp hn
      have hle := hgreen s hs
      have hinside := s.inside
      omega
    have hzero : t.block.length = 0 := by
      have hle := hcompletes.2
      omega
    rw [List.eq_nil_of_length_eq_zero hzero, List.eq_nil_of_length_eq_zero (hlength.trans hzero)]

/-- A bundle of the green lane is handed over but for octets that are zero. -/
theorem Delivers.of_green {t : Transfer} {data : Bytes} (h : Delivers t data) (hgreen : t.redLen = 0) :
    data.length = t.block.length ∧ ∀ p, data.getD p 0 = t.block.getD p 0 ∨ data.getD p 0 = 0 := by
  cases h with
  | red hpos => exact absurd hgreen hpos.ne'
  | whole heq => exact ⟨by rw [heq], fun p => .inl (by rw [heq])⟩
  | gathered _ _ _ hlength hoctets => exact ⟨hlength, hoctets⟩

namespace Driver

variable {β ν α : Type} [Ord α]

/-- The green blocks on the way and what was handed over. -/
def intake (d : Driver β ν α) : Std.TreeMap SessionId GreenReassembly × List (Dispatch ν) :=
  (d.greenReassemblies, d.dispatched)

@[simp] theorem udpPeer_intake (d : Driver β ν α) (peerAddr : α) (port : UInt64) (buf : Bytes) :
    (d.udpPeer peerAddr port buf).2.intake = d.intake := by
  unfold udpPeer
  split
  · split <;> rfl
  · split <;> rfl

@[simp] theorem transmit_intake (d : Driver β ν α) (peer : EngineId) (bytes : Bytes) :
    (d.transmit peer bytes).intake = d.intake := by
  unfold transmit
  split
  · split <;> rfl
  · rfl

@[simp] theorem settle_intake (d : Driver β ν α) (session : SessionId) (outcome : TransferOutcome) :
    (d.settle session outcome).intake = d.intake := by
  unfold settle
  split <;> rfl

theorem drainOutputs_intake (fuel : Nat) (d : Driver β ν α) :
    (drainOutputs fuel d).intake = d.intake := by
  induction fuel generalizing d with
  | zero => rfl
  | succ fuel ih =>
    unfold drainOutputs
    split
    · rw [ih, transmit_intake]
      rfl
    · rfl

/-- Only the notices that are drained gather blocks and hand over bundles. -/
theorem intake_step (d : Driver β ν α) {event : Event β ν α} (h : ∀ now, event ≠ .drainNotices now) :
    (d.step event).intake = d.intake := by
  unfold Driver.step
  split
  swap
  · rfl
  cases event with
  | command cmd now =>
    cases cmd with
    | forward bundleId dest data redLen =>
      simp only [handle, handleCommand, forward]
      split
      · split <;> rfl
      · rfl
    | registerPeer | unregisterPeer | setPeerTiming | shutdown => rfl
  | datagram peerAddr port buf now =>
    simp only [handle, receiveDatagram]
    split
    · rfl
    · exact udpPeer_intake d peerAddr port buf
  | frame | tick | stop => rfl
  | drainOutputs => exact drainOutputs_intake _ d
  | drainNotices now => exact absurd rfl (h now)

/-- A notice hands over one bundle at most, as from the engine that it names. -/
theorem handleNotice_dispatched (d : Driver β ν α) (now : Nat) (notice : Notice) :
    ∀ x ∈ (d.handleNotice now notice).dispatched,
      x ∈ d.dispatched ∨ Dispatches x.source x.data notice := by
  have hdispatch : ∀ (d' : Driver β ν α) (source : EngineId) (data : Bytes),
      d'.dispatched = d.dispatched → Dispatches source data notice →
      ∀ x ∈ (d'.dispatch source data).dispatched,
        x ∈ d.dispatched ∨ Dispatches x.source x.data notice := by
    intro d' source data hsame hnotice x hx
    simp only [dispatch, hsame] at hx
    rcases List.mem_append.mp hx with hx | hx
    · exact .inl hx
    · rw [List.mem_singleton.mp hx]
      exact .inr hnotice
  cases notice with
  | redPartReceived sid source clientService data eob =>
    simp only [handleNotice]
    split
    · exact fun x hx => .inl hx
    · exact hdispatch d source data rfl ⟨rfl, rfl⟩
  | transmissionSessionCompleted session | transmissionSessionCancelled session reason =>
    simp only [handleNotice, settle]
    split <;> exact fun x hx => .inl hx
  | greenSegmentArrived sid source offset data eob =>
    simp only [handleNotice]
    split
    · exact hdispatch d source data rfl ⟨rfl, fun _ => rfl⟩
    · next hseveral =>
      have hany : ∀ bytes, Dispatches source bytes (.greenSegmentArrived sid source offset data eob) :=
        fun bytes => ⟨rfl, fun h => absurd h hseveral⟩
      simp only [reassembleGreen]
      split_ifs
      all_goals first
        | exact fun x hx => .inl hx
        | exact hdispatch _ source _ rfl (hany _)

/-- The green blocks on the way and the bundles handed over are of the requests `R`. -/
structure Hands (R : Request → Prop) (d : Driver β ν α) : Prop where
  gathers : ∀ (sid : SessionId) (entry : GreenReassembly), d.greenReassemblies[sid]? = some entry →
    ∃ r, R r ∧ r.session = sid ∧ Gathers r.transfer entry
  dispatched : ∀ x ∈ d.dispatched,
    ∃ r, R r ∧ x.source = r.session.originator ∧ Delivers r.transfer x.data

/-- What the notice tells of is one of the requests `R`. -/
def Told (R : Request → Prop) (notice : Notice) : Prop :=
  notice.Sourced ∧ (notice.carriesData = true →
    ∃ r, R r ∧ r.session = notice.session ∧ notice.TellsOf r.transfer)

namespace Hands

variable {R R' : Request → Prop} {d d' : Driver β ν α}

theorem mono (h : d.Hands R) (hR : ∀ r, R r → R' r) : d.Hands R' where
  gathers := fun sid entry hentry => by
    obtain ⟨r, hr, hrest⟩ := h.gathers sid entry hentry
    exact ⟨r, hR r hr, hrest⟩
  dispatched := fun x hx => by
    obtain ⟨r, hr, hrest⟩ := h.dispatched x hx
    exact ⟨r, hR r hr, hrest⟩

theorem congr (h : d.Hands R) (hintake : d'.intake = d.intake) : d'.Hands R := by
  obtain ⟨hgreen, hdispatched⟩ : d'.greenReassemblies = d.greenReassemblies ∧
      d'.dispatched = d.dispatched := by
    simpa [intake] using hintake
  exact ⟨by rw [hgreen]; exact h.gathers, by rw [hdispatched]; exact h.dispatched⟩

/-- The slices that the reassembly of a session has taken in. -/
theorem reassembly (h : d.Hands R) {r : Request}
    (hunique : ∀ r', R r' → r'.session = r.session → r' = r) (now : Nat) :
    Gathers r.transfer (d.reassembly r.session now) := by
  rw [Driver.reassembly]
  cases hentry : d.greenReassemblies[r.session]? with
  | none => exact ⟨[], by simp, Holds.nil now⟩
  | some entry =>
    obtain ⟨r', hr', hsid, hgathers⟩ := h.gathers r.session entry hentry
    rw [hunique r' hr' hsid] at hgathers
    exact hgathers

/-- A green segment is taken into the block of its session. -/
theorem reassembleGreen (h : d.Hands R) {r : Request} (hr : R r) (hvalid : r.transfer.Valid)
    (hunique : ∀ r', R r' → r'.session = r.session → r' = r) {source : EngineId} {offset : Nat}
    {data : Bytes} {eob : Bool} (now : Nat) (hsource : source = r.session.originator)
    (htells : (Notice.greenSegmentArrived r.session source offset data eob).TellsOf r.transfer)
    (hfrom : ∀ x ∈ (d.reassembleGreen r.session source offset data eob now).dispatched,
      x ∈ d.dispatched ∨ x.source = source) :
    (d.reassembleGreen r.session source offset data eob now).Hands R := by
  obtain ⟨hgreen, hdata, hinside, heob⟩ := htells
  have hlt := hvalid.lt
  have hfits : offset + data.length ≤ u64Max := by
    simp only [u64Max]
    omega
  let s : Slice r.transfer.block := ⟨offset, offset + data.length, by omega, hinside, hfits⟩
  have hslice : s.data = data := by
    simp only [s, Slice.data, Nat.add_sub_cancel_left]
    exact hdata.symm
  have hend : s.isEnd = eob := by
    rw [Slice.isEnd, Bool.eq_iff_iff, decide_eq_true_eq]
    exact heob.symm
  -- the block with this slice
  obtain ⟨l, hl, hholds⟩ := h.reassembly hunique now
  have hadded := hholds.add s now
  rw [hslice, hend] at hadded
  have hlgreen : ∀ x ∈ l ++ [s], r.transfer.redLen ≤ x.start := by
    intro x hx
    rcases List.mem_append.mp hx with hx | hx
    · exact hl x hx
    · rw [List.mem_singleton.mp hx]
      exact hgreen
  have hreassembles := d.reassembles_reassembleGreen r.session source offset data eob now hfits
  constructor
  · intro sid entry hentry
    by_cases hsid : r.session = sid
    · subst hsid
      cases hreassembles with
      | dropped _ hnone | completed _ _ hnone =>
        rw [hnone] at hentry
        cases hentry
      | kept _ _ hkept =>
        rcases hkept with hkept | hkept
        · rw [hkept] at hentry
          cases hentry
          exact ⟨r, hr, rfl, l ++ [s], hlgreen, hadded⟩
        · rw [hkept] at hentry
          cases hentry
    · rcases d.fades_reassembleGreen hsid source offset data eob now with hsame | hnone
      · rw [hsame] at hentry
        exact h.gathers sid entry hentry
      · rw [hnone] at hentry
        cases hentry
  · intro x hx
    cases hreassembles with
    | dropped _ _ hsame | kept _ _ _ hsame =>
      rw [hsame] at hx
      exact h.dispatched x hx
    | completed _ hcomplete _ hdispatch =>
      rcases hfrom x hx with hold | hxsource
      · exact h.dispatched x hold
      obtain ⟨y, hdispatched, hy⟩ := hdispatch
      rw [hdispatched] at hx
      rcases List.mem_append.mp hx with hx | hx
      · exact h.dispatched x hx
      have hcompletes := hadded.isComplete_iff.mp hcomplete
      refine ⟨r, hr, hxsource.trans hsource, ?_⟩
      rw [List.mem_singleton.mp hx, hy]
      refine .gathered (l ++ [s]) hlgreen hcompletes (hadded.ended hcompletes.1) fun p => ?_
      by_cases hp : Covered (l ++ [s]) p
      · exact .inl (hadded.held p hp)
      · exact .inr (hadded.hole p hp)

/-- A notice is handled. -/
theorem handleNotice (h : d.Hands R) (hvalid : ∀ r, R r → r.transfer.Valid)
    (hunique : ∀ r r', R r → R r' → r.session = r'.session → r = r') (now : Nat) {notice : Notice}
    (htold : Told R notice) : (d.handleNotice now notice).Hands R := by
  obtain ⟨hsourced, htells⟩ := htold
  have hfrom := d.handleNotice_dispatched now notice
  cases notice with
  | transmissionSessionCompleted | transmissionSessionCancelled => exact h.congr (settle_intake ..)
  | redPartReceived sid source clientService data eob =>
    obtain ⟨r, hr, rfl, hpos, -, hdata, -⟩ := htells rfl
    refine ⟨?_, fun x hx => (hfrom x hx).elim (h.dispatched x) fun hx => ?_⟩
    · simp only [Driver.handleNotice]
      split <;> exact h.gathers
    · exact ⟨r, hr, hx.1.trans hsourced, .red hpos (hx.2.trans hdata)⟩
  | greenSegmentArrived sid source offset data eob =>
    obtain ⟨r, hr, rfl, htells⟩ := htells rfl
    by_cases hwhole : offset = 0 ∧ eob = true
    · have hsame : (d.handleNotice now (.greenSegmentArrived r.session source offset data eob)) =
          d.dispatch source data := if_pos hwhole
      refine ⟨by rw [hsame]; exact h.gathers,
        fun x hx => (hfrom x hx).elim (h.dispatched x) fun hx => ?_⟩
      obtain ⟨-, hdata, -, heob⟩ := htells
      have hall := heob.mp hwhole.2
      rw [hwhole.1, Nat.zero_add] at hall
      rw [hwhole.1, List.drop_zero, hall, List.take_length] at hdata
      exact ⟨r, hr, hx.1.trans hsourced, .whole ((hx.2 hwhole).trans hdata)⟩
    · have hsame : (d.handleNotice now (.greenSegmentArrived r.session source offset data eob)) =
          d.reassembleGreen r.session source offset data eob now := if_neg hwhole
      rw [hsame] at hfrom ⊢
      exact h.reassembleGreen hr (hvalid r hr) (fun r' hr' hsid => hunique r' r hr' hr hsid) now
        hsourced htells fun x hx => (hfrom x hx).imp_right And.left

/-- The notices are drained. -/
theorem drainNotices (h : d.Hands R) (hvalid : ∀ r, R r → r.transfer.Valid)
    (hunique : ∀ r r', R r → R r' → r.session = r'.session → r = r') (now fuel : Nat)
    (htold : ∀ notice ∈ d.host.emitted, Told R notice) :
    (Driver.drainNotices now fuel d).Hands R := by
  induction fuel generalizing d with
  | zero => exact h
  | succ fuel ih =>
    unfold Driver.drainNotices
    split
    swap
    · exact h
    rename_i notice rest hnotices
    have hemitted : (d.host.call .pollNotice).emitted = d.host.emitted := by
      simp [Host.call, Host.pollNotice, Engine.pollNotice, Host.emitted, hnotices]
    have hpolled : ({ d with host := d.host.call .pollNotice } : Driver β ν α).Hands R := h.congr rfl
    refine ih (hpolled.handleNotice hvalid hunique now (htold notice ?_)) ?_
    · simp [Host.emitted, hnotices]
    · rw [handleNotice_host, hemitted]
      exact htold

end Hands

end Driver

namespace Stations

variable {ι β ν α : Type} [DecidableEq ι] [Ord α] {config : ι → Config} {w : Stations ι β ν α}

/-- What stations carry, and what they hand over of it. -/
structure Carries (config : ι → Config) (w : Stations ι β ν α) : Prop where
  linked : w.Linked config
  carried : w.hosts.Carried
  hands : ∀ i, (w i).Hands (w.hosts.FromOthers i)

omit [DecidableEq ι] in
theorem carries_new (hids : Function.Injective fun i => (config i).engineId)
    (hkiss : ∀ i, ∃ minFrameLen : UInt64, (config i).transport = .kissTcp minFrameLen.toNat) :
    (new config : Stations ι β ν α).Carries config := by
  have hlinked : Linked config (new config : Stations ι β ν α) := fun i => .new (hkiss i)
  have hunused : ∀ i, ((new config : Stations ι β ν α) i).host.Unused := fun i =>
    Driver.unused_new (config i)
  have hid : ∀ i, ((new config : Stations ι β ν α).hosts i).engine.config.engineId =
      (config i).engineId := fun i => congrArg EngineConfig.engineId (hlinked i).engineConfig
  refine ⟨hlinked, ⟨by simpa only [hid] using hids, fun i r hr => ?_,
    fun i _ hsid => (hunused i).transmits hsid, fun i _ hsid => (hunused i).collects hsid⟩,
    fun i => ⟨by simp [new, Driver.new], by simp [new, Driver.new]⟩⟩
  rw [hosts, (hunused i).requests] at hr
  cases hr

omit [DecidableEq ι] in
/-- What a station tells of, another one was asked to forward. -/
theorem Carries.told (hw : w.Carries config) (i : ι) :
    ∀ notice ∈ (w i).host.emitted, Driver.Told (w.hosts.FromOthers i) notice := by
  intro notice hemitted
  constructor
  · obtain ⟨calls, hcalls⟩ := (hw.linked i).reached
    rw [hcalls] at hemitted
    exact (Host.allSourced_run _ calls).2 notice hemitted
  · intro hdata
    by_cases hsid : notice.session.originator = (w.hosts i).engine.config.engineId
    · have hsilent := (hw.carried.transmits i _ hsid).tells notice hemitted rfl
      rw [hsilent] at hdata
      cases hdata
    · exact (hw.carried.collects i _ hsid).tells notice hemitted rfl hdata

/-- A station handles an event, and hears only what another one has transmitted. -/
theorem Carries.step (hw : w.Carries config) {e : ι × Driver.Event β ν α}
    (hdistinct : World.Distinct (w.step e).hosts) (hbrings : w.Brings e) :
    (w.step e).Carries config := by
  have hbefore : w.hosts.Distinct := fun j =>
    (hdistinct j).sublist ((requests_prefix_step hw.linked e j).map _).sublist
  have hmono : ∀ i r, w.hosts.FromOthers i r → (w.step e).hosts.FromOthers i r := by
    rintro i r ⟨j, hj, hr⟩
    exact ⟨j, hj, (requests_prefix_step hw.linked e j).subset hr⟩
  refine ⟨hw.linked.step e, ?_, fun i => Driver.Hands.mono ?_ (hmono i)⟩
  · obtain ⟨k, event⟩ := e
    obtain ⟨calls, hcalls, hheard⟩ := Driver.calls_step (hw.linked k).idle event
    rw [hosts_step] at hdistinct ⊢
    cases hevent : event.heard with
    | none =>
      rw [hcalls.run] at hdistinct ⊢
      rw [hevent] at hheard
      exact hw.carried.calls hheard hdistinct
    | some seg =>
      cases event with
      | datagram => exact hbrings.elim
      | command | tick | drainOutputs | drainNotices | stop => cases hevent
      | frame payload first now =>
        rcases Driver.frame_step (hw.linked k).idle payload first now with hsame | ⟨source, hcall⟩
        · have hsame : ((w k).step (.frame payload first now)).host = w.hosts k := hsame
          rw [hsame, Function.update_eq_self]
          exact hw.carried
        rw [hcall]
        refine hw.carried.call hbefore ?_
        rintro seg' now' ⟨_, _, ⟨⟩, hparse⟩
        obtain ⟨j, hj, x, hx, rfl⟩ := hbrings
        exact ⟨j, hj, (hw.linked j).read hx hparse⟩
  · by_cases hi : i = e.1
    swap
    · rw [Stations.step, Function.update_of_ne hi]
      exact hw.hands i
    subst hi
    rw [Stations.step, Function.update_self]
    by_cases hdrain : ∃ now, e.2 = .drainNotices now
    · obtain ⟨now, hdrain⟩ := hdrain
      rw [hdrain]
      unfold Driver.step
      split
      · refine (hw.hands e.1).drainNotices ?_ ?_ now _ (hw.told e.1)
        · rintro r ⟨j, -, hr⟩
          exact hw.carried.valid hr
        · exact fun r r' hr hr' hsid => hw.carried.unique hbefore hr hr' hsid
      · exact hw.hands e.1
    · exact (hw.hands e.1).congr ((w e.1).intake_step fun now hnow => hdrain ⟨now, hnow⟩)

theorem Carries.run (hw : w.Carries config) {events : List (ι × Driver.Event β ν α)}
    (hdistinct : World.Distinct (w.run events).hosts) (hbrings : Along Stations.step Brings w events) :
    (w.run events).Carries config := by
  induction events generalizing w with
  | nil => exact hw
  | cons e events ih =>
    have hlater := requests_prefix_run (hw.linked.step e) events
    have hstep := hw.step (fun j => (hdistinct j).sublist ((hlater j).map _).sublist) hbrings.1
    exact ih hstep hdistinct hbrings.2

end Stations

open Stations in
/-- Stations behind KISS TNCs on one channel, with distinct engine identifiers and fewer than 2 ^ 64
requests each, that send each bundle in the red or in the green lane.  Whatever is lost, repeated,
delayed or overheard, a bundle that a station hands its agent is one that another station was asked to
forward, and is handed over as from that station: a bundle of the red lane octet for octet, and one of
the green lane in its length and but for octets that are zero. -/
theorem bundles_carried {ι β ν α : Type} [DecidableEq ι] [Ord α] {config : ι → Config}
    (hids : Function.Injective fun i => (config i).engineId)
    (hkiss : ∀ i, ∃ minFrameLen : UInt64, (config i).transport = .kissTcp minFrameLen.toNat)
    {events : List (ι × Driver.Event β ν α)} (hbrings : Along step Brings (new config) events)
    (hrequests : ∀ i, (run (new config) events i).host.requests.length < 2 ^ 64)
    (hlanes : ∀ i, ∀ r ∈ (run (new config) events i).host.requests,
      r.transfer.redLen = 0 ∨ r.transfer.redLen = r.transfer.block.length)
    {i : ι} {x : Dispatch ν} (hx : x ∈ (run (new config) events i).dispatched) :
    ∃ j, j ≠ i ∧ ∃ r ∈ (run (new config) events j).host.requests,
      x.source = (config j).engineId ∧
      (x.data = r.transfer.block ∨ r.transfer.redLen = 0 ∧
        x.data.length = r.transfer.block.length ∧
        ∀ p, x.data.getD p 0 = r.transfer.block.getD p 0 ∨ x.data.getD p 0 = 0) := by
  have hnew : Carries config (new config : Stations ι β ν α) := carries_new hids hkiss
  have hlinked := hnew.linked.run events
  have hdistinct : World.Distinct (run (new config) events).hosts := fun j =>
    (hlinked j).numbered.nodup (hrequests j)
  have hfinal := hnew.run hdistinct hbrings
  obtain ⟨r, ⟨j, hj, hr⟩, hsource, hdelivers⟩ := (hfinal.hands i).dispatched x hx
  have hid : r.session.originator = (config j).engineId :=
    (hfinal.carried.own j r hr).trans (congrArg EngineConfig.engineId (hlinked j).engineConfig)
  refine ⟨j, hj, r, hr, hsource.trans hid, ?_⟩
  rcases hlanes j r hr with hgreen | hred
  · exact .inr ⟨hgreen, hdelivers.of_green hgreen⟩
  · exact .inl (hdelivers.of_red hred)

open Stations in
/-- Station 2 hands over the octet that station 1 sent, and so does station 3, which overhears it. -/
theorem bundles_carried_overheard :
    let events := forwardToSecond ++ [(1, .frame shortFrame ⟨1⟩ 1), (1, .drainNotices 2),
      (2, .frame shortFrame ⟨1⟩ 3), (2, .drainNotices 4)]
    ∀ i, i ≠ 0 → ∃ x ∈ (run (new threeStations) events i).dispatched, ∃ j, j ≠ i ∧
      ∃ r ∈ (run (new threeStations) events j).host.requests, x.data = r.transfer.block := by
  intro events i hi
  have hdispatched : ∃ x ∈ (run (new threeStations) events i).dispatched, x.data = [7] := by
    revert i
    decide +kernel
  obtain ⟨x, hx, -⟩ := hdispatched
  obtain ⟨j, hj, r, hr, -, hdata⟩ := bundles_carried (by decide) (fun _ => ⟨0, rfl⟩)
    (by decide +kernel : Along step Brings (new threeStations) events) (by decide +kernel)
    (by decide +kernel) hx
  refine ⟨x, hx, j, hj, r, hr, hdata.resolve_right fun h => ?_⟩
  have hred : ∀ j, ∀ r ∈ (run (new threeStations) events j).host.requests, r.transfer.redLen ≠ 0 := by
    decide +kernel
  exact hred j r hr h.1

end HdyUtils.Cla
