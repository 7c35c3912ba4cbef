import HdyUtils.Ltp.Numbering
import HdyUtils.Ltp.Traffic

/-! Hosts on a channel that loses, repeats, delays and reorders what they poll, but neither alters nor
forges it.  `World.Faithful` is the joint invariant: whatever is on the way or has been gathered is of
the requests. -/

namespace HdyUtils.Ltp

open Trace

/-- The host with a new engine of the same configuration, as `Driver::spawn` makes one.  What it has
polled may still be on the way. -/
def Host.restart (h : Host) : Host :=
  { Host.new h.engine.config with sent := h.sent, told := h.told, requests := h.requests }

namespace Host

variable {h : Host} {sid : SessionId}

theorem pushed_restart (h : Host) : ∀ x ∈ h.restart.pushed, x ∈ h.pushed := fun x hx => by
  have hsent : h.restart.pushed = h.sent := List.append_nil h.sent
  rw [hsent] at hx
  exact List.mem_append_left _ hx

theorem emitted_restart (h : Host) : ∀ x ∈ h.restart.emitted, x ∈ h.emitted := fun x hx => by
  have htold : h.restart.emitted = h.told := List.append_nil h.told
  rw [htold] at hx
  exact List.mem_append_left _ hx

theorem Transmits.restart (hinv : h.Transmits sid) : h.restart.Transmits sid where
  owned := Engine.owned_new h.engine.config
  own := hinv.own
  session := by simp [Host.restart, new, Engine.new]
  queued := hinv.queued.subset h.pushed_restart
  valid := hinv.valid
  tells := fun x hx => hinv.tells x (h.emitted_restart x hx)

theorem Collects.restart {R : Request → Prop} (hinv : h.Collects R sid) :
    h.restart.Collects R sid where
  owned := Engine.owned_new h.engine.config
  foreign := hinv.foreign
  session := by simp [Host.restart, new, Engine.new]
  keeps := by simp [Host.restart, new, Engine.new]
  queued := hinv.queued.subset h.pushed_restart
  tells := fun x hx => hinv.tells x (h.emitted_restart x hx)

/-- A host requests sessions of its own. -/
theorem requests_own_step (hown : h.engine.Owned) (c : Call) :
    ∀ r ∈ (h.step c).requests, r ∈ h.requests ∨ r.session.originator = h.engine.config.engineId := by
  intro r hr
  cases steps_step hown c with
  | same _ _ _ _ requests =>
    rw [requests] at hr
    exact .inl hr
  | tick _ _ heq =>
    rw [heq] at hr
    exact .inl hr
  | recv _ _ _ _ _ requests =>
    rw [requests] at hr
    exact .inl hr
  | @send t trigger p n hown' _ _ _ _ requests =>
    rw [requests] at hr
    refine (List.mem_append.mp hr).imp_right fun hnew => ?_
    cases trigger with
    | request peer transfer =>
      rw [List.mem_singleton.mp hnew]
      exact hown'
    | report | peerCancel | cancelAck | expired => cases hnew

end Host

inductive Event
  | call (c : Call)
  | restart
deriving DecidableEq

/-- The hosts on a channel. -/
abbrev World (ι : Type) := ι → Host

namespace World

variable {ι : Type}

def new (config : ι → EngineConfig) : World ι := fun i => .new (config i)

/-- The channel can bring the octets to host `i`: another host has polled them, for the engine of `i`
or, on a shared channel, for whatever engine. -/
def Brings (shared : Bool) (w : World ι) (i : ι) (bytes : Bytes) : Prop :=
  ∃ j, j ≠ i ∧ ∃ x ∈ (w j).sent,
    x.2 = bytes ∧ (shared = true ∨ x.1 = (w i).engine.config.engineId)

/-- Whether a call can be made: a host receives only what the channel can bring. -/
def Enabled (shared : Bool) (w : World ι) (i : ι) : Call → Prop
  | .segment _ bytes _ => w.Brings shared i bytes
  | _ => True

/-- The requests to host `i`. -/
def For (w : World ι) (i : ι) (r : Request) : Prop :=
  r.peer = (w i).engine.config.engineId ∧ ∃ j, r ∈ (w j).requests

/-- No two requests of a host have the same session. -/
def Distinct (w : World ι) : Prop := ∀ i, ((w i).requests.map Request.session).Nodup

section Run

variable [Fintype ι] [DecidableEq ι] (shared : Bool)

instance (w : World ι) (i : ι) (bytes : Bytes) : Decidable (w.Brings shared i bytes) :=
  inferInstanceAs (Decidable (∃ j, j ≠ i ∧ ∃ x ∈ (w j).sent,
    x.2 = bytes ∧ (shared = true ∨ x.1 = (w i).engine.config.engineId)))

instance (w : World ι) (i : ι) : (c : Call) → Decidable (w.Enabled shared i c)
  | .segment _ bytes _ => inferInstanceAs (Decidable (w.Brings shared i bytes))
  | .request .. | .tick _ | .fire | .pollOutput | .pollNotice | .setPeerTiming ..
  | .updatePeerRttSample .. => inferInstanceAs (Decidable True)

def step (w : World ι) : ι × Event → World ι
  | (i, .call c) => if w.Enabled shared i c then Function.update w i ((w i).step c) else w
  | (i, .restart) => Function.update w i (w i).restart

/-- A run of the world. -/
abbrev run (w : World ι) (events : List (ι × Event)) : World ι := Trace.run (step shared) w events

end Run

section Update

variable [DecidableEq ι] {w : World ι} {i : ι} {h : Host}

/-- A host changes, but for its configuration. -/
theorem config_update_host (hconfig : h.engine.config = (w i).engine.config) (j : ι) :
    (Function.update w i h j).engine.config = (w j).engine.config := by
  by_cases hj : j = i
  · subst hj
    rw [Function.update_self, hconfig]
  · rw [Function.update_of_ne hj]

theorem requests_update_host (hrequests : (w i).requests <+: h.requests) (j : ι) :
    (w j).requests <+: (Function.update w i h j).requests := by
  by_cases hj : j = i
  · subst hj
    rwa [Function.update_self]
  · rw [Function.update_of_ne hj]

theorem For.update_host (hconfig : h.engine.config = (w i).engine.config)
    (hrequests : (w i).requests <+: h.requests) (j : ι) (r : Request) (hr : w.For j r) :
    For (Function.update w i h) j r := by
  obtain ⟨hpeer, k, hk⟩ := hr
  exact ⟨by rwa [config_update_host hconfig], k, (requests_update_host hrequests k).subset hk⟩

end Update

/-- Everything on the channel is of the requests, and everything that host `i` has gathered is of those in
`R i`. -/
structure FaithfulTo (R : ι → Request → Prop) (w : World ι) : Prop where
  ids : Function.Injective fun i => (w i).engine.config.engineId
  own : ∀ i, ∀ r ∈ (w i).requests, r.session.originator = (w i).engine.config.engineId
  transmits : ∀ (i : ι) (sid : SessionId), sid.originator = (w i).engine.config.engineId →
    (w i).Transmits sid
  collects : ∀ (i : ι) (sid : SessionId), sid.originator ≠ (w i).engine.config.engineId →
    (w i).Collects (R i) sid

namespace FaithfulTo

variable {w : World ι} {R R' : ι → Request → Prop} {i : ι} {h : Host} {c : Call}

theorem new {config : ι → EngineConfig} (hids : Function.Injective fun i => (config i).engineId) :
    FaithfulTo R (World.new config) where
  ids := hids
  own := by simp [World.new, Host.new]
  transmits := fun _ _ hsid => Host.transmits_new hsid
  collects := fun _ _ hsid => Host.collects_new hsid

variable (hw : w.FaithfulTo R)
include hw

theorem owned (i : ι) : (w i).engine.Owned :=
  (hw.transmits i ⟨(w i).engine.config.engineId, 0⟩ rfl).owned

theorem valid {r : Request} (hr : r ∈ (w i).requests) : r.transfer.Valid :=
  (hw.transmits i r.session (hw.own i r hr)).valid r hr rfl

/-- The data that a host has polled is cut from its requests, and goes to their peers. -/
theorem sent {j : ι} {x : EngineId × Bytes} (hx : x ∈ (w j).sent) {seg : Segment} {n : Nat}
    (hparse : Segment.parse x.2 = .ok (seg, n)) {ds : DataSegment} (hbody : seg.body = .data ds) :
    ∃ r ∈ (w j).requests, r.session = seg.session ∧ ds.Cuts r.transfer ∧ r.peer = x.1 := by
  by_cases hsid : seg.session.originator = (w j).engine.config.engineId
  · obtain ⟨-, -, hdata⟩ := (hw.transmits j seg.session hsid).queued.parsed (fun _ h => h.1) hx hparse
      rfl
    obtain ⟨r, hr, hrsid, hpeer, hcuts⟩ := hdata ds hbody
    exact ⟨r, hr, hrsid, hcuts, hpeer⟩
  · obtain ⟨-, hdata⟩ := (hw.collects j seg.session hsid).queued.parsed (fun _ h => h.1) hx hparse rfl
    exact absurd hbody (hdata ds)

/-- The channel brings no data but what is cut from requests, to whom it was addressed. -/
theorem brought {shared : Bool} {bytes : Bytes} (hbrings : w.Brings shared i bytes)
    {seg : Segment} {n : Nat} (hparse : Segment.parse bytes = .ok (seg, n)) {ds : DataSegment}
    (hbody : seg.body = .data ds) : ∃ j, j ≠ i ∧ ∃ r ∈ (w j).requests, r.session = seg.session ∧
      ds.Cuts r.transfer ∧ (shared = true ∨ r.peer = (w i).engine.config.engineId) := by
  obtain ⟨j, hj, x, hx, rfl, hdest⟩ := hbrings
  obtain ⟨r, hr, hrsid, hcuts, hpeer⟩ := hw.sent hx hparse hbody
  exact ⟨j, hj, r, hr, hrsid, hcuts, hdest.imp_right fun hdest => hpeer.trans hdest⟩

/-- One host changes. -/
theorem update [DecidableEq ι] (hR : ∀ j r, R j r → R' j r)
    (hconfig : h.engine.config = (w i).engine.config)
    (hown : ∀ r ∈ h.requests,
      r ∈ (w i).requests ∨ r.session.originator = (w i).engine.config.engineId)
    (htransmits : ∀ sid, (w i).Transmits sid → h.Transmits sid)
    (hcollects : ∀ sid, (w i).Collects (R i) sid → h.Collects (R i) sid) :
    FaithfulTo R' (Function.update w i h) := by
  have hid := config_update_host hconfig
  refine ⟨?_, fun j r hr => ?_, fun j sid hsid => ?_, fun j sid hsid => ?_⟩
  · simp only [hid]
    exact hw.ids
  · rw [hid]
    by_cases hj : j = i
    · subst hj
      rw [Function.update_self] at hr
      exact (hown r hr).elim (hw.own j r) fun h => h
    · rw [Function.update_of_ne hj] at hr
      exact hw.own j r hr
  · rw [hid] at hsid
    by_cases hj : j = i
    · subst hj
      rw [Function.update_self]
      exact htransmits sid (hw.transmits j sid hsid)
    · rw [Function.update_of_ne hj]
      exact hw.transmits j sid hsid
  · rw [hid] at hsid
    refine Host.Collects.mono ?_ (hR j)
    by_cases hj : j = i
    · subst hj
      rw [Function.update_self]
      exact hcollects sid (hw.collects j sid hsid)
    · rw [Function.update_of_ne hj]
      exact hw.collects j sid hsid

/-- A host makes a call that hands it data of its requests only, of which no two have the same
session. -/
theorem call [DecidableEq ι] (hR : ∀ j r, R j r → R' j r)
    (hcut : ∀ sid, sid.originator ≠ (w i).engine.config.engineId → Host.Cut (R i) sid c)
    (hunique : ∀ r r', R i r → R i r' → r.session = r'.session → r = r')
    (hvalid : ∀ r, R i r → r.transfer.Valid) :
    FaithfulTo R' (Function.update w i ((w i).step c)) := by
  have hown := hw.owned i
  refine hw.update hR (Host.config_step hown c) (Host.requests_own_step hown c)
    (fun sid h => h.step c) fun sid h => ?_
  exact h.step (hcut sid h.foreign) (fun r r' hr hr' hsid hsid' =>
    hunique r r' hr hr' (hsid.trans hsid'.symm)) fun r hr _ => hvalid r hr

theorem restart [DecidableEq ι] (hR : ∀ j r, R j r → R' j r) :
    FaithfulTo R' (Function.update w i (w i).restart) :=
  hw.update hR rfl (fun _ => .inl) (fun _ h => h.restart) fun _ h => h.restart

end FaithfulTo

/-- Everything on the channel and everything gathered is of the requests. -/
structure Faithful (w : World ι) : Prop where
  ids : Function.Injective fun i => (w i).engine.config.engineId
  own : ∀ i, ∀ r ∈ (w i).requests, r.session.originator = (w i).engine.config.engineId
  transmits : ∀ (i : ι) (sid : SessionId), sid.originator = (w i).engine.config.engineId →
    (w i).Transmits sid
  collects : ∀ (i : ι) (sid : SessionId), sid.originator ≠ (w i).engine.config.engineId →
    (w i).Collects (w.For i) sid

theorem Faithful.faithfulTo {w : World ι} (hw : w.Faithful) : w.FaithfulTo w.For :=
  ⟨hw.ids, hw.own, hw.transmits, hw.collects⟩

theorem FaithfulTo.faithful {w : World ι} (hw : w.FaithfulTo w.For) : w.Faithful :=
  ⟨hw.ids, hw.own, hw.transmits, hw.collects⟩

theorem faithful_new {config : ι → EngineConfig}
    (hids : Function.Injective fun i => (config i).engineId) : Faithful (new config) :=
  (FaithfulTo.new hids).faithful

namespace Faithful

variable {w : World ι} (hw : w.Faithful)
include hw

/-- A session is requested once. -/
theorem unique (hdistinct : w.Distinct) {i j : ι} {r r' : Request} (hr : r ∈ (w i).requests)
    (hr' : r' ∈ (w j).requests) (hsid : r.session = r'.session) : r = r' := by
  have hij : i = j := hw.ids ((hw.own i r hr).symm.trans (hsid ▸ hw.own j r' hr'))
  subst hij
  exact List.inj_on_of_nodup_map (hdistinct i) hr hr' hsid

theorem valid {i : ι} {r : Request} (hr : r ∈ (w i).requests) : r.transfer.Valid := hw.faithfulTo.valid hr

theorem cut {i : ι} {c : Call} (henabled : w.Enabled false i c) (sid : SessionId) :
    Host.Cut (w.For i) sid c := by
  rintro seg now ds ⟨source, bytes, rfl, hparse⟩ rfl hbody
  obtain ⟨j, -, r, hr, hrsid, hcuts, hpeer⟩ := hw.faithfulTo.brought henabled hparse hbody
  exact ⟨r, ⟨hpeer.resolve_left (by simp), j, hr⟩, hrsid, hcuts⟩

theorem owned (i : ι) : (w i).engine.Owned := hw.faithfulTo.owned i

/-- A host makes a call that hands it data of requests to it only. -/
theorem call [DecidableEq ι] (hdistinct : w.Distinct) {i : ι} {c : Call}
    (hcut : ∀ sid, sid.originator ≠ (w i).engine.config.engineId → Host.Cut (w.For i) sid c) :
    Faithful (Function.update w i ((w i).step c)) := by
  have hown := hw.owned i
  have hfor := For.update_host (Host.config_step hown c) (Host.requests_prefix_step hown c)
  refine (hw.faithfulTo.call hfor hcut ?_ ?_).faithful
  · rintro r r' ⟨-, j, hr⟩ ⟨-, k, hr'⟩ hsid
    exact hw.unique hdistinct hr hr' hsid
  · rintro r ⟨-, j, hr⟩
    exact hw.valid hr

theorem restart [DecidableEq ι] (i : ι) : Faithful (Function.update w i (w i).restart) := by
  have hfor : ∀ j r, w.For j r → For (Function.update w i (w i).restart) j r :=
    For.update_host rfl (List.prefix_refl _)
  exact (hw.faithfulTo.restart hfor).faithful

end Faithful

section Steps

variable [Fintype ι] [DecidableEq ι] {shared : Bool} {w : World ι}

theorem step_call {i : ι} {c : Call} (henabled : w.Enabled shared i c) :
    w.step shared (i, .call c) = Function.update w i ((w i).step c) := if_pos henabled

/-- What an event is: nothing, an enabled call, or a restart. -/
theorem step_cases (w : World ι) (e : ι × Event) :
    w.step shared e = w ∨
    (∃ i c, e = (i, .call c) ∧ w.Enabled shared i c ∧
      w.step shared e = Function.update w i ((w i).step c)) ∨
    ∃ i, e = (i, .restart) ∧ w.step shared e = Function.update w i (w i).restart := by
  obtain ⟨i, c | -⟩ := e
  · by_cases henabled : w.Enabled shared i c
    · exact .inr (.inl ⟨i, c, rfl, henabled, step_call henabled⟩)
    · exact .inl (if_neg henabled)
  · exact .inr (.inr ⟨i, rfl, rfl⟩)

theorem Faithful.step (hw : w.Faithful) (hdistinct : w.Distinct) (e : ι × Event) :
    (w.step false e).Faithful := by
  rcases w.step_cases e with heq | ⟨i, c, rfl, henabled, heq⟩ | ⟨i, rfl, heq⟩
  · rw [heq]
    exact hw
  · rw [heq]
    exact hw.call hdistinct fun sid _ => hw.cut henabled sid
  · rw [heq]
    exact hw.restart i

/-- The engines of all hosts own their sessions. -/
def Owned (w : World ι) : Prop := ∀ i, (w i).engine.Owned

omit [Fintype ι] [DecidableEq ι] in
theorem owned_new (config : ι → EngineConfig) : Owned (new config) := fun i =>
  Engine.owned_new (config i)

/-- What every event keeps of each host. -/
theorem step_at {P : Host → Host → Prop} (hrefl : ∀ h, P h h)
    (hcall : ∀ (h : Host) (c : Call), h.engine.Owned → P h (h.step c))
    (hrestart : ∀ h : Host, P h h.restart) (hw : w.Owned) (e : ι × Event) (j : ι) :
    P (w j) (w.step shared e j) := by
  rcases w.step_cases e with heq | ⟨i, c, -, -, heq⟩ | ⟨i, -, heq⟩
  · rw [heq]
    exact hrefl (w j)
  · rw [heq]
    by_cases hj : j = i
    · subst hj
      rw [Function.update_self]
      exact hcall (w j) c (hw j)
    · rw [Function.update_of_ne hj]
      exact hrefl (w j)
  · rw [heq]
    by_cases hj : j = i
    · subst hj
      rw [Function.update_self]
      exact hrestart (w j)
    · rw [Function.update_of_ne hj]
      exact hrefl (w j)

theorem Owned.step (hw : w.Owned) (e : ι × Event) : (w.step shared e).Owned := fun j =>
  w.step_at (P := fun h h' => h.engine.Owned → h'.engine.Owned) (fun _ h => h)
    (fun _ c h _ => Host.owned_step h c) (fun h _ => Engine.owned_new h.engine.config) hw e j (hw j)

theorem requests_prefix_step (hw : w.Owned) (e : ι × Event) (j : ι) :
    (w j).requests <+: (w.step shared e j).requests :=
  w.step_at (P := fun h h' => h.requests <+: h'.requests) (fun _ => List.prefix_refl _)
    (fun _ c h => Host.requests_prefix_step h c) (fun _ => List.prefix_refl _) hw e j

theorem requests_prefix_run (hw : w.Owned) (events : List (ι × Event)) (j : ι) :
    (w j).requests <+: (run shared w events j).requests := by
  induction events generalizing w with
  | nil => exact List.prefix_refl _
  | cons e events ih => exact (requests_prefix_step hw e j).trans (ih (hw.step e))

/-- If the sessions requested in a run are distinct, they are so before each of its events. -/
theorem along_distinct (hw : w.Owned) {events : List (ι × Event)}
    (hdistinct : Distinct (run shared w events)) :
    Along (step shared) (fun w _ => w.Distinct) w events := by
  induction events generalizing w with
  | nil => trivial
  | cons e events ih =>
    refine ⟨fun i => ?_, ih (hw.step e) hdistinct⟩
    exact (hdistinct i).sublist ((requests_prefix_run hw (e :: events) i).map _).sublist

theorem Faithful.run {config : ι → EngineConfig}
    (hids : Function.Injective fun i => (config i).engineId) {events : List (ι × Event)}
    (hdistinct : Distinct (World.run false (new config) events)) :
    Faithful (World.run false (new config) events) := by
  have hstep : ∀ (w : World ι) (e : ι × Event), w.Faithful → w.Distinct → (w.step false e).Faithful :=
    fun w e hw hd => hw.step hd e
  exact (along_distinct (owned_new config) hdistinct).invariant hstep (faithful_new hids)

/-! ### Runs without restarts -/

/-- A run in which no engine is replaced. -/
def calls (l : List (ι × Call)) : List (ι × Event) := l.map fun e => (e.1, .call e.2)

theorem numbered_calls (hw : w.Owned) (hnum : ∀ i, (w i).Numbered) (l : List (ι × Call)) (j : ι) :
    (World.run shared w (calls l) j).Numbered := by
  induction l generalizing w with
  | nil => exact hnum j
  | cons e l ih =>
    refine ih (hw.step (e.1, .call e.2)) fun i => ?_
    rcases w.step_cases (e.1, .call e.2) with heq | ⟨k, c, -, -, heq⟩ | ⟨k, hk, -⟩
    · rw [heq]
      exact hnum i
    · rw [heq]
      by_cases hi : i = k
      · subst hi
        rw [Function.update_self]
        exact (hnum i).step (hw i) c
      · rw [Function.update_of_ne hi]
        exact hnum i
    · cases hk

/-- Fewer than 2 ^ 64 requests at each host have distinct sessions. -/
theorem distinct_calls {config : ι → EngineConfig} {l : List (ι × Call)}
    (hlen : ∀ i, (World.run shared (new config) (calls l) i).requests.length < 2 ^ 64) :
    Distinct (World.run shared (new config) (calls l)) := fun i =>
  (numbered_calls (owned_new config) (fun i => Host.numbered_new (config i)) l i).nodup (hlen i)

end Steps

end World

end HdyUtils.Ltp
