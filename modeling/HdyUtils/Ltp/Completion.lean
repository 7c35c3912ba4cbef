import HdyUtils.Ltp.Claims
import HdyUtils.Ltp.EndToEnd

/-! No false completion.  As long as the host that a block is sent to has not delivered its red part,
nobody reports all of it, and the sender does not complete. -/

namespace HdyUtils.Ltp

open Trace

/-! ### Reports on a session -/

/-- What a host other than the originator may send on a session of which only `G` was received. -/
def ReportsOnly (G : Set Nat) (p : Push) : Prop :=
  FromReceiver p ∧ ∀ rs, p.2 = .report rs → rs.ClaimsIn G

theorem ReportsOnly.mono {G G' : Set Nat} {p : Push} (h : ReportsOnly G p) (hG : G ⊆ G') :
    ReportsOnly G' p := ⟨h.1, fun rs hrs x hx => hG (h.2 rs hrs x hx)⟩

namespace Host

variable {h : Host} {sid : SessionId} {G : Set Nat} {c : Call}

/-- A host that has no session and is given no data reports nothing. -/
theorem reportsOnly_step {R : Request → Prop} (hinv : h.Collects R sid)
    (hsaid : h.Says sid (ReportsOnly G)) (hcut : Cut R sid c) (hnone : ∀ r, R r → r.session ≠ sid) :
    (h.step c).Says sid (ReportsOnly G) := by
  have hsession : h.engine.recvSessions[sid]? = none := by
    by_contra hsome
    obtain ⟨s, hs⟩ := Option.ne_none_iff_exists'.mp hsome
    obtain ⟨r, hr, hrsid, -⟩ := hinv.session s hs
    exact hnone r hr hrsid
  cases recvChange hinv.owned c hinv.foreign with
  | @moved trigger p n cause move pushed emitted =>
    have hdata : ∀ source ds now, trigger ≠ .data source ds now := by
      intro source ds now htrigger
      obtain ⟨r, hr, hrsid, -⟩ := cause.cut hcut htrigger
      exact hnone r hr hrsid
    have hno : ∀ s, (h.engine.recvView sid).session = some s → s.Keeps (ReportSegment.ClaimsIn G) := by
      intro s hs
      rw [Engine.recvView_session, hsession] at hs
      cases hs
    have hreports := (move.keeps (P := ReportSegment.ClaimsIn G)
      (fun source ds now cp heq => absurd heq (hdata source ds now))
      (fun source ds now s s' reports heq => absurd heq (hdata source ds now)) hno).1
    have hbounded := (move.fromReceiver hinv.keeps).1
    exact hsaid.own pushed fun q hq => ⟨hbounded q hq, hreports q hq⟩
  | tick _ _ _ _ _ pushed => exact hsaid.subset (by rw [pushed]; exact fun x hx => hx)
  | other _ _ _ _ _ pushed => exact hsaid.others pushed

/-- A host that has received `G` delivers the red part, or it has received some `G'` afterwards and
still reports no more than that. -/
theorem lacks_step {R : Request → Prop} {t : Transfer} (hinv : h.Collects R sid)
    (hsaid : h.Says sid (ReportsOnly G)) (hlacks : (h.engine.recvView sid).Lacks t G)
    (hcut : Cut R sid c) (hR : ∀ r, R r → r.session = sid → r.transfer = t) (ht : t.Valid)
    (hkept : sid ∈ h.engine.cancelledSessions → sid ∈ (h.step c).engine.cancelledSessions) :
    (∃ x ∈ (h.step c).emitted, x.session = sid ∧ x.isDelivery = true) ∨
      ∃ G', G ⊆ G' ∧ ((h.step c).engine.recvView sid).Lacks t G' ∧
        (h.step c).Says sid (ReportsOnly G') := by
  -- A call that does not move the session.
  have hquiet : (h.step c).engine.recvSessions[sid]? = h.engine.recvSessions[sid]? →
      (sid ∈ (h.step c).engine.closedRecvSessions → sid ∈ h.engine.closedRecvSessions) →
      ((h.step c).engine.recvView sid).Lacks t G := by
    intro hsession hclosed
    have hview : ((h.step c).engine.recvView sid).session = (h.engine.recvView sid).session :=
      hsession
    refine ⟨hlacks.gap, ?_, ?_, ?_, ?_, fun hc => hlacks.unclosed (hclosed hc)⟩
    · rw [hview]
      exact hlacks.received
    · rw [hview]
      exact hlacks.undelivered
    · rw [hview]
      exact hlacks.keeps
    · rw [hview]
      exact fun hnone => (hlacks.gone hnone).imp_right hkept
  cases recvChange hinv.owned c hinv.foreign with
  | @moved trigger p n cause move pushed emitted =>
    have hdata : ∀ source ds now, trigger = .data source ds now → ds.Cuts t := by
      intro source ds now htrigger
      obtain ⟨r, hr, hrsid, hcuts⟩ := cause.cut hcut htrigger
      rwa [hR r hr hrsid] at hcuts
    have hholds : ∀ s, (h.engine.recvView sid).session = some s → s.Holds t := by
      intro s hs
      obtain ⟨r, hr, hrsid, hholds⟩ := hinv.session s hs
      rwa [hR r hr hrsid] at hholds
    have hbounded := (move.fromReceiver hinv.keeps).1
    rcases move.lacks ht hdata hholds hlacks with ⟨x, hx, hdelivery⟩ | ⟨G', hG, hlacks', hreports⟩
    · refine .inl ⟨x, ?_, move.notices_session x hx, hdelivery⟩
      rw [emitted]
      exact List.mem_append_right _ hx
    · exact .inr ⟨G', hG, hlacks', (hsaid.mono fun q hq => hq.mono hG).own pushed
        fun q hq => ⟨hbounded q hq, hreports q hq⟩⟩
  | tick _ session _ closed _ pushed =>
    refine .inr ⟨G, subset_rfl, hquiet session ?_, hsaid.subset (by rw [pushed]; exact fun x hx => hx)⟩
    rw [closed]
    exact id
  | other session _ closed _ _ pushed =>
    exact .inr ⟨G, subset_rfl, hquiet session closed, hsaid.others pushed⟩

theorem SendCause.report {h' : Host} {source : EngineId} {rs : ReportSegment}
    (hcause : h.SendCause c sid h' (.report source rs)) :
    ∃ seg now, Receives c seg now ∧ seg.session = sid ∧ seg.body = .report rs := by
  obtain ⟨-, -, seg, peer, now, hreceives, hsid, hbody, -⟩ := hcause
  refine ⟨seg, now, hreceives, hsid, ?_⟩
  cases hkind : seg.body <;> rw [hkind] at hbody <;> cases hbody
  rfl

/-- A sender that is handed reports on `G` only has no claims on anything else, and a session that completes
is of a block without a red part, or it was handed a report and `G` is all of the red part. -/
theorem claims_step {redLen : Nat} (hinv : h.Transmits sid) (hred : redLen < 2 ^ 64)
    (hreports : ∀ seg now rs, Receives c seg now → seg.session = sid → seg.body = .report rs →
      rs.ClaimsIn G ∧ ∀ s, h.engine.sendSessions[sid]? = some s → s.redLen = redLen)
    (hclaims : ∀ s, h.engine.sendSessions[sid]? = some s → s.ClaimsIn G) :
    (∀ s, (h.step c).engine.sendSessions[sid]? = some s → s.ClaimsIn G) ∧
      ∃ n, (h.step c).emitted = h.emitted ++ n ∧ (.transmissionSessionCompleted sid ∈ n →
        (∃ r, (h.step c).requests = h.requests ++ [r] ∧ r.session = sid ∧ r.transfer.redLen = 0 ∧
          ∃ now, c = .request r.peer r.transfer.clientService r.transfer.block 0 now) ∨
        (∃ seg now rs, Receives c seg now ∧ seg.session = sid ∧ seg.body = .report rs) ∧
          h.engine.sendSessions[sid]? ≠ none ∧ ∀ x, x < redLen → x ∈ G) := by
  cases sendChange hinv.owned c hinv.own with
  | @moved trigger p n cause move pushed emitted requests =>
    have htrigger : ∀ source rs, trigger = .report source rs → rs.ClaimsIn G ∧
        ∀ s, (h.engine.sendView sid).session = some s → s.redLen = redLen := by
      rintro source rs rfl
      obtain ⟨seg, now, hreceives, hsid, hbody⟩ := cause.report
      exact hreports seg now rs hreceives hsid hbody
    obtain ⟨hsession, hnotices⟩ := move.claimsIn hred htrigger hclaims
    refine ⟨hsession, n, emitted, fun hmem => ?_⟩
    rcases hnotices hmem with ⟨peer, t, rfl, hzero⟩ | ⟨⟨source, rs, rfl⟩, hopen, hall⟩
    · obtain ⟨-, -, -, now, hc⟩ := cause
      exact .inl ⟨⟨sid, peer, t⟩, requests, rfl, hzero, now, hzero ▸ hc⟩
    · obtain ⟨seg, now, hreceives, hsid, hbody⟩ := cause.report
      exact .inr ⟨⟨seg, now, rs, hreceives, hsid, hbody⟩, hopen, hall⟩
  | tick _ session _ _ emitted =>
    rw [session]
    exact ⟨hclaims, [], by simp [emitted], by simp⟩
  | other view _ _ emitted =>
    obtain ⟨n, hemitted, hn⟩ := emitted
    have hsession : (h.step c).engine.sendSessions[sid]? = h.engine.sendSessions[sid]? :=
      congrArg SendView.session view
    rw [hsession]
    exact ⟨hclaims, n, hemitted, fun hmem => absurd rfl (hn _ hmem)⟩

end Host

/-! ### Hosts on a channel -/

namespace World

variable {ι : Type} {w w' : World ι} {i : ι} {r : Request}

/-- The red part of the request was delivered by the host to which it was sent. -/
def Delivers (w : World ι) (i : ι) (r : Request) : Prop :=
  ∃ j, j ≠ i ∧ r.peer = (w j).engine.config.engineId ∧
    ∃ x ∈ (w j).emitted, x.session = r.session ∧ x.isDelivery = true

/-- Of the red part of request `r` of host `i` only `G` was received: that is what the host to which it
is sent has, all that the others report and all that `i` has claims on. -/
structure Short (i : ι) (r : Request) (G : Set Nat) (w : World ι) : Prop where
  gap : ∃ x, x < r.transfer.redLen ∧ x ∉ G
  peer : ∀ j, j ≠ i → r.peer = (w j).engine.config.engineId →
    ((w j).engine.recvView r.session).Lacks r.transfer G
  reports : ∀ j, j ≠ i → (w j).Says r.session (ReportsOnly G)
  claims : ∀ s, (w i).engine.sendSessions[r.session]? = some s → s.ClaimsIn G

/-- Of the red part of request `r` of host `i` only `G` was received: that is what the host to which it
is sent has, all that the others report and all that `i` has claims on, and `i` has not completed. -/
structure Lacks (i : ι) (r : Request) (G : Set Nat) (w : World ι) : Prop where
  gap : ∃ x, x < r.transfer.redLen ∧ x ∉ G
  peer : ∀ j, j ≠ i → r.peer = (w j).engine.config.engineId →
    ((w j).engine.recvView r.session).Lacks r.transfer G
  reports : ∀ j, j ≠ i → (w j).Says r.session (ReportsOnly G)
  claims : ∀ s, (w i).engine.sendSessions[r.session]? = some s → s.ClaimsIn G
  incomplete : .transmissionSessionCompleted r.session ∉ (w i).emitted

theorem Lacks.short {G : Set Nat} (h : Lacks i r G w) : Short i r G w :=
  ⟨h.gap, h.peer, h.reports, h.claims⟩

theorem Short.lacks {G : Set Nat} (h : Short i r G w)
    (hincomplete : .transmissionSessionCompleted r.session ∉ (w i).emitted) : Lacks i r G w :=
  ⟨h.gap, h.peer, h.reports, h.claims, hincomplete⟩

/-- Every request for the session of `r` is `r`. -/
def Only (r : Request) (w : World ι) : Prop :=
  ∀ j, ∀ r' ∈ (w j).requests, r'.session = r.session → r' = r

/-- At the start nothing was received. -/
theorem short_new {config : ι → EngineConfig} (hpos : 0 < r.transfer.redLen) :
    Short i r ∅ (new config) where
  gap := ⟨0, hpos, Set.notMem_empty 0⟩
  peer := fun j _ _ => by
    refine ⟨⟨0, hpos, Set.notMem_empty 0⟩, ?_, ?_, ?_, fun _ => .inl Set.notMem_empty, ?_⟩ <;>
      simp [new, Host.new, Engine.new, Engine.recvView]
  reports := by simp [Host.Says, new, Host.new, Host.pushed, Engine.new]
  claims := by simp [new, Host.new, Engine.new]

theorem lacks_new {config : ι → EngineConfig} (hpos : 0 < r.transfer.redLen) :
    Lacks i r ∅ (new config) :=
  (short_new hpos).lacks (by simp [new, Host.new, Host.emitted, Engine.new])

section Step

variable [DecidableEq ι] {G : Set Nat} {k : ι} {c : Call}

/-- The sender is called, and the reports that it is handed find it with the red part of `r`, if it has the
session. -/
theorem Short.sender (h : Short i r G w) (htransmits : (w i).Transmits r.session)
    (hvalid : r.transfer.Valid) (hbrings : w.Enabled false i c)
    (hreports : ∀ seg now rs, Host.Receives c seg now → seg.session = r.session →
      seg.body = .report rs → ∀ s, (w i).engine.sendSessions[r.session]? = some s →
        s.redLen = r.transfer.redLen) :
    Short i r G (Function.update w i ((w i).step c)) ∧
      ∃ n, ((w i).step c).emitted = (w i).emitted ++ n ∧
        (.transmissionSessionCompleted r.session ∈ n →
          ∃ r', ((w i).step c).requests = (w i).requests ++ [r'] ∧ r'.session = r.session ∧
            r'.transfer.redLen = 0 ∧
            ∃ now, c = .request r'.peer r'.transfer.clientService r'.transfer.block 0 now) := by
  have hclaims : ∀ seg now rs, Host.Receives c seg now → seg.session = r.session →
      seg.body = .report rs → rs.ClaimsIn G := by
    rintro seg now rs ⟨source, bytes, rfl, hparse⟩ hseg hbody
    obtain ⟨j, hj, x, hx, rfl, -⟩ := hbrings
    obtain ⟨-, hclaims⟩ := (h.reports j hj).parsed (fun _ hq => hq.1.1) hx hparse hseg
    exact hclaims rs hbody
  obtain ⟨hsession, n, hemitted, hcompletes⟩ := Host.claims_step htransmits
    (hvalid.red_le.trans_lt hvalid.lt)
    (fun seg now rs hreceives hseg hbody =>
      ⟨hclaims seg now rs hreceives hseg hbody, hreports seg now rs hreceives hseg hbody⟩) h.claims
  refine ⟨⟨h.gap, fun j hj => ?_, fun j hj => ?_, ?_⟩, n, hemitted, fun hmem => ?_⟩
  · rw [Function.update_of_ne hj]
    exact h.peer j hj
  · rw [Function.update_of_ne hj]
    exact h.reports j hj
  · rwa [Function.update_self]
  · refine (hcompletes hmem).resolve_right ?_
    rintro ⟨-, -, hall⟩
    obtain ⟨x, hx, hnot⟩ := h.gap
    exact hnot (hall x hx)

theorem Lacks.sender (h : Lacks i r G w) (hw : w.Faithful)
    (hsid : r.session.originator = (w i).engine.config.engineId) (hvalid : r.transfer.Valid)
    (hpos : 0 < r.transfer.redLen) (hbrings : w.Enabled false i c)
    (hrequests : ∀ r' ∈ ((w i).step c).requests, r'.session = r.session → r' = r) :
    Lacks i r G (Function.update w i ((w i).step c)) := by
  have htransmits := hw.transmits i r.session hsid
  obtain ⟨hshort, n, hemitted, hcompletes⟩ := h.short.sender htransmits hvalid hbrings
    fun seg now rs _ _ _ s hs => by
      obtain ⟨r', hr', hrsid, -, htransfer⟩ := htransmits.session s hs
      rw [hrequests r' ((Host.requests_prefix_step htransmits.owned c).subset hr') hrsid] at htransfer
      rw [htransfer]
      rfl
  refine hshort.lacks ?_
  rw [Function.update_self, hemitted]
  intro hmem
  obtain ⟨r', hnew, hrsid, hzero, -⟩ :=
    hcompletes ((List.mem_append.mp hmem).resolve_left h.incomplete)
  have hr' : r' ∈ ((w i).step c).requests := by rw [hnew]; exact List.mem_concat_self
  rw [hrequests r' hr' hrsid] at hzero
  omega

/-- The delivery stays, whatever becomes of the sender. -/
theorem Delivers.update {h : Host} (hdelivers : w.Delivers i r)
    (hconfig : h.engine.config = (w k).engine.config)
    (hkept : k ≠ i → ∀ x ∈ (w k).emitted, x ∈ h.emitted) :
    Delivers (Function.update w k h) i r := by
  obtain ⟨j, hj, hpeer, x, hx, hsid, hdelivery⟩ := hdelivers
  refine ⟨j, hj, ?_, x, ?_, hsid, hdelivery⟩
  · rwa [config_update_host hconfig]
  · by_cases hjk : j = k
    · subst hjk
      rw [Function.update_self]
      exact hkept hj x hx
    · rwa [Function.update_of_ne hjk]

theorem Delivers.step (hdelivers : w.Delivers i r) (hown : (w k).engine.Owned) :
    Delivers (Function.update w k ((w k).step c)) i r :=
  hdelivers.update (Host.config_step hown c) fun _ _ hx =>
    (Host.emitted_prefix_step hown c).subset hx

/-- Another host is called, with data of `r` only and only if it is the peer: it delivers the red part, or
more was received but not all. -/
theorem Short.receiver {R : Request → Prop} (h : Short i r G w)
    (hids : Function.Injective fun i => (w i).engine.config.engineId) (hk : k ≠ i)
    (hcollects : (w k).Collects R r.session) (hcut : Host.Cut R r.session c)
    (hR : ∀ r', R r' → r'.session = r.session → r' = r ∧ r.peer = (w k).engine.config.engineId)
    (hvalid : r.transfer.Valid)
    (hkept : r.session ∈ (w k).engine.cancelledSessions →
      r.session ∈ ((w k).step c).engine.cancelledSessions) :
    Delivers (Function.update w k ((w k).step c)) i r ∨
      ∃ G', Short i r G' (Function.update w k ((w k).step c)) := by
  have hconfig : ((w k).step c).engine.config = (w k).engine.config :=
    Host.config_step hcollects.owned c
  by_cases hpeer : r.peer = (w k).engine.config.engineId
  · rcases Host.lacks_step hcollects (h.reports k hk) (h.peer k hk hpeer) hcut
      (fun r' hr' heq => congrArg Request.transfer (hR r' hr' heq).1) hvalid hkept with
      ⟨x, hx, hdelivery⟩ | ⟨G', hG, hlacks, hsaid⟩
    · refine .inl ⟨k, hk, ?_, x, ?_, hdelivery⟩
      · rw [Function.update_self, hconfig]
        exact hpeer
      · rwa [Function.update_self]
    · refine .inr ⟨G', hlacks.gap, fun j hj heq => ?_, fun j hj => ?_, ?_⟩
      · by_cases hjk : j = k
        · subst hjk
          rwa [Function.update_self]
        · rw [Function.update_of_ne hjk] at heq
          exact absurd (hids (heq.symm.trans hpeer)) hjk
      · by_cases hjk : j = k
        · subst hjk
          rwa [Function.update_self]
        · rw [Function.update_of_ne hjk]
          exact (h.reports j hj).mono fun _ hq => hq.mono hG
      · rw [Function.update_of_ne hk.symm]
        exact fun s hs x hx => hG (h.claims s hs x hx)
  · -- the host is not the peer of the request
    have hsaid := Host.reportsOnly_step hcollects (h.reports k hk) hcut
      fun r' hr' heq => hpeer (hR r' hr' heq).2
    refine .inr ⟨G, h.gap, fun j hj heq => ?_, fun j hj => ?_, ?_⟩
    · by_cases hjk : j = k
      · subst hjk
        rw [Function.update_self, hconfig] at heq
        exact absurd heq hpeer
      · rw [Function.update_of_ne hjk] at heq ⊢
        exact h.peer j hj heq
    · by_cases hjk : j = k
      · subst hjk
        rwa [Function.update_self]
      · rw [Function.update_of_ne hjk]
        exact h.reports j hj
    · rw [Function.update_of_ne hk.symm]
      exact h.claims

theorem Lacks.receiver (h : Lacks i r G w) (hw : w.Faithful) (hk : k ≠ i)
    (hsid : r.session.originator = (w i).engine.config.engineId) (hvalid : r.transfer.Valid)
    (henabled : w.Enabled false k c) (honly : w.Only r)
    (hkept : r.session ∈ (w k).engine.cancelledSessions →
      r.session ∈ ((w k).step c).engine.cancelledSessions) :
    Delivers (Function.update w k ((w k).step c)) i r ∨
      ∃ G', Lacks i r G' (Function.update w k ((w k).step c)) := by
  have hforeign : r.session.originator ≠ (w k).engine.config.engineId := by
    rw [hsid]
    exact fun heq => hk (hw.ids heq).symm
  have hfor : ∀ r', w.For k r' → r'.session = r.session →
      r' = r ∧ r.peer = (w k).engine.config.engineId := by
    rintro r' ⟨hpeer, j, hr'⟩ heq
    have hsame := honly j r' hr' heq
    exact ⟨hsame, hsame ▸ hpeer⟩
  refine (h.short.receiver hw.ids hk (hw.collects k r.session hforeign)
    (hw.cut henabled r.session) hfor hvalid hkept).imp_right ?_
  rintro ⟨G', hshort⟩
  refine ⟨G', hshort.lacks ?_⟩
  rw [Function.update_of_ne hk.symm]
  exact h.incomplete

end Step

/-! ### Runs -/

variable [Fintype ι] [DecidableEq ι]

/-- All sessions that the hosts other than `i` hold as cancelled after the event are among these. -/
def Records (i : ι) (cancelled : ι → Finset SessionId) (w : World ι) (e : ι × Event) : Prop :=
  ∀ j, j ≠ i → ∀ t ∈ (w.step false e j).engine.cancelledSessions, t ∈ cancelled j

instance (i : ι) (cancelled : ι → Finset SessionId) (w : World ι) (e : ι × Event) :
    Decidable (w.Records i cancelled e) :=
  inferInstanceAs (Decidable (∀ j, j ≠ i →
    ∀ t ∈ (w.step false e j).engine.cancelledSessions.queue, t ∈ cancelled j))

/-- The red part of `r` was delivered, or its sender has not completed. -/
structure Settled (i : ι) (r : Request) (cancelled : ι → Finset SessionId) (w : World ι) : Prop where
  faithful : w.Faithful
  own : r.session.originator = (w i).engine.config.engineId
  cancelled : ∀ j, j ≠ i → ∀ t ∈ (w j).engine.cancelledSessions, t ∈ cancelled j
  outcome : w.Delivers i r ∨ ∃ G, w.Lacks i r G

theorem only_of_step (hw : w.Owned) {e : ι × Event} (h : Only r (w.step false e)) : w.Only r :=
  fun j r' hr' => h j r' ((requests_prefix_step hw e j).subset hr')

theorem Settled.step {cancelled : ι → Finset SessionId} (h : w.Settled i r cancelled)
    (hvalid : r.transfer.Valid) (hpos : 0 < r.transfer.redLen)
    (hcard : ∀ j, j ≠ i → (cancelled j).card ≤ 1024) (k : ι) (c : Call) (hdistinct : w.Distinct)
    (honly : Only r (w.step false (k, .call c))) (hrec : w.Records i cancelled (k, .call c)) :
    (w.step false (k, .call c)).Settled i r cancelled := by
  have hw := h.faithful
  have hfaithful := hw.step hdistinct (k, .call c)
  by_cases henabled : w.Enabled false k c
  swap
  · have hstay : w.step false (k, .call c) = w := if_neg henabled
    rw [hstay]
    exact h
  have hown : w.Owned := hw.owned
  have hbefore := only_of_step hown honly
  unfold Records at hrec
  rw [step_call henabled] at hfaithful honly hrec ⊢
  refine ⟨hfaithful, ?_, hrec, ?_⟩
  · rw [h.own]
    by_cases hik : i = k
    · subst hik
      rw [Function.update_self, Host.config_step (hw.owned i)]
    · rw [Function.update_of_ne hik]
  rcases h.outcome with hdelivers | ⟨G, hlacks⟩
  · exact .inl (hdelivers.step (hw.owned k))
  by_cases hki : k = i
  · subst hki
    refine .inr ⟨G, hlacks.sender hw h.own hvalid hpos henabled fun r' hr' heq => ?_⟩
    refine honly k r' ?_ heq
    rwa [Function.update_self]
  · refine hlacks.receiver hw hki h.own hvalid henabled hbefore fun hmem => ?_
    have hnew := hrec k hki
    rw [Function.update_self] at hnew
    exact Host.mem_cache_step r.session (Host.caches_step (hw.owned k) c).2 (hcard k hki)
      (h.cancelled k hki) hnew hmem

theorem config_run (hw : w.Owned) (events : List (ι × Event)) (j : ι) :
    (run false w events j).engine.config = (w j).engine.config := by
  induction events generalizing w with
  | nil => rfl
  | cons e events ih =>
    refine (ih (hw.step e)).trans ?_
    exact w.step_at (P := fun h h' => h'.engine.config = h.engine.config) (fun _ => rfl)
      (fun _ c h => Host.config_step h c) (fun _ => rfl) hw e j

/-- If `r` is the only request for its session in the end, it is so after each event. -/
theorem along_only (hw : w.Owned) {events : List (ι × Event)} (h : Only r (run false w events)) :
    Along (step false) (fun w e => Only r (w.step false e)) w events := by
  induction events generalizing w with
  | nil => trivial
  | cons e events ih =>
    refine ⟨fun j r' hr' => h j r' ?_, ih (hw.step e) h⟩
    exact (requests_prefix_run (hw.step e) events j).subset hr'

end World

open World in
/-- In every run of engines with distinct identifiers, of which each opens fewer than 2 ^ 64 sessions and
the receivers record at most 1024 as cancelled: when the sender of a block with a red part completes,
its peer has delivered the red part. -/
theorem no_false_completion {ι : Type} [Fintype ι] [DecidableEq ι] {config : ι → EngineConfig}
    (hids : Function.Injective fun i => (config i).engineId) {l : List (ι × Call)}
    (hsessions : ∀ i, (run false (new config) (calls l) i).requests.length < 2 ^ 64) {i : ι}
    {cancelled : ι → Finset SessionId} (hcard : ∀ j, j ≠ i → (cancelled j).card ≤ 1024)
    (hrec : Along (step false) (Records i cancelled) (new config) (calls l)) {r : Request}
    (hr : r ∈ (run false (new config) (calls l) i).requests) (hpos : 0 < r.transfer.redLen)
    (hcompleted : .transmissionSessionCompleted r.session ∈
      (run false (new config) (calls l) i).emitted) :
    (run false (new config) (calls l)).Delivers i r := by
  have hdistinct : Distinct (run false (new config) (calls l)) := distinct_calls hsessions
  have hfinal := Faithful.run hids hdistinct
  have hvalid := hfinal.valid hr
  have honly : Only r (run false (new config) (calls l)) := fun j r' hr' heq =>
    hfinal.unique hdistinct hr' hr heq
  have hstart : Settled i r cancelled (new config) :=
    { faithful := faithful_new hids
      own := (hfinal.own i r hr).trans (congrArg EngineConfig.engineId
        (config_run (owned_new config) (calls l) i))
      cancelled := fun j _ t ht => absurd ht (RecentSet.not_mem_empty t)
      outcome := .inr ⟨∅, lacks_new hpos⟩ }
  have hcall : Along (step false) (fun (_ : World ι) e => ∃ c, e.2 = Event.call c) (new config)
      (calls l) := by
    refine along_of_forall_mem fun e he _ => ?_
    obtain ⟨⟨k, c⟩, -, rfl⟩ := List.mem_map.mp he
    exact ⟨c, rfl⟩
  have hsettled : Settled i r cancelled (run false (new config) (calls l)) := by
    refine Along.invariant ?_ ((along_distinct (owned_new config) hdistinct).and
      ((along_only (owned_new config) honly).and (hrec.and hcall))) hstart
    rintro w ⟨k, e⟩ h ⟨hd, ho, hrec, c, rfl⟩
    exact h.step hvalid hpos hcard k c hd ho hrec
  rcases hsettled.outcome with hdelivers | ⟨G, hlacks⟩
  · exact hdelivers
  · exact absurd hcompleted hlacks.incomplete

open World in
theorem no_false_completion_reported :
    .transmissionSessionCompleted ⟨⟨1⟩, 1⟩ ∈
      (run false (new twoEngines) (calls reported) 0).emitted ∧
    (run false (new twoEngines) (calls reported)).Delivers 0 ⟨⟨⟨1⟩, 1⟩, ⟨2⟩, 1, [7, 8, 9], 2⟩ := by
  have hrec : Along (step false) (Records 0 fun _ => ∅) (new twoEngines) (calls reported) := by
    decide +kernel
  exact ⟨by decide +kernel, no_false_completion (by decide) (by decide +kernel) (by decide) hrec
    (by decide +kernel) (by decide) (by decide +kernel)⟩

end HdyUtils.Ltp
