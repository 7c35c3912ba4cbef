import HdyUtils.Ltp.Completion

/-! The addressee of a session.  A segment does not say for whom it is, so on a shared channel every host
is handed the data of every session.  Where each host turns away the data of the sessions that are not
addressed to it, only the addressee delivers and reports, and what the originator has claims on is what
the addressee was handed. -/

namespace HdyUtils.Ltp

open Trace

/-! ### What the addressee was handed -/

/-- All that the session has received and reported is in `G`, and once it is closed `G` has all of the
red part of `t`. -/
structure RecvView.Backed (t : Transfer) (G : Set Nat) (v : RecvView) : Prop where
  received : ∀ s, v.session = some s → ∀ x ∈ s.redReceived, x ∈ G
  keeps : ∀ s, v.session = some s → s.Keeps (ReportSegment.ClaimsIn G)
  closed : v.closed → ∀ x, x < t.redLen → x ∈ G

theorem RecvView.Backed.mono {t : Transfer} {G G' : Set Nat} {v : RecvView} (h : v.Backed t G)
    (hG : G ⊆ G') : v.Backed t G' where
  received := fun s hs x hx => hG (h.received s hs x hx)
  keeps := fun s hs => (h.keeps s hs).claimsIn_mono hG
  closed := fun hclosed x hx => hG (h.closed hclosed x hx)

theorem DataSegKind.isRed_of_checkpoint {kind : DataSegKind} {cp : Checkpoint}
    (h : kind.checkpoint = some cp) : kind.isRed = true := by
  cases kind <;> first | rfl | cases h

def SegmentBody.isData : SegmentBody → Bool
  | .data _ => true
  | _ => false

/-- The octets of the red part that a data segment brings. -/
def DataSegment.redOctets (ds : DataSegment) : Set Nat :=
  {x | ds.kind.isRed ∧ ds.offset ≤ x ∧ x < ds.offset + ds.data.length}

section Receive

variable {config : EngineConfig} {sid : SessionId} {t : Transfer} {G : Set Nat} {source : EngineId}
  {ds : DataSegment} {now : Nat} {s s' : RecvSession} {reports : List ReportSegment}

theorem RecvView.Backed.admits {v : RecvView} (hv : v.Backed t G) (h : Admits sid source ds now v s) :
    ∀ x ∈ (s.touched now).redReceived, x ∈ G := by
  obtain ⟨-, -, ⟨hs, -⟩ | ⟨-, rfl⟩⟩ := h
  · exact hv.received s hs
  · exact fun x hx => absurd hx (RangeSet.not_mem_new x)

theorem Stores.received_subset (h : Stores config ds s s' reports) (hcut : ds.Cuts t) (ht : t.Valid)
    (hs : s.Holds t) (hreceived : ∀ x ∈ s.redReceived, x ∈ G) (hG : ds.redOctets ⊆ G) :
    ∀ x ∈ s'.redReceived, x ∈ G := by
  intro x hx
  rcases ((h.holds hcut ht hs).2 x).mp hx with hold | ⟨hle, hlt⟩
  · exact hreceived x hold
  · exact hG ⟨h.red, hle, hlt⟩

/-- Given data of `t` whose octets are in `G`, a session receives and reports octets of `G` only. -/
theorem RecvMove.backed {trigger : RecvTrigger} {v v' : RecvView} {p : List Push} {n : List Notice}
    (h : RecvMove config sid trigger v p n v') (ht : t.Valid)
    (hcut : ∀ source ds now, trigger = .data source ds now → ds.Cuts t)
    (hG : ∀ source ds now, trigger = .data source ds now → ds.redOctets ⊆ G)
    (hholds : ∀ s, v.session = some s → s.Holds t) (hv : v.Backed t G) :
    v'.Backed t G ∧ ∀ x ∈ p, ∀ rs, x.2 = .report rs → rs.ClaimsIn G := by
  obtain ⟨hreports, hkeeps⟩ := h.keeps (P := ReportSegment.ClaimsIn G)
    (by
      rintro source ds now cp rfl hclosed hcp x ⟨claim, hclaim, -, hlt⟩
      -- the session is closed, so all of the red part was handed over
      have hle := ((hcut source ds now rfl).red (DataSegKind.isRed_of_checkpoint hcp)).2
      rw [closedReport, List.mem_singleton] at hclaim
      subst hclaim
      simp only [closedReport, DataSegment.segEnd, satAdd] at hlt
      exact hv.closed hclosed x (by omega))
    (by
      rintro source ds now s s' reports rfl hadmits hstores r - hr x hx
      exact hstores.received_subset (hcut source ds now rfl) ht
        (hadmits.holds (hcut source ds now rfl) hholds) (hv.admits hadmits) (hG source ds now rfl) x
        (hr.claims_received hx))
    hv.keeps
  have hbacked : (∀ s, v'.session = some s → ∀ x ∈ s.redReceived, x ∈ G) →
      (v'.closed → v.closed) → v'.Backed t G := fun hreceived hclosed =>
    ⟨hreceived, hkeeps, fun h => hv.closed (hclosed h)⟩
  refine ⟨?_, hreports⟩
  cases h with
  | dataIgnored | dataReported | expiredIdle | ackIgnored => exact hbacked hv.received id
  | @dataCancelled source ds now v s s' reports reason armed hadmits hspoils =>
    refine hbacked ?_ id
    have hreceived := hv.admits hadmits
    rintro s₂ ⟨⟩
    cases hspoils with
    | untouched | green => exact hreceived
    | stored hstores =>
      have hds := hcut source ds now rfl
      exact hstores.received_subset hds ht (hadmits.holds hds hholds) hreceived
        (hG source ds now rfl)
  | @dataRefused source ds now v s s' armed hadmits _ hrefused =>
    refine hbacked ?_ id
    have hreceived := hv.admits hadmits
    obtain ⟨maxRedEnd, rfl⟩ := RecvSession.insertRed_refused hrefused
    rintro s₂ ⟨⟩
    exact hreceived
  | @dataStored source ds now v s s' reports armed hadmits hstores =>
    refine hbacked ?_ id
    have hds := hcut source ds now rfl
    have hreceived := hstores.received_subset hds ht (hadmits.holds hds hholds) (hv.admits hadmits)
      (hG source ds now rfl)
    rintro s₂ ⟨⟩
    rw [RecvSession.delivered_redReceived]
    exact hreceived
  | @dataGreen source ds now v s armed hadmits =>
    refine hbacked ?_ id
    have hreceived := hv.admits hadmits
    rintro s₂ ⟨⟩
    rw [RecvSession.delivered_redReceived]
    exact hreceived
  | @ackKept serial now s =>
    refine hbacked ?_ id
    rintro s₂ ⟨⟩
    rw [RecvSession.ackReport_redReceived]
    exact hv.received s rfl
  | @ackClosed serial now s armed closed cancelled hopen hsettled =>
    refine ⟨by simp, by simp, fun _ x hx => ?_⟩
    -- a settled session is complete, and its end is that of the red part
    simp only [RecvSession.settled, Bool.and_eq_true] at hsettled
    have hs := ((hholds s rfl).congr rfl rfl rfl rfl rfl rfl rfl : (s.touched now).Holds t).ackReport
      serial
    have hcomplete := hsettled.1.1
    unfold RecvSession.isRedComplete at hcomplete
    split at hcomplete
    · rename_i len hlen
      have hcovers := RangeSet.covers_iff.mp hcomplete x (Nat.zero_le x)
      rw [(hs.redPartLen len hlen).1, RecvSession.ackReport_redReceived] at hcovers
      exact hv.received s rfl x (hcovers hx)
    · cases hcomplete
  | @reportResent serial now s | @reportExhausted serial now s | @cancelResent now s
  | @inactivityRearmed now s =>
    refine hbacked ?_ id
    have hreceived := hv.received s rfl
    rintro s₂ ⟨⟩
    exact hreceived
  | cancelAbandoned | inactivityExpired | peerCancelled | peerCancelledAgain | cancelAcked =>
    exact hbacked (by simp) id

/-- A session that is not open and is given no data gives no notice, and sends no report and no
cancellation: all that it sends is an acknowledgment of its originator's cancellation. -/
theorem RecvMove.aloof {trigger : RecvTrigger} {v v' : RecvView} {p : List Push} {n : List Notice}
    (h : RecvMove config sid trigger v p n v') (hnone : v.session = none) (hclosed : ¬v.closed)
    (hdata : ∀ source ds now, trigger ≠ .data source ds now) :
    v'.session = none ∧ ¬v'.closed ∧ (∀ x ∈ p, x.2 = .cancelAckSender) ∧ n = [] := by
  cases h with
  | dataIgnored | dataReported | dataCancelled | dataRefused | dataStored | dataGreen =>
    exact absurd rfl (hdata _ _ _)
  | ackIgnored | expiredIdle => exact ⟨hnone, hclosed, by simp, rfl⟩
  | ackKept | ackClosed | reportResent | reportExhausted | cancelResent | cancelAbandoned
  | inactivityRearmed | inactivityExpired | peerCancelled => cases hnone
  | peerCancelledAgain | cancelAcked => exact ⟨rfl, hclosed, by simp, rfl⟩

end Receive

namespace Engine

/-- The engine drops the data of the session: it has recorded the session as cancelled, or has not opened
it and has no room to. -/
def TurnsAway (e : Engine) (sid : SessionId) : Prop :=
  sid ∉ e.closedRecvSessions ∧ (sid ∈ e.cancelledSessions ∨
    e.recvSessions[sid]? = none ∧ e.config.maxRecvSessions ≤ e.recvSessions.size)

instance (e : Engine) (sid : SessionId) : Decidable (e.TurnsAway sid) :=
  inferInstanceAs (Decidable (_ ∧ (_ ∨ _ ∧ _ ≤ _)))

theorem TurnsAway.handleIncomingData_eq {e : Engine} {sid : SessionId} (h : e.TurnsAway sid)
    (source : EngineId) (ds : DataSegment) (now : Nat) :
    e.handleIncomingData source sid ds now = e := by
  obtain ⟨hclosed, hcancelled | ⟨hnone, hfull⟩⟩ := h
  · simp [handleIncomingData, RecentSet.contains_iff, hclosed, hcancelled]
  · simp only [handleIncomingData, hnone, if_pos hfull]
    split
    · rename_i hcontains
      exact absurd (RecentSet.contains_iff.mp hcontains) hclosed
    · split <;> rfl

end Engine

namespace Host

variable {h : Host} {sid : SessionId} {c : Call}

/-- A call that hands over data which the engine drops does nothing. -/
theorem step_of_turnsAway {seg : Segment} {now : Nat} {ds : DataSegment}
    (hreceives : Receives c seg now) (hbody : seg.body = .data ds)
    (haway : h.engine.TurnsAway seg.session) : h.step c = h := by
  obtain ⟨source, bytes, rfl, hparse⟩ := hreceives
  have hsegment : h.engine.handleSegment source seg now = h.engine := by
    simp only [Engine.handleSegment, hbody]
    split
    · rfl
    · exact haway.handleIncomingData_eq _ ds now
  have hreceive : h.receive source bytes now = h := by
    simp [receive, Engine.handleIncomingSegment, hparse, hsegment]
  simp only [step, call, hreceive, ite_self]

/-- The host has had no data of the session: it has delivered none, and has neither reported on the session
nor cancelled it. -/
structure Aloof (h : Host) (sid : SessionId) : Prop where
  session : h.engine.recvSessions[sid]? = none
  unclosed : sid ∉ h.engine.closedRecvSessions
  queued : h.Says sid fun p => p.2 = .cancelAckSender
  tells : ∀ x ∈ h.emitted, x.session = sid → x.carriesData = false

/-- The host has done nothing yet. -/
structure Unused (h : Host) : Prop where
  send : ∀ sid : SessionId, h.engine.sendSessions[sid]? = none
  recv : ∀ sid : SessionId, h.engine.recvSessions[sid]? = none
  closed : ∀ sid, sid ∉ h.engine.closedRecvSessions
  pushed : h.pushed = []
  emitted : h.emitted = []
  requests : h.requests = []

theorem unused_new (config : EngineConfig) : (new config).Unused := by
  refine ⟨?_, ?_, fun sid => RecentSet.not_mem_empty sid, ?_, ?_, ?_⟩ <;>
    simp [new, Engine.new, Host.pushed, Host.emitted]

namespace Unused

theorem owned (hunused : h.Unused) : h.engine.Owned :=
  ⟨by simp [hunused.send], by simp [hunused.recv]⟩

theorem transmits (hunused : h.Unused) (hsid : sid.originator = h.engine.config.engineId) :
    h.Transmits sid where
  owned := hunused.owned
  own := hsid
  session := by simp [hunused.send]
  queued := by simp [Says, hunused.pushed]
  valid := by simp [hunused.requests]
  tells := by simp [hunused.emitted]

theorem collects {R : Request → Prop} (hunused : h.Unused)
    (hsid : sid.originator ≠ h.engine.config.engineId) : h.Collects R sid where
  owned := hunused.owned
  foreign := hsid
  session := by simp [hunused.recv]
  keeps := by simp [hunused.recv]
  queued := by simp [Says, hunused.pushed]
  tells := by simp [hunused.emitted]

theorem aloof (hunused : h.Unused) (sid : SessionId) : h.Aloof sid where
  session := hunused.recv sid
  unclosed := hunused.closed sid
  queued := by simp [Says, hunused.pushed]
  tells := by simp [hunused.emitted]

end Unused

theorem Aloof.step (haloof : h.Aloof sid) (hown : h.engine.Owned)
    (hforeign : sid.originator ≠ h.engine.config.engineId)
    (hdata : ∀ seg now ds, Receives c seg now → seg.session = sid → seg.body ≠ .data ds) :
    (h.step c).Aloof sid := by
  cases recvChange hown c hforeign with
  | @moved trigger p n cause move pushed emitted =>
    have hcause : ∀ source ds now, trigger ≠ .data source ds now := by
      rintro source ds now rfl
      obtain ⟨seg, now', hreceives, hsid, hbody⟩ := cause.data
      exact hdata seg now' ds hreceives hsid hbody
    obtain ⟨hsession, hclosed, hpushes, rfl⟩ := move.aloof haloof.session haloof.unclosed hcause
    refine ⟨hsession, hclosed, haloof.queued.own pushed hpushes, ?_⟩
    rw [emitted, List.append_nil]
    exact haloof.tells
  | tick _ session _ closed _ pushed emitted =>
    refine ⟨by rw [session]; exact haloof.session, by rw [closed]; exact haloof.unclosed,
      haloof.queued.subset (by rw [pushed]; exact fun x hx => hx), ?_⟩
    rw [emitted]
    exact haloof.tells
  | other session _ closed _ _ pushed emitted =>
    obtain ⟨n, hemitted, hn⟩ := emitted
    refine ⟨by rw [session]; exact haloof.session, fun hmem => haloof.unclosed (closed hmem),
      haloof.queued.others pushed, fun x hx hsid => ?_⟩
    rw [hemitted] at hx
    rcases List.mem_append.mp hx with hx | hx
    · exact haloof.tells x hx hsid
    · exact absurd hsid (hn x hx)

/-- A host that is given octets of `G` reports no others. -/
theorem backed_step {R : Request → Prop} {t : Transfer} {G : Set Nat} (hinv : h.Collects R sid)
    (hsaid : h.Says sid (ReportsOnly G)) (hbacked : (h.engine.recvView sid).Backed t G)
    (hcut : Cut R sid c) (hR : ∀ r, R r → r.session = sid → r.transfer = t) (ht : t.Valid)
    (hG : ∀ seg now ds, Receives c seg now → seg.session = sid → seg.body = .data ds →
      ds.redOctets ⊆ G) :
    ((h.step c).engine.recvView sid).Backed t G ∧ (h.step c).Says sid (ReportsOnly G) := by
  -- A call that does not move the session.
  have hquiet : (h.step c).engine.recvSessions[sid]? = h.engine.recvSessions[sid]? →
      (sid ∈ (h.step c).engine.closedRecvSessions → sid ∈ h.engine.closedRecvSessions) →
      ((h.step c).engine.recvView sid).Backed t G := by
    intro hsession hclosed
    have hview : ((h.step c).engine.recvView sid).session = (h.engine.recvView sid).session :=
      hsession
    refine ⟨?_, ?_, fun hc => hbacked.closed (hclosed hc)⟩
    · rw [hview]
      exact hbacked.received
    · rw [hview]
      exact hbacked.keeps
  cases recvChange hinv.owned c hinv.foreign with
  | @moved trigger p n cause move pushed emitted =>
    have hdata : ∀ source ds now, trigger = .data source ds now → ds.Cuts t := by
      intro source ds now htrigger
      obtain ⟨r, hr, hrsid, hcuts⟩ := cause.cut hcut htrigger
      rwa [hR r hr hrsid] at hcuts
    have hoctets : ∀ source ds now, trigger = .data source ds now → ds.redOctets ⊆ G := by
      rintro source ds now rfl
      obtain ⟨seg, now', hreceives, hsid, hbody⟩ := cause.data
      exact hG seg now' ds hreceives hsid hbody
    have hholds : ∀ s, (h.engine.recvView sid).session = some s → s.Holds t := by
      intro s hs
      obtain ⟨r, hr, hrsid, hholds⟩ := hinv.session s hs
      rwa [hR r hr hrsid] at hholds
    have hbounded := (move.fromReceiver hinv.keeps).1
    obtain ⟨hview, hreports⟩ := move.backed ht hdata hoctets hholds hbacked
    exact ⟨hview, hsaid.own pushed fun q hq => ⟨hbounded q hq, hreports q hq⟩⟩
  | tick _ session _ closed _ pushed =>
    refine ⟨hquiet session ?_, hsaid.subset (by rw [pushed]; exact fun x hx => hx)⟩
    rw [closed]
    exact id
  | other session _ closed _ _ pushed =>
    exact ⟨hquiet session closed, hsaid.others pushed⟩

end Host

/-! ### Hosts on a shared channel -/

namespace World

variable {ι : Type} {w : World ι} {i k : ι} {r : Request} {c : Call} {got : ι → Set Nat}

/-- Every segment that the call hands over has the session and the body of one that another host has
polled. -/
def Carries (w : World ι) (i : ι) (c : Call) : Prop :=
  ∀ seg now, Host.Receives c seg now → ∃ j, j ≠ i ∧ ∃ x ∈ (w j).sent, ∃ sent n,
    Segment.parse x.2 = .ok (sent, n) ∧ sent.session = seg.session ∧ sent.body = seg.body

/-- The session was requested for host `i`. -/
def Addressed (w : World ι) (i : ι) (sid : SessionId) : Prop :=
  ∃ j, ∃ r ∈ (w j).requests, r.session = sid ∧ r.peer = (w i).engine.config.engineId

/-- Host `i` turns away the data of a session of another host that is not addressed to it. -/
def Heeds (w : World ι) (i : ι) (c : Call) : Prop :=
  ∀ seg now ds, Host.Receives c seg now → seg.body = .data ds →
    seg.session.originator ≠ (w i).engine.config.engineId → ¬w.Addressed i seg.session →
    (w i).engine.TurnsAway seg.session

/-- What the host to which `r` is addressed has got. -/
def Had (w : World ι) (i : ι) (r : Request) (got : ι → Set Nat) : Set Nat :=
  {x | ∃ j, j ≠ i ∧ r.peer = (w j).engine.config.engineId ∧ x ∈ got j}

/-- A host takes up only data that is cut from a request to it, or the call does nothing. -/
theorem Faithful.heeds (hw : w.Faithful) (hdistinct : w.Distinct) (hcarries : w.Carries k c)
    (hheeds : w.Heeds k c) : (w k).step c = w k ∨
      ∀ sid, sid.originator ≠ (w k).engine.config.engineId → Host.Cut (w.For k) sid c := by
  by_cases hall : ∀ seg now ds, Host.Receives c seg now → seg.body = .data ds →
      seg.session.originator ≠ (w k).engine.config.engineId → w.Addressed k seg.session
  · refine .inr fun sid hforeign seg now ds hreceives hsid hbody => ?_
    subst hsid
    obtain ⟨i, r, hr, hrsid, hpeer⟩ := hall seg now ds hreceives hbody hforeign
    obtain ⟨j, -, x, hx, sent, n, hparse, hsession, hsame⟩ := hcarries seg now hreceives
    obtain ⟨r', hr', hrsid', hcuts, -⟩ := hw.faithfulTo.sent hx hparse (hsame.trans hbody)
    -- the session was requested once
    have heq : r' = r := hw.unique hdistinct hr' hr (hrsid'.trans (hsession.trans hrsid.symm))
    exact ⟨r, ⟨hpeer, i, hr⟩, hrsid, heq ▸ hcuts⟩
  · push Not at hall
    obtain ⟨seg, now, ds, hreceives, hbody, hforeign, hnot⟩ := hall
    exact .inl (Host.step_of_turnsAway hreceives hbody
      (hheeds seg now ds hreceives hbody hforeign hnot))

/-- Request `r` of host `i` rests on its addressee: the others are aloof, the addressee has received and
reported only what it got, and the originator has claims on nothing else. -/
structure Rests (i : ι) (r : Request) (got : ι → Set Nat) (w : World ι) : Prop where
  faithful : w.Faithful
  own : r.session.originator = (w i).engine.config.engineId
  aloof : ∀ j, j ≠ i → r.peer ≠ (w j).engine.config.engineId → (w j).Aloof r.session
  backed : ∀ j, j ≠ i → r.peer = (w j).engine.config.engineId →
    ((w j).engine.recvView r.session).Backed r.transfer (got j) ∧
      (w j).Says r.session (ReportsOnly (got j))
  claims : 0 < r.transfer.redLen → ∀ s, (w i).engine.sendSessions[r.session]? = some s →
    s.ClaimsIn (w.Had i r got)
  completed : 0 < r.transfer.redLen →
    .transmissionSessionCompleted r.session ∈ (w i).emitted →
      ∀ x, x < r.transfer.redLen → x ∈ w.Had i r got

/-- Hosts that have done nothing yet. -/
theorem rests_unused (hids : Function.Injective fun i => (w i).engine.config.engineId)
    (hunused : ∀ j, (w j).Unused) (hown : r.session.originator = (w i).engine.config.engineId) :
    Rests i r got w where
  faithful :=
    { ids := hids
      own := by simp [(hunused _).requests]
      transmits := fun j _ hsid => (hunused j).transmits hsid
      collects := fun j _ hsid => (hunused j).collects hsid }
  own := hown
  aloof := fun j _ _ => (hunused j).aloof r.session
  backed := fun j _ _ => by
    refine ⟨⟨by simp [(hunused j).recv], by simp [(hunused j).recv], fun hclosed => ?_⟩, ?_⟩
    · exact absurd hclosed ((hunused j).closed r.session)
    · simp [Host.Says, (hunused j).pushed]
  claims := by simp [(hunused i).send]
  completed := by simp [(hunused i).emitted]

section Step

variable [DecidableEq ι]

theorem config_update (hw : w.Faithful) (k : ι) (c : Call) (j : ι) :
    (Function.update w k ((w k).step c) j).engine.config = (w j).engine.config :=
  config_update_host (Host.config_step (hw.owned k) c) j

theorem Had.update (hw : w.Faithful) (k : ι) (c : Call) :
    Had (Function.update w k ((w k).step c)) i r got = w.Had i r got := by
  simp only [Had, config_update hw]

/-- The originator is called: the reports that it is handed are the addressee's. -/
theorem Rests.originator (h : Rests i r got w) (hfaithful : Faithful (Function.update w i ((w i).step c)))
    (honly : Only r (Function.update w i ((w i).step c))) (hvalid : r.transfer.Valid)
    (hcarries : w.Carries i c) : Rests i r got (Function.update w i ((w i).step c)) := by
  have hw := h.faithful
  have hreports : ∀ seg now rs, Host.Receives c seg now → seg.session = r.session →
      seg.body = .report rs → rs.ClaimsIn (w.Had i r got) := by
    intro seg now rs hreceives hsid hbody
    obtain ⟨j, hj, x, hx, sent, n, hparse, hsession, hsame⟩ := hcarries seg now hreceives
    have hreport := hsame.trans hbody
    by_cases hpeer : r.peer = (w j).engine.config.engineId
    · obtain ⟨-, hclaims⟩ := (h.backed j hj hpeer).2.parsed (fun _ hq => hq.1.1) hx hparse
        (hsession.trans hsid)
      exact fun y hy => ⟨j, hj, hpeer, hclaims rs hreport y hy⟩
    · have hack := (h.aloof j hj hpeer).queued.parsed (fun p hq => by rw [hq]; trivial) hx hparse
        (hsession.trans hsid)
      simp only [hreport, reduceCtorEq] at hack
  have htransmits := hw.transmits i r.session h.own
  have hsame : ∀ r' ∈ ((w i).step c).requests, r'.session = r.session → r' = r := fun r' hr' heq =>
    honly i r' (by rwa [Function.update_self]) heq
  have hlen : ∀ s, (w i).engine.sendSessions[r.session]? = some s → s.redLen = r.transfer.redLen := by
    intro s hs
    obtain ⟨r', hr', hrsid, -, htransfer⟩ := htransmits.session s hs
    rw [hsame r' ((Host.requests_prefix_step htransmits.owned c).subset hr') hrsid] at htransfer
    rw [htransfer]
    rfl
  have hstep := fun hpos => Host.claims_step htransmits (hvalid.red_le.trans_lt hvalid.lt)
    (fun seg now rs hreceives hsid hbody => ⟨hreports seg now rs hreceives hsid hbody, hlen⟩)
    (h.claims hpos)
  refine ⟨hfaithful, ?_, fun j hj hpeer => ?_, fun j hj hpeer => ?_, fun hpos => ?_,
    fun hpos hcompleted => ?_⟩
  · rw [config_update hw]
    exact h.own
  · rw [config_update hw] at hpeer
    rw [Function.update_of_ne hj]
    exact h.aloof j hj hpeer
  · rw [config_update hw] at hpeer
    rw [Function.update_of_ne hj]
    exact h.backed j hj hpeer
  · rw [Function.update_self, Had.update hw]
    exact (hstep hpos).1
  · rw [Function.update_self] at hcompleted
    rw [Had.update hw]
    obtain ⟨-, n, hemitted, hcompletes⟩ := hstep hpos
    rw [hemitted] at hcompleted
    rcases List.mem_append.mp hcompleted with hold | hnew
    · exact h.completed hpos hold
    · rcases hcompletes hnew with ⟨r', hrequests, hrsid, hzero, -⟩ | ⟨-, -, hall⟩
      · have hr' : r' ∈ ((w i).step c).requests := by rw [hrequests]; exact List.mem_concat_self
        rw [hsame r' hr' hrsid] at hzero
        omega
      · exact hall

/-- Another host is called, with data of requests to it only. -/
theorem Rests.other (h : Rests i r got w) (hfaithful : Faithful (Function.update w k ((w k).step c)))
    (honly : w.Only r) (hvalid : r.transfer.Valid) (hk : k ≠ i)
    (hcut : ∀ sid, sid.originator ≠ (w k).engine.config.engineId → Host.Cut (w.For k) sid c)
    (hgot : ∀ seg now ds, Host.Receives c seg now → seg.session = r.session → seg.body = .data ds →
      ds.redOctets ⊆ got k) : Rests i r got (Function.update w k ((w k).step c)) := by
  have hw := h.faithful
  have hforeign : r.session.originator ≠ (w k).engine.config.engineId := by
    rw [h.own]
    exact fun heq => hk (hw.ids heq).symm
  have hfor : ∀ r', w.For k r' → r'.session = r.session → r' = r := by
    rintro r' ⟨-, j, hr'⟩ heq
    exact honly j r' hr' heq
  refine ⟨hfaithful, ?_, fun j hj hpeer => ?_, fun j hj hpeer => ?_, ?_, ?_⟩
  · rw [config_update hw]
    exact h.own
  · rw [config_update hw] at hpeer
    by_cases hjk : j = k
    · subst hjk
      rw [Function.update_self]
      refine (h.aloof j hj hpeer).step (hw.owned j) hforeign fun seg now ds hreceives hsid hbody => ?_
      obtain ⟨r', hr', hrsid, -⟩ := hcut r.session hforeign seg now ds hreceives hsid hbody
      rw [← hfor r' hr' hrsid] at hpeer
      exact hpeer hr'.1
    · rw [Function.update_of_ne hjk]
      exact h.aloof j hj hpeer
  · rw [config_update hw] at hpeer
    by_cases hjk : j = k
    · subst hjk
      rw [Function.update_self]
      obtain ⟨hbacked, hsaid⟩ := h.backed j hj hpeer
      exact Host.backed_step (hw.collects j r.session hforeign) hsaid hbacked (hcut r.session hforeign)
        (fun r' hr' heq => congrArg Request.transfer (hfor r' hr' heq)) hvalid hgot
    · rw [Function.update_of_ne hjk]
      exact h.backed j hj hpeer
  · rw [Function.update_of_ne hk.symm, Had.update hw]
    exact h.claims
  · rw [Function.update_of_ne hk.symm, Had.update hw]
    exact h.completed

/-- A call by which each host heeds its addresses leaves the request to rest on its addressee. -/
theorem Rests.call (h : Rests i r got w) (hdistinct : w.Distinct)
    (honly : Only r (Function.update w k ((w k).step c))) (hvalid : r.transfer.Valid)
    (hcarries : w.Carries k c) (hheeds : w.Heeds k c)
    (hgot : ∀ seg now ds, Host.Receives c seg now → seg.session = r.session → seg.body = .data ds →
      ds.redOctets ⊆ got k) : Rests i r got (Function.update w k ((w k).step c)) := by
  rcases h.faithful.heeds hdistinct hcarries hheeds with hsame | hcut
  · rw [hsame, Function.update_eq_self]
    exact h
  have hfaithful := h.faithful.call hdistinct hcut
  by_cases hk : k = i
  · subst hk
    exact h.originator hfaithful honly hvalid hcarries
  · refine h.other hfaithful (fun j r' hr' heq => honly j r' ?_ heq) hvalid hk hcut hgot
    by_cases hj : j = k
    · subst hj
      rw [Function.update_self]
      exact (Host.requests_prefix_step (h.faithful.owned j) c).subset hr'
    · rwa [Function.update_of_ne hj]

/-- Calls of one host that hand over no segment. -/
theorem Rests.calls (h : Rests i r got w) {calls : List Call}
    (hnone : ∀ c ∈ calls, Host.received c = none)
    (hdistinct : Distinct (Function.update w k ((w k).run calls)))
    (honly : Only r (Function.update w k ((w k).run calls))) (hvalid : r.transfer.Valid) :
    Rests i r got (Function.update w k ((w k).run calls)) := by
  induction calls generalizing w with
  | nil =>
    rw [Host.run, run_nil, Function.update_eq_self]
    exact h
  | cons c calls ih =>
    have hquiet : ∀ seg now, ¬Host.Receives c seg now := fun seg now hreceives => by
      have hsome := hreceives.received_eq
      rw [hnone c List.mem_cons_self] at hsome
      cases hsome
    have hown := h.faithful.owned k
    have hlater : ∀ j, (Function.update w k ((w k).step c) j).requests <+:
        (Function.update w k ((w k).run (c :: calls)) j).requests := by
      intro j
      by_cases hj : j = k
      · subst hj
        rw [Function.update_self, Function.update_self]
        exact Host.requests_prefix_run (Host.owned_step hown c) calls
      · rw [Function.update_of_ne hj, Function.update_of_ne hj]
    have hbefore : w.Distinct := fun j => by
      refine (hdistinct j).sublist (List.Sublist.map _ (List.IsPrefix.sublist ?_))
      by_cases hj : j = k
      · subst hj
        rw [Function.update_self]
        exact Host.requests_prefix_run hown (c :: calls)
      · rw [Function.update_of_ne hj]
    have hrests := h.call hbefore (fun j r' hr' => honly j r' ((hlater j).subset hr')) hvalid
      (fun seg now hreceives => absurd hreceives (hquiet seg now))
      (fun seg now _ hreceives => absurd hreceives (hquiet seg now))
      (fun seg now _ hreceives => absurd hreceives (hquiet seg now))
    have hstep := ih hrests (fun c' hc' => hnone c' (List.mem_cons_of_mem c hc'))
    rw [Function.update_self, Function.update_idem] at hstep
    exact hstep hdistinct honly

end Step

end World

end HdyUtils.Ltp
