import HdyUtils.Ltp.Engine.Gathering
import HdyUtils.Ltp.Engine.KeptReports
import HdyUtils.Ltp.HostMove
import HdyUtils.Ltp.Segment.Canonical

/-! What hosts send on a session.  Its originator sends data cut from the request and addressed to
the peer; every other host sends no data. -/

namespace HdyUtils.Ltp

open Cursor

/-- The segment belongs to the session. -/
def isFor (sid : SessionId) (x : EngineId × Bytes) : Bool :=
  match Segment.peekSession x.2 with
  | .ok session => session == sid
  | .error _ => false

@[simp] theorem isFor_wire (sid t : SessionId) (p : Push) :
    isFor sid (Push.wire t p) = (t == sid) := by
  have hpeek : Segment.peekSession (Push.wire t p).2 = .ok t := by
    simp only [Segment.peekSession, Push.wire, Segment.encodeToVec, StateT.run_bind,
      run_parseTypeCode, run_parseSession, ok_bind]
    rfl
  rw [isFor, hpeek]

theorem isFor_of_parse {x : EngineId × Bytes} {seg : Segment} {n : Nat}
    (h : Segment.parse x.2 = .ok (seg, n)) : isFor seg.session x = true := by
  rw [isFor, peekSession_of_parse h]
  exact beq_self_eq_true seg.session

namespace Host

/-- All that the host has queued for the session has the property. -/
def Says (h : Host) (sid : SessionId) (Q : Push → Prop) : Prop :=
  ∀ x ∈ h.pushed, isFor sid x = true → ∃ p, x = Push.wire sid p ∧ Q p

namespace Says

variable {h h' : Host} {sid : SessionId} {Q Q' : Push → Prop}

theorem mono (hsaid : h.Says sid Q) (hQ : ∀ p, Q p → Q' p) : h.Says sid Q' := by
  intro x hx hfor
  obtain ⟨p, hp, hq⟩ := hsaid x hx hfor
  exact ⟨p, hp, hQ p hq⟩

/-- Segments of the session are queued. -/
theorem own (hsaid : h.Says sid Q) {p : List Push}
    (hpushed : h'.pushed = h.pushed ++ p.map (Push.wire sid)) (hp : ∀ q ∈ p, Q q) :
    h'.Says sid Q := by
  intro x hx hfor
  rw [hpushed] at hx
  rcases List.mem_append.mp hx with hx | hx
  · exact hsaid x hx hfor
  · obtain ⟨q, hq, rfl⟩ := List.mem_map.mp hx
    exact ⟨q, rfl, hp q hq⟩

/-- Segments of other sessions are queued. -/
theorem others (hsaid : h.Says sid Q)
    (hpushed : ∃ q, h'.pushed = h.pushed ++ q ∧ Others sid q) : h'.Says sid Q := by
  obtain ⟨q, hq, hothers⟩ := hpushed
  intro x hx hfor
  rw [hq] at hx
  rcases List.mem_append.mp hx with hx | hx
  · exact hsaid x hx hfor
  · obtain ⟨t, ht, p, rfl⟩ := hothers x hx
    rw [isFor_wire, beq_iff_eq] at hfor
    exact absurd hfor ht

theorem subset (hsaid : h.Says sid Q) (hpushed : ∀ x ∈ h'.pushed, x ∈ h.pushed) :
    h'.Says sid Q := fun x hx => hsaid x (hpushed x hx)

/-- Whoever parses a segment that was polled reads what was queued. -/
theorem parsed (hsaid : h.Says sid Q) (hbounded : ∀ p, Q p → p.2.Bounded) {x : EngineId × Bytes}
    (hx : x ∈ h.sent) {seg : Segment} {n : Nat} (hparse : Segment.parse x.2 = .ok (seg, n))
    (hsid : seg.session = sid) : Q (x.1, seg.body) := by
  subst hsid
  obtain ⟨p, rfl, hq⟩ := hsaid x (List.mem_append_left _ hx) (isFor_of_parse hparse)
  have hplain : (Segment.plain seg.session p.2).Bounded := Segment.bounded_plain (hbounded p hq)
  have hseg := (eq_of_parse_encodeToVec hplain hparse).1
  have hbody : seg.body = p.2 := congrArg Segment.body hseg
  rwa [hbody]

end Says

end Host

/-! ### The originator -/

/-- Whether the notice hands data to the client. -/
def Notice.carriesData : Notice → Bool
  | .redPartReceived .. | .greenSegmentArrived .. => true
  | .transmissionSessionCompleted _ | .transmissionSessionCancelled .. => false

/-- What the originator of a session may send on it: no report, and data only if it is cut from a
request for the session and addressed to its peer. -/
def FromRequest (requests : List Request) (sid : SessionId) (p : Push) : Prop :=
  p.2.Bounded ∧ (∀ rs, p.2 ≠ .report rs) ∧
    ∀ ds, p.2 = .data ds → ∃ r ∈ requests, r.session = sid ∧ r.peer = p.1 ∧ ds.Cuts r.transfer

/-- The send session transmits one of the requests. -/
def Requested (requests : List Request) (sid : SessionId) (s : SendSession) : Prop :=
  ∃ r ∈ requests, r.session = sid ∧ r.peer = s.peer ∧ r.transfer = s.transfer

section Send

variable {config : EngineConfig} {sid : SessionId} {requests : List Request}

theorem fromRequest_silent {dest : EngineId} {body : SegmentBody} (hdata : ∀ ds, body ≠ .data ds)
    (hreport : ∀ rs, body ≠ .report rs) : FromRequest requests sid (dest, body) := by
  refine ⟨?_, hreport, fun ds hds => absurd hds (hdata ds)⟩
  cases body with
  | data ds => exact absurd rfl (hdata ds)
  | report rs => exact absurd rfl (hreport rs)
  | reportAck | cancelSender | cancelAckSender | cancelReceiver | cancelAckReceiver => trivial

theorem fromRequest_cuts {r : Request} (hr : r ∈ requests) (hsid : r.session = sid)
    (hvalid : r.transfer.Valid) {ds : DataSegment} (hcuts : ds.Cuts r.transfer) :
    FromRequest requests sid (r.peer, .data ds) := by
  have hle := hcuts.le_block
  have hlt := hvalid.lt
  refine ⟨⟨by omega, by omega⟩, nofun, ?_⟩
  rintro ds' ⟨⟩
  exact ⟨r, hr, hsid, rfl, hcuts⟩

theorem fromRequest_carries {r : Request} (hr : r ∈ requests) (hsid : r.session = sid)
    (hvalid : r.transfer.Valid) {pushes : List Push} {spans : List Range}
    (h : List.Forall₂ (Push.Carries r.transfer r.peer) pushes spans) :
    ∀ p ∈ pushes, FromRequest requests sid p := by
  intro p hp
  obtain ⟨span, -, ds, rfl, hcuts, -⟩ := Lists.exists_right_of_mem h hp
  exact fromRequest_cuts hr hsid hvalid hcuts

theorem SendSession.Sound.valid {s : SendSession}
    (h : s.Sound sid config.maxBlockSize.toNat) : s.transfer.Valid :=
  ⟨h.red_le, lt_of_le_of_lt h.block_le config.maxBlockSize.toNat_lt⟩

/-- A send session goes on transmitting its request. -/
theorem SendMove.requested {trigger : SendTrigger} {v v' : SendView} {p : List Push}
    {n : List Notice} (h : SendMove config sid trigger v p n v')
    (hsound : ∀ s, v.session = some s → s.Sound sid config.maxBlockSize.toNat)
    (hpeer : ∀ source rs s, trigger = .report source rs → v.session = some s → source = s.peer)
    (hv : ∀ s, v.session = some s → Requested requests sid s) :
    (∀ s, v'.session = some s → Requested (requests ++ Host.requested sid trigger) sid s) ∧
      (∀ x ∈ p, FromRequest (requests ++ Host.requested sid trigger) sid x) ∧
      ∀ r ∈ Host.requested sid trigger, r.transfer.Valid := by
  have hmax := config.maxBlockSize.toNat_lt
  have hkeep : ∀ s, Requested requests sid s →
      Requested (requests ++ Host.requested sid trigger) sid s := by
    rintro s ⟨r, hr, hrest⟩
    exact ⟨r, List.mem_append_left _ hr, hrest⟩
  have hsilent : ∀ {dest : EngineId} {body : SegmentBody}, (∀ ds, body ≠ .data ds) →
      (∀ rs, body ≠ .report rs) →
      FromRequest (requests ++ Host.requested sid trigger) sid (dest, body) :=
    fun hdata hreport => fromRequest_silent hdata hreport
  cases h with
  | @openGreen peer t v pushes spans hred hsize hdata =>
    have hvalid : t.Valid := ⟨by omega, by omega⟩
    have hmem : ⟨sid, peer, t⟩ ∈ requests ++ Host.requested sid (.request peer t) :=
      List.mem_append_right _ (List.mem_singleton_self _)
    refine ⟨fun s hs => hkeep s (hv s hs), fromRequest_carries hmem rfl hvalid hdata, ?_⟩
    intro r hr
    rw [List.mem_singleton.mp hr]
    exact hvalid
  | @openRed t v pushes spans s armed hsound' htransfer _ _ _ _ hdata =>
    have hvalid : t.Valid := htransfer ▸ hsound'.valid
    have hmem : ⟨sid, s.peer, t⟩ ∈ requests ++ Host.requested sid (.request s.peer t) :=
      List.mem_append_right _ (List.mem_singleton_self _)
    refine ⟨?_, fromRequest_carries hmem rfl hvalid hdata, ?_⟩
    · rintro s' ⟨⟩
      exact ⟨_, hmem, rfl, rfl, htransfer.symm⟩
    · intro r hr
      rw [List.mem_singleton.mp hr]
      exact hvalid
  | reportIgnored =>
    refine ⟨fun s hs => hkeep s (hv s hs), ?_, by simp [Host.requested]⟩
    intro x hx
    rw [List.mem_singleton.mp hx]
    exact hsilent (by simp) (by simp)
  | @reportRepeated source rs now s =>
    refine ⟨?_, ?_, by simp [Host.requested]⟩
    · rintro s' ⟨⟩
      exact hkeep _ (hv s rfl)
    · intro x hx
      rw [List.mem_singleton.mp hx]
      exact hsilent (by simp) (by simp)
  | @reportAnswered source rs now s armed pushes spans s' armed' hanswer
  | @reportCompleted source rs now s armed pushes spans s' armed' hanswer =>
    obtain ⟨r, hr, hsid, hrpeer, htransfer⟩ := hv s rfl
    have hsource := hpeer source rs s rfl rfl
    have hpushes : ∀ x ∈ (source, SegmentBody.reportAck rs.reportSerial.val) :: pushes,
        FromRequest (requests ++ Host.requested sid (.report source rs)) sid x := by
      intro x hx
      rcases List.mem_cons.mp hx with rfl | hx
      · exact hsilent (by simp) (by simp)
      · have hdata := hanswer.data
        rw [hsource, ← hrpeer, ← htransfer] at hdata
        exact fromRequest_carries (List.mem_append_left _ hr) hsid (htransfer ▸ (hsound s rfl).valid)
          hdata x hx
    refine ⟨?_, hpushes, by simp [Host.requested]⟩
    rintro t ⟨⟩ <;>
      exact hkeep _ ⟨r, hr, hsid, hrpeer.trans hanswer.session.peer_eq.symm,
        htransfer.trans hanswer.session.transfer_eq.symm⟩
  | expiredIdle | inactivityRearmed =>
    exact ⟨fun s hs => hkeep s (hv s hs), by simp, by simp [Host.requested]⟩
  | @checkpointResent serial now s cp armed hcp =>
    obtain ⟨r, hr, hsid, hrpeer, htransfer⟩ := hv s rfl
    obtain ⟨-, hwithin⟩ := (hsound s rfl).records serial cp hcp
    have hcuts : ({ cp with retries := cp.retries + 1 }.segment s).Cuts r.transfer :=
      htransfer ▸ CheckpointRecord.Within.cuts { hwithin with } (hsound s rfl).red_le
    refine ⟨?_, ?_, by simp [Host.requested]⟩
    · rintro s' ⟨⟩
      exact hkeep _ (hv s rfl)
    · intro x hx
      rw [List.mem_singleton.mp hx, ← hrpeer]
      exact fromRequest_cuts (List.mem_append_left _ hr) hsid (htransfer ▸ (hsound s rfl).valid)
        hcuts
  | @checkpointExhausted serial now s | @cancelResent now s =>
    refine ⟨?_, ?_, by simp [Host.requested]⟩
    · rintro s' ⟨⟩
      exact hkeep _ (hv s rfl)
    · intro x hx
      rw [List.mem_singleton.mp hx]
      exact hsilent (by simp) (by simp)
  | inactivityExpired | peerCancelled | peerCancelledAgain =>
    refine ⟨by simp, ?_, by simp [Host.requested]⟩
    intro x hx
    rw [List.mem_singleton.mp hx]
    exact hsilent (by simp) (by simp)
  | cancelAbandoned | cancelAcked => exact ⟨by simp, by simp, by simp [Host.requested]⟩

theorem SendMove.tells_nothing {trigger : SendTrigger} {v v' : SendView} {p : List Push}
    {n : List Notice} (h : SendMove config sid trigger v p n v') :
    ∀ x ∈ n, x.carriesData = false := by
  cases h <;> simp [Notice.carriesData]

end Send

namespace Host

/-- What a host keeps, sends and tells of a session that it originates. -/
structure Transmits (sid : SessionId) (h : Host) : Prop where
  owned : h.engine.Owned
  own : sid.originator = h.engine.config.engineId
  session : ∀ s, h.engine.sendSessions[sid]? = some s → Ltp.Requested h.requests sid s
  queued : h.Says sid (FromRequest h.requests sid)
  valid : ∀ r ∈ h.requests, r.session = sid → r.transfer.Valid
  tells : ∀ x ∈ h.emitted, x.session = sid → x.carriesData = false

theorem FromRequest.append {requests : List Request} {sid : SessionId} {p : Push}
    (h : FromRequest requests sid p) (more : List Request) :
    FromRequest (requests ++ more) sid p := by
  obtain ⟨hbounded, hreport, hdata⟩ := h
  refine ⟨hbounded, hreport, fun ds hds => ?_⟩
  obtain ⟨r, hr, hrest⟩ := hdata ds hds
  exact ⟨r, List.mem_append_left _ hr, hrest⟩

theorem transmits_new {config : EngineConfig} {sid : SessionId}
    (hsid : sid.originator = config.engineId) : (new config).Transmits sid where
  owned := Engine.owned_new config
  own := hsid
  session := by simp [new, Engine.new]
  queued := by simp [Says, new, pushed, Engine.new]
  valid := by simp [new]
  tells := by simp [new, emitted, Engine.new]

theorem Transmits.step {h : Host} {sid : SessionId} (hinv : h.Transmits sid) (c : Call) :
    (h.step c).Transmits sid := by
  have hown := hinv.owned
  have hown' : sid.originator = (h.step c).engine.config.engineId := by
    rw [config_step hown]
    exact hinv.own
  cases sendChange hown c hinv.own with
  | @moved trigger p n cause move pushed emitted requests =>
    have hpeer : ∀ source rs s, trigger = .report source rs →
        (h.engine.sendView sid).session = some s → source = s.peer := by
      rintro source rs s rfl hs
      obtain ⟨-, -, segment, peer, now, -, -, htrigger, hpeer⟩ := cause
      have heq := hpeer s hs
      cases hbody : segment.body <;> rw [hbody] at htrigger <;> cases htrigger
      exact heq
    obtain ⟨hsession, hpushes, hvalid⟩ := move.requested (fun s hs => (hown.send sid s hs).2) hpeer
      hinv.session
    rw [← requests] at hsession hpushes
    refine ⟨owned_step hown c, hown', hsession, ?_, fun r hr hsid => ?_, fun x hx hsid => ?_⟩
    · refine Says.own (hinv.queued.mono fun q hq => ?_) pushed hpushes
      rw [requests]
      exact FromRequest.append hq _
    · rw [requests] at hr
      rcases List.mem_append.mp hr with hr | hr
      · exact hinv.valid r hr hsid
      · exact hvalid r hr
    · rw [emitted] at hx
      exact (List.mem_append.mp hx).elim (fun hx => hinv.tells x hx hsid) (move.tells_nothing x)
  | tick _ session _ pushed emitted requests =>
    refine ⟨owned_step hown c, hown', ?_, ?_, ?_, by rw [emitted]; exact hinv.tells⟩
    · rw [session, requests]
      exact hinv.session
    · rw [requests]
      exact hinv.queued.subset (by rw [pushed]; exact fun x hx => hx)
    · rw [requests]
      exact hinv.valid
  | other view _ pushed emitted requests =>
    obtain ⟨more, hrequests, hmore⟩ := requests
    obtain ⟨n, hemitted, hn⟩ := emitted
    have hview : (h.step c).engine.sendSessions[sid]? = h.engine.sendSessions[sid]? :=
      congrArg SendView.session view
    refine ⟨owned_step hown c, hown', fun s hs => ?_, ?_, fun r hr hsid => ?_, fun x hx hsid => ?_⟩
    · rw [hview] at hs
      obtain ⟨r, hr, hrest⟩ := hinv.session s hs
      exact ⟨r, by rw [hrequests]; exact List.mem_append_left _ hr, hrest⟩
    · refine Says.others (hinv.queued.mono fun q hq => ?_) pushed
      rw [hrequests]
      exact FromRequest.append hq more
    · rw [hrequests] at hr
      rcases List.mem_append.mp hr with hr | hr
      · exact hinv.valid r hr hsid
      · exact absurd hsid (hmore r hr)
    · rw [hemitted] at hx
      exact (List.mem_append.mp hx).elim (fun hx => hinv.tells x hx hsid)
        fun hx => absurd hsid (hn x hx)

end Host

/-! ### The other hosts -/

/-- What a host may send on a session of another host: no data. -/
def FromReceiver (p : Push) : Prop := p.2.Bounded ∧ ∀ ds, p.2 ≠ .data ds

section Receive

variable {config : EngineConfig} {sid : SessionId} {trigger : RecvTrigger} {v v' : RecvView}
  {p : List Push} {n : List Notice}

theorem RecvMove.no_data (h : RecvMove config sid trigger v p n v') :
    ∀ x ∈ p, ∀ ds, x.2 ≠ .data ds := by
  have hreports : ∀ (source : EngineId) (reports : List ReportSegment),
      ∀ x ∈ reportPushes source reports, ∀ ds, x.2 ≠ .data ds := by
    intro source reports x hx ds
    obtain ⟨r, -, rfl⟩ := List.mem_map.mp hx
    nofun
  cases h with
  | @dataCancelled source ds now v s s' reports =>
    intro x hx
    rcases List.mem_append.mp hx with hx | hx
    · exact hreports source reports x hx
    · rw [List.mem_singleton.mp hx]
      nofun
  | @dataStored source ds now v s s' reports => exact hreports source reports
  | _ => simp

/-- Only data is told of. -/
theorem RecvMove.data_of_tells (h : RecvMove config sid trigger v p n v') {x : Notice} (hx : x ∈ n)
    (hdata : x.carriesData = true) : ∃ source ds now, trigger = .data source ds now := by
  cases h with
  | dataIgnored | dataReported | dataCancelled | dataRefused | dataStored | dataGreen =>
    exact ⟨_, _, _, rfl⟩
  | reportExhausted | inactivityExpired | peerCancelled =>
    rw [List.mem_singleton.mp hx] at hdata
    cases hdata
  | _ => cases hx

theorem bounded_closedReport (ds : DataSegment) (cp : Checkpoint) : (closedReport ds cp).Bounded := by
  have hlt : ds.segEnd < 2 ^ 64 := satAdd_lt ds.offset ds.data.length
  refine ⟨hlt, by simp [closedReport], by simp [closedReport], fun claim hclaim => ?_⟩
  rw [List.mem_singleton.mp hclaim]
  exact ⟨Nat.two_pow_pos 64, hlt⟩

/-- A receive session sends no data, and its reports go out as they are. -/
theorem RecvMove.fromReceiver (h : RecvMove config sid trigger v p n v')
    (hv : ∀ s, v.session = some s → s.Keeps ReportSegment.Bounded) :
    (∀ x ∈ p, FromReceiver x) ∧ ∀ s, v'.session = some s → s.Keeps ReportSegment.Bounded := by
  obtain ⟨hreports, hkeeps⟩ := h.keeps (P := ReportSegment.Bounded)
    (fun source ds now cp _ _ _ => bounded_closedReport ds cp)
    (fun source ds now s s' reports _ _ _ r _ hr => hr.bounded (satAdd_lt ds.offset ds.data.length))
    hv
  refine ⟨fun x hx => ⟨?_, h.no_data x hx⟩, hkeeps⟩
  cases hbody : x.2 with
  | data ds => exact absurd hbody (h.no_data x hx ds)
  | report rs => exact hreports x hx rs hbody
  | reportAck | cancelSender | cancelAckSender | cancelReceiver | cancelAckReceiver => trivial

end Receive

namespace Host

/-- What a host keeps, sends and tells of a session of another host, when the data that it is given
is cut from the requests `R`. -/
structure Collects (R : Request → Prop) (sid : SessionId) (h : Host) : Prop where
  owned : h.engine.Owned
  foreign : sid.originator ≠ h.engine.config.engineId
  session : ∀ s, h.engine.recvSessions[sid]? = some s →
    ∃ r, R r ∧ r.session = sid ∧ s.Holds r.transfer
  keeps : ∀ s, h.engine.recvSessions[sid]? = some s → s.Keeps ReportSegment.Bounded
  queued : h.Says sid FromReceiver
  tells : ∀ x ∈ h.emitted, x.session = sid → x.carriesData = true →
    ∃ r, R r ∧ r.session = sid ∧ x.TellsOf r.transfer

theorem collects_new {config : EngineConfig} {R : Request → Prop} {sid : SessionId}
    (hsid : sid.originator ≠ config.engineId) : (new config).Collects R sid where
  owned := Engine.owned_new config
  foreign := hsid
  session := by simp [new, Engine.new]
  keeps := by simp [new, Engine.new]
  queued := by simp [Says, new, pushed, Engine.new]
  tells := by simp [new, emitted, Engine.new]

theorem Collects.mono {R R' : Request → Prop} {sid : SessionId} {h : Host} (hinv : h.Collects R sid)
    (hR : ∀ r, R r → R' r) : h.Collects R' sid :=
  { hinv with
    session := fun s hs => by
      obtain ⟨r, hr, hrest⟩ := hinv.session s hs
      exact ⟨r, hR r hr, hrest⟩
    tells := fun x hx hsid hdata => by
      obtain ⟨r, hr, hrest⟩ := hinv.tells x hx hsid hdata
      exact ⟨r, hR r hr, hrest⟩ }

/-- The call hands over data on the session only if it is cut from one of the requests `R`. -/
def Cut (R : Request → Prop) (sid : SessionId) (c : Call) : Prop :=
  ∀ seg now ds, Receives c seg now → seg.session = sid → seg.body = .data ds →
    ∃ r, R r ∧ r.session = sid ∧ ds.Cuts r.transfer

theorem RecvCause.data {sid : SessionId} {h h' : Host} {c : Call} {source : EngineId}
    {ds : DataSegment} {now : Nat} (hcause : h.RecvCause c sid h' (.data source ds now)) :
    ∃ seg now, Receives c seg now ∧ seg.session = sid ∧ seg.body = .data ds := by
  obtain ⟨-, -, seg, now', hreceives, hsid, hbody⟩ := hcause
  refine ⟨seg, now', hreceives, hsid, ?_⟩
  cases hkind : seg.body <;> rw [hkind] at hbody <;> cases hbody
  rfl

theorem RecvCause.cut {R : Request → Prop} {sid : SessionId} {h h' : Host} {c : Call}
    {trigger : RecvTrigger} (hcause : h.RecvCause c sid h' trigger) (hcut : Cut R sid c)
    {source : EngineId} {ds : DataSegment} {now : Nat} (htrigger : trigger = .data source ds now) :
    ∃ r, R r ∧ r.session = sid ∧ ds.Cuts r.transfer := by
  subst htrigger
  obtain ⟨seg, now', hreceives, hsid, hbody⟩ := hcause.data
  exact hcut seg now' ds hreceives hsid hbody

/-- A call keeps this up, given that the data comes from one valid request. -/
theorem Collects.step {R : Request → Prop} {sid : SessionId} {h : Host} (hinv : h.Collects R sid)
    {c : Call} (hcut : Cut R sid c)
    (hunique : ∀ r r', R r → R r' → r.session = sid → r'.session = sid → r = r')
    (hvalid : ∀ r, R r → r.session = sid → r.transfer.Valid) : (h.step c).Collects R sid := by
  have hown := hinv.owned
  have hforeign : sid.originator ≠ (h.step c).engine.config.engineId := by
    rw [config_step hown]
    exact hinv.foreign
  -- What a call leaves as it is, or adds for other sessions.
  have hquiet : (h.step c).engine.recvSessions[sid]? = h.engine.recvSessions[sid]? →
      (h.step c).Says sid FromReceiver →
      (∃ n, (h.step c).emitted = h.emitted ++ n ∧ ∀ x ∈ n, x.session ≠ sid) →
      (h.step c).Collects R sid := by
    rintro hsession hsaid ⟨n, hemitted, hn⟩
    refine ⟨owned_step hown c, hforeign, by rw [hsession]; exact hinv.session,
      by rw [hsession]; exact hinv.keeps, hsaid, fun x hx hsid hdata => ?_⟩
    rw [hemitted] at hx
    rcases List.mem_append.mp hx with hx | hx
    · exact hinv.tells x hx hsid hdata
    · exact absurd hsid (hn x hx)
  cases recvChange hown c hinv.foreign with
  | @moved trigger p n cause move pushed emitted =>
    obtain ⟨hpushes, hkeeps⟩ := move.fromReceiver hinv.keeps
    have hsaid : (h.step c).Says sid FromReceiver := hinv.queued.own pushed hpushes
    have htells : (∀ x ∈ n, x.carriesData = true → ∃ r, R r ∧ r.session = sid ∧
        x.TellsOf r.transfer) → ∀ x ∈ (h.step c).emitted, x.session = sid → x.carriesData = true →
          ∃ r, R r ∧ r.session = sid ∧ x.TellsOf r.transfer := by
      intro hn x hx hsid hdata
      rw [emitted] at hx
      rcases List.mem_append.mp hx with hx | hx
      · exact hinv.tells x hx hsid hdata
      · exact hn x hx hdata
    by_cases hdata : ∃ source ds now, trigger = .data source ds now
    · obtain ⟨source, ds, now, htrigger⟩ := hdata
      obtain ⟨r, hr, hrsid, hcuts⟩ := cause.cut hcut htrigger
      have hall : ∀ source ds now, trigger = .data source ds now → ds.Cuts r.transfer := by
        intro source' ds' now' heq
        rw [htrigger] at heq
        cases heq
        exact hcuts
      have hold : ∀ s, (h.engine.recvView sid).session = some s → s.Holds r.transfer := by
        intro s hs
        obtain ⟨r', hr', hrsid', hholds⟩ := hinv.session s hs
        rwa [hunique r r' hr hr' hrsid hrsid']
      obtain ⟨hholds, hn⟩ := move.holds (hvalid r hr hrsid) hall hold
      exact ⟨owned_step hown c, hforeign, fun s hs => ⟨r, hr, hrsid, hholds s hs⟩, hkeeps, hsaid,
        htells fun x hx _ => ⟨r, hr, hrsid, hn x hx⟩⟩
    · have hnone : ∀ x ∈ n, x.carriesData = true → ∃ r, R r ∧ r.session = sid ∧
          x.TellsOf r.transfer := fun x hx hcarries =>
        absurd (move.data_of_tells hx hcarries) hdata
      refine ⟨owned_step hown c, hforeign, fun s' hs' => ?_, hkeeps, hsaid, htells hnone⟩
      cases hs : (h.engine.recvView sid).session with
      | none =>
        have hsome : ((h.step c).engine.recvView sid).session ≠ none := by
          rw [Engine.recvView_session, hs']
          simp
        exact absurd (move.data_of_opens hs hsome) hdata
      | some s =>
        obtain ⟨r, hr, hrsid, hholds⟩ := hinv.session s hs
        have hall : ∀ source ds now, trigger = .data source ds now → ds.Cuts r.transfer :=
          fun source ds now heq => absurd ⟨source, ds, now, heq⟩ hdata
        have hold : ∀ s₁, (h.engine.recvView sid).session = some s₁ → s₁.Holds r.transfer := by
          intro s₁ hs₁
          rw [hs] at hs₁
          cases hs₁
          exact hholds
        exact ⟨r, hr, hrsid, (move.holds (hvalid r hr hrsid) hall hold).1 s' hs'⟩
  | tick _ session _ _ _ pushed emitted =>
    exact hquiet session (hinv.queued.subset (by rw [pushed]; exact fun x hx => hx))
      ⟨[], by simp [emitted], by simp⟩
  | other session _ _ _ _ pushed emitted =>
    exact hquiet session (hinv.queued.others pushed) emitted

end Host

end HdyUtils.Ltp
