import HdyUtils.Ltp.Numbering

/-! Terminal notices.  A send session that ends is announced, provided that only sessions being
cancelled have their cancellation acknowledged. -/

namespace HdyUtils.Ltp

open Trace

/-- The session is being cancelled. -/
def SendSession.Cancelling (s : SendSession) : Prop := s.cancelReason.isSome

/-- The session is being cancelled. -/
def RecvSession.Cancelling (s : RecvSession) : Prop := s.cancelReason.isSome

/-- The view shows a cancellation: of the session, or in its timers. -/
def SendView.Cancelling (v : SendView) : Prop :=
  (∃ s, v.session = some s ∧ s.Cancelling) ∨ .cancel true ∈ v.armed

/-- A cancellation is acknowledged only for a session that is being cancelled. -/
def SendTrigger.AcksCancelled (v : SendView) : SendTrigger → Prop
  | .cancelAck => ∀ s, v.session = some s → s.Cancelling
  | _ => True

/-- A move that starts a cancellation or ends a session comes with a terminal notice, unless the
session was being cancelled already. -/
theorem SendMove.announces {config : EngineConfig} {sid : SessionId} {trigger : SendTrigger}
    {v v' : SendView} {p : List Push} {n : List Notice} (h : SendMove config sid trigger v p n v')
    (hack : trigger.AcksCancelled v)
    (hend : v'.Cancelling ∨ v.session ≠ none ∧ v'.session = none) :
    (∃ x ∈ n, x.isTerminal) ∨ v.Cancelling ∨ ∃ now, trigger = .expired (.cancel true) now := by
  cases h with
  | openGreen | reportCompleted | checkpointExhausted | inactivityExpired | peerCancelled =>
    exact .inl ⟨_, List.mem_singleton_self _, rfl⟩
  | cancelResent | cancelAbandoned => exact .inr (.inr ⟨_, rfl⟩)
  | @openRed t v pushes spans s armed _ _ hopen _ _ _ _ _ hnew =>
    rcases hend with (⟨s', hs', hc⟩ | hc) | ⟨-, hnone⟩
    · cases hs'
      simp [SendSession.Cancelling, hopen] at hc
    · rcases hnew _ hc with h | h | ⟨_, h⟩
      · exact .inr (.inl (.inr h))
      · cases h
      · cases h
    · cases hnone
  | reportIgnored =>
    rcases hend with (hc | hc) | ⟨hsome, hnone⟩
    · exact .inr (.inl (.inl hc))
    · exact .inr (.inl (.inr hc.1))
    · exact absurd hnone hsome
  | @reportRepeated source rs now s armed armed' hopen _ _ hnew =>
    rcases hend with (⟨s', hs', hc⟩ | hc) | ⟨-, hnone⟩
    · cases hs'
      exact .inr (.inl (.inl ⟨s, rfl, hc⟩))
    · rcases hnew _ hc with h | h
      · exact .inr (.inl (.inr h))
      · cases h
    · cases hnone
  | @reportAnswered source rs now s armed pushes spans s' armed' hanswer =>
    rcases hend with (⟨s'', hs', hc⟩ | hc) | ⟨-, hnone⟩
    · cases hs'
      obtain ⟨_, _, rfl⟩ := hanswer.session
      exact .inr (.inl (.inl ⟨s, rfl, hc⟩))
    · rcases hanswer.armed_new _ hc with h | h | ⟨_, h⟩
      · exact .inr (.inl (.inr h))
      · cases h
      · cases h
    · cases hnone
  | expiredIdle =>
    rcases hend with hc | ⟨hsome, hnone⟩
    · exact .inr (.inl hc)
    · exact absurd hnone hsome
  | @checkpointResent serial now s cp armed =>
    rcases hend with (⟨s', hs', hc⟩ | hc) | ⟨-, hnone⟩
    · cases hs'
      exact .inr (.inl (.inl ⟨s, rfl, hc⟩))
    · rcases hc with h | h
      · cases h
      · exact .inr (.inl (.inr h))
    · cases hnone
  | inactivityRearmed _ _ hnew =>
    rcases hend with (hc | hc) | ⟨hsome, hnone⟩
    · exact .inr (.inl (.inl hc))
    · rcases hnew _ hc with h | h
      · exact .inr (.inl (.inr h))
      · cases h
    · exact absurd hnone hsome
  | peerCancelledAgain h =>
    rcases hend with (⟨s', hs', -⟩ | hc) | ⟨hsome, -⟩
    · cases hs'
    · exact absurd hc (Set.notMem_empty _)
    · obtain ⟨s, hs⟩ := Option.ne_none_iff_exists'.mp hsome
      exact .inr (.inl (.inl ⟨s, hs, h s hs⟩))
  | cancelAcked =>
    rcases hend with (⟨s', hs', -⟩ | hc) | ⟨hsome, -⟩
    · cases hs'
    · exact absurd hc (Set.notMem_empty _)
    · obtain ⟨s, hs⟩ := Option.ne_none_iff_exists'.mp hsome
      exact .inr (.inl (.inl ⟨s, hs, hack s hs⟩))

/-- Only a request opens a session, and notices are given only of sessions. -/
theorem SendMove.idle_of_none {config : EngineConfig} {sid : SessionId} {trigger : SendTrigger}
    {v v' : SendView} {p : List Push} {n : List Notice} (h : SendMove config sid trigger v p n v')
    (hnone : v.session = none) (hopens : Host.opens trigger = false) :
    v'.session = none ∧ n = [] := by
  cases h with
  | openGreen | openRed => cases hopens
  | reportRepeated | reportAnswered | reportCompleted | checkpointResent | checkpointExhausted
  | cancelResent | cancelAbandoned | inactivityRearmed | inactivityExpired | peerCancelled =>
    cases hnone
  | reportIgnored | expiredIdle => exact ⟨hnone, rfl⟩
  | peerCancelledAgain | cancelAcked => exact ⟨rfl, rfl⟩

/-- A session is kept from its request on, or complete at once. -/
theorem SendMove.kept_of_request {config : EngineConfig} {sid : SessionId} {peer : EngineId}
    {t : Transfer} {v v' : SendView} {p : List Push} {n : List Notice}
    (h : SendMove config sid (.request peer t) v p n v') :
    v'.session ≠ none ∨ .transmissionSessionCompleted sid ∈ n := by
  cases h with
  | openGreen => exact .inr (List.mem_singleton_self _)
  | openRed => exact .inl (Option.some_ne_none _)

namespace Host

/-- Nothing is there of a session of this engine that was never requested. -/
structure Requested (h : Host) : Prop where
  owned : h.engine.Owned
  own : ∀ r ∈ h.requests, r.session.originator = h.engine.config.engineId
  fresh : ∀ sid : SessionId, sid.originator = h.engine.config.engineId →
    sid ∉ h.requests.map Request.session →
    h.engine.sendSessions[sid]? = none ∧ ∀ x ∈ h.emitted, x.session ≠ sid

theorem requested_new (config : EngineConfig) : (new config).Requested where
  owned := Engine.owned_new config
  own := by simp [new]
  fresh := fun sid _ _ => ⟨by simp [new, Engine.new], by simp [new, emitted, Engine.new]⟩

theorem Requested.step {h : Host} (hinv : h.Requested) (c : Call) : (h.step c).Requested where
  owned := owned_step hinv.owned c
  own := by
    rw [config_step hinv.owned]
    cases steps_step hinv.owned c with
    | same _ _ _ _ hrequests | recv _ _ _ _ _ hrequests =>
      rw [hrequests]
      exact hinv.own
    | tick _ _ heq =>
      rw [heq]
      exact hinv.own
    | @send sid trigger p n hown _ _ _ _ hrequests =>
      intro r hr
      rw [hrequests] at hr
      rcases List.mem_append.mp hr with hr | hr
      · exact hinv.own r hr
      · cases trigger with
        | request peer t =>
          rw [List.mem_singleton.mp hr]
          exact hown
        | _ => cases hr
  fresh := fun sid hsid hfresh => by
    rw [config_step hinv.owned] at hsid
    have hkept : sid ∉ h.requests.map Request.session := fun hmem =>
      hfresh (((requests_prefix_step hinv.owned c).map Request.session).subset hmem)
    obtain ⟨hnone, hnotices⟩ := hinv.fresh sid hsid hkept
    cases sendChange hinv.owned c hsid with
    | @moved trigger p n cause move _ emitted requests =>
      have hopens : opens trigger = false := by
        cases trigger with
        | request peer t => exact absurd (by simp [requests, requested]) hfresh
        | _ => rfl
      obtain ⟨hnone', rfl⟩ := move.idle_of_none hnone hopens
      exact ⟨hnone', by rwa [emitted, List.append_nil]⟩
    | tick _ session _ _ emitted _ => exact ⟨session.trans hnone, by rwa [emitted]⟩
    | other view _ _ emitted _ =>
      obtain ⟨n, hemit, hn⟩ := emitted
      refine ⟨(congrArg SendView.session view).trans hnone, fun x hx => ?_⟩
      rw [hemit] at hx
      exact (List.mem_append.mp hx).elim (hnotices x) (hn x)

/-- A request for a session that was not requested before finds nothing of it. -/
theorem Requested.of_opens {h h' : Host} {sid : SessionId} {trigger : SendTrigger}
    (hinv : h.Requested) (hsid : sid.originator = h.engine.config.engineId)
    (hdistinct : (h'.requests.map Request.session).Nodup)
    (hrequests : h'.requests = h.requests ++ requested sid trigger) (hopens : opens trigger) :
    h.engine.sendSessions[sid]? = none ∧ ∀ x ∈ h.emitted, x.session ≠ sid := by
  refine hinv.fresh sid hsid ?_
  cases trigger with
  | request peer t =>
    rw [hrequests, requested, List.map_append, List.map_singleton] at hdistinct
    exact List.disjoint_singleton.mp (List.disjoint_of_nodup_append hdistinct)
  | _ => cases hopens

/-- A terminal notice of the session was given. -/
def Announced (h : Host) (sid : SessionId) : Prop :=
  ∃ x ∈ h.emitted, x.session = sid ∧ x.isTerminal

/-- Every cancellation of a send session was announced. -/
structure CancelsAnnounced (h : Host) : Prop where
  owned : h.engine.Owned
  view : ∀ sid, sid.originator = h.engine.config.engineId →
    (h.engine.sendView sid).Cancelling → h.Announced sid
  pending : ∀ sid, sid.originator = h.engine.config.engineId →
    ⟨sid, .cancel true⟩ ∈ h.pending → h.Announced sid

/-- The call does not acknowledge the cancellation of a send session that is not being cancelled. -/
def acksCancelled (h : Host) : Call → Bool
  | .segment _ bytes _ =>
    match Segment.parse bytes with
    | .ok (segment, _) =>
      match segment.body, h.engine.sendSessions[segment.session]? with
      | .cancelAckSender, some s => s.cancelReason.isSome
      | _, _ => true
    | .error _ => true
  | _ => true

theorem acksCancelled_trigger {h h' : Host} {c : Call} {sid : SessionId} {trigger : SendTrigger}
    (hok : h.acksCancelled c) (hcause : h.SendCause c sid h' trigger) :
    trigger.AcksCancelled (h.engine.sendView sid) := by
  cases trigger with
  | cancelAck =>
    obtain ⟨-, -, segment, peer, now, ⟨source, bytes, rfl, hparse⟩, rfl, htrigger, -⟩ := hcause
    intro s hs
    simp only [Engine.sendView] at hs
    cases hbody : segment.body <;> simp [SegmentBody.sendTrigger, hbody] at htrigger
    simpa [acksCancelled, SendSession.Cancelling, hparse, hbody, hs] using hok
  | _ => trivial

theorem announced_of_prefix {h h' : Host} {n : List Notice} (hemit : h'.emitted = h.emitted ++ n)
    {sid : SessionId} (ha : h.Announced sid) : h'.Announced sid := by
  obtain ⟨x, hx, hx'⟩ := ha
  exact ⟨x, by rw [hemit]; exact List.mem_append_left _ hx, hx'⟩

/-- What a call does to the announcements of one session. -/
theorem announced_step {h : Host} (hinv : h.CancelsAnnounced) {c : Call} (hok : h.acksCancelled c)
    {sid : SessionId} (hsid : sid.originator = h.engine.config.engineId) :
    ((h.step c).engine.sendView sid).Cancelling ∨ ⟨sid, .cancel true⟩ ∈ (h.step c).pending ∨
      h.engine.sendSessions[sid]? ≠ none ∧ (h.step c).engine.sendSessions[sid]? = none →
    (h.step c).Announced sid := by
  intro hend
  cases sendChange hinv.owned c hsid with
  | @moved trigger p n cause move _ emitted =>
    have hold : (h.engine.sendView sid).Cancelling ∨ (∃ now, trigger = .expired (.cancel true) now) ∨
        ⟨sid, .cancel true⟩ ∈ h.pending → (h.step c).Announced sid := by
      rintro (hc | ⟨now, rfl⟩ | hc)
      · exact announced_of_prefix emitted (hinv.view sid hsid hc)
      · exact announced_of_prefix emitted (hinv.pending sid hsid (by rw [cause.2.2]; simp))
      · exact announced_of_prefix emitted (hinv.pending sid hsid hc)
    have hmove : ((h.step c).engine.sendView sid).Cancelling ∨
        h.engine.sendSessions[sid]? ≠ none ∧ (h.step c).engine.sendSessions[sid]? = none →
        (h.step c).Announced sid := fun hend => by
      rcases move.announces (acksCancelled_trigger hok cause) hend with ⟨x, hx, ht⟩ | hc | hc
      · exact ⟨x, by rw [emitted]; exact List.mem_append_right _ hx, move.notices_session x hx, ht⟩
      · exact hold (.inl hc)
      · exact hold (.inr (.inl hc))
    rcases hend with hc | hc | hc
    · exact hmove (.inl hc)
    · refine hold (.inr (.inr ?_))
      cases trigger with
      | expired kind now =>
        rw [cause.2.2]
        exact List.mem_cons_of_mem _ hc
      | _ =>
        rw [cause.2.1] at hc
        simp at hc
    · exact hmove (.inr hc)
  | tick _ session armed _ emitted =>
    have hview : (h.engine.sendView sid).Cancelling → (h.step c).Announced sid := fun hc =>
      announced_of_prefix (by rw [emitted, List.append_nil]) (hinv.view sid hsid hc)
    rcases hend with (⟨s, hs, hc⟩ | hc) | hc | ⟨hsome, hnone⟩
    · exact hview (.inl ⟨s, session.symm.trans hs, hc⟩)
    · exact hview (.inr ((armed _).mpr (.inl hc)))
    · exact hview (.inr ((armed _).mpr (.inr hc)))
    · exact absurd (session.symm.trans hnone) hsome
  | other view pending _ emitted =>
    obtain ⟨n, hemit, -⟩ := emitted
    rcases hend with hc | hc | ⟨hsome, hnone⟩
    · rw [view] at hc
      exact announced_of_prefix hemit (hinv.view sid hsid hc)
    · exact announced_of_prefix hemit (hinv.pending sid hsid ((pending _).mp hc))
    · have hsession : (h.step c).engine.sendSessions[sid]? = h.engine.sendSessions[sid]? :=
        congrArg SendView.session view
      exact absurd (hsession.symm.trans hnone) hsome

theorem cancelsAnnounced_new (config : EngineConfig) : (new config).CancelsAnnounced where
  owned := Engine.owned_new config
  view := by
    rintro sid - (⟨s, hs, -⟩ | hc)
    · simp [new, Engine.new] at hs
    · simp [new] at hc
  pending := by simp [new]

theorem CancelsAnnounced.step {h : Host} (hinv : h.CancelsAnnounced) {c : Call}
    (hok : h.acksCancelled c) : (h.step c).CancelsAnnounced where
  owned := owned_step hinv.owned c
  view := fun sid hsid hc =>
    announced_step hinv hok (by rwa [config_step hinv.owned] at hsid) (.inl hc)
  pending := fun sid hsid hc =>
    announced_step hinv hok (by rwa [config_step hinv.owned] at hsid) (.inr (.inl hc))

/-- Notices are only added. -/
theorem emitted_prefix_step {h : Host} (hown : h.engine.Owned) (c : Call) :
    h.emitted <+: (h.step c).emitted := by
  cases steps_step hown c with
  | same _ _ hemitted => rw [hemitted]
  | tick _ _ heq =>
    rw [heq]
    exact List.prefix_refl _
  | send _ _ acts | recv _ _ acts => exact ⟨_, acts.emitted.symm⟩

/-- The engine has the session, or has announced its end. -/
def Keeps (sid : SessionId) (h : Host) : Prop :=
  h.engine.sendSessions[sid]? ≠ none ∨ h.Announced sid

theorem Keeps.step {h : Host} {sid : SessionId} (hkeeps : h.Keeps sid)
    (hinv : h.CancelsAnnounced) (hsid : sid.originator = h.engine.config.engineId) {c : Call}
    (hok : h.acksCancelled c) : (h.step c).Keeps sid := by
  rcases hkeeps with hsome | ⟨x, hx, hx'⟩
  · by_cases hnone : (h.step c).engine.sendSessions[sid]? = none
    · exact .inr (announced_step hinv hok hsid (.inr (.inr ⟨hsome, hnone⟩)))
    · exact .inl hnone
  · exact .inr ⟨x, (emitted_prefix_step hinv.owned c).subset hx, hx'⟩

/-- A host whose cancellations are announced and that keeps a session of its own. -/
structure KeepsOwn (h : Host) (sid : SessionId) : Prop where
  announced : h.CancelsAnnounced
  own : sid.originator = h.engine.config.engineId
  keeps : h.Keeps sid

theorem KeepsOwn.step {h : Host} {sid : SessionId} (hinv : h.KeepsOwn sid) {c : Call}
    (hok : h.acksCancelled c) : (h.step c).KeepsOwn sid where
  announced := hinv.announced.step hok
  own := by rw [config_step hinv.announced.owned, hinv.own]
  keeps := hinv.keeps.step hinv.announced hinv.own hok

/-- An accepted request, for a session that was not requested before. -/
theorem Requested.request {h : Host} (hinv : h.Requested) {peer : EngineId} {clientService : UInt64}
    {block : Bytes} {redLen now : Nat} {sid : SessionId} {e : Engine}
    (hreq : h.engine.requestTransmission peer clientService block redLen now = .ok (sid, e))
    (hdistinct : ((h.request peer clientService block redLen now).requests.map
      Request.session).Nodup) :
    (h.request peer clientService block redLen now).Keeps sid ∧
      sid ∈ (h.request peer clientService block redLen now).requests.map Request.session ∧
      sid ∉ h.requests.map Request.session ∧ ∀ x ∈ h.emitted, x.session ≠ sid := by
  have hhost : h.request peer clientService block redLen now = { h with
      engine := e
      requests := h.requests ++ [⟨sid, peer, ⟨clientService, block, redLen⟩⟩] } := by
    simp only [Host.request, hreq]
  obtain ⟨rfl, -, p, n, hmoves⟩ := Engine.movesSend_requestTransmission hreq
  rw [hhost] at hdistinct ⊢
  rw [List.map_append, List.map_singleton] at hdistinct
  have hnew := List.disjoint_singleton.mp (List.disjoint_of_nodup_append hdistinct)
  refine ⟨?_, by simp, hnew, (hinv.fresh _ rfl hnew).2⟩
  rcases hmoves.move.kept_of_request with hsome | hmem
  · exact .inl hsome
  · refine .inr ⟨.transmissionSessionCompleted h.engine.nextSessionId,
      List.mem_append_right _ ?_, rfl, rfl⟩
    rw [hmoves.acts.notices]
    exact List.mem_append_right _ hmem

end Host

namespace Host

/-! ### Counting notices -/

/-- The number of notices of one kind that a session was given. -/
def noticed (q : Notice → Bool) (h : Host) (sid : SessionId) : Nat :=
  h.emitted.countP fun x => x.session == sid && q x

variable {h h' : Host} {n : List Notice} {sid : SessionId} (q : Notice → Bool)

theorem noticed_own (hemit : h'.emitted = h.emitted ++ n) (hn : ∀ x ∈ n, x.session = sid) :
    h'.noticed q sid = h.noticed q sid + n.countP q := by
  rw [noticed, hemit, List.countP_append, noticed]
  congr 1
  exact List.countP_congr fun x hx => by simp [hn x hx]

theorem noticed_other (hemit : h'.emitted = h.emitted ++ n) (hn : ∀ x ∈ n, x.session ≠ sid) :
    h'.noticed q sid = h.noticed q sid := by
  rw [noticed, hemit, List.countP_append, noticed, Nat.add_eq_left, List.countP_eq_zero]
  intro x hx
  simp [hn x hx]

theorem noticed_same (hemit : h'.emitted = h.emitted) (sid : SessionId) :
    h'.noticed q sid = h.noticed q sid := by
  rw [noticed, hemit, noticed]

end Host

end HdyUtils.Ltp
