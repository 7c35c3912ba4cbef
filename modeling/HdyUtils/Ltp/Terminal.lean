import HdyUtils.Ltp.Notices

/-! At most one terminal notice.  A session gets one while it is open, provided that no timer that
expires during its cancellation cancels it again. -/

namespace HdyUtils.Ltp

open Trace

def SendView.Open (v : SendView) : Prop := ∃ s, v.session = some s ∧ ¬s.Cancelling

def RecvView.Open (v : RecvView) : Prop := ∃ s, v.session = some s ∧ ¬s.Cancelling

/-- Whether the expiry of a timer ends the session or starts its cancellation. -/
def SendSession.exhausts (s : SendSession) (config : EngineConfig) (now : Nat) : TimerKind → Bool
  | .checkpoint serial =>
    s.checkpoints[serial]?.any fun cp => decide (config.checkpointRtxLimit ≤ cp.retries)
  | .inactivity isSender => isSender && decide (config.TimedOut s.lastActivity now)
  | .report _ | .cancel _ => false

/-- Whether the expiry of a timer ends the session or starts its cancellation. -/
def RecvSession.exhausts (s : RecvSession) (config : EngineConfig) (now : Nat) : TimerKind → Bool
  | .report serial =>
    s.reports[serial]?.any fun rec => !rec.acked && decide (config.reportRtxLimit ≤ rec.retries)
  | .inactivity isSender => !isSender && decide (config.TimedOut s.lastActivity now)
  | .checkpoint _ | .cancel _ => false

section Moves

variable {config : EngineConfig} {sid : SessionId} {p : List Push} {n : List Notice}

/-- Unless it cancels again, a move gives a terminal notice only to a session that is open or just
opens, and that is not open afterwards. -/
theorem SendMove.terminals {trigger : SendTrigger} {v v' : SendView}
    (h : SendMove config sid trigger v p n v') (hfresh : Host.opens trigger → v.session = none)
    (hspares : ∀ kind now, trigger = .expired kind now → ∀ s, v.session = some s → s.Cancelling →
      s.exhausts config now kind = false) :
    n.countP Notice.isTerminal = 0 ∧ (v'.Open → v.Open ∨ Host.opens trigger) ∨
      n.countP Notice.isTerminal = 1 ∧ (v.Open ∨ Host.opens trigger) ∧ ¬v'.Open := by
  have hnone : ¬(⟨none, ∅⟩ : SendView).Open := by rintro ⟨s, hs, -⟩; cases hs
  cases h with
  | openGreen =>
    refine .inr ⟨rfl, .inr rfl, ?_⟩
    rintro ⟨s, hs, -⟩
    rw [hfresh rfl] at hs
    cases hs
  | openRed => exact .inl ⟨rfl, fun _ => .inr rfl⟩
  | reportIgnored => exact .inl ⟨rfl, .inl⟩
  | @reportRepeated source rs now s armed armed' hopen =>
    exact .inl ⟨rfl, fun _ => .inl ⟨s, rfl, by simp [SendSession.Cancelling, hopen]⟩⟩
  | @reportAnswered source rs now s armed pushes spans s' armed' hanswer =>
    exact .inl ⟨rfl, fun _ => .inl ⟨s, rfl, by simp [SendSession.Cancelling, hanswer.open_]⟩⟩
  | @reportCompleted source rs now s armed pushes spans s' armed' hanswer =>
    exact .inr ⟨rfl, .inl ⟨s, rfl, by simp [SendSession.Cancelling, hanswer.open_]⟩, hnone⟩
  | expiredIdle => exact .inl ⟨rfl, .inl⟩
  | @checkpointResent serial now s cp armed =>
    exact .inl ⟨rfl, by rintro ⟨s', hs', hc⟩; cases hs'; exact .inl ⟨s, rfl, hc⟩⟩
  | @checkpointExhausted serial now s cp armed hcp hlimit =>
    refine .inr ⟨rfl, .inl ⟨s, rfl, fun hc => ?_⟩, ?_⟩
    · have hspared := hspares (.checkpoint serial) now rfl s rfl hc
      simp only [SendSession.exhausts, hcp, Option.any_some] at hspared
      exact of_decide_eq_false hspared hlimit
    · rintro ⟨s', hs', hc⟩
      cases hs'
      exact hc rfl
  | @cancelResent now s armed =>
    exact .inl ⟨rfl, by rintro ⟨s', hs', hc⟩; cases hs'; exact .inl ⟨s, rfl, hc⟩⟩
  | cancelAbandoned => exact .inl ⟨rfl, fun h => absurd h hnone⟩
  | inactivityRearmed => exact .inl ⟨rfl, .inl⟩
  | @inactivityExpired now s armed hto =>
    refine .inr ⟨rfl, .inl ⟨s, rfl, fun hc => ?_⟩, hnone⟩
    have hspared := hspares (.inactivity true) now rfl s rfl hc
    simp only [SendSession.exhausts, Bool.true_and] at hspared
    exact of_decide_eq_false hspared hto
  | @peerCancelled source reason s armed hopen =>
    exact .inr ⟨rfl, .inl ⟨s, rfl, by simp [SendSession.Cancelling, hopen]⟩, hnone⟩
  | peerCancelledAgain => exact .inl ⟨rfl, fun h => absurd h hnone⟩
  | cancelAcked => exact .inl ⟨rfl, fun h => absurd h hnone⟩

theorem RecvSession.countP_deliveryNotices (s : RecvSession) (source : EngineId) :
    (s.deliveryNotices sid source).countP Notice.isTerminal = 0 := by
  unfold deliveryNotices
  split <;> rfl

/-- Data is admitted to a session that is open, or that opens with it. -/
theorem Admits.open_or_none {source : EngineId} {ds : DataSegment} {now : Nat} {v : RecvView}
    {s : RecvSession} (h : Admits sid source ds now v s) : v.Open ∨ v.session = none := by
  rcases h.2.2 with ⟨hs, hopen⟩ | ⟨hnone, -⟩
  · exact .inl ⟨s, hs, by simp [RecvSession.Cancelling, hopen]⟩
  · exact .inr hnone

/-- Unless it cancels again, a move gives a terminal notice only to a session that is open or just
opens, and that is not open afterwards. -/
theorem RecvMove.terminals {trigger : RecvTrigger} {v v' : RecvView}
    (h : RecvMove config sid trigger v p n v')
    (hspares : ∀ kind now, trigger = .expired kind now → ∀ s, v.session = some s → s.Cancelling →
      s.exhausts config now kind = false) :
    n.countP Notice.isTerminal = 0 ∧ (v'.Open → v.Open ∨ v.session = none) ∨
      n.countP Notice.isTerminal = 1 ∧ (v.Open ∨ v.session = none) ∧ ¬v'.Open := by
  have hgone : ∀ armed closed cancelled, ¬(⟨none, armed, closed, cancelled⟩ : RecvView).Open := by
    rintro armed closed cancelled ⟨s, hs, -⟩
    cases hs
  cases h with
  | dataIgnored | dataReported | expiredIdle => exact .inl ⟨rfl, .inl⟩
  | @dataCancelled source ds now v s s' reports reason armed hadmits =>
    refine .inr ⟨rfl, hadmits.open_or_none, ?_⟩
    rintro ⟨s'', hs'', hc⟩
    cases hs''
    exact hc rfl
  | dataRefused hadmits => exact .inl ⟨rfl, fun _ => hadmits.open_or_none⟩
  | dataStored hadmits =>
    exact .inl ⟨RecvSession.countP_deliveryNotices _ _, fun _ => hadmits.open_or_none⟩
  | dataGreen hadmits =>
    refine .inl ⟨?_, fun _ => hadmits.open_or_none⟩
    rw [List.countP_cons_of_neg (by simp [Notice.isTerminal])]
    exact RecvSession.countP_deliveryNotices _ _
  | ackIgnored => exact .inl ⟨rfl, .inl⟩
  | @ackKept serial now s armed armed' closed cancelled hopen =>
    exact .inl ⟨rfl, fun _ => .inl ⟨s, rfl, by simp [RecvSession.Cancelling, hopen]⟩⟩
  | ackClosed | cancelAbandoned | peerCancelledAgain | cancelAcked =>
    exact .inl ⟨rfl, fun h => absurd h (hgone _ _ _)⟩
  | @reportResent serial now s rec armed closed cancelled =>
    exact .inl ⟨rfl, by rintro ⟨s', hs', hc⟩; cases hs'; exact .inl ⟨s, rfl, hc⟩⟩
  | @reportExhausted serial now s rec armed closed cancelled hrec hacked hlimit =>
    refine .inr ⟨rfl, .inl ⟨s, rfl, fun hc => ?_⟩, ?_⟩
    · have hspared := hspares (.report serial) now rfl s rfl hc
      simp only [RecvSession.exhausts, hrec, Option.any_some, hacked, Bool.not_false,
        Bool.true_and] at hspared
      exact of_decide_eq_false hspared hlimit
    · rintro ⟨s', hs', hc⟩
      cases hs'
      exact hc rfl
  | @cancelResent now s armed closed cancelled =>
    exact .inl ⟨rfl, by rintro ⟨s', hs', hc⟩; cases hs'; exact .inl ⟨s, rfl, hc⟩⟩
  | inactivityRearmed => exact .inl ⟨rfl, .inl⟩
  | @inactivityExpired now s armed closed cancelled hto =>
    refine .inr ⟨rfl, .inl ⟨s, rfl, fun hc => ?_⟩, hgone _ _ _⟩
    have hspared := hspares (.inactivity false) now rfl s rfl hc
    simp only [RecvSession.exhausts, Bool.not_false, Bool.true_and] at hspared
    exact of_decide_eq_false hspared hto
  | @peerCancelled source reason s armed closed cancelled hopen =>
    exact .inr ⟨rfl, .inl ⟨s, rfl, by simp [RecvSession.Cancelling, hopen]⟩, hgone _ _ _⟩

end Moves

namespace Host

/-- The number of terminal notices that a session was given. -/
def terminals (h : Host) (sid : SessionId) : Nat :=
  h.emitted.countP fun x => x.session == sid && x.isTerminal

theorem terminals_own {h h' : Host} {n : List Notice} {sid : SessionId}
    (hemit : h'.emitted = h.emitted ++ n) (hn : ∀ x ∈ n, x.session = sid) :
    h'.terminals sid = h.terminals sid + n.countP Notice.isTerminal :=
  noticed_own Notice.isTerminal hemit hn

theorem terminals_other {h h' : Host} {n : List Notice} {sid : SessionId}
    (hemit : h'.emitted = h.emitted ++ n) (hn : ∀ x ∈ n, x.session ≠ sid) :
    h'.terminals sid = h.terminals sid := noticed_other Notice.isTerminal hemit hn

theorem terminals_same {h h' : Host} (hemit : h'.emitted = h.emitted) (sid : SessionId) :
    h'.terminals sid = h.terminals sid := noticed_same Notice.isTerminal hemit sid

/-- The call handles no expired timer that cancels a session anew, or ends it as inactive, while it
is being cancelled. -/
def sparesCancelled (h : Host) : Call → Bool
  | .fire =>
    match h.pending with
    | key :: _ =>
      (h.engine.sendSessions[key.session]?.all fun s =>
        s.cancelReason.isNone || !s.exhausts h.engine.config h.tickTime key.kind) &&
      (h.engine.recvSessions[key.session]?.all fun s =>
        s.cancelReason.isNone || !s.exhausts h.engine.config h.tickTime key.kind)
    | [] => true
  | _ => true

theorem sparesCancelled_send {h h' : Host} {c : Call} {sid : SessionId} {trigger : SendTrigger}
    (hok : h.sparesCancelled c) (hcause : h.SendCause c sid h' trigger) (kind : TimerKind)
    (now : Nat) (htrigger : trigger = .expired kind now) (s : SendSession)
    (hs : h.engine.sendSessions[sid]? = some s) (hc : s.Cancelling) :
    s.exhausts h.engine.config now kind = false := by
  subst htrigger
  obtain ⟨rfl, rfl, hpending⟩ := hcause
  have hreason : s.cancelReason.isNone = false := by simpa [SendSession.Cancelling] using hc
  simp only [sparesCancelled, hpending, hs, Option.all_some, hreason, Bool.false_or,
    Bool.and_eq_true, Bool.not_eq_true'] at hok
  exact hok.1

theorem sparesCancelled_recv {h h' : Host} {c : Call} {sid : SessionId} {trigger : RecvTrigger}
    (hok : h.sparesCancelled c) (hcause : h.RecvCause c sid h' trigger) (kind : TimerKind)
    (now : Nat) (htrigger : trigger = .expired kind now) (s : RecvSession)
    (hs : h.engine.recvSessions[sid]? = some s) (hc : s.Cancelling) :
    s.exhausts h.engine.config now kind = false := by
  subst htrigger
  obtain ⟨rfl, rfl, hpending⟩ := hcause
  have hreason : s.cancelReason.isNone = false := by simpa [RecvSession.Cancelling] using hc
  simp only [sparesCancelled, hpending, hs, Option.all_some, hreason, Bool.false_or,
    Bool.and_eq_true, Bool.not_eq_true'] at hok
  exact hok.2

/-- A session of this engine got at most one terminal notice, and none while it is open. -/
structure SettlesOnce (h : Host) (sid : SessionId) : Prop where
  requested : h.Requested
  own : sid.originator = h.engine.config.engineId
  le_one : h.terminals sid ≤ 1
  opened : (h.engine.sendView sid).Open → h.terminals sid = 0

theorem settlesOnce_new {config : EngineConfig} {sid : SessionId}
    (hsid : sid.originator = config.engineId) : (new config).SettlesOnce sid where
  requested := requested_new config
  own := hsid
  le_one := Nat.zero_le _
  opened := fun _ => rfl

theorem SettlesOnce.step {h : Host} {sid : SessionId} (hinv : h.SettlesOnce sid) {c : Call}
    (hdistinct : h.Distinct c) (hok : h.sparesCancelled c) : (h.step c).SettlesOnce sid := by
  have hown := hinv.requested.owned
  have hrequested := hinv.requested.step c
  have hsid : sid.originator = (h.step c).engine.config.engineId := by
    rw [config_step hown, hinv.own]
  cases sendChange hown c hinv.own with
  | @moved trigger p n cause move _ emitted requests =>
    have hcount := terminals_own emitted move.notices_session
    have hnew := hinv.requested.of_opens hinv.own hdistinct requests
    have hzero : (h.engine.sendView sid).Open ∨ opens trigger → h.terminals sid = 0 := by
      rintro (hopen | hopens)
      · exact hinv.opened hopen
      · exact List.countP_eq_zero.mpr fun x hx => by simp [(hnew hopens).2 x hx]
    rcases move.terminals (fun hopens => (hnew hopens).1) (sparesCancelled_send hok cause) with
      ⟨hn, hback⟩ | ⟨hn, hopen, hclosed⟩
    · rw [hn, Nat.add_zero] at hcount
      exact ⟨hrequested, hsid, hcount ▸ hinv.le_one, fun hopen => hcount.trans (hzero (hback hopen))⟩
    · rw [hn, hzero hopen] at hcount
      exact ⟨hrequested, hsid, hcount.le, fun hopen => absurd hopen hclosed⟩
  | tick _ session _ _ emitted =>
    have hcount := terminals_same emitted sid
    refine ⟨hrequested, hsid, hcount ▸ hinv.le_one, ?_⟩
    rintro ⟨s, hs, hc⟩
    exact hcount.trans (hinv.opened ⟨s, session.symm.trans hs, hc⟩)
  | other view _ _ emitted =>
    obtain ⟨n, hemit, hn⟩ := emitted
    have hcount := terminals_other hemit hn
    exact ⟨hrequested, hsid, hcount ▸ hinv.le_one, fun hopen =>
      hcount.trans (hinv.opened (view ▸ hopen))⟩

/-- Since it had `k` terminal notices, a session of another engine got at most one, and none if it
is open or absent. -/
structure CancelsOnce (h : Host) (sid : SessionId) (k : Nat) : Prop where
  owned : h.engine.Owned
  foreign : sid.originator ≠ h.engine.config.engineId
  le : h.terminals sid ≤ k + 1
  opened : (h.engine.recvView sid).Open → h.terminals sid = k

/-- One call of the life of a receive session. -/
theorem cancelsOnce_step {h : Host} {sid : SessionId} {k : Nat} {c : Call}
    (hown : h.engine.Owned) (hforeign : sid.originator ≠ h.engine.config.engineId)
    (hok : h.sparesCancelled c) (hle : h.terminals sid ≤ k + 1)
    (hk : (h.engine.recvView sid).Open ∨ h.engine.recvSessions[sid]? = none →
      h.terminals sid = k) : (h.step c).CancelsOnce sid k := by
  have howned := owned_step hown c
  have hforeign' : sid.originator ≠ (h.step c).engine.config.engineId := by rwa [config_step hown]
  cases recvChange hown c hforeign with
  | @moved trigger p n cause move _ emitted =>
    have hcount := terminals_own emitted move.notices_session
    rcases move.terminals (sparesCancelled_recv hok cause) with ⟨hn, hback⟩ | ⟨hn, hopen, hclosed⟩
    · rw [hn, Nat.add_zero] at hcount
      exact ⟨howned, hforeign', hcount ▸ hle, fun hopen => hcount.trans (hk (hback hopen))⟩
    · rw [hn, hk hopen] at hcount
      exact ⟨howned, hforeign', hcount.le, fun hopen => absurd hopen hclosed⟩
  | tick _ session _ _ _ _ emitted =>
    have hcount := terminals_same emitted sid
    refine ⟨howned, hforeign', hcount ▸ hle, ?_⟩
    rintro ⟨s, hs, hc⟩
    exact hcount.trans (hk (.inl ⟨s, session.symm.trans hs, hc⟩))
  | other session _ _ _ _ _ emitted =>
    obtain ⟨n, hemit, hn⟩ := emitted
    have hcount := terminals_other hemit hn
    refine ⟨howned, hforeign', hcount ▸ hle, ?_⟩
    rintro ⟨s, hs, hc⟩
    exact hcount.trans (hk (.inl ⟨s, session.symm.trans hs, hc⟩))

/-- The receive session is in the engine's table. -/
def HasRecv (sid : SessionId) (h : Host) : Prop := h.engine.recvSessions[sid]? ≠ none

/-- From its insertion, a receive session gets at most one terminal notice while it exists. -/
theorem cancelsOnce_run {h : Host} {sid : SessionId} {c : Call} {calls : List Call}
    (hown : h.engine.Owned) (hpresent : HasRecv sid (h.step c))
    (hkept : Along step (fun h _ => HasRecv sid h) (h.step c) calls)
    (hok : Along step (fun h c => h.sparesCancelled c) h (c :: calls)) :
    (h.run (c :: calls)).CancelsOnce sid (h.terminals sid) := by
  have hforeign : sid.originator ≠ h.engine.config.engineId := fun heq =>
    hpresent ((owned_step hown c).recv_none (by rwa [config_step hown]))
  have hfirst := cancelsOnce_step hown hforeign hok.1 (Nat.le_succ _) fun _ => rfl
  have hstep : ∀ h' c', CancelsOnce h' sid (h.terminals sid) →
      HasRecv sid h' ∧ h'.sparesCancelled c' → (h'.step c').CancelsOnce sid (h.terminals sid) :=
    fun h' c' hinv hc => cancelsOnce_step hinv.owned hinv.foreign hc.2 hinv.le fun hk =>
      hk.elim hinv.opened fun hnone => absurd hnone hc.1
  exact (hkept.and hok.2).invariant hstep hfirst

end Host

/-- A session gets at most one terminal notice, if no timer that expires during its cancellation
cancels it again: a send session ever, and a receive session while the engine has it. -/
theorem terminal_notice_once {config : EngineConfig} {calls : List Call}
    (hids : (((Host.new config).run calls).requests.map Request.session).Nodup)
    (hspares : Along Host.step (fun h c => h.sparesCancelled c) (Host.new config) calls) :
    (∀ sid : SessionId, sid.originator = config.engineId →
      ((Host.new config).run calls).terminals sid ≤ 1) ∧
    ∀ (sid : SessionId) (before : List Call) (c : Call) (life after : List Call),
      calls = before ++ c :: life ++ after →
      Host.HasRecv sid (((Host.new config).run before).step c) →
      Along Host.step (fun h _ => Host.HasRecv sid h) (((Host.new config).run before).step c) life →
      ((Host.new config).run (before ++ c :: life)).terminals sid ≤
        ((Host.new config).run before).terminals sid + 1 := by
  have hown := Engine.owned_new config
  refine ⟨fun sid hsid => ?_, ?_⟩
  · have hstep : ∀ h c, Host.SettlesOnce h sid → h.Distinct c ∧ h.sparesCancelled c →
        (h.step c).SettlesOnce sid := fun h c hinv hc => hinv.step hc.1 hc.2
    have hdistinct : Along Host.step Host.Distinct (Host.new config) calls :=
      Host.along_distinct hown hids
    exact ((hdistinct.and hspares).invariant hstep (Host.settlesOnce_new hsid)).le_one
  · rintro sid before c life after rfl hpresent hkept
    rw [List.append_assoc, along_append] at hspares
    have hspares' : Along Host.step (fun h c => h.sparesCancelled c)
        ((Host.new config).run before) (c :: life) := (along_append.mp hspares.2).1
    rw [Host.run, run_append]
    exact (Host.cancelsOnce_run (Host.owned_run hown before) hpresent hkept hspares').le

/-- One octet is requested, and its checkpoint goes out until no retry is left. -/
def unanswered : List Call :=
  .request ⟨2⟩ 1 [7] 1 0 ::
    [4, 8, 12, 16, 20].flatMap fun seconds => [.tick (seconds * 1000000), .fire]

theorem terminal_notice_once_timely :
    ((Host.new .default).run (unanswered ++ [.tick 24000000, .fire])).terminals ⟨⟨1⟩, 1⟩ ≤ 1 :=
  (terminal_notice_once (by decide +kernel) (by decide +kernel)).1 ⟨⟨1⟩, 1⟩ rfl

/-- A late tick takes the checkpoint and the inactivity timer together. -/
theorem terminal_notice_twice_late :
    ((Host.new .default).run (unanswered ++ [.tick 60000000, .fire, .fire])).terminals
      ⟨⟨1⟩, 1⟩ = 2 := by
  decide +kernel

end HdyUtils.Ltp
