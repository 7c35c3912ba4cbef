import HdyUtils.Ltp.Notices
import HdyUtils.Ltp.Engine.Reassembly

/-! At most one delivery.  A session whose red part was delivered is in the engine's table as
delivered, or in a cache that keeps its data from opening it again. -/

namespace HdyUtils.Ltp

open Trace

/-- The notice delivers a red part. -/
def Notice.isDelivery : Notice → Bool
  | .redPartReceived .. => true
  | _ => false

/-- No data can deliver the red part of the session any more. -/
def RecvView.Blocked (v : RecvView) : Prop :=
  v.closed ∨ v.cancelled ∨ ∃ s, v.session = some s ∧ s.redDelivered = true

/-! ### What a move delivers -/

theorem SendMove.no_delivery {config : EngineConfig} {sid : SessionId} {trigger : SendTrigger}
    {v v' : SendView} {p : List Push} {n : List Notice} (h : SendMove config sid trigger v p n v') :
    n.countP Notice.isDelivery = 0 := by
  cases h <;> rfl

section Moves

variable {config : EngineConfig} {sid : SessionId} {source : EngineId} {ds : DataSegment}
  {now : Nat} {s s' : RecvSession} {reports : List ReportSegment}

theorem RecvSession.markEnds_redDelivered (s : RecvSession) (ds : DataSegment) :
    (s.markEnds ds).redDelivered = s.redDelivered := by
  simp only [markEnds]
  split <;> split <;> rfl

theorem Stores.redDelivered_eq (h : Stores config ds s s' reports) :
    s'.redDelivered = s.redDelivered := by
  obtain ⟨s₁, hinsert, ⟨_, _, _, rfl⟩, -⟩ := h.stored
  have hdata := s.insertRed_upToData ds.offset ds.data config.maxBlockSize.toNat
  rw [hinsert] at hdata
  exact (s₁.markEnds_redDelivered ds).trans hdata.delivered_eq

/-- Data is admitted to a session that is not blocked, unless it was delivered. -/
theorem Admits.blocked_iff {v : RecvView} (h : Admits sid source ds now v s) :
    v.Blocked ↔ s.redDelivered = true := by
  obtain ⟨hclosed, hcancelled, ⟨hs, -⟩ | ⟨hnone, rfl⟩⟩ := h
  · simp [RecvView.Blocked, hclosed, hcancelled, hs]
  · simp [RecvView.Blocked, hclosed, hcancelled, hnone, RecvSession.new]

/-- The delivery of a session's red part comes with the mark that it was delivered. -/
theorem RecvSession.countP_isDelivery (s : RecvSession) (sid : SessionId) (source : EngineId) :
    (s.deliveryNotices sid source).countP Notice.isDelivery = 0 ∧
        (s.redDelivered = true → s.delivered.redDelivered = true) ∨
      (s.deliveryNotices sid source).countP Notice.isDelivery = 1 ∧ s.redDelivered = false ∧
        s.delivered.redDelivered = true := by
  unfold deliveryNotices delivered
  split
  · next h =>
    simp only [deliverable, Bool.and_eq_true, Bool.not_eq_true'] at h
    exact .inr ⟨rfl, h.2, rfl⟩
  · exact .inl ⟨rfl, fun hdelivered => hdelivered⟩

theorem ackReport_redDelivered (s : RecvSession) (serial : UInt64) :
    (s.ackReport serial).redDelivered = s.redDelivered := by
  unfold RecvSession.ackReport
  split <;> rfl

/-- A move delivers nothing and keeps the session blocked, or blocks it with a delivery. -/
theorem RecvMove.deliveries {trigger : RecvTrigger} {v v' : RecvView} {p : List Push}
    {n : List Notice} (h : RecvMove config sid trigger v p n v') :
    n.countP Notice.isDelivery = 0 ∧ (v.Blocked → v'.Blocked) ∨
      n.countP Notice.isDelivery = 1 ∧ ¬v.Blocked ∧ v'.Blocked := by
  have hsession : ∀ {s s' : RecvSession} {armed armed' : Set TimerKind} {closed cancelled : Prop},
      s'.redDelivered = s.redDelivered → RecvView.Blocked ⟨some s, armed, closed, cancelled⟩ →
      RecvView.Blocked ⟨some s', armed', closed, cancelled⟩ := by
    intro s s' armed armed' closed cancelled heq hblocked
    simpa [RecvView.Blocked, heq] using hblocked
  cases h with
  | dataIgnored | dataReported | expiredIdle => exact .inl ⟨rfl, id⟩
  | dataCancelled => exact .inl ⟨rfl, fun _ => .inr (.inl trivial)⟩
  | @dataRefused source ds now v s s' armed hadmits _ hrefused =>
    refine .inl ⟨rfl, fun hblocked => .inr (.inr ⟨s', rfl, ?_⟩)⟩
    have hdata := (s.touched now).insertRed_upToData ds.offset ds.data config.maxBlockSize.toNat
    rw [hrefused] at hdata
    exact hdata.delivered_eq.trans (hadmits.blocked_iff.mp hblocked)
  | @dataStored source ds now v s s' reports armed hadmits hstores =>
    have heq : s'.redDelivered = s.redDelivered := hstores.redDelivered_eq
    rcases s'.countP_isDelivery sid source with ⟨hn, hkeep⟩ | ⟨hn, hnew, hdone⟩
    · exact .inl ⟨hn, fun hblocked =>
        .inr (.inr ⟨_, rfl, hkeep (heq.trans (hadmits.blocked_iff.mp hblocked))⟩)⟩
    · refine .inr ⟨hn, ?_, .inr (.inr ⟨_, rfl, hdone⟩)⟩
      rw [hadmits.blocked_iff, ← heq, hnew]
      simp
  | @dataGreen source ds now v s armed hadmits =>
    have heq : ((s.touched now).markGreen ds).redDelivered = s.redDelivered := rfl
    rw [List.countP_cons_of_neg (by simp [Notice.isDelivery])]
    rcases ((s.touched now).markGreen ds).countP_isDelivery sid source with
      ⟨hn, hkeep⟩ | ⟨hn, hnew, hdone⟩
    · exact .inl ⟨hn, fun hblocked =>
        .inr (.inr ⟨_, rfl, hkeep (heq.trans (hadmits.blocked_iff.mp hblocked))⟩)⟩
    · refine .inr ⟨hn, ?_, .inr (.inr ⟨_, rfl, hdone⟩)⟩
      rw [hadmits.blocked_iff, ← heq, hnew]
      simp
  | ackIgnored => exact .inl ⟨rfl, id⟩
  | @ackKept serial now s =>
    exact .inl ⟨rfl, hsession (ackReport_redDelivered (s.touched now) serial)⟩
  | ackClosed => exact .inl ⟨rfl, fun _ => .inl trivial⟩
  | reportResent | reportExhausted | cancelResent | inactivityRearmed =>
    exact .inl ⟨rfl, hsession rfl⟩
  | cancelAbandoned | inactivityExpired | peerCancelled | peerCancelledAgain | cancelAcked =>
    exact .inl ⟨rfl, fun _ => .inr (.inl trivial)⟩

end Moves

namespace Host

/-- The number of times that the red part of a session was delivered. -/
def deliveries (h : Host) (sid : SessionId) : Nat := h.noticed Notice.isDelivery sid

/-- The caches record at most one session in a call. -/
theorem caches_step {h : Host} (hown : h.engine.Owned) (c : Call) :
    ((h.step c).engine.closedRecvSessions = h.engine.closedRecvSessions ∨
      ∃ t, (h.step c).engine.closedRecvSessions = h.engine.closedRecvSessions.record t) ∧
    ((h.step c).engine.cancelledSessions = h.engine.cancelledSessions ∨
      ∃ t, (h.step c).engine.cancelledSessions = h.engine.cancelledSessions.record t) := by
  cases steps_step hown c with
  | same hsame => exact ⟨.inl hsame.closed, .inl hsame.cancelled⟩
  | tick _ _ heq =>
    rw [heq]
    exact ⟨.inl rfl, .inl rfl⟩
  | @send sid trigger p n _ _ acts =>
    exact ⟨acts.closed.imp_right fun h => ⟨sid, h⟩, acts.cancelled.imp_right fun h => ⟨sid, h⟩⟩
  | @recv sid trigger p n _ _ acts =>
    exact ⟨acts.closed.imp_right fun h => ⟨sid, h⟩, acts.cancelled.imp_right fun h => ⟨sid, h⟩⟩

/-- All that the caches hold after the call is among at most 1024 sessions each. -/
def Recorded (closed cancelled : Finset SessionId) (h : Host) (c : Call) : Prop :=
  (∀ t ∈ (h.step c).engine.closedRecvSessions, t ∈ closed) ∧
  ∀ t ∈ (h.step c).engine.cancelledSessions, t ∈ cancelled

instance (closed cancelled : Finset SessionId) (h : Host) (c : Call) :
    Decidable (Recorded closed cancelled h c) :=
  inferInstanceAs (Decidable ((∀ t ∈ (h.step c).engine.closedRecvSessions.queue, t ∈ closed) ∧
    ∀ t ∈ (h.step c).engine.cancelledSessions.queue, t ∈ cancelled))

/-- The red part of a session of another engine was delivered at most once, and not unless the
session is blocked. -/
structure DeliveredOnce (closed cancelled : Finset SessionId) (sid : SessionId) (h : Host) :
    Prop where
  owned : h.engine.Owned
  foreign : sid.originator ≠ h.engine.config.engineId
  closed : ∀ t ∈ h.engine.closedRecvSessions, t ∈ closed
  cancelled : ∀ t ∈ h.engine.cancelledSessions, t ∈ cancelled
  le_one : h.deliveries sid ≤ 1
  blocked : h.deliveries sid = 1 → (h.engine.recvView sid).Blocked

/-- A cache forgets nothing while all that it ever holds is among 1024 sessions. -/
theorem mem_cache_step {cache cache' : RecentSessions} {S : Finset SessionId} (sid : SessionId)
    (hstep : cache' = cache ∨ ∃ t, cache' = cache.record t) (hcard : S.card ≤ 1024)
    (hold : ∀ t ∈ cache, t ∈ S) (hnew : ∀ t ∈ cache', t ∈ S) (hmem : sid ∈ cache) :
    sid ∈ cache' := by
  rcases hstep with rfl | ⟨t, rfl⟩
  · exact hmem
  · have ht : t ∈ S := hnew t (RecentSet.mem_record_self (by decide) cache t)
    exact RecentSet.mem_record_of_subset hcard hold ht hmem

theorem deliveredOnce_new {config : EngineConfig} {closed cancelled : Finset SessionId}
    {sid : SessionId} (hsid : sid.originator ≠ config.engineId) :
    DeliveredOnce closed cancelled sid (new config) where
  owned := Engine.owned_new config
  foreign := hsid
  closed := fun t ht => absurd ht (RecentSet.not_mem_empty t)
  cancelled := fun t ht => absurd ht (RecentSet.not_mem_empty t)
  le_one := Nat.zero_le 1
  blocked := fun h => nomatch h

theorem DeliveredOnce.step {closed cancelled : Finset SessionId} {sid : SessionId} {h : Host}
    (hclosed : closed.card ≤ 1024) (hcancelled : cancelled.card ≤ 1024)
    (hinv : DeliveredOnce closed cancelled sid h) {c : Call}
    (hrec : Recorded closed cancelled h c) : DeliveredOnce closed cancelled sid (h.step c) := by
  have hown := hinv.owned
  obtain ⟨hclosedStep, hcancelledStep⟩ := caches_step hown c
  have hkeepClosed := mem_cache_step sid hclosedStep hclosed hinv.closed hrec.1
  have hkeepCancelled :=
    mem_cache_step sid hcancelledStep hcancelled hinv.cancelled hrec.2
  -- A call that does not move the session keeps it blocked and delivers nothing.
  have hquiet : (h.step c).engine.recvSessions[sid]? = h.engine.recvSessions[sid]? →
      (h.step c).deliveries sid = h.deliveries sid →
      DeliveredOnce closed cancelled sid (h.step c) := by
    intro hsession hcount
    refine ⟨owned_step hown c, by rw [config_step hown]; exact hinv.foreign, hrec.1, hrec.2,
      hcount ▸ hinv.le_one, fun hone => ?_⟩
    rcases hinv.blocked (hcount ▸ hone) with hmem | hmem | ⟨s, hs, hdelivered⟩
    · exact .inl (hkeepClosed hmem)
    · exact .inr (.inl (hkeepCancelled hmem))
    · exact .inr (.inr ⟨s, hsession.trans hs, hdelivered⟩)
  cases recvChange hown c hinv.foreign with
  | @moved trigger p n _ move _ emitted =>
    have hcount : (h.step c).deliveries sid = h.deliveries sid + n.countP Notice.isDelivery :=
      noticed_own Notice.isDelivery emitted move.notices_session
    have hfrom : h.deliveries sid = 0 ∨ (h.engine.recvView sid).Blocked := by
      have := hinv.le_one
      by_cases hzero : h.deliveries sid = 0
      · exact .inl hzero
      · exact .inr (hinv.blocked (by omega))
    refine ⟨owned_step hown c, by rw [config_step hown]; exact hinv.foreign, hrec.1, hrec.2, ?_, ?_⟩
    · rcases move.deliveries with ⟨hn, -⟩ | ⟨hn, hopen, -⟩
      · rw [hcount, hn]
        exact hinv.le_one
      · rw [hcount, hn, hfrom.resolve_right hopen]
    · intro hone
      rcases move.deliveries with ⟨hn, hkeep⟩ | ⟨-, -, hdone⟩
      · rw [hcount, hn, Nat.add_zero] at hone
        exact hkeep (hinv.blocked hone)
      · exact hdone
  | tick _ session _ _ _ _ emitted =>
    exact hquiet session (noticed_same Notice.isDelivery emitted sid)
  | other session _ _ _ _ _ emitted =>
    obtain ⟨n, hemit, hn⟩ := emitted
    exact hquiet session (noticed_other Notice.isDelivery hemit hn)

/-- A session of this engine is never delivered to it. -/
theorem no_delivery_step {h : Host} {sid : SessionId}
    (hinv : h.engine.Owned ∧ sid.originator = h.engine.config.engineId ∧ h.deliveries sid = 0)
    (c : Call) : (h.step c).engine.Owned ∧
      sid.originator = (h.step c).engine.config.engineId ∧ (h.step c).deliveries sid = 0 := by
  obtain ⟨hown, hsid, hzero⟩ := hinv
  refine ⟨owned_step hown c, by rw [config_step hown]; exact hsid, ?_⟩
  cases sendChange hown c hsid with
  | moved _ move _ emitted =>
    have hcount := noticed_own Notice.isDelivery emitted move.notices_session
    rw [move.no_delivery] at hcount
    exact hcount.trans hzero
  | tick _ _ _ _ emitted => exact (noticed_same Notice.isDelivery emitted sid).trans hzero
  | other _ _ _ emitted =>
    obtain ⟨n, hemit, hn⟩ := emitted
    exact (noticed_other Notice.isDelivery hemit hn).trans hzero

end Host

/-- The red part of a session is delivered at most once in a run in which at most 1024 sessions are
ever recorded as closed and at most 1024 as cancelled. -/
theorem red_part_delivered_once {config : EngineConfig} {calls : List Call}
    {closed cancelled : Finset SessionId} (hclosed : closed.card ≤ 1024)
    (hcancelled : cancelled.card ≤ 1024)
    (hrec : Along Host.step (Host.Recorded closed cancelled) (Host.new config) calls)
    (sid : SessionId) : ((Host.new config).run calls).deliveries sid ≤ 1 := by
  by_cases hsid : sid.originator = config.engineId
  · have hstep : ∀ (h : Host) (c : Call),
        h.engine.Owned ∧ sid.originator = h.engine.config.engineId ∧ h.deliveries sid = 0 →
        (h.step c).engine.Owned ∧ sid.originator = (h.step c).engine.config.engineId ∧
          (h.step c).deliveries sid = 0 := fun h c hinv => Host.no_delivery_step hinv c
    have hnew : (Host.new config).engine.Owned ∧
        sid.originator = (Host.new config).engine.config.engineId ∧
        (Host.new config).deliveries sid = 0 := ⟨Engine.owned_new config, hsid, rfl⟩
    exact (run_invariant hstep calls hnew).2.2.le.trans (Nat.zero_le 1)
  · have hstep : ∀ (h : Host) (c : Call), Host.DeliveredOnce closed cancelled sid h →
        Host.Recorded closed cancelled h c → Host.DeliveredOnce closed cancelled sid (h.step c) :=
      fun h c hinv hc => hinv.step hclosed hcancelled hc
    exact (hrec.invariant hstep (Host.deliveredOnce_new hsid)).le_one

/-- A block of one octet arrives, its report is acknowledged, and the block arrives again. -/
theorem red_part_delivered_once_replayed :
    ((Host.new .default).run
      [.segment ⟨2⟩ [3, 2, 1, 0, 1, 0, 1, 1, 0, 7] 0, .segment ⟨2⟩ [9, 2, 1, 0, 1] 1,
        .segment ⟨2⟩ [3, 2, 1, 0, 1, 0, 1, 1, 0, 7] 2]).deliveries ⟨⟨2⟩, 1⟩ ≤ 1 := by
  have hclosed : ({⟨⟨2⟩, 1⟩} : Finset SessionId).card ≤ 1024 := by decide
  have hcancelled : (∅ : Finset SessionId).card ≤ 1024 := by decide
  exact red_part_delivered_once hclosed hcancelled (by decide +kernel) ⟨⟨2⟩, 1⟩

end HdyUtils.Ltp
