import HdyUtils.Ltp.Engine.Step

/-! What a handler may touch.  `Acts sid pushes notices e e'` says that `e'` follows from `e` by work
on session `sid` alone: its segments and notices are appended in order, the sessions and timers of
every other session are as before, and the caches record at most `sid`. -/

namespace HdyUtils.Ltp

/-- A queued segment: its destination and its body. -/
abbrev Push := EngineId × SegmentBody

/-- The wire form of a queued segment of session `sid`. -/
def Push.wire (sid : SessionId) (p : Push) : EngineId × Bytes :=
  (p.1, (Segment.plain sid p.2).encodeToVec)

namespace Engine

structure Acts (sid : SessionId) (pushes : List Push) (notices : List Notice) (e e' : Engine) :
    Prop where
  config : e'.config = e.config
  number : e'.nextSessionNumber = e.nextSessionNumber
  outbound : e'.outbound = e.outbound ++ pushes.map (Push.wire sid)
  notices : e'.notices = e.notices ++ notices
  send : ∀ s, s ≠ sid → e'.sendSessions[s]? = e.sendSessions[s]?
  recv : ∀ s, s ≠ sid → e'.recvSessions[s]? = e.recvSessions[s]?
  timers : ∀ k, k.session ≠ sid → e'.timerTable.deadline? k = e.timerTable.deadline? k
  closed : e'.closedRecvSessions = e.closedRecvSessions ∨
    e'.closedRecvSessions = e.closedRecvSessions.record sid
  cancelled : e'.cancelledSessions = e.cancelledSessions ∨
    e'.cancelledSessions = e.cancelledSessions.record sid

namespace Acts

variable {sid : SessionId} {p p' : List Push} {n n' : List Notice} {e e' e'' : Engine}

theorem refl (sid : SessionId) (e : Engine) : Acts sid [] [] e e where
  config := rfl
  number := rfl
  outbound := by simp
  notices := by simp
  send := fun _ _ => rfl
  recv := fun _ _ => rfl
  timers := fun _ _ => rfl
  closed := .inl rfl
  cancelled := .inl rfl

theorem record_twice {c c' c'' : RecentSessions} (h : c' = c ∨ c' = c.record sid)
    (h' : c'' = c' ∨ c'' = c'.record sid) : c'' = c ∨ c'' = c.record sid := by
  rcases h with rfl | rfl
  · exact h'
  · rcases h' with rfl | rfl
    · exact .inr rfl
    · exact .inr (RecentSet.record_of_mem (RecentSet.mem_record_self (by decide) c sid))

theorem trans (h : Acts sid p n e e') (h' : Acts sid p' n' e' e'') :
    Acts sid (p ++ p') (n ++ n') e e'' where
  config := h'.config.trans h.config
  number := h'.number.trans h.number
  outbound := by rw [h'.outbound, h.outbound, List.map_append, List.append_assoc]
  notices := by rw [h'.notices, h.notices, List.append_assoc]
  send := fun s hs => (h'.send s hs).trans (h.send s hs)
  recv := fun s hs => (h'.recv s hs).trans (h.recv s hs)
  timers := fun k hk => (h'.timers k hk).trans (h.timers k hk)
  closed := record_twice h.closed h'.closed
  cancelled := record_twice h.cancelled h'.cancelled

/-- Silent work after other work. -/
theorem then_silent (h : Acts sid p n e e') (h' : Acts sid [] [] e' e'') : Acts sid p n e e'' := by
  simpa using h.trans h'

end Acts

section Updates

variable {sid : SessionId} {p : List Push} {n : List Notice} {e e' : Engine}

theorem Acts.push (h : Acts sid p n e e') (dest : EngineId) (body : SegmentBody) :
    Acts sid (p ++ [(dest, body)]) n e (e'.push dest sid body) := by
  have hpush : Acts sid [(dest, body)] [] e' (e'.push dest sid body) :=
    { Acts.refl sid e' with outbound := rfl }
  simpa using h.trans hpush

theorem Acts.notify (h : Acts sid p n e e') (notice : Notice) :
    Acts sid p (n ++ [notice]) e (e'.notify notice) := by
  have hnotify : Acts sid [] [notice] e' (e'.notify notice) :=
    { Acts.refl sid e' with notices := rfl }
  simpa using h.trans hnotify

theorem Acts.setTimer (h : Acts sid p n e e') (kind : TimerKind) (deadline : Nat) :
    Acts sid p n e (e'.setTimer ⟨sid, kind⟩ deadline) :=
  h.then_silent { Acts.refl sid e' with
    timers := fun k hne => by
      have : ⟨sid, kind⟩ ≠ k := fun heq => hne (heq ▸ rfl)
      simp [this] }

theorem Acts.cancelTimer (h : Acts sid p n e e') (kind : TimerKind) :
    Acts sid p n e (e'.cancelTimer ⟨sid, kind⟩) :=
  h.then_silent { Acts.refl sid e' with
    timers := fun k hne => by
      have : ⟨sid, kind⟩ ≠ k := fun heq => hne (heq ▸ rfl)
      simp [this] }

theorem Acts.cancelSession (h : Acts sid p n e e') : Acts sid p n e (e'.cancelSession sid) :=
  h.then_silent { Acts.refl sid e' with timers := fun k hne => by simp [hne] }

theorem Acts.putSend (h : Acts sid p n e e') (s : SendSession) :
    Acts sid p n e (e'.putSend sid s) :=
  h.then_silent { Acts.refl sid e' with send := fun t ht => by simp [Ne.symm ht] }

theorem Acts.removeSend (h : Acts sid p n e e') : Acts sid p n e (e'.removeSend sid) :=
  h.then_silent { Acts.refl sid e' with send := fun t ht => by simp [Ne.symm ht] }

theorem Acts.putRecv (h : Acts sid p n e e') (r : RecvSession) :
    Acts sid p n e (e'.putRecv sid r) :=
  h.then_silent { Acts.refl sid e' with recv := fun t ht => by simp [Ne.symm ht] }

theorem Acts.removeRecv (h : Acts sid p n e e') : Acts sid p n e (e'.removeRecv sid) :=
  h.then_silent { Acts.refl sid e' with recv := fun t ht => by simp [Ne.symm ht] }

theorem Acts.recordClosed (h : Acts sid p n e e') : Acts sid p n e (e'.recordClosed sid) :=
  h.then_silent { Acts.refl sid e' with closed := .inr rfl }

theorem Acts.recordCancelled (h : Acts sid p n e e') : Acts sid p n e (e'.recordCancelled sid) :=
  h.then_silent { Acts.refl sid e' with cancelled := .inr rfl }

theorem Acts.updatePeerRttSample (h : Acts sid p n e e') (peer : EngineId) (sample : Nat) :
    Acts sid p n e (e'.updatePeerRttSample peer sample) :=
  h.then_silent { Acts.refl sid e' with }

theorem Acts.touchInactivity (h : Acts sid p n e e') (isSender : Bool) (now : Nat) :
    Acts sid p n e (e'.touchInactivity sid isSender now) := by
  unfold Engine.touchInactivity
  simp only
  split
  · exact h.setTimer _ _
  · exact h

theorem Acts.sampleCheckpoint (h : Acts sid p n e e') (source : EngineId)
    (record? : Option CheckpointRecord) (now : Nat) :
    Acts sid p n e (e'.sampleCheckpoint source record? now) := by
  unfold Engine.sampleCheckpoint
  cases record? with
  | none => exact h
  | some cp =>
    simp only
    split
    · exact h.updatePeerRttSample _ _
    · exact h

theorem Acts.sampleReport (h : Acts sid p n e e') (session : RecvSession) (rec : ReportRecord)
    (now : Nat) : Acts sid p n e (e'.sampleReport session rec now) := by
  unfold Engine.sampleReport
  split
  · exact h.updatePeerRttSample _ _
  · exact h

end Updates

/-! ### Samples and inactivity leave the sessions alone -/

section Sessions

variable (e : Engine) (s : SessionId) (isSender : Bool) (source : EngineId)
  (record? : Option CheckpointRecord) (session : RecvSession) (rec : ReportRecord) (now : Nat)

@[simp] theorem touchInactivity_sendSessions :
    (e.touchInactivity s isSender now).sendSessions = e.sendSessions := by
  simp only [touchInactivity]
  split <;> rfl

@[simp] theorem touchInactivity_recvSessions :
    (e.touchInactivity s isSender now).recvSessions = e.recvSessions := by
  simp only [touchInactivity]
  split <;> rfl

@[simp] theorem touchInactivity_outbound :
    (e.touchInactivity s isSender now).outbound = e.outbound := by
  simp only [touchInactivity]
  split <;> rfl

@[simp] theorem touchInactivity_notices :
    (e.touchInactivity s isSender now).notices = e.notices := by
  simp only [touchInactivity]
  split <;> rfl

theorem deadline?_touchInactivity {key : TimerKey} (h : key ≠ .inactivity s isSender) :
    (e.touchInactivity s isSender now).timerTable.deadline? key = e.timerTable.deadline? key := by
  simp only [touchInactivity]
  split
  · simp [Ne.symm h]
  · rfl

@[simp] theorem touchInactivity_config :
    (e.touchInactivity s isSender now).config = e.config := by
  simp only [touchInactivity]
  split <;> rfl

@[simp] theorem touchInactivity_closedRecvSessions :
    (e.touchInactivity s isSender now).closedRecvSessions = e.closedRecvSessions := by
  simp only [touchInactivity]
  split <;> rfl

@[simp] theorem touchInactivity_cancelledSessions :
    (e.touchInactivity s isSender now).cancelledSessions = e.cancelledSessions := by
  simp only [touchInactivity]
  split <;> rfl

@[simp] theorem sampleReport_closedRecvSessions :
    (e.sampleReport session rec now).closedRecvSessions = e.closedRecvSessions := by
  unfold sampleReport
  split <;> rfl

@[simp] theorem sampleReport_cancelledSessions :
    (e.sampleReport session rec now).cancelledSessions = e.cancelledSessions := by
  unfold sampleReport
  split <;> rfl

@[simp] theorem sampleCheckpoint_sendSessions :
    (e.sampleCheckpoint source record? now).sendSessions = e.sendSessions := by
  cases record? with
  | none => rfl
  | some cp =>
    simp only [sampleCheckpoint]
    split <;> rfl

@[simp] theorem sampleCheckpoint_recvSessions :
    (e.sampleCheckpoint source record? now).recvSessions = e.recvSessions := by
  cases record? with
  | none => rfl
  | some cp =>
    simp only [sampleCheckpoint]
    split <;> rfl

@[simp] theorem sampleReport_sendSessions :
    (e.sampleReport session rec now).sendSessions = e.sendSessions := by
  unfold sampleReport
  split <;> rfl

@[simp] theorem sampleReport_recvSessions :
    (e.sampleReport session rec now).recvSessions = e.recvSessions := by
  unfold sampleReport
  split <;> rfl

end Sessions

/-! ### Armed timers -/

/-- The timers of a session that are armed. -/
def armed (e : Engine) (sid : SessionId) : Set TimerKind :=
  {kind | e.timerTable.deadline? ⟨sid, kind⟩ ≠ none}

section Armed

variable (e : Engine) (sid s : SessionId)

@[simp] theorem armed_new (config : EngineConfig) : (new config).armed sid = ∅ := by
  ext kind
  simp [armed, new]

@[simp] theorem armed_push (dest : EngineId) (body : SegmentBody) :
    (e.push dest s body).armed sid = e.armed sid := rfl

@[simp] theorem armed_notify (notice : Notice) : (e.notify notice).armed sid = e.armed sid := rfl

@[simp] theorem armed_putSend (session : SendSession) :
    (e.putSend s session).armed sid = e.armed sid := rfl

@[simp] theorem armed_removeSend : (e.removeSend s).armed sid = e.armed sid := rfl

@[simp] theorem armed_putRecv (session : RecvSession) :
    (e.putRecv s session).armed sid = e.armed sid := rfl

@[simp] theorem armed_removeRecv : (e.removeRecv s).armed sid = e.armed sid := rfl

@[simp] theorem armed_recordClosed : (e.recordClosed s).armed sid = e.armed sid := rfl

@[simp] theorem armed_recordCancelled : (e.recordCancelled s).armed sid = e.armed sid := rfl

@[simp] theorem armed_sampleCheckpoint (source : EngineId) (record? : Option CheckpointRecord)
    (now : Nat) : (e.sampleCheckpoint source record? now).armed sid = e.armed sid := by
  cases record? with
  | none => rfl
  | some cp =>
    simp only [sampleCheckpoint]
    split <;> rfl

@[simp] theorem armed_sampleReport (session : RecvSession) (rec : ReportRecord) (now : Nat) :
    (e.sampleReport session rec now).armed sid = e.armed sid := by
  unfold sampleReport
  split <;> rfl

@[simp] theorem armed_setTimer (key : TimerKey) (deadline : Nat) :
    (e.setTimer key deadline).armed sid =
      if key.session = sid then insert key.kind (e.armed sid) else e.armed sid := by
  ext kind
  obtain ⟨session, kind'⟩ := key
  by_cases hs : session = sid
  · by_cases hk : kind = kind'
    · simp [armed, hs, hk]
    · simp [armed, hs, hk, Ne.symm hk]
  · simp [armed, hs]

@[simp] theorem armed_cancelTimer (key : TimerKey) :
    (e.cancelTimer key).armed sid =
      if key.session = sid then e.armed sid \ {key.kind} else e.armed sid := by
  ext kind
  obtain ⟨session, kind'⟩ := key
  by_cases hs : session = sid
  · by_cases hk : kind = kind'
    · simp [armed, hs, hk]
    · simp [armed, hs, hk, Ne.symm hk]
  · simp [armed, hs]

/-- Restarting the inactivity timer arms no other timer. -/
theorem armed_touchInactivity (isSender : Bool) (now : Nat) :
    e.armed sid ⊆ (e.touchInactivity sid isSender now).armed sid ∧
      ∀ k ∈ (e.touchInactivity sid isSender now).armed sid,
        k ∈ e.armed sid ∨ k = .inactivity isSender := by
  simp only [touchInactivity]
  split
  · simp only [armed_setTimer, TimerKey.inactivity_session, TimerKey.inactivity_kind, if_true]
    exact ⟨Set.subset_insert _ _, fun k hk => hk.symm⟩
  · exact ⟨subset_rfl, fun k => .inl⟩

@[simp] theorem armed_cancelSession_self : (e.cancelSession sid).armed sid = ∅ := by
  ext kind
  simp [armed]

end Armed

end Engine

end HdyUtils.Ltp
