import HdyUtils.Ltp.Engine.Sending

/-! Everything that can happen to a send session.  A `SendMove` leads from one view of the session to
the next, with the segments and notices that come of it; each handler of the sending half makes
one. -/

namespace HdyUtils.Ltp

open Runs

/-- A send session, if the engine has it, and the timers that are armed for it. -/
@[ext] structure SendView where
  session : Option SendSession
  armed : Set TimerKind

/-- What makes a send session move. -/
inductive SendTrigger
  | request (peer : EngineId) (transfer : Transfer)
  | report (source : EngineId) (rs : ReportSegment)
  | peerCancel (source : EngineId) (reason : CancelReason)
  | cancelAck
  | expired (kind : TimerKind) (now : Nat)

namespace SendSession

/-- The session once a report has arrived for a checkpoint. -/
def heard (s : SendSession) (rs : ReportSegment) (now : Nat) : SendSession :=
  { s with lastActivity := now, checkpoints := s.checkpoints.erase rs.checkpointSerial }

/-- The session once a report has been counted. -/
def claim (s : SendSession) (rs : ReportSegment) (now : Nat) : SendSession :=
  { s.heard rs now with
    reportSerialsSeen := s.reportSerialsSeen.insert rs.reportSerial.val
    claimsReceived := Engine.recordClaims s.redLen rs.lowerBound rs.claims s.claimsReceived }

/-- The timers that the session acts on when they expire. -/
def Expects (s : SendSession) : TimerKind → Prop
  | .checkpoint serial => serial ∈ s.checkpoints
  | .cancel isSender | .inactivity isSender => isSender = true
  | .report _ => False

/-- The session once its cancellation has started. -/
def cancelling (s : SendSession) (reason : CancelReason) : SendSession :=
  { s with cancelReason := some reason, cancelRetries := 1 }

theorem Sound.claim {s : SendSession} {sid : SessionId} {maxBlockSize : Nat}
    (h : s.Sound sid maxBlockSize) (rs : ReportSegment) (now : Nat) :
    (s.claim rs now).Sound sid maxBlockSize :=
  { h with
    records := fun serial cp hcp => by
      rw [SendSession.claim, heard, Maps.getElem?_erase] at hcp
      split at hcp
      · cases hcp
      · exact h.records serial cp hcp }

end SendSession

/-- A session that was last active at `lastActivity` has timed out at `now`. -/
def EngineConfig.TimedOut (config : EngineConfig) (lastActivity now : Nat) : Prop :=
  0 < config.sessionInactivityTimeoutMicros ∧
    config.sessionInactivityTimeoutMicros ≤ now - lastActivity

instance (config : EngineConfig) (lastActivity now : Nat) :
    Decidable (config.TimedOut lastActivity now) :=
  inferInstanceAs (Decidable (_ ∧ _))

theorem Engine.timedOut_iff {e : Engine} {lastActivity now : Nat} :
    e.timedOut lastActivity now = true ↔ e.config.TimedOut lastActivity now := by
  simp [Engine.timedOut, EngineConfig.TimedOut]

/-- The answer of session `s` to a fresh report: `s'` is the session afterwards and `armed'` are its
timers. -/
structure SendAnswer (config : EngineConfig) (sid : SessionId) (source : EngineId)
    (rs : ReportSegment) (now : Nat) (s : SendSession) (armed : Set TimerKind)
    (pushes : List Push) (spans : List Range) (s' : SendSession) (armed' : Set TimerKind) :
    Prop where
  open_ : s.cancelReason = none
  fresh : rs.reportSerial.val ∉ s.reportSerialsSeen
  session : (s.claim rs now).UpToCheckpoints s'
  sound : s'.Sound sid config.maxBlockSize.toNat
  data : List.Forall₂ (Push.Carries s.transfer source) pushes spans
  gaps : ∀ x, Covers (Engine.scopeGaps (s.claim rs now) rs) x → Covers spans x
  record : s'.claimsReceived.covers ⟨0, s'.redLen⟩ = false → ∃ serial, serial ∈ s'.checkpoints
  armed_record : ∀ serial, serial ∈ s'.checkpoints →
    (serial ∈ s.checkpoints ∧ serial ≠ rs.checkpointSerial) ∨ .checkpoint serial ∈ armed'
  armed_old : ∀ k ∈ armed, k ≠ .checkpoint rs.checkpointSerial → k ∈ armed'
  armed_new : ∀ k ∈ armed',
    k ∈ armed ∨ k = .inactivity true ∨ ∃ serial, k = .checkpoint serial

inductive SendMove (config : EngineConfig) (sid : SessionId) :
    SendTrigger → SendView → List Push → List Notice → SendView → Prop
  | openGreen {peer t v pushes spans} (hred : t.redLen = 0)
      (hsize : t.block.length ≤ config.maxBlockSize.toNat)
      (hdata : List.Forall₂ (Push.Carries t peer) pushes spans) :
      SendMove config sid (.request peer t) v pushes [.transmissionSessionCompleted sid] v
  | openRed {t v pushes spans s armed} (hsound : s.Sound sid config.maxBlockSize.toNat)
      (htransfer : s.transfer = t) (hopen : s.cancelReason = none)
      (hclaims : s.claimsReceived = .new) (hseen : s.reportSerialsSeen = ∅)
      (hrecord : ∃ serial, serial ∈ s.checkpoints)
      (hdata : List.Forall₂ (Push.Carries t s.peer) pushes spans)
      (harmed : ∀ serial, serial ∈ s.checkpoints → .checkpoint serial ∈ armed)
      (hnew : ∀ k ∈ armed, k ∈ v.armed ∨ k = .inactivity true ∨ ∃ serial, k = .checkpoint serial)
      (hsent : s.eobSent = true) :
      SendMove config sid (.request s.peer t) v pushes [] ⟨some s, armed⟩
  | reportIgnored {source rs v} (h : ∀ s, v.session = some s → s.cancelReason.isSome) :
      SendMove config sid (.report source rs) v [(source, .reportAck rs.reportSerial.val)] []
        ⟨v.session, v.armed \ {.checkpoint rs.checkpointSerial}⟩
  | reportRepeated {source rs now s armed armed'} (hopen : s.cancelReason = none)
      (hseen : rs.reportSerial.val ∈ s.reportSerialsSeen)
      (hold : ∀ k ∈ armed, k ≠ .checkpoint rs.checkpointSerial → k ∈ armed')
      (hnew : ∀ k ∈ armed', k ∈ armed ∨ k = .inactivity true) :
      SendMove config sid (.report source rs) ⟨some s, armed⟩
        [(source, .reportAck rs.reportSerial.val)] [] ⟨some (s.heard rs now), armed'⟩
  | reportAnswered {source rs now s armed pushes spans s' armed'}
      (h : SendAnswer config sid source rs now s armed pushes spans s' armed')
      (hincomplete : s'.isComplete = false) :
      SendMove config sid (.report source rs) ⟨some s, armed⟩
        ((source, .reportAck rs.reportSerial.val) :: pushes) [] ⟨some s', armed'⟩
  | reportCompleted {source rs now s armed pushes spans s' armed'}
      (h : SendAnswer config sid source rs now s armed pushes spans s' armed')
      (hcomplete : s'.isComplete = true) :
      SendMove config sid (.report source rs) ⟨some s, armed⟩
        ((source, .reportAck rs.reportSerial.val) :: pushes) [.transmissionSessionCompleted sid]
        ⟨none, ∅⟩
  | expiredIdle {kind now v} (h : ∀ s, v.session = some s → ¬s.Expects kind) :
      SendMove config sid (.expired kind now) v [] [] v
  | checkpointResent {serial now s cp armed} (hcp : s.checkpoints[serial]? = some cp)
      (hlimit : cp.retries < config.checkpointRtxLimit) :
      SendMove config sid (.expired (.checkpoint serial) now) ⟨some s, armed⟩
        [(s.peer, .data ({ cp with retries := cp.retries + 1 }.segment s))] []
        ⟨some { s with
          checkpoints := s.checkpoints.insert serial { cp with retries := cp.retries + 1 } },
          insert (.checkpoint serial) armed⟩
  | checkpointExhausted {serial now s cp armed} (hcp : s.checkpoints[serial]? = some cp)
      (hlimit : config.checkpointRtxLimit ≤ cp.retries) :
      SendMove config sid (.expired (.checkpoint serial) now) ⟨some s, armed⟩
        [(s.peer, .cancelSender .rlexc)] [.transmissionSessionCancelled sid .rlexc]
        ⟨some (s.cancelling .rlexc), insert (.cancel true) armed⟩
  | cancelResent {now s armed} (hlimit : s.cancelRetries < config.cancelRtxLimit) :
      SendMove config sid (.expired (.cancel true) now) ⟨some s, armed⟩
        [(s.peer, .cancelSender (s.cancelReason.getD .rlexc))] []
        ⟨some { s with cancelRetries := s.cancelRetries + 1 }, insert (.cancel true) armed⟩
  | cancelAbandoned {now s armed} (hlimit : config.cancelRtxLimit ≤ s.cancelRetries) :
      SendMove config sid (.expired (.cancel true) now) ⟨some s, armed⟩ [] [] ⟨none, ∅⟩
  | inactivityRearmed {now s armed armed'} (h : ¬config.TimedOut s.lastActivity now)
      (hold : armed ⊆ armed') (hnew : ∀ k ∈ armed', k ∈ armed ∨ k = .inactivity true) :
      SendMove config sid (.expired (.inactivity true) now) ⟨some s, armed⟩ [] []
        ⟨some s, armed'⟩
  | inactivityExpired {now s armed} (h : config.TimedOut s.lastActivity now) :
      SendMove config sid (.expired (.inactivity true) now) ⟨some s, armed⟩
        [(s.peer, .cancelSender .rlexc)] [.transmissionSessionCancelled sid .rlexc] ⟨none, ∅⟩
  | peerCancelled {source reason s armed} (hopen : s.cancelReason = none) :
      SendMove config sid (.peerCancel source reason) ⟨some s, armed⟩
        [(source, .cancelAckReceiver)] [.transmissionSessionCancelled sid reason] ⟨none, ∅⟩
  | peerCancelledAgain {source reason v} (h : ∀ s, v.session = some s → s.cancelReason.isSome) :
      SendMove config sid (.peerCancel source reason) v [(source, .cancelAckReceiver)] []
        ⟨none, ∅⟩
  | cancelAcked {v} : SendMove config sid .cancelAck v [] [] ⟨none, ∅⟩

namespace Engine

@[simps] def sendView (e : Engine) (sid : SessionId) : SendView where
  session := e.sendSessions[sid]?
  armed := e.armed sid

/-- `e'` follows from `e` by a move of send session `sid`. -/
structure MovesSend (sid : SessionId) (trigger : SendTrigger) (pushes : List Push)
    (notices : List Notice) (e e' : Engine) : Prop where
  acts : Acts sid pushes notices e e'
  move : SendMove e.config sid trigger (e.sendView sid) pushes notices (e'.sendView sid)
  recv : e.recvSessions[sid]? = none → e'.recvSessions[sid]? = none

theorem MovesSend.of_views {sid : SessionId} {trigger : SendTrigger} {p : List Push}
    {n : List Notice} {e e' : Engine} {v v' : SendView} (hv : e.sendView sid = v)
    (hmove : SendMove e.config sid trigger v p n v') (hacts : Acts sid p n e e')
    (hv' : e'.sendView sid = v') (hrecv : e.recvSessions[sid]? = none → e'.recvSessions[sid]? = none) :
    MovesSend sid trigger p n e e' where
  acts := hacts
  move := by rw [hv, hv']; exact hmove
  recv := hrecv

section Timeouts

variable {sid : SessionId} (e : Engine)

theorem sendView_eq {s : SendSession} (h : e.sendSessions[sid]? = some s) :
    e.sendView sid = ⟨some s, e.armed sid⟩ := by
  rw [sendView, h]

theorem movesSend_idle {kind : TimerKind} (h : ∀ s, e.sendSessions[sid]? = some s → ¬s.Expects kind)
    (now : Nat) : MovesSend sid (.expired kind now) [] [] e e where
  acts := .refl _ e
  move := .expiredIdle h
  recv := id

theorem movesSend_handleCpTimeout (serial : UInt64) (now : Nat) :
    ∃ pushes notices, MovesSend sid (.expired (.checkpoint serial) now) pushes notices e
      (e.handleCpTimeout sid serial now) := by
  cases hs : e.sendSessions[sid]? with
  | none =>
    rw [handleCpTimeout, hs]
    exact ⟨_, _, movesSend_idle e (by simp [hs]) now⟩
  | some s =>
    cases hcp : s.checkpoints[serial]? with
    | none =>
      simp only [handleCpTimeout, hs, hcp]
      refine ⟨_, _, movesSend_idle e (fun s' hs' => ?_) now⟩
      rw [hs] at hs'
      cases hs'
      simp [SendSession.Expects, Std.TreeMap.mem_iff_isSome_getElem?, hcp]
    | some cp =>
      simp only [handleCpTimeout, hs, hcp]
      split
      · rename_i hlt
        exact ⟨_, _, .of_views (sendView_eq e hs) (.checkpointResent hcp hlt)
          ((((Acts.refl _ e).putSend _).push _ _).setTimer _ _) (by simp [sendView]) id⟩
      · rename_i hle
        exact ⟨_, _, .of_views (sendView_eq e hs) (.checkpointExhausted hcp (not_lt.mp hle))
          (((((Acts.refl _ e).putSend _).push _ _).setTimer _ _).notify _)
          (by simp [sendView, cancelSendSession, SendSession.cancelling]) id⟩

theorem movesSend_handleCancelTimeout (now : Nat) :
    ∃ pushes notices, MovesSend sid (.expired (.cancel true) now) pushes notices e
      (e.handleCancelTimeout sid true now) := by
  cases hs : e.sendSessions[sid]? with
  | none =>
    simp only [handleCancelTimeout, hs, if_true]
    exact ⟨_, _, movesSend_idle e (by simp [hs]) now⟩
  | some s =>
    simp only [handleCancelTimeout, hs, if_true]
    split
    · rename_i hlt
      exact ⟨_, _, .of_views (sendView_eq e hs) (.cancelResent hlt)
        ((((Acts.refl _ e).putSend _).push _ _).setTimer _ _) (by simp [sendView]) id⟩
    · rename_i hle
      exact ⟨_, _, .of_views (sendView_eq e hs) (.cancelAbandoned (not_lt.mp hle))
        (((Acts.refl _ e).removeSend).cancelSession).recordCancelled (by simp [sendView]) id⟩

theorem movesSend_handleInactivityTimeout (now : Nat) :
    ∃ pushes notices, MovesSend sid (.expired (.inactivity true) now) pushes notices e
      (e.handleInactivityTimeout sid true now) := by
  cases hs : e.sendSessions[sid]? with
  | none =>
    simp only [handleInactivityTimeout, hs, if_true]
    exact ⟨_, _, movesSend_idle e (by simp [hs]) now⟩
  | some s =>
    simp only [handleInactivityTimeout, hs, if_true]
    split
    · rename_i hto
      exact ⟨_, _, .of_views (sendView_eq e hs) (.inactivityExpired (timedOut_iff.mp hto))
        ((((Acts.refl _ e).removeSend).cancelSession).recordCancelled.push _ _ |>.notify _)
        (by simp [sendView]) id⟩
    · rename_i hto
      rw [timedOut_iff] at hto
      unfold rearmInactivity
      simp only
      split
      · exact ⟨_, _, .of_views (sendView_eq e hs)
          (.inactivityRearmed hto (Set.subset_insert _ _) fun k hk => hk.symm)
          ((Acts.refl _ e).setTimer _ _) (by simp [sendView, hs]) id⟩
      · exact ⟨_, _, .of_views (sendView_eq e hs)
          (.inactivityRearmed hto subset_rfl fun k => .inl) (.refl _ e) (sendView_eq e hs) id⟩

end Timeouts

section Incoming

variable {sid : SessionId} (e : Engine)

theorem movesSend_handleIncomingCancel (source : EngineId) (reason : CancelReason)
    (hrecv : e.recvSessions[sid]? = none) :
    ∃ pushes notices, MovesSend sid (.peerCancel source reason) pushes notices e
      (e.handleIncomingCancel source sid reason false) := by
  have hacts := (((((Acts.refl sid e).push source .cancelAckReceiver).removeSend).removeRecv
    ).cancelSession).recordCancelled
  simp only [handleIncomingCancel, Bool.false_eq_true, if_false, push_sendSessions,
    push_recvSessions, hrecv, Bool.or_false]
  cases hs : e.sendSessions[sid]? with
  | none =>
    exact ⟨_, _, .of_views rfl (.peerCancelledAgain (by simp [hs])) hacts (by simp [sendView])
      (by simp)⟩
  | some s =>
    cases hreason : s.cancelReason with
    | none =>
      simp only [hreason, Option.isNone_none, if_true]
      exact ⟨_, _, .of_views (sendView_eq e hs) (.peerCancelled hreason) (hacts.notify _)
        (by simp [sendView]) (by simp)⟩
    | some r =>
      simp only [hreason, Option.isNone_some, Bool.false_eq_true, if_false]
      exact ⟨_, _, .of_views (sendView_eq e hs) (.peerCancelledAgain (by simp [hreason])) hacts
        (by simp [sendView]) (by simp)⟩

theorem movesSend_handleIncomingCancelAck :
    ∃ pushes notices, MovesSend sid .cancelAck pushes notices e
      (e.handleIncomingCancelAck sid true) :=
  ⟨_, _, .of_views rfl .cancelAcked
    ((((Acts.refl _ e).cancelTimer _).removeSend).cancelSession).recordCancelled
    (by simp [sendView, handleIncomingCancelAck]) id⟩

/-- The engine once the acknowledgment of a report is out, the checkpoint's timer is off and the
inactivity timer is on. -/
structure Heard (sid : SessionId) (source : EngineId) (rs : ReportSegment) (e e' : Engine) :
    Prop where
  acts : Acts sid [(source, .reportAck rs.reportSerial.val)] [] e e'
  send : e'.sendSessions = e.sendSessions
  recv : e'.recvSessions = e.recvSessions
  armed_old : ∀ k ∈ e.armed sid, k ≠ .checkpoint rs.checkpointSerial → k ∈ e'.armed sid
  armed_new : ∀ k ∈ e'.armed sid, k ∈ e.armed sid ∨ k = .inactivity true

theorem heard_sampleCheckpoint (sid : SessionId) (e : Engine) (source : EngineId) (rs : ReportSegment)
    (record? : Option CheckpointRecord) (now : Nat) :
    Heard sid source rs e ((((e.push source sid (.reportAck rs.reportSerial.val)).cancelTimer
      (.checkpoint sid rs.checkpointSerial)).touchInactivity sid true now).sampleCheckpoint source
        record? now) := by
  have harmed : ((e.push source sid (.reportAck rs.reportSerial.val)).cancelTimer
      (.checkpoint sid rs.checkpointSerial)).armed sid =
      e.armed sid \ {.checkpoint rs.checkpointSerial} := by simp
  obtain ⟨hold, hnew⟩ := armed_touchInactivity ((e.push source sid
    (.reportAck rs.reportSerial.val)).cancelTimer (.checkpoint sid rs.checkpointSerial)) sid true now
  rw [harmed] at hold hnew
  refine ⟨((((Acts.refl _ e).push _ _).cancelTimer _).touchInactivity true now).sampleCheckpoint _ _ _,
    by simp, by simp, fun k hk hne => ?_, fun k hk => ?_⟩
  · rw [armed_sampleCheckpoint]
    exact hold ⟨hk, hne⟩
  · rw [armed_sampleCheckpoint] at hk
    exact (hnew k hk).imp_left And.left

/-- The answer to a fresh report and what becomes of the session. -/
theorem movesSend_answer {e₁ : Engine} {s : SendSession} {source : EngineId} {rs : ReportSegment}
    {now : Nat} (h : Heard sid source rs e e₁) (hs : e.sendSessions[sid]? = some s)
    (hsound : s.Sound sid e.config.maxBlockSize.toNat) (hopen : s.cancelReason = none)
    (hfresh : rs.reportSerial.val ∉ s.reportSerialsSeen) :
    ∃ pushes notices, MovesSend sid (.report source rs) pushes notices e
      ((e₁.answerReport (s.claim rs now) source rs now).1.settleSend sid
        (e₁.answerReport (s.claim rs now) source rs now).2) := by
  have hclaim := hsound.claim rs now
  obtain ⟨⟨pushes, spans, hsends, hgaps⟩, hrecord⟩ := sends_answerReport e₁ hclaim source rs now
  generalize e₁.answerReport (s.claim rs now) source rs now = st at hsends hrecord ⊢
  obtain ⟨e₂, s'⟩ := st
  simp only at hsends hrecord ⊢
  have hacts := h.acts.trans hsends.acts
  have hrecv : e.recvSessions[sid]? = none → e₂.recvSessions[sid]? = none := fun hnone => by
    rw [hsends.recv, h.recv, hnone]
  have hred : s'.redLen = s.redLen := congrArg Transfer.redLen hsends.session.transfer_eq
  have hanswer : SendAnswer e.config sid source rs now s (e.armed sid) pushes spans s'
      (e₂.armed sid) :=
    { open_ := hopen
      fresh := hfresh
      session := hsends.session
      sound := hsends.sound _ hclaim
      data := hsends.data
      gaps := hgaps
      record := fun hcov => hrecord (by
        rw [hred, hsends.session.claims_eq] at hcov
        exact hcov)
      armed_record := fun serial hserial => (hsends.armed_record serial hserial).imp_left fun hold => by
        obtain ⟨hne, hmem⟩ := (Maps.mem_map_erase s.checkpoints _ _).mp hold
        exact ⟨hmem, hne.symm⟩
      armed_old := fun k hk hne => hsends.armed_old (h.armed_old k hk hne)
      armed_new := fun k hk => by
        rcases hsends.armed_new k hk with hk | hk
        · exact (h.armed_new k hk).imp_right .inl
        · exact .inr (.inr hk) }
  unfold settleSend
  split
  · rename_i hcomplete
    exact ⟨_, _, .of_views (sendView_eq e hs) (.reportCompleted hanswer hcomplete)
      ((hacts.notify _).removeSend).cancelSession (by simp [sendView]) hrecv⟩
  · rename_i hcomplete
    exact ⟨_, _, .of_views (sendView_eq e hs)
      (.reportAnswered hanswer (Bool.eq_false_iff.mpr hcomplete)) (hacts.putSend _)
      (by simp [sendView]) hrecv⟩

theorem movesSend_handleIncomingReport {source : EngineId} {rs : ReportSegment} {now : Nat}
    (hsound : ∀ s, e.sendSessions[sid]? = some s → s.Sound sid e.config.maxBlockSize.toNat) :
    ∃ pushes notices, MovesSend sid (.report source rs) pushes notices e
      (e.handleIncomingReport source sid rs now) := by
  have hignored : (∀ s, e.sendSessions[sid]? = some s → s.cancelReason.isSome) →
      ∃ pushes notices, MovesSend sid (.report source rs) pushes notices e
        ((e.push source sid (.reportAck rs.reportSerial.val)).cancelTimer
          (.checkpoint sid rs.checkpointSerial)) := fun h =>
    ⟨_, _, .of_views rfl (.reportIgnored h) (((Acts.refl _ e).push _ _).cancelTimer _)
      (by simp [sendView]) id⟩
  cases hs : e.sendSessions[sid]? with
  | none =>
    simp only [handleIncomingReport, cancelTimer_sendSessions, push_sendSessions, hs]
    exact hignored (by simp [hs])
  | some s =>
    simp only [handleIncomingReport, cancelTimer_sendSessions, push_sendSessions, hs]
    by_cases hreason : s.cancelReason.isSome = true
    · simp only [hreason, if_true]
      exact hignored (by simp [hs, hreason])
    · have hopen : s.cancelReason = none := by simpa using hreason
      have hheard := heard_sampleCheckpoint sid e source rs
        s.checkpoints[rs.checkpointSerial]? now
      simp only [hreason, Bool.false_eq_true, if_false]
      split
      · rename_i hseen
        have hmove : SendMove e.config sid (.report source rs) ⟨some s, e.armed sid⟩ _ _
            ⟨some (s.heard rs now), _⟩ := .reportRepeated hopen
          (Std.TreeSet.contains_iff_mem.mp hseen) hheard.armed_old hheard.armed_new
        exact ⟨_, _, .of_views (sendView_eq e hs) hmove (hheard.acts.putSend _)
          (by simp [sendView, SendSession.heard]) (by simp)⟩
      · rename_i hseen
        exact movesSend_answer e hheard hs (hsound s hs) hopen
          (mt Std.TreeSet.contains_iff_mem.mpr hseen)

end Incoming

section Request

variable {sid : SessionId}

/-- What the green part of a request adds to the output. -/
theorem foldl_sendGreenSpan {s : SendSession} {spans : List Range}
    (h : ∀ span ∈ spans, span.start < span.stop ∧ s.redLen ≤ span.start ∧
      span.stop ≤ s.block.length) (e : Engine) :
    ∃ pushes, spans.foldl (sendGreenSpan s) e =
        { e with outbound := e.outbound ++ pushes.map (Push.wire s.id) } ∧
      List.Forall₂ (Push.Carries s.transfer s.peer) pushes spans := by
  induction spans generalizing e with
  | nil => exact ⟨[], by simp, .nil⟩
  | cons span spans ih =>
    obtain ⟨hne, hred, hle⟩ := h span (by simp)
    obtain ⟨pushes, heq, hall⟩ := ih (fun t ht => h t (by simp [ht])) (sendGreenSpan s e span)
    refine ⟨(s.peer, .data (s.dataSegment
      (if span.stop == s.block.length then .greenEob else .green) span)) :: pushes, ?_,
      .cons ⟨_, rfl, SendSession.cuts_green hne hred hle, rfl, ?_⟩ hall⟩
    · rw [List.foldl_cons, heq]
      simp [sendGreenSpan, push, Push.wire]
    · rw [SendSession.dataSegment, SendSession.length_slice hle]
      simp only
      omega

theorem acts_outbound (e : Engine) (pushes : List Push) :
    Acts sid pushes [] e { e with outbound := e.outbound ++ pushes.map (Push.wire sid) } :=
  { Acts.refl _ e with outbound := rfl }

/-- Opening a session sends the whole block.  Without a red part the session is complete at once, and
otherwise it is stored. -/
theorem openSession_cases (e : Engine) {s : SendSession}
    (hsize : s.block.length ≤ e.config.maxBlockSize.toNat) (hle : s.redLen ≤ s.block.length)
    (hcps : s.checkpoints = ∅) (hclaims : s.claimsReceived = .new) (now : Nat) :
    (s.redLen = 0 ∧ ∃ pushes spans,
      e.openSession s now = ({ e with outbound := e.outbound ++ pushes.map (Push.wire s.id) }).notify
        (.transmissionSessionCompleted s.id) ∧
      List.Forall₂ (Push.Carries s.transfer s.peer) pushes spans) ∨
    s.Sound s.id e.config.maxBlockSize.toNat ∧
      ∃ redPushes redSpans greenPushes greenSpans e₁ s₁,
        Sends s.id s.peer redPushes redSpans e s e₁ s₁ ∧
        (∃ serial, serial ∈ s₁.checkpoints) ∧
        List.Forall₂ (Push.Carries s.transfer s.peer) greenPushes greenSpans ∧
        e.openSession s now =
          (({ e₁ with outbound := e₁.outbound ++ greenPushes.map (Push.wire s.id) } : Engine
            ).touchInactivity s.id true now).putSend s.id { s₁ with eobSent := true } := by
  have hmtu := e.config.mtu_pos
  have hgreen : ∀ span ∈ chunkSpans e.config.mtu s.redLen s.block.length,
      span.start < span.stop ∧ s.redLen ≤ span.start ∧ span.stop ≤ s.block.length :=
    fun span hspan =>
      have hbounds := chunkSpans_bounds hmtu hspan
      ⟨hbounds.2.1, hbounds.1, hbounds.2.2⟩
  rcases Nat.eq_zero_or_pos s.redLen with hzero | hpos
  · obtain ⟨pushes, hfold, hdata⟩ := foldl_sendGreenSpan hgreen e
    have hcomplete : ({ s with eobSent := true } : SendSession).isComplete = true := by
      simp [SendSession.isComplete, hzero, RangeSet.covers_iff]
    refine .inl ⟨hzero, pushes, _, ?_, hdata⟩
    rw [openSession, hzero]
    simp only [chunkSpans, Nat.sub_self, chunkSpansFrom, List.foldl_nil, storeSend, hcomplete,
      if_true]
    rw [← hfold, hzero, chunkSpans]
  · have hsound : s.Sound s.id e.config.maxBlockSize.toNat :=
      ⟨rfl, hpos, hle, hsize, fun serial cp hcp => by simp [hcps] at hcp⟩
    obtain ⟨⟨redPushes, hsends⟩, hrecord⟩ := sends_redPart e hsound hmtu now
    rw [openSession]
    generalize (chunkSpans e.config.mtu 0 s.redLen).foldl (sendRedSpan now) (e, s) = st
      at hsends hrecord ⊢
    obtain ⟨e₁, s₁⟩ := st
    simp only at hsends hrecord ⊢
    have hconfig := hsends.acts.config
    obtain ⟨lastCpSerial, checkpoints, hs₁⟩ := hsends.session
    have hgreen₁ : ∀ span ∈ chunkSpans e.config.mtu s.redLen s.block.length,
        span.start < span.stop ∧ s₁.redLen ≤ span.start ∧ span.stop ≤ s₁.block.length := by
      rw [hs₁]
      exact hgreen
    obtain ⟨greenPushes, hfold, hdata⟩ := foldl_sendGreenSpan hgreen₁ e₁
    have hid : s₁.id = s.id := by rw [hs₁]
    have hincomplete : ({ s₁ with eobSent := true } : SendSession).isComplete = false := by
      have hnot : s.claimsReceived.covers ⟨0, s.redLen⟩ = false := by
        rw [RangeSet.not_covers_iff, hclaims]
        exact ⟨0, le_rfl, hpos, RangeSet.not_mem_new 0⟩
      simp [hs₁, SendSession.isComplete, hnot]
    have hspans : chunkSpans e₁.config.mtu s₁.redLen s₁.block.length =
        chunkSpans e.config.mtu s.redLen s.block.length := by rw [hconfig, hs₁]
    rw [hsends.session.transfer_eq, hsends.session.peer_eq] at hdata
    refine .inr ⟨hsound, redPushes, _, greenPushes, _, e₁, s₁, hsends, hrecord, hdata, ?_⟩
    rw [hspans, hfold, storeSend, hincomplete, if_neg Bool.false_ne_true]
    simp only [hid]

/-- The move of a session that is about to open. -/
theorem movesSend_openSession (e : Engine) {s : SendSession} (hid : s.id = sid)
    (hsize : s.block.length ≤ e.config.maxBlockSize.toNat) (hle : s.redLen ≤ s.block.length)
    (hcps : s.checkpoints = ∅) (hopen : s.cancelReason = none) (hclaims : s.claimsReceived = .new)
    (hseen : s.reportSerialsSeen = ∅) (now : Nat) :
    ∃ pushes notices,
      MovesSend sid (.request s.peer s.transfer) pushes notices e (e.openSession s now) := by
  subst hid
  rcases openSession_cases e hsize hle hcps hclaims now with ⟨hzero, pushes, spans, heq, hdata⟩ |
    ⟨hsound, redPushes, redSpans, greenPushes, greenSpans, e₁, s₁, hsends, hrecord, hdata, heq⟩
  · rw [heq]
    exact ⟨pushes, _, .of_views rfl (.openGreen hzero hsize hdata)
      ((acts_outbound e pushes).notify _) rfl id⟩
  · rw [heq]
    generalize he₂ : ({ e₁ with outbound := e₁.outbound ++ greenPushes.map (Push.wire s.id) } :
      Engine) = e₂
    have hacts : Acts s.id (redPushes ++ greenPushes) [] e e₂ := by
      rw [← he₂]
      exact hsends.acts.trans (acts_outbound e₁ greenPushes)
    have harmed : e₂.armed s.id = e₁.armed s.id := by rw [← he₂]; rfl
    have hrecv : e₂.recvSessions = e.recvSessions := by rw [← he₂]; exact hsends.recv
    obtain ⟨hold, hnew⟩ := armed_touchInactivity e₂ s.id true now
    rw [harmed] at hold hnew
    have hsound₁ := hsends.sound _ hsound
    obtain ⟨lastCpSerial, checkpoints, rfl⟩ := hsends.session
    have hmove : SendMove e.config s.id (.request s.peer s.transfer) (e.sendView s.id)
        (redPushes ++ greenPushes) []
        ⟨some { s with lastCpSerial, checkpoints, eobSent := true },
          (e₂.touchInactivity s.id true now).armed s.id⟩ := by
      have hsound₂ : ({ s with lastCpSerial, checkpoints, eobSent := true } : SendSession).Sound
          s.id e.config.maxBlockSize.toNat := { hsound₁ with }
      refine .openRed hsound₂ rfl hopen hclaims hseen hrecord
        (List.rel_append hsends.data hdata) (fun serial hserial => ?_) (fun k hk => ?_) rfl
      · rcases hsends.armed_record serial hserial with h | h
        · simp [hcps] at h
        · exact hold h
      · rcases hnew k hk with h | h
        · exact (hsends.armed_new k h).imp_right .inr
        · exact .inr (.inl h)
    exact ⟨_, _, .of_views rfl hmove ((hacts.touchInactivity true now).putSend _)
      (by simp [sendView]) (by simp [hrecv])⟩

theorem movesSend_requestTransmission {e e' : Engine} {peer : EngineId} {clientService : UInt64}
    {block : Bytes} {redLen now : Nat}
    (h : e.requestTransmission peer clientService block redLen now = .ok (sid, e')) :
    sid = e.nextSessionId ∧ redLen ≤ block.length ∧ ∃ pushes notices,
      MovesSend sid (.request peer ⟨clientService, block, redLen⟩) pushes notices
        e.numberSession e' := by
  simp only [requestTransmission] at h
  split at h
  · cases h
  rename_i hsize
  split at h
  · cases h
  rename_i hred
  cases h
  exact ⟨rfl, not_lt.mp hred, movesSend_openSession e.numberSession
    (s := .new e.nextSessionId peer clientService block redLen 0 now) rfl (not_lt.mp hsize)
    (not_lt.mp hred) rfl rfl rfl rfl now⟩

end Request

end Engine

end HdyUtils.Ltp
