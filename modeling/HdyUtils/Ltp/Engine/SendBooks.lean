import HdyUtils.Ltp.Engine.Books
import HdyUtils.Ltp.Engine.SendMove

/-! The books of the sending half: each checkpoint record is opened with the checkpoint's first
transmission, and only the checkpoint's own timer changes it. -/

namespace HdyUtils.Ltp

namespace Engine

/-! ### Sending -/

variable {sid : SessionId} {now : Nat}

theorem checkpoint_checkpointKind (isEorp isEob : Bool) (cp : Checkpoint) :
    (checkpointKind isEorp isEob cp).checkpoint = some cp := by
  cases isEorp <;> cases isEob <;> rfl

theorem timer_segment (record : CheckpointRecord) (s : SendSession) :
    (SegmentBody.data (record.segment s)).timer = some (.checkpoint record.serial.val) := by
  simp only [SegmentBody.timer, CheckpointRecord.segment, checkpoint_checkpointKind, Option.map_some]

/-- A session in hand under its own identifier, and what is put out on the way to the next one. -/
def SendEnters (sid : SessionId) (now : Nat) (st st' : Engine × SendSession) : Prop :=
  st'.2.id = sid ∧ ∃ out, Enters (.checkpoint sid) now out st.1 st.2.tally st'.1 st'.2.tally

theorem SendEnters.trans {st st' st'' : Engine × SendSession} (h : SendEnters sid now st st')
    (h' : SendEnters sid now st' st'') : SendEnters sid now st st'' := by
  obtain ⟨-, out, h⟩ := h
  obtain ⟨hid, out', h'⟩ := h'
  exact ⟨hid, _, h.trans h'⟩

/-- A session that is changed, but not in its records. -/
theorem SendEnters.congr {st st' : Engine × SendSession} (h : SendEnters sid now st st')
    {s : SendSession} (hid : s.id = st'.2.id) (hkept : s.checkpoints = st'.2.checkpoints) :
    SendEnters sid now st (st'.1, s) := by
  obtain ⟨hsid, out, h⟩ := h
  have htally : s.tally = st'.2.tally := by
    funext serial
    rw [SendSession.tally, hkept, SendSession.tally]
  exact ⟨hid.trans hsid, out, by rw [htally]; exact h⟩

theorem sendEnters_push (e : Engine) {s : SendSession} (hid : s.id = sid) (dest : EngineId)
    (body : SegmentBody) : SendEnters sid now (e, s) (e.push dest s.id body, s) :=
  ⟨hid, _, (Enters.refl _ now e s.tally).push dest s.id body⟩

/-- The record of a new checkpoint. -/
theorem sendEnters_issueCheckpoint (e : Engine) {s : SendSession} (hid : s.id = sid)
    (dest : EngineId) {record : CheckpointRecord} (hretries : record.retries = 0)
    (htime : record.transmittedAt = now) :
    SendEnters sid now (e, s) (e.issueCheckpoint s dest record now) := by
  subst hid
  have hpush := ((Enters.refl (.checkpoint s.id) now e s.tally).push dest s.id
    (.data (record.segment s))).setTimer (.checkpoint s.id record.serial.val)
    ((e.push dest s.id (.data (record.segment s))).peerTimeoutDeadline s.peer now)
  have hkey : TimerKey.checkpoint s.id record.serial.val ∈ timersOf
      ([] ++ [(dest, (Segment.plain s.id (.data (record.segment s))).encodeToVec)]) := by
    simp [timer_segment, TimerKey.checkpoint]
  refine ⟨rfl, _, hpush.enter hkey fun serial t ht => ?_⟩
  rw [SendSession.tally, issueCheckpoint, Maps.getElem?_insert] at ht
  split at ht
  · rename_i heq
    cases ht
    rw [CheckpointRecord.tally, hretries, htime]
    exact .inr ⟨heq.symm, rfl⟩
  · exact .inl ht

/-- A loop each of whose rounds enters what it puts out. -/
theorem sendEnters_foldl {β : Type*} {f : Engine × SendSession → β → Engine × SendSession}
    (hf : ∀ st b, st.2.id = sid → SendEnters sid now st (f st b)) {st : Engine × SendSession}
    (hid : st.2.id = sid) (l : List β) : SendEnters sid now st (l.foldl f st) := by
  induction l generalizing st with
  | nil => exact ⟨hid, _, .refl _ now _ _⟩
  | cons b l ih =>
    have hfirst := hf st b hid
    exact hfirst.trans (ih hfirst.1)

theorem sendEnters_sendRedSpan (st : Engine × SendSession) (span : Range) (hid : st.2.id = sid) :
    SendEnters sid now st (sendRedSpan now st span) := by
  obtain ⟨e, s⟩ := st
  simp only [sendRedSpan]
  split
  · exact sendEnters_issueCheckpoint e hid s.peer rfl rfl
  · exact sendEnters_push e hid s.peer _

theorem books_foldl_sendGreenSpan (s : SendSession) (spans : List Range) (e : Engine) (now : Nat) :
    ∃ out, Books now out e (spans.foldl (sendGreenSpan s) e) := by
  induction spans generalizing e with
  | nil => exact ⟨_, .refl now e⟩
  | cons span spans ih =>
    obtain ⟨out, hbooks⟩ := ih (sendGreenSpan s e span)
    exact ⟨_, (Books.push (.refl now e) s.peer s.id _).trans hbooks⟩

theorem books_openSession (e : Engine) {s : SendSession} (hcps : s.checkpoints = ∅) (now : Nat) :
    ∃ out, Books now out e (e.openSession s now) := by
  have hred : SendEnters s.id now (e, s)
      ((chunkSpans e.config.mtu 0 s.redLen).foldl (sendRedSpan now) (e, s)) :=
    sendEnters_foldl sendEnters_sendRedSpan rfl _
  rw [openSession]
  generalize (chunkSpans e.config.mtu 0 s.redLen).foldl (sendRedSpan now) (e, s) = st at hred ⊢
  obtain ⟨e₁, s₁⟩ := st
  obtain ⟨hid, out, henters⟩ := hred
  simp only at hid henters ⊢
  obtain ⟨out', hgreen⟩ := books_foldl_sendGreenSpan s₁
    (chunkSpans e₁.config.mtu s₁.redLen s₁.block.length) e₁ now
  have hbooks := henters.books.trans hgreen
  have hbooked : ∀ serial t, s₁.tally serial = some t →
      Booked now (out ++ out') e (.checkpoint s₁.id serial) t := by
    intro serial t ht
    rw [hid]
    refine (henters.booked (fun _ => rfl) (fun serial t hold => ?_) serial t ht).append_right out'
    simp [SendSession.tally, hcps] at hold
  refine ⟨out ++ out', ?_⟩
  unfold storeSend
  split
  · exact hbooks.notify _
  · exact (hbooks.touchInactivity s₁.id true now).putSend hbooked

theorem books_requestTransmission {e e' : Engine} {peer : EngineId} {clientService : UInt64}
    {block : Bytes} {redLen now : Nat}
    (h : e.requestTransmission peer clientService block redLen now = .ok (sid, e')) :
    ∃ out, Books now out e e' := by
  simp only [requestTransmission] at h
  split at h
  · cases h
  split at h
  · cases h
  cases h
  obtain ⟨out, hopen⟩ := books_openSession e.numberSession
    (s := .new e.nextSessionId peer clientService block redLen 0 now) rfl now
  have hnumber : Books now [] e e.numberSession :=
    (Books.refl now e).then_le rfl rfl (fun _ _ => id) fun _ _ => id
  exact ⟨_, hnumber.trans hopen⟩

/-! ### Answering a report -/

theorem sendEnters_retransmitChunk (dest : EngineId) (rs : ReportSegment)
    (st : Engine × SendSession) (chunk : Range × Bool) (hid : st.2.id = sid) :
    SendEnters sid now st (retransmitChunk dest rs now st chunk) := by
  obtain ⟨e, s⟩ := st
  obtain ⟨span, isFinalChunk⟩ := chunk
  have hnone : SendEnters sid now (e, s) (e, s) := ⟨hid, _, .refl _ now _ _⟩
  simp only [retransmitChunk]
  split
  · split
    · exact sendEnters_issueCheckpoint e hid dest rfl rfl
    · exact hnone.congr rfl rfl
  · split
    · exact sendEnters_push e hid dest _
    · exact hnone

theorem sendEnters_unstick (e : Engine) {s : SendSession} (hid : s.id = sid) (dest : EngineId)
    (rs : ReportSegment) : SendEnters sid now (e, s) (e.unstick s dest rs now) := by
  have hnone : SendEnters sid now (e, s) (e, s) := ⟨hid, _, .refl _ now _ _⟩
  unfold unstick
  generalize (if 0 < s.redLen then 1 else 0) = cpLen
  simp only
  split
  · exact sendEnters_issueCheckpoint e hid dest rfl rfl
  · exact hnone.congr rfl rfl

theorem sendEnters_answerReport (e : Engine) {s : SendSession} (hid : s.id = sid) (dest : EngineId)
    (rs : ReportSegment) : SendEnters sid now (e, s) (e.answerReport s dest rs now) := by
  have hgaps : SendEnters sid now (e, s)
      ((gapChunks e.config.mtu (scopeGaps s rs)).foldl (retransmitChunk dest rs now) (e, s)) :=
    sendEnters_foldl (sendEnters_retransmitChunk dest rs) hid _
  rw [answerReport]
  generalize (gapChunks e.config.mtu (scopeGaps s rs)).foldl (retransmitChunk dest rs now) (e, s) = st
    at hgaps ⊢
  obtain ⟨e₁, s₁⟩ := st
  simp only
  split
  · exact hgaps.trans (sendEnters_unstick e₁ hgaps.1 dest rs)
  · exact hgaps

/-- The session is stored, or has ended. -/
theorem books_settleSend {e e₁ : Engine} {s : SendSession} {out : List (EngineId × Bytes)}
    (h : Books now out e e₁)
    (hs : ∀ serial t, s.tally serial = some t → Booked now out e (.checkpoint sid serial) t) :
    Books now out e (e₁.settleSend sid s) := by
  unfold settleSend
  split
  · exact ((h.notify _).removeSend sid).cancelSession sid
  · exact h.putSend hs

/-- A report takes the record of its checkpoint away. -/
theorem tally_heard (s : SendSession) (rs : ReportSegment) (now : Nat) (serial : UInt64) (t : Tally)
    (h : (s.heard rs now).tally serial = some t) : s.tally serial = some t := by
  rw [SendSession.tally, SendSession.heard, Maps.getElem?_erase] at h
  split at h
  · cases h
  · exact h

theorem books_handleIncomingReport (e : Engine) (source : EngineId) (rs : ReportSegment) (now : Nat)
    (hid : ∀ s, e.sendSessions[sid]? = some s → s.id = sid) :
    ∃ out, Books now out (e.applySample (e.reportSample source sid rs now))
      (e.handleIncomingReport source sid rs now) := by
  have hpush : Books now _ e ((e.push source sid (.reportAck rs.reportSerial.val)).cancelTimer
      (.checkpoint sid rs.checkpointSerial)) := ((Books.refl now e).push source sid _).cancelTimer _
  cases hs : e.sendSessions[sid]? with
  | none =>
    simp only [handleIncomingReport, reportSample, cancelTimer_sendSessions, push_sendSessions, hs]
    exact ⟨_, hpush⟩
  | some s =>
    simp only [handleIncomingReport, reportSample, cancelTimer_sendSessions, push_sendSessions, hs]
    by_cases hreason : s.cancelReason.isSome = true
    · simp only [Option.bind_some, hreason, if_true]
      exact ⟨_, hpush⟩
    simp only [Option.bind_some, hreason, Bool.false_eq_true, if_false]
    rw [sampleCheckpoint_eq _ _ sid]
    generalize (s.tally rs.checkpointSerial).bind _ = sample
    have hid' := hid s hs
    -- the books up to the sample, and the records without the one that the report is for
    have hsampled := ((((Enters.refl (.checkpoint sid) now e s.tally).push source sid
      (.reportAck rs.reportSerial.val)).cancelTimer (.checkpoint sid rs.checkpointSerial)
      ).touchInactivity sid true now).sampled (by simp) sample
    have hheard : Enters (.checkpoint sid) now _ _ s.tally _ (s.heard rs now).tally :=
      hsampled.fewer (tally_heard s rs now)
    have hold : ∀ serial t, s.tally serial = some t →
        (e.applySample sample).tally (.checkpoint sid serial) = some t := by
      intro serial t ht
      rw [tally_checkpoint, applySample_sendSessions, hs]
      exact ht
    split
    · exact ⟨_, hheard.books.putSend (hheard.booked (fun _ => rfl) hold)⟩
    · obtain ⟨-, out, hanswer⟩ : SendEnters sid now _ _ :=
        sendEnters_answerReport _ (show (s.claim rs now).id = sid from hid') source rs
      have hboth := hheard.trans hanswer
      exact ⟨_, books_settleSend hboth.books (hboth.booked (fun _ => rfl) hold)⟩

/-! ### Timeouts -/

theorem silent_cancelSendSession (e : Engine) {s : SendSession} (hs : e.sendSessions[sid]? = some s)
    (now : Nat) : Silent now e (e.cancelSendSession sid s .rlexc now) := by
  have hkept : (s.cancelling .rlexc).checkpoints = s.checkpoints := rfl
  have hbooks := ((((Books.refl now e).keepSend hs hkept).push s.peer sid (.cancelSender .rlexc)
    ).setTimer (.cancel sid true) (((e.putSend sid (s.cancelling .rlexc)).push s.peer sid
      (.cancelSender .rlexc)).peerTimeoutDeadline s.peer now)).notify
        (.transmissionSessionCancelled sid .rlexc)
  exact hbooks.silent (by simp [SegmentBody.timer])

/-- The checkpoint's timer sends it again, or gives the session up. -/
theorem resends_handleCpTimeout (e : Engine) (sid : SessionId) (serial : UInt64) (now : Nat)
    (hserial : ∀ t, e.tally (.checkpoint sid serial) = some t → t.serial = serial) :
    Silent now e (e.handleCpTimeout sid serial now) ∨
      ∃ out, Resends (.checkpoint sid serial) out e (e.handleCpTimeout sid serial now) := by
  cases hs : e.sendSessions[sid]? with
  | none =>
    rw [handleCpTimeout, hs]
    exact .inl ⟨[], rfl, .refl now e⟩
  | some s =>
    cases hcp : s.checkpoints[serial]? with
    | none =>
      simp only [handleCpTimeout, hs, hcp]
      exact .inl ⟨[], rfl, .refl now e⟩
    | some cp =>
      simp only [handleCpTimeout, hs, hcp]
      split
      · have htally : e.tally (.checkpoint sid serial) = some cp.tally := by
          simp [hs, SendSession.tally, hcp]
        have hcpSerial : cp.serial.val = serial := hserial _ htally
        refine .inr ⟨_, rfl, rfl, ?_, ⟨cp.tally, htally, ?_⟩, fun key hkey => ?_⟩
        · rw [timersOf_singleton, timer_segment, hcpSerial]
          rfl
        · simp [SendSession.tally, CheckpointRecord.tally]
        · refine tally_putSend_of_ne hs (fun serial' hne => ?_) hkey
          simp [SendSession.tally, hne.symm]
      · exact .inl (silent_cancelSendSession e hs now)

end Engine

end HdyUtils.Ltp
