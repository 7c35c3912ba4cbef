import HdyUtils.Ltp.Engine.Books
import HdyUtils.Ltp.Engine.RecvMove

/-! The books of the receiving half: each report record is opened with the report's first transmission
and changed by the report's own timer, but a checkpoint that comes again sends the reports on it
again behind the books. -/

namespace HdyUtils.Ltp

namespace Engine

variable {sid : SessionId} {now : Nat}

theorem silent_initiateCancelReceiver (e : Engine) (sid : SessionId) (peer : EngineId)
    (reason : CancelReason) (now : Nat) :
    Silent now e (e.initiateCancelReceiver sid peer reason now) := by
  unfold initiateCancelReceiver
  cases hs : e.recvSessions[sid]? with
  | none => exact ⟨[], rfl, .refl now e⟩
  | some s =>
    have hkept : (s.cancelling reason).reports = s.reports := rfl
    have hbooks := ((((((Books.refl now e).keepRecv hs hkept).recordCancelled sid).push peer sid
      (.cancelReceiver reason)).setTimer (.cancel sid false)
        ((((e.putRecv sid (s.cancelling reason)).recordCancelled sid).push peer sid
          (.cancelReceiver reason)).peerTimeoutDeadline peer now)).notify
            (.transmissionSessionCancelled sid reason))
    exact hbooks.silent (by simp [SegmentBody.timer])

/-! ### Answering a checkpoint -/

/-- A report is put out again without a change of its record. -/
theorem enters_reemitReport (source : EngineId) (s : RecvSession) (e : Engine) (serial : UInt64) :
    ∃ out, Enters (.report sid) now out e s.tally (reemitReport source sid s now e serial) s.tally := by
  unfold reemitReport
  split
  · split
    · exact ⟨_, .refl _ now e _⟩
    · exact ⟨_, ((Enters.refl _ now e _).push source sid _).setTimer _ _⟩
  · exact ⟨_, .refl _ now e _⟩

theorem enters_foldl_reemitReport (source : EngineId) (s : RecvSession) (serials : List UInt64)
    (e : Engine) :
    ∃ out, Enters (.report sid) now out e s.tally
      (serials.foldl (reemitReport source sid s now) e) s.tally := by
  induction serials generalizing e with
  | nil => exact ⟨_, .refl _ now e _⟩
  | cons serial serials ih =>
    obtain ⟨out, hfirst⟩ := enters_reemitReport source s e serial
    obtain ⟨out', hrest⟩ := ih (reemitReport source sid s now e serial)
    exact ⟨_, hfirst.trans hrest⟩

/-- The record of a new report. -/
theorem enters_issueReport (e : Engine) (source : EngineId) (s : RecvSession)
    (report : ReportSegment) :
    ∃ out, Enters (.report sid) now out e s.tally (e.issueReport source sid s report now).1
      (e.issueReport source sid s report now).2.tally := by
  have hpush := ((Enters.refl (.report sid) now e s.tally).push source sid (.report report)).setTimer
    (.report sid report.reportSerial.val)
    ((e.push source sid (.report report)).peerTimeoutDeadline source now)
  have hkey : TimerKey.report sid report.reportSerial.val ∈ timersOf
      ([] ++ [(source, (Segment.plain sid (.report report)).encodeToVec)]) := by
    simp [SegmentBody.timer, TimerKey.report]
  refine ⟨_, hpush.enter hkey fun serial t ht => ?_⟩
  rw [RecvSession.tally, issueReport, Maps.getElem?_insert] at ht
  split at ht
  · rename_i heq
    cases ht
    exact .inr ⟨heq.symm, rfl⟩
  · exact .inl ht

/-- What a stage of the receiver leaves from the session in hand `s`, which the engine `e` may hold. -/
def Accounted (sid : SessionId) (now : Nat) (e : Engine) (s : RecvSession) :
    Except Engine (Engine × RecvSession) → Prop
  | .error e' => ∃ out, Books now out e e'
  | .ok (e', s') => ∃ out, Enters (.report sid) now out e s.tally e' s'.tally

/-- The tallies of the session in hand are those of the engine. -/
def InHand (sid : SessionId) (e : Engine) (s : RecvSession) : Prop :=
  ∀ serial t, s.tally serial = some t → e.tally (.report sid serial) = some t

theorem books_cancel {e e' : Engine} {s s' : RecvSession} {out : List (EngineId × Bytes)}
    (h : Enters (.report sid) now out e s.tally e' s'.tally) (hs : InHand sid e s)
    (peer : EngineId) (reason : CancelReason) :
    ∃ out, Books now out e ((e'.putRecv sid s').initiateCancelReceiver sid peer reason now) := by
  obtain ⟨out', -, hcancel⟩ := silent_initiateCancelReceiver (e'.putRecv sid s') sid peer reason now
  exact ⟨_, (h.books.putRecv (h.booked (fun _ => rfl) hs)).trans hcancel⟩

theorem accounted_issueChunkReports (source : EngineId) (cpSerial : UInt64)
    (upperBound numChunks : Nat) {e₀ : Engine} {s₀ : RecvSession} (hs₀ : InHand sid e₀ s₀)
    (chunks : List (List Range × Nat)) {e : Engine} {s : RecvSession} {out : List (EngineId × Bytes)}
    (h : Enters (.report sid) now out e₀ s₀.tally e s.tally) (rsSerials : List UInt64) :
    Accounted sid now e₀ s₀ ((issueChunkReports source sid cpSerial upperBound numChunks now chunks e
      s rsSerials).map fun st => (st.1, st.2.1)) := by
  induction chunks generalizing e s out rsSerials with
  | nil => exact ⟨out, h⟩
  | cons chunk chunks ih =>
    obtain ⟨chunk, chunkIdx⟩ := chunk
    unfold issueChunkReports
    split
    · exact books_cancel h hs₀ source .rlexc
    · obtain ⟨out', hissue⟩ : ∃ out', Enters (.report sid) now out' _ _ _ _ :=
        enters_issueReport e source s (chunkReport (nextNonzeroSerial s.lastReportSerial) cpSerial
          upperBound numChunks chunkIdx chunk)
      exact ih (h.trans hissue) _

theorem accounted_answerFreshCheckpoint (e : Engine) (source : EngineId) {s : RecvSession}
    (hs : InHand sid e s) (cpSerial : UInt64) (upperBound : Nat) :
    Accounted sid now e s (e.answerFreshCheckpoint source sid s cpSerial upperBound now) := by
  have hrefl := Enters.refl (.report sid) now e s.tally
  unfold answerFreshCheckpoint
  split
  · exact books_cancel hrefl hs source .rlexc
  simp only
  split
  · obtain ⟨out, hissue⟩ : ∃ out, Enters (.report sid) now out _ _ _ _ :=
      enters_issueReport e source s
        { reportSerial := nextNonzeroSerial s.lastReportSerial, checkpointSerial := cpSerial,
          upperBound, lowerBound := 0, claims := [] }
    exact ⟨out, hissue⟩
  · generalize chunks (max e.config.maxClaimsPerReport 1)
      (s.redReceived.runsWithin ⟨0, upperBound⟩) = parts
    have haccounted := accounted_issueChunkReports source cpSerial upperBound parts.length hs
      parts.zipIdx hrefl []
    generalize issueChunkReports source sid cpSerial upperBound parts.length now parts.zipIdx e s
      [] = result at haccounted ⊢
    cases result with
    | error e' => exact haccounted
    | ok st => exact haccounted

theorem accounted_answerCheckpoint (e : Engine) (source : EngineId) {s : RecvSession}
    (hs : InHand sid e s) (cpSerial : UInt64) (upperBound : Nat) :
    Accounted sid now e s (e.answerCheckpoint source sid s cpSerial upperBound now) := by
  unfold answerCheckpoint
  split
  · exact enters_foldl_reemitReport source s _ e
  · exact accounted_answerFreshCheckpoint e source hs cpSerial upperBound

/-! ### Data -/

theorem tally_delivered (s : RecvSession) : s.delivered.tally = s.tally := by
  unfold RecvSession.delivered
  split <;> rfl

theorem tally_insertRed {s s' : RecvSession} {offset : Nat} {data : Bytes} {maxBlockSize : Nat}
    {stored : Bool} (h : s.insertRed offset data maxBlockSize = (s', stored)) : s'.tally = s.tally := by
  funext serial
  rw [RecvSession.tally, insertRed_reports h, RecvSession.tally]

theorem tally_markEnds (s : RecvSession) (ds : DataSegment) : (s.markEnds ds).tally = s.tally := by
  funext serial
  rw [RecvSession.tally, markEnds_reports, RecvSession.tally]

/-- The session in hand is stored, after a delivery if one is due. -/
theorem books_deliverRed {e e' : Engine} {s s' : RecvSession} {out : List (EngineId × Bytes)}
    (h : Enters (.report sid) now out e s.tally e' s'.tally) (hs : InHand sid e s)
    (source : EngineId) : Books now out e (e'.deliverRed source sid s') := by
  rw [deliverRed_eq]
  have hnotices : Books now out e
      { e' with notices := e'.notices ++ s'.deliveryNotices sid source } :=
    h.books.then_le rfl rfl (fun _ _ => id) fun _ _ => id
  refine hnotices.putRecv fun serial t ht => ?_
  rw [tally_delivered] at ht
  exact h.booked (fun _ => rfl) hs serial t ht

theorem books_acceptGreen (e : Engine) (source : EngineId) {s : RecvSession} (hs : InHand sid e s)
    (ds : DataSegment) : ∃ out, Books now out e (e.acceptGreen source sid s ds now) := by
  have hgreen : InHand sid e (s.markGreen ds) := hs
  have hrefl := Enters.refl (.report sid) now e (s.markGreen ds).tally
  unfold acceptGreen
  simp only
  split
  · exact books_cancel hrefl hgreen source .miscolored
  · have hnotify : Books now [] e (e.notify
        (.greenSegmentArrived sid source ds.offset ds.data ds.kind.isEob)) :=
      (Books.refl now e).notify _
    have hhand : InHand sid (e.notify
        (.greenSegmentArrived sid source ds.offset ds.data ds.kind.isEob)) (s.markGreen ds) := hs
    have hdeliver := books_deliverRed (Enters.refl (.report sid) now _ (s.markGreen ds).tally) hhand
      source
    exact ⟨_, hnotify.trans hdeliver⟩

theorem books_acceptRed (e : Engine) (source : EngineId) {s : RecvSession} (hs : InHand sid e s)
    (ds : DataSegment) : ∃ out, Books now out e (e.acceptRed source sid s ds now) := by
  have hrefl := Enters.refl (.report sid) now e s.tally
  unfold acceptRed
  split
  · exact books_cancel hrefl hs source .miscolored
  generalize hinsert : s.insertRed ds.offset ds.data e.config.maxBlockSize.toNat = result
  obtain ⟨s₁, stored⟩ := result
  have htally := tally_insertRed hinsert
  simp only
  split
  · have hkept : Enters (.report sid) now [] e s.tally e s₁.tally := by
      rw [htally]
      exact hrefl
    exact ⟨_, hkept.books.putRecv (hkept.booked (fun _ => rfl) hs)⟩
  have hends : Enters (.report sid) now [] e s.tally e (s₁.markEnds ds).tally := by
    rw [tally_markEnds, htally]
    exact hrefl
  have hhand : InHand sid e (s₁.markEnds ds) := by
    rw [InHand, tally_markEnds, htally]
    exact hs
  split
  · exact ⟨_, books_deliverRed hends hs source⟩
  · rename_i cp hcp
    have haccounted : Accounted sid now e _ _ :=
      accounted_answerCheckpoint e source hhand cp.serial.val ds.segEnd
    cases hresult : e.answerCheckpoint source sid (s₁.markEnds ds) cp.serial.val ds.segEnd now with
    | error e' =>
      rw [hresult] at haccounted
      exact haccounted
    | ok st =>
      rw [hresult] at haccounted
      obtain ⟨out, henters⟩ := haccounted
      exact ⟨out, books_deliverRed henters hhand source⟩

theorem books_acceptData (e : Engine) (source : EngineId) {s : RecvSession} (hs : InHand sid e s)
    (ds : DataSegment) : ∃ out, Books now out e (e.acceptData source sid s ds now) := by
  have htouched := (Books.refl now e).touchInactivity sid false now
  have hhand : InHand sid (e.touchInactivity sid false now) { s with lastActivity := now } := by
    intro serial t ht
    rw [tally_report, touchInactivity_recvSessions]
    exact hs serial t ht
  have hthen : ∀ e', (∃ out, Books now out (e.touchInactivity sid false now) e') →
      ∃ out, Books now out e e' := fun e' ⟨out, h⟩ => ⟨_, htouched.trans h⟩
  apply hthen
  unfold acceptData
  simp only
  split
  · exact books_cancel (Enters.refl (.report sid) now _ _) hhand source .unreach
  split
  · exact books_acceptRed _ source hhand ds
  · exact books_acceptGreen _ source hhand ds

theorem books_handleIncomingData (e : Engine) (source : EngineId) (ds : DataSegment) :
    ∃ out, Books now out e (e.handleIncomingData source sid ds now) := by
  have hnone : ∃ out, Books now out e e := ⟨_, .refl now e⟩
  unfold handleIncomingData
  split
  · unfold reportClosed
    split
    · exact hnone
    · exact ⟨_, (Books.refl now e).push source sid _⟩
  split
  · exact hnone
  cases hs : e.recvSessions[sid]? with
  | some s =>
    simp only
    split
    · exact hnone
    · refine books_acceptData e source (fun serial t ht => ?_) ds
      rw [tally_report, hs]
      exact ht
  | none =>
    simp only
    split
    · exact hnone
    · refine books_acceptData e source (fun serial t ht => ?_) ds
      simp [RecvSession.tally, RecvSession.new] at ht

/-! ### Acknowledgments and timeouts -/

theorem books_settleRecv {e e' : Engine} {s : RecvSession} {out : List (EngineId × Bytes)}
    (h : Books now out e e')
    (hs : ∀ serial t, s.tally serial = some t → Booked now out e (.report sid serial) t) :
    Books now out e (e'.settleRecv sid s) := by
  unfold settleRecv
  split
  · exact ((h.removeRecv sid).cancelSession sid).recordClosed sid
  · exact h.putRecv hs

theorem books_handleIncomingReportAck (e : Engine) (reportSerial : UInt64) :
    ∃ out, Books now out (e.applySample (e.ackSample sid reportSerial now))
      (e.handleIncomingReportAck sid reportSerial now) := by
  have hcancel : Books now [] e (e.cancelTimer (.report sid reportSerial)) :=
    (Books.refl now e).cancelTimer _
  unfold handleIncomingReportAck ackSample
  cases hs : e.recvSessions[sid]? with
  | none =>
    simp only [cancelTimer_recvSessions, hs]
    exact ⟨_, hcancel⟩
  | some s =>
    simp only [cancelTimer_recvSessions, hs, Option.bind_some]
    by_cases hreason : s.cancelReason.isSome = true
    · simp only [hreason, if_true]
      exact ⟨_, hcancel⟩
    simp only [hreason, Bool.false_eq_true, if_false]
    have htouched := ((Enters.refl (.report sid) now e s.tally).cancelTimer
      (.report sid reportSerial)).touchInactivity sid false now
    cases hrec : s.reports[reportSerial]? with
    | none =>
      simp only [Option.bind_none]
      have hold : ∀ serial t, s.tally serial = some t → e.tally (.report sid serial) = some t := by
        intro serial t ht
        rw [tally_report, hs]
        exact ht
      exact ⟨_, books_settleRecv htouched.books (htouched.booked (fun _ => rfl) hold)⟩
    | some rec =>
      simp only [Option.bind_some]
      rw [sampleReport_eq _ sid _ rec reportSerial]
      generalize (if rec.acked then none else rec.tally.sample _ s.peer now) = sample
      have hsampled := htouched.sampled (by simp) sample
      have hold : ∀ serial t, s.tally serial = some t →
          (e.applySample sample).tally (.report sid serial) = some t := by
        intro serial t ht
        rw [tally_report, applySample_recvSessions, hs]
        exact ht
      refine ⟨_, books_settleRecv hsampled.books fun serial t ht => ?_⟩
      refine hsampled.booked (fun _ => rfl) hold serial t ?_
      rw [RecvSession.tally, Maps.getElem?_insert] at ht
      split at ht
      · rename_i heq
        rw [RecvSession.tally, ← heq, hrec]
        exact ht
      · exact ht

theorem silent_cancelRecvSession (e : Engine) {s : RecvSession} (hs : e.recvSessions[sid]? = some s)
    (now : Nat) : Silent now e (e.cancelRecvSession sid s .rlexc now) := by
  have hkept : (s.cancelling .rlexc).reports = s.reports := rfl
  have hbooks := ((((Books.refl now e).keepRecv hs hkept).push s.peer sid (.cancelReceiver .rlexc)
    ).setTimer (.cancel sid false) (((e.putRecv sid (s.cancelling .rlexc)).push s.peer sid
      (.cancelReceiver .rlexc)).peerTimeoutDeadline s.peer now)).notify
        (.transmissionSessionCancelled sid .rlexc)
  exact hbooks.silent (by simp [SegmentBody.timer])

/-- The report's timer sends it again, or gives the session up. -/
theorem resends_handleRsTimeout (e : Engine) (sid : SessionId) (serial : UInt64) (now : Nat)
    (hserial : ∀ t, e.tally (.report sid serial) = some t → t.serial = serial) :
    Silent now e (e.handleRsTimeout sid serial now) ∨
      ∃ out, Resends (.report sid serial) out e (e.handleRsTimeout sid serial now) := by
  have hidle : Silent now e e := ⟨[], rfl, .refl now e⟩
  cases hs : e.recvSessions[sid]? with
  | none =>
    rw [handleRsTimeout, hs]
    exact .inl hidle
  | some s =>
    cases hrec : s.reports[serial]? with
    | none =>
      simp only [handleRsTimeout, hs, hrec]
      exact .inl hidle
    | some rec =>
      simp only [handleRsTimeout, hs, hrec]
      split
      · exact .inl hidle
      split
      · have htally : e.tally (.report sid serial) = some rec.tally := by
          simp [hs, RecvSession.tally, hrec]
        have hrecSerial : rec.report.reportSerial.val = serial := hserial _ htally
        refine .inr ⟨_, rfl, rfl, ?_, ⟨rec.tally, htally, ?_⟩, fun key hkey => ?_⟩
        · rw [timersOf_singleton, SegmentBody.timer, hrecSerial]
          rfl
        · simp [RecvSession.tally, ReportRecord.tally]
        · refine tally_putRecv_of_ne hs (fun serial' hne => ?_) hkey
          simp [RecvSession.tally, hne.symm]
      · exact .inl (silent_cancelRecvSession e hs now)

end Engine

end HdyUtils.Ltp
