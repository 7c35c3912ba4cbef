import HdyUtils.Ltp.Engine.Answering
import HdyUtils.Ltp.Engine.RecvBooks
import HdyUtils.Ltp.Engine.SendBooks

/-! The books over a whole call: what a segment and what an expired timer do to the tallies, and which
reports a repeated checkpoint sends again. -/

namespace HdyUtils.Ltp

namespace Engine

variable {sid : SessionId} {now : Nat}

/-! ### Cancellation and inactivity -/

theorem silent_handleIncomingCancel (e : Engine) (source : EngineId) (sid : SessionId)
    (reason : CancelReason) (fromSender : Bool) (now : Nat) :
    Silent now e (e.handleIncomingCancel source sid reason fromSender) := by
  have hbooks := (((((Books.refl now e).push source sid
    (if fromSender then .cancelAckSender else .cancelAckReceiver)).removeSend sid).removeRecv sid
      ).cancelSession sid).recordCancelled sid
  have hout : timersOf ([] ++ [(source, (Segment.plain sid
      (if fromSender then .cancelAckSender else .cancelAckReceiver)).encodeToVec)]) = [] := by
    cases fromSender <;> simp [SegmentBody.timer]
  have hif : ∀ (told : Bool) (notice : Notice), Silent now e (if told then
      ((((((e.push source sid (if fromSender then .cancelAckSender else .cancelAckReceiver)
        ).removeSend sid).removeRecv sid).cancelSession sid).recordCancelled sid).notify notice)
      else (((((e.push source sid (if fromSender then .cancelAckSender else .cancelAckReceiver)
        ).removeSend sid).removeRecv sid).cancelSession sid).recordCancelled sid)) := by
    intro told notice
    cases told with
    | true => exact (hbooks.notify notice).silent hout
    | false => exact hbooks.silent hout
  exact hif _ _

theorem silent_handleIncomingCancelAck (e : Engine) (sid : SessionId) (isSender : Bool) (now : Nat) :
    Silent now e (e.handleIncomingCancelAck sid isSender) := by
  have hcancel := (Books.refl now e).cancelTimer (.cancel sid isSender)
  unfold handleIncomingCancelAck
  simp only
  split
  · exact ((((hcancel.removeSend sid).cancelSession sid).recordCancelled sid)).silent rfl
  · exact ((((hcancel.removeRecv sid).cancelSession sid).recordCancelled sid)).silent rfl

theorem silent_handleCancelTimeout (e : Engine) (sid : SessionId) (isSender : Bool) (now : Nat) :
    Silent now e (e.handleCancelTimeout sid isSender now) := by
  have hidle : Silent now e e := ⟨[], rfl, .refl now e⟩
  unfold handleCancelTimeout
  split
  · cases hs : e.sendSessions[sid]? with
    | none => exact hidle
    | some s =>
      simp only
      split
      · have hkept : ({ s with cancelRetries := s.cancelRetries + 1 } : SendSession).checkpoints =
            s.checkpoints := rfl
        exact ((((Books.refl now e).keepSend hs hkept).push s.peer sid _).setTimer _ _).silent
          (by simp [SegmentBody.timer])
      · exact ((((Books.refl now e).removeSend sid).cancelSession sid).recordCancelled sid).silent rfl
  · cases hs : e.recvSessions[sid]? with
    | none => exact hidle
    | some s =>
      simp only
      split
      · have hkept : ({ s with cancelRetries := s.cancelRetries + 1 } : RecvSession).reports =
            s.reports := rfl
        exact ((((Books.refl now e).keepRecv hs hkept).push s.peer sid _).setTimer _ _).silent
          (by simp [SegmentBody.timer])
      · exact ((((Books.refl now e).removeRecv sid).cancelSession sid).recordCancelled sid).silent rfl

theorem silent_handleInactivityTimeout (e : Engine) (sid : SessionId) (isSender : Bool) (now : Nat) :
    Silent now e (e.handleInactivityTimeout sid isSender now) := by
  have hidle : Silent now e e := ⟨[], rfl, .refl now e⟩
  have hrearm : ∀ lastActivity, Silent now e (e.rearmInactivity sid isSender lastActivity) := by
    intro lastActivity
    unfold rearmInactivity
    simp only
    split
    · exact ((Books.refl now e).setTimer _ _).silent rfl
    · exact hidle
  unfold handleInactivityTimeout
  split
  · rename_i hsender
    rw [hsender] at hrearm
    cases hs : e.sendSessions[sid]? with
    | none => exact hidle
    | some s =>
      simp only
      split
      · exact ((((((Books.refl now e).removeSend sid).cancelSession sid).recordCancelled sid).push
          s.peer sid (.cancelSender .rlexc)).notify _).silent (by simp [SegmentBody.timer])
      · exact hrearm s.lastActivity
  · rename_i hreceiver
    rw [Bool.not_eq_true] at hreceiver
    rw [hreceiver] at hrearm
    cases hs : e.recvSessions[sid]? with
    | none => exact hidle
    | some s =>
      simp only
      split
      · exact ((((((Books.refl now e).removeRecv sid).cancelSession sid).recordCancelled sid).push
          s.peer sid (.cancelReceiver .rlexc)).notify _).silent (by simp [SegmentBody.timer])
      · exact hrearm s.lastActivity

/-! ### Repeated checkpoints -/

variable {e : Engine} {source : EngineId} {ds : DataSegment}

/-- The reports that a data segment makes the engine send again: the segment repeats a checkpoint that
its session has answered with these reports, and they are not acknowledged. -/
def repeats (e : Engine) (source : EngineId) (sid : SessionId) (ds : DataSegment) (now : Nat) :
    List UInt64 :=
  match e.stored source sid ds now, ds.kind.checkpoint with
  | some s, some cp =>
    (s.cpSerialsAnswered[cp.serial.val]?.getD []).filter fun serial =>
      match s.reports[serial]? with
      | some rec => !rec.acked
      | none => false
  | _, _ => []

theorem mem_repeats {serial : UInt64} (h : serial ∈ e.repeats source sid ds now) :
    ∃ t s cp serials rec, e.Takes source sid ds now t s ∧ ds.kind.checkpoint = some cp ∧
      s.cpSerialsAnswered[cp.serial.val]? = some serials ∧ serial ∈ serials ∧
      s.reports[serial]? = some rec ∧ rec.acked = false := by
  unfold repeats at h
  split at h
  swap
  · cases h
  rename_i s cp hstored hcp
  obtain ⟨t, htakes⟩ := stored_eq_some.mp hstored
  obtain ⟨hmem, hunacked⟩ := List.mem_filter.mp h
  cases hserials : s.cpSerialsAnswered[cp.serial.val]? with
  | none => simp [hserials] at hmem
  | some serials =>
    cases hrec : s.reports[serial]? with
    | none => simp [hrec] at hunacked
    | some rec =>
      simp only [hserials, Option.getD_some] at hmem
      simp only [hrec, Bool.not_eq_true'] at hunacked
      exact ⟨t, s, cp, serials, rec, htakes, hcp, hserials, hmem, hrec, hunacked⟩

/-- What a session puts out when it sends reports again. -/
def reemitted (source : EngineId) (sid : SessionId) (s : RecvSession) (serials : List UInt64) :
    List (EngineId × Bytes) :=
  serials.filterMap fun serial => s.reports[serial]?.bind fun rec =>
    if rec.acked then none else some (source, (Segment.plain sid (.report rec.report)).encodeToVec)

theorem outbound_reemitReport (e : Engine) (source : EngineId) (s : RecvSession) (serial : UInt64) :
    (reemitReport source sid s now e serial).outbound =
      e.outbound ++ reemitted source sid s [serial] := by
  unfold reemitReport
  cases hrec : s.reports[serial]? with
  | none => simp [reemitted, hrec]
  | some rec => cases hacked : rec.acked <;> simp [reemitted, hrec, hacked]

theorem outbound_foldl_reemitReport (source : EngineId) (s : RecvSession) (serials : List UInt64)
    (e : Engine) : (serials.foldl (reemitReport source sid s now) e).outbound =
      e.outbound ++ reemitted source sid s serials := by
  induction serials generalizing e with
  | nil => simp [reemitted]
  | cons serial serials ih =>
    have hsplit : reemitted source sid s (serial :: serials) =
        reemitted source sid s [serial] ++ reemitted source sid s serials :=
      List.filterMap_append (l := [serial])
    rw [List.foldl_cons, ih, outbound_reemitReport, hsplit, List.append_assoc]

theorem mem_timersOf_reemitted {source : EngineId} {s : RecvSession} {serials : List UInt64}
    {serial : UInt64} {rec : ReportRecord} (hmem : serial ∈ serials)
    (hrec : s.reports[serial]? = some rec) (hacked : rec.acked = false) :
    TimerKey.report sid rec.report.reportSerial.val ∈ timersOf (reemitted source sid s serials) := by
  refine List.mem_filterMap.mpr ⟨(source, (Segment.plain sid (.report rec.report)).encodeToVec),
    List.mem_filterMap.mpr ⟨serial, hmem, ?_⟩, ?_⟩
  · simp [hrec, hacked]
  · rw [timerOf_encodeToVec]
    rfl

/-- A session that is admitted with a report is in the table. -/
theorem recvSessions_of_admitted {t : RecvSession} (h : e.admitted source sid ds now = some t)
    {serial : UInt64} {rec : ReportRecord} (hrec : t.reports[serial]? = some rec) :
    e.recvSessions[sid]? = some t := by
  have hfound := (handleIncomingData_admitted h).2.1
  cases hs : e.recvSessions[sid]? with
  | some t' => rw [hfound, found, hs, Option.getD_some]
  | none =>
    rw [hfound, found, hs, Option.getD_none] at hrec
    simp [RecvSession.new] at hrec

/-- The reports that a segment repeats were on the books, and are put out. -/
theorem repeats_put_out {out : List (EngineId × Bytes)} {serial : UInt64}
    (h : serial ∈ e.repeats source sid ds now)
    (hserial : ∀ t, e.tally (.report sid serial) = some t → t.serial = serial)
    (hout : (e.handleIncomingData source sid ds now).outbound = e.outbound ++ out) :
    TimerKey.report sid serial ∈ timersOf out ∧ ∃ t, e.tally (.report sid serial) = some t := by
  obtain ⟨t, s, cp, serials, rec, htakes, hcp, hserials, hmem, hrec, hacked⟩ := mem_repeats h
  obtain ⟨s₁, hinsert, rfl⟩ := htakes.inserted
  have hkept : (s₁.markEnds ds).reports = t.reports := by
    have hinserted := Quiet.insertRed (t.touched now) ds.offset ds.data e.config.maxBlockSize.toNat
    rw [hinsert] at hinserted
    exact (((Quiet.touched t now).trans hinserted).trans (.markEnds s₁ ds)).same.reports
  have hrec' : t.reports[serial]? = some rec := by rw [← hkept]; exact hrec
  have hs := recvSessions_of_admitted htakes.admitted hrec'
  have htally : e.tally (.report sid serial) = some rec.tally := by
    rw [tally_report, hs, Option.bind_some, RecvSession.tally, hrec']
    rfl
  have hrecSerial : rec.report.reportSerial.val = serial := hserial _ htally
  have hreemitted : out = reemitted source sid (s₁.markEnds ds) serials := by
    have hresult := handleIncomingData_takes htakes
    simp only [hcp, answerCheckpoint, hserials] at hresult
    rw [hresult, deliverRed_eq, putRecv_outbound] at hout
    rw [outbound_foldl_reemitReport, touchInactivity_outbound] at hout
    exact (List.append_cancel_left hout).symm
  have hmem' : TimerKey.report sid rec.report.reportSerial.val ∈
      timersOf (reemitted source sid (s₁.markEnds ds) serials) :=
    mem_timersOf_reemitted hmem hrec hacked
  rw [hrecSerial, ← hreemitted] at hmem'
  exact ⟨hmem', rec.tally, htally⟩

/-! ### Segments and timers -/

/-- A segment samples first, and then its books are kept. -/
theorem books_handleSegment (e : Engine) (source : EngineId) (segment : Segment) (now : Nat)
    (hid : ∀ s, e.sendSessions[segment.session]? = some s → s.id = segment.session) :
    ∃ out, Books now out (e.applySample (e.segmentSample source segment now))
      (e.handleSegment source segment now) := by
  have hnone : ∃ out, Books now out e e := ⟨_, .refl now e⟩
  have hsilent : ∀ e', Silent now e e' → ∃ out, Books now out e e' := fun e' ⟨out, _, h⟩ => ⟨out, h⟩
  unfold handleSegment segmentSample
  cases hbody : segment.body with
  | data ds =>
    simp only [applySample]
    split
    · exact hnone
    · exact books_handleIncomingData e _ ds
  | report rs =>
    simp only
    split
    · exact books_handleIncomingReport e _ rs now hid
    · exact hnone
  | reportAck serial =>
    simp only
    split
    · exact hnone
    · exact books_handleIncomingReportAck e serial
  | cancelSender reason =>
    simp only [applySample]
    split
    · exact hnone
    · exact hsilent _ (silent_handleIncomingCancel e _ _ reason true now)
  | cancelReceiver reason =>
    simp only [applySample]
    split
    · exact hsilent _ (silent_handleIncomingCancel e _ _ reason false now)
    · exact hnone
  | cancelAckSender =>
    simp only [applySample]
    split
    · exact hsilent _ (silent_handleIncomingCancelAck e _ true now)
    · exact hnone
  | cancelAckReceiver =>
    simp only [applySample]
    split
    · exact hnone
    · exact hsilent _ (silent_handleIncomingCancelAck e _ false now)

/-- A timer that expires sends its own segment again, or nothing that awaits an answer. -/
theorem resends_handleExpired (e : Engine) (key : TimerKey) (now : Nat)
    (hserial : ∀ t, e.tally key = some t → t.serial = key.kind.field) :
    Silent now e (e.handleExpired now key) ∨
      ∃ out, Resends key out e (e.handleExpired now key) := by
  obtain ⟨sid, kind⟩ := key
  cases kind with
  | checkpoint serial => exact resends_handleCpTimeout e sid serial now hserial
  | report serial => exact resends_handleRsTimeout e sid serial now hserial
  | cancel isSender => exact .inl (silent_handleCancelTimeout e sid isSender now)
  | inactivity isSender => exact .inl (silent_handleInactivityTimeout e sid isSender now)

end Engine

end HdyUtils.Ltp
