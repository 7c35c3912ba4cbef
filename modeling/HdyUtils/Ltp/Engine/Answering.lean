import HdyUtils.Ltp.Engine.FreshReports
import HdyUtils.Ltp.Engine.RecvMove

/-! Which data segments make a session issue new reports.  `Engine.answering` finds the session that
is about to answer a fresh checkpoint; every other data segment leaves the reports of its session
alone. -/

namespace HdyUtils.Ltp

/-- `s'` has the reports and the answers of `s`. -/
structure RecvSession.SameReports (s s' : RecvSession) : Prop where
  last : s'.lastReportSerial = s.lastReportSerial
  reports : s'.reports = s.reports
  answered : s'.cpSerialsAnswered = s.cpSerialsAnswered

namespace RecvSession.SameReports

variable {s s' s'' : RecvSession}

theorem refl (s : RecvSession) : s.SameReports s := ⟨rfl, rfl, rfl⟩

theorem trans (h : s.SameReports s') (h' : s'.SameReports s'') : s.SameReports s'' :=
  ⟨h'.last.trans h.last, h'.reports.trans h.reports, h'.answered.trans h.answered⟩

end RecvSession.SameReports

namespace Engine

/-- The session that takes a data segment: an open one, or a new one. -/
def admitted (e : Engine) (source : EngineId) (sid : SessionId) (ds : DataSegment) (now : Nat) :
    Option RecvSession :=
  if e.closedRecvSessions.contains sid || e.cancelledSessions.contains sid then none
  else
    match e.recvSessions[sid]? with
    | some session => if session.cancelReason.isSome then none else some session
    | none =>
      if e.config.maxRecvSessions ≤ e.recvSessions.size then none
      else some (.new sid source ds.clientService 0 now)

/-- The session that has stored a red segment. -/
def stored (e : Engine) (source : EngineId) (sid : SessionId) (ds : DataSegment) (now : Nat) :
    Option RecvSession :=
  match e.admitted source sid ds now with
  | none => none
  | some s =>
    if e.config.allows ds.clientService && ds.kind.isRed && !(s.touched now).redMiscolored ds then
      let (s, stored) := (s.touched now).insertRed ds.offset ds.data e.config.maxBlockSize.toNat
      if stored then some (s.markEnds ds) else none
    else none

/-- The session that is about to answer a fresh checkpoint, and the checkpoint's serial. -/
def answering (e : Engine) (source : EngineId) (sid : SessionId) (ds : DataSegment) (now : Nat) :
    Option (RecvSession × UInt64) :=
  match e.stored source sid ds now, ds.kind.checkpoint with
  | some s, some cp =>
    if s.cpSerialsAnswered[cp.serial.val]?.isNone then some (s, cp.serial.val) else none
  | _, _ => none

variable {e : Engine} {source : EngineId} {sid : SessionId} {ds : DataSegment} {now : Nat}

/-- The session that a data segment finds, which is a new one if there is none. -/
def found (e : Engine) (source : EngineId) (sid : SessionId) (ds : DataSegment) (now : Nat) :
    RecvSession :=
  e.recvSessions[sid]?.getD (.new sid source ds.clientService 0 now)

theorem handleIncomingData_admitted {s : RecvSession} (h : e.admitted source sid ds now = some s) :
    e.handleIncomingData source sid ds now = e.acceptData source sid s ds now ∧
      s = e.found source sid ds now ∧ s.cancelReason = none := by
  simp only [admitted, Bool.or_eq_true] at h
  split at h
  · cases h
  rename_i hcaches
  simp only [not_or, Bool.not_eq_true] at hcaches
  simp only [handleIncomingData, hcaches.1, hcaches.2, Bool.false_eq_true, found]
  cases hs : e.recvSessions[sid]? with
  | some t =>
    simp only [hs] at h ⊢
    split at h
    · cases h
    · rename_i hopen
      cases h
      simp only [hopen, if_false]
      exact ⟨rfl, rfl, by simpa using hopen⟩
  | none =>
    simp only [hs] at h ⊢
    split at h
    · cases h
    · rename_i hroom
      cases h
      simp only [hroom, if_false, Option.getD_none, true_and]
      rfl

/-- A segment that no session takes leaves the sessions alone and tells nothing. -/
theorem handleIncomingData_not_admitted (h : e.admitted source sid ds now = none) :
    (e.handleIncomingData source sid ds now).recvSessions = e.recvSessions ∧
      (e.handleIncomingData source sid ds now).notices = e.notices := by
  simp only [admitted, Bool.or_eq_true] at h
  unfold handleIncomingData
  by_cases hclosed : e.closedRecvSessions.contains sid = true
  · rw [if_pos hclosed]
    unfold reportClosed
    split <;> exact ⟨rfl, rfl⟩
  rw [if_neg hclosed]
  by_cases hcancelled : e.cancelledSessions.contains sid = true
  · rw [if_pos hcancelled]
    exact ⟨rfl, rfl⟩
  rw [if_neg hcancelled]
  rw [if_neg (by simp [hclosed, hcancelled])] at h
  cases hs : e.recvSessions[sid]? with
  | some t =>
    simp only [hs] at h ⊢
    split at h
    · rename_i hopen
      rw [if_pos hopen]
      exact ⟨rfl, rfl⟩
    · cases h
  | none =>
    simp only [hs] at h ⊢
    split at h
    · rename_i hroom
      rw [if_pos hroom]
      exact ⟨rfl, rfl⟩
    · cases h

/-- The session after a cancellation. -/
theorem recvSessions_initiateCancelReceiver (e : Engine) (source : EngineId) (sid : SessionId)
    (s : RecvSession) (reason : CancelReason) (now : Nat) :
    ((e.putRecv sid s).initiateCancelReceiver sid source reason now).recvSessions[sid]? =
      some (s.cancelling reason) := by
  simp [initiateCancelReceiver, RecvSession.cancelling]

theorem recvSessions_deliverRed (e : Engine) (source : EngineId) (sid : SessionId)
    (s : RecvSession) : (e.deliverRed source sid s).recvSessions[sid]? = some s.delivered := by
  rw [deliverRed_eq]
  simp

/-- A red segment of an admitted session is stored. -/
structure Takes (e : Engine) (source : EngineId) (sid : SessionId) (ds : DataSegment) (now : Nat)
    (t s : RecvSession) : Prop where
  admitted : e.admitted source sid ds now = some t
  allowed : e.config.allows ds.clientService = true
  red : ds.kind.isRed = true
  fits : (t.touched now).redMiscolored ds = false
  inserted : ∃ s₁, (t.touched now).insertRed ds.offset ds.data e.config.maxBlockSize.toNat =
    (s₁, true) ∧ s = s₁.markEnds ds

theorem stored_eq_some {s : RecvSession} :
    e.stored source sid ds now = some s ↔ ∃ t, e.Takes source sid ds now t s := by
  unfold stored
  constructor
  · intro h
    split at h
    · cases h
    rename_i t hadmitted
    split at h
    · rename_i hfits
      simp only [Bool.and_eq_true, Bool.not_eq_true'] at hfits
      generalize hinsert : (t.touched now).insertRed ds.offset ds.data
        e.config.maxBlockSize.toNat = out at h
      obtain ⟨s₁, stored⟩ := out
      cases stored with
      | false => simp at h
      | true =>
        simp only [if_true, Option.some.injEq] at h
        exact ⟨t, hadmitted, hfits.1.1, hfits.1.2, hfits.2, s₁, hinsert, h.symm⟩
    · cases h
  · rintro ⟨t, h⟩
    obtain ⟨s₁, hinsert, rfl⟩ := h.inserted
    simp only [h.admitted, h.allowed, h.red, h.fits, hinsert, Bool.not_false, Bool.and_self, if_true]

theorem answering_eq_some {s : RecvSession} {cpSerial : UInt64} :
    e.answering source sid ds now = some (s, cpSerial) ↔
      (∃ t, e.Takes source sid ds now t s) ∧ s.cpSerialsAnswered[cpSerial]? = none ∧
        ∃ cp, ds.kind.checkpoint = some cp ∧ cp.serial.val = cpSerial := by
  unfold answering
  constructor
  · intro h
    split at h
    · rename_i s₁ cp hstored hcp
      split at h
      · rename_i hfresh
        cases h
        exact ⟨stored_eq_some.mp hstored, by simpa using hfresh, cp, hcp, rfl⟩
      · cases h
    · cases h
  · rintro ⟨htakes, hfresh, cp, hcp, rfl⟩
    simp [stored_eq_some.mpr htakes, hcp, hfresh]

theorem acceptData_eq (e : Engine) (source : EngineId) (sid : SessionId) (s : RecvSession)
    (ds : DataSegment) (now : Nat) :
    e.acceptData source sid s ds now =
      if !e.config.allows ds.clientService then
        ((e.touchInactivity sid false now).putRecv sid (s.touched now)).initiateCancelReceiver sid
          source .unreach now
      else if ds.kind.isRed then
        (e.touchInactivity sid false now).acceptRed source sid (s.touched now) ds now
      else (e.touchInactivity sid false now).acceptGreen source sid (s.touched now) ds now := by
  rw [← touchInactivity_config e sid false now]
  rfl

/-- What the engine does with a red segment that it stores. -/
theorem handleIncomingData_takes {t s : RecvSession} (h : e.Takes source sid ds now t s) :
    e.handleIncomingData source sid ds now =
      match ds.kind.checkpoint with
      | none => (e.touchInactivity sid false now).deliverRed source sid s
      | some cp =>
        match (e.touchInactivity sid false now).answerCheckpoint source sid s cp.serial.val ds.segEnd
          now with
        | .error e' => e'
        | .ok (e', s') => e'.deliverRed source sid s' := by
  obtain ⟨s₁, hinsert, rfl⟩ := h.inserted
  have hdata := (handleIncomingData_admitted h.admitted).1
  simp only [acceptData_eq, h.allowed, h.red, Bool.not_true, Bool.false_eq_true, if_false, if_true,
    acceptRed, h.fits, touchInactivity_config, hinsert] at hdata
  exact hdata

/-- A fresh checkpoint is answered with new reports. -/
theorem handleIncomingData_answering {s : RecvSession} {cpSerial : UInt64}
    (h : e.answering source sid ds now = some (s, cpSerial)) :
    e.handleIncomingData source sid ds now =
      match (e.touchInactivity sid false now).answerFreshCheckpoint source sid s cpSerial ds.segEnd
        now with
      | .error e' => e'
      | .ok (e', s') => e'.deliverRed source sid s' := by
  obtain ⟨⟨t, htakes⟩, hfresh, cp, hcp, rfl⟩ := answering_eq_some.mp h
  rw [handleIncomingData_takes htakes, hcp]
  simp only [answerCheckpoint, hfresh]

/-- The answer to a checkpoint and the delivery keep what was received, and do not cancel. -/
theorem delivered_answeredFresh (config : EngineConfig) (s : RecvSession) (cpSerial : UInt64)
    (upper now : Nat) :
    (answeredFresh config s cpSerial upper now).delivered.redReceived = s.redReceived ∧
      (answeredFresh config s cpSerial upper now).delivered.cancelReason = s.cancelReason := by
  obtain ⟨last, records, hframe⟩ := RecvSession.foldl_keepReport_frame now s
    (freshReports config s cpSerial upper)
  simp only [answeredFresh, keptAfter, List.take_length, hframe, RecvSession.delivered]
  split <;> exact ⟨rfl, rfl⟩

/-- What a data segment that makes no new report leaves behind: the reports of its session, and no
cancellation for their number. -/
structure Quiet (s s' : RecvSession) : Prop where
  same : s.SameReports s'
  reason : s'.cancelReason = some .rlexc → s.cancelReason = some .rlexc

namespace Quiet

variable {s s' s'' : RecvSession}

theorem refl (s : RecvSession) : Quiet s s := ⟨.refl s, id⟩

theorem trans (h : Quiet s s') (h' : Quiet s' s'') : Quiet s s'' :=
  ⟨h.same.trans h'.same, fun hreason => h.reason (h'.reason hreason)⟩

theorem touched (s : RecvSession) (now : Nat) : Quiet s (s.touched now) := ⟨⟨rfl, rfl, rfl⟩, id⟩

theorem insertRed (s : RecvSession) (offset : Nat) (data : Bytes) (maxBlockSize : Nat) :
    Quiet s (s.insertRed offset data maxBlockSize).1 := by
  obtain ⟨_, _, _, _, _, h⟩ := s.insertRed_upToData offset data maxBlockSize
  rw [h]
  exact ⟨⟨rfl, rfl, rfl⟩, id⟩

theorem markEnds (s : RecvSession) (ds : DataSegment) : Quiet s (s.markEnds ds) := by
  simp only [RecvSession.markEnds]
  split <;> split <;> exact ⟨⟨rfl, rfl, rfl⟩, id⟩

theorem markGreen (s : RecvSession) (ds : DataSegment) : Quiet s (s.markGreen ds) :=
  ⟨⟨rfl, rfl, rfl⟩, id⟩

theorem delivered (s : RecvSession) : Quiet s s.delivered := by
  unfold RecvSession.delivered
  split <;> exact ⟨⟨rfl, rfl, rfl⟩, id⟩

theorem cancelling (s : RecvSession) {reason : CancelReason} (h : reason ≠ .rlexc) :
    Quiet s (s.cancelling reason) :=
  ⟨⟨rfl, rfl, rfl⟩, fun heq => absurd (Option.some_inj.mp heq) h⟩

end Quiet

/-- A red segment of an admitted session that makes no new report. -/
theorem quiet_acceptRed {t s' : RecvSession} (hadmitted : e.admitted source sid ds now = some t)
    (hallowed : e.config.allows ds.clientService = true) (hred : ds.kind.isRed = true)
    (h : e.answering source sid ds now = none)
    (hs' : (e.handleIncomingData source sid ds now).recvSessions[sid]? = some s') : Quiet t s' := by
  have hdata := (handleIncomingData_admitted hadmitted).1
  rw [acceptData_eq] at hdata
  simp only [hallowed, hred, Bool.not_true, Bool.false_eq_true, if_false, if_true, acceptRed,
    touchInactivity_config] at hdata
  have htouched := Quiet.touched t now
  cases hfits : (t.touched now).redMiscolored ds with
  | true =>
    rw [if_pos hfits] at hdata
    rw [hdata, recvSessions_initiateCancelReceiver] at hs'
    cases hs'
    exact htouched.trans (.cancelling _ (by decide))
  | false =>
    have hinserted := htouched.trans (.insertRed _ ds.offset ds.data e.config.maxBlockSize.toNat)
    generalize hinsert : (t.touched now).insertRed ds.offset ds.data
      e.config.maxBlockSize.toNat = out at hinserted
    obtain ⟨s₁, stored⟩ := out
    cases stored with
    | false =>
      rw [if_neg (Bool.eq_false_iff.mp hfits)] at hdata
      simp only [hinsert, Bool.not_false, if_true] at hdata
      rw [hdata] at hs'
      simp only [putRecv_recvSessions, Maps.getElem?_insert, if_true, Option.some.injEq] at hs'
      rw [← hs']
      exact hinserted
    | true =>
      have htakes : e.Takes source sid ds now t (s₁.markEnds ds) :=
        ⟨hadmitted, hallowed, hred, hfits, s₁, hinsert, rfl⟩
      have hmarked := hinserted.trans (.markEnds s₁ ds)
      rw [handleIncomingData_takes htakes] at hs'
      cases hcp : ds.kind.checkpoint with
      | none =>
        simp only [hcp, recvSessions_deliverRed, Option.some.injEq] at hs'
        rw [← hs']
        exact hmarked.trans (.delivered _)
      | some cp =>
        -- the checkpoint was answered before
        cases hserials : (s₁.markEnds ds).cpSerialsAnswered[cp.serial.val]? with
        | none =>
          rw [answering_eq_some.mpr ⟨⟨t, htakes⟩, hserials, cp, hcp, rfl⟩] at h
          cases h
        | some serials =>
          simp only [hcp, answerCheckpoint, hserials, recvSessions_deliverRed,
            Option.some.injEq] at hs'
          rw [← hs']
          exact hmarked.trans (.delivered _)

/-- A data segment that makes no new report leaves the reports of its session alone. -/
theorem quiet_handleIncomingData {s' : RecvSession} (h : e.answering source sid ds now = none)
    (hs' : (e.handleIncomingData source sid ds now).recvSessions[sid]? = some s') :
    Quiet (e.found source sid ds now) s' := by
  cases hadmitted : e.admitted source sid ds now with
  | none =>
    rw [(handleIncomingData_not_admitted hadmitted).1] at hs'
    rw [found, hs']
    exact .refl s'
  | some t =>
    obtain ⟨hdata, hfound, -⟩ := handleIncomingData_admitted hadmitted
    rw [← hfound]
    have htouched := Quiet.touched t now
    rw [acceptData_eq] at hdata
    cases hallowed : e.config.allows ds.clientService with
    | false =>
      simp only [hallowed, Bool.not_false, if_true] at hdata
      rw [hdata, recvSessions_initiateCancelReceiver] at hs'
      cases hs'
      exact htouched.trans (.cancelling _ (by decide))
    | true =>
      cases hred : ds.kind.isRed with
      | true => exact quiet_acceptRed hadmitted hallowed hred h hs'
      | false =>
        simp only [hallowed, hred, Bool.not_true, Bool.false_eq_true, if_false,
          acceptGreen] at hdata
        have hgreen := htouched.trans (.markGreen _ ds)
        rw [hdata] at hs'
        split at hs'
        · rw [recvSessions_initiateCancelReceiver] at hs'
          cases hs'
          exact hgreen.trans (.cancelling _ (by decide))
        · rw [recvSessions_deliverRed] at hs'
          cases hs'
          exact hgreen.trans (.delivered _)

end Engine

end HdyUtils.Ltp
