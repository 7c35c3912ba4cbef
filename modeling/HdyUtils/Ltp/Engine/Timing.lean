import HdyUtils.Ltp.Engine.Reassembly
import HdyUtils.Ltp.Engine.Reporting
import HdyUtils.Ltp.Engine.RecvMove

/-! The timers that a session needs.  `Timed` says which timers of a session are armed, and with which
deadline; `due` are the timers that a tick has taken and not yet handled, which count as armed.  Each
handler keeps its session timed, and a handler of an expired timer makes up for that timer. -/

namespace HdyUtils.Ltp

open Function

namespace TimerKind

/-- Whether the timer belongs to a send session. -/
def ofSender : TimerKind → Bool
  | checkpoint _ => true
  | report _ => false
  | cancel isSender | inactivity isSender => isSender

end TimerKind

namespace Engine

/-- The deadlines of a session's timers. -/
def alarm (e : Engine) (sid : SessionId) (kind : TimerKind) : Option Nat :=
  e.timerTable.deadline? ⟨sid, kind⟩

section Alarm

variable (e : Engine) {sid : SessionId}

theorem alarm_setTimer {key : TimerKey} (hkey : key.session = sid) (deadline : Nat) :
    (e.setTimer key deadline).alarm sid = update (e.alarm sid) key.kind (some deadline) := by
  obtain ⟨session, kind⟩ := key
  cases hkey
  ext k
  by_cases hk : k = kind
  · simp [alarm, hk]
  · simp [alarm, hk, Ne.symm hk]

theorem alarm_cancelTimer {key : TimerKey} (hkey : key.session = sid) :
    (e.cancelTimer key).alarm sid = update (e.alarm sid) key.kind none := by
  obtain ⟨session, kind⟩ := key
  cases hkey
  ext k
  by_cases hk : k = kind
  · simp [alarm, hk]
  · simp [alarm, hk, Ne.symm hk]

@[simp] theorem alarm_cancelSession (kind : TimerKind) :
    (e.cancelSession sid).alarm sid kind = none := by
  simp [alarm]

theorem alarm_touchInactivity (isSender : Bool) (now : Nat) :
    (e.touchInactivity sid isSender now).alarm sid =
      if 0 < e.config.sessionInactivityTimeoutMicros then
        update (e.alarm sid) (.inactivity isSender)
          (some (satAdd now e.config.sessionInactivityTimeoutMicros))
      else e.alarm sid := by
  simp only [touchInactivity]
  split
  · exact e.alarm_setTimer rfl _
  · rfl

end Alarm

end Engine

/-! ### The timers of a session -/

/-- The timers of a session with the given cancellation and last activity are its own, and those that
it needs are armed, or due. -/
structure Timely (isSender : Bool) (timeout : Nat) (due : Set TimerKind)
    (alarm : TimerKind → Option Nat) (reason : Option CancelReason) (lastActivity : Nat) : Prop where
  named : ∀ kind, alarm kind ≠ none → kind.ofSender = isSender
  cancelling : reason ≠ none → alarm (.cancel isSender) ≠ none ∨ .cancel isSender ∈ due
  inactive : 0 < timeout → alarm (.inactivity isSender) = some (satAdd lastActivity timeout) ∨
    .inactivity isSender ∈ due

namespace Timely

variable {isSender : Bool} {timeout : Nat} {due : Set TimerKind} {alarm : TimerKind → Option Nat}
  {reason : Option CancelReason} {lastActivity : Nat} {kind : TimerKind}

theorem mono {due' : Set TimerKind} (h : Timely isSender timeout due alarm reason lastActivity)
    (hdue : due ⊆ due') : Timely isSender timeout due' alarm reason lastActivity where
  named := h.named
  cancelling := fun hreason => (h.cancelling hreason).imp_right fun hk => hdue hk
  inactive := fun ht => (h.inactive ht).imp_right fun hk => hdue hk

/-- A timer that was perhaps due is armed, or was due, once it is set. -/
theorem armed_set {k : TimerKind} (deadline : Nat) (h : alarm k ≠ none ∨ k ∈ insert kind due) :
    update alarm kind (some deadline) k ≠ none ∨ k ∈ due := by
  by_cases heq : k = kind
  · rw [heq, update_self]
    exact .inl (by simp)
  · rw [update_of_ne heq]
    exact h.imp_right fun hdue => hdue.resolve_left heq

/-- A timer other than the inactivity timer is set, and was perhaps due. -/
theorem set (h : Timely isSender timeout (insert kind due) alarm reason lastActivity)
    (hkind : kind.ofSender = isSender) (hne : kind ≠ .inactivity isSender) (deadline : Nat) :
    Timely isSender timeout due (update alarm kind (some deadline)) reason lastActivity where
  named := fun k hk => by
    by_cases heq : k = kind
    · rw [heq]
      exact hkind
    · rw [update_of_ne heq] at hk
      exact h.named k hk
  cancelling := fun hreason => armed_set deadline (h.cancelling hreason)
  inactive := fun ht => by
    rw [update_of_ne hne.symm]
    exact (h.inactive ht).imp_right fun hdue => hdue.resolve_left hne.symm

/-- The cancellation starts, and its timer is set. -/
theorem cancel (h : Timely isSender timeout due alarm reason lastActivity)
    (reason' : Option CancelReason) (deadline : Nat) :
    Timely isSender timeout due (update alarm (.cancel isSender) (some deadline)) reason'
      lastActivity := by
  have hset := (h.mono (Set.subset_insert (.cancel isSender) _)).set rfl (by simp) deadline
  exact { hset with cancelling := fun _ => .inl (by simp) }

/-- The inactivity timer is set anew, and was perhaps due. -/
theorem activity (h : Timely isSender timeout (insert (.inactivity isSender) due) alarm reason
      lastActivity) (now : Nat) :
    Timely isSender timeout due
      (if 0 < timeout then update alarm (.inactivity isSender) (some (satAdd now timeout))
        else alarm) reason now := by
  split
  · next hpos =>
    refine ⟨fun kind hkind => ?_, fun hreason => armed_set _ (h.cancelling hreason),
      fun _ => .inl (update_self _ _ _)⟩
    by_cases heq : kind = .inactivity isSender
    · rw [heq]
      rfl
    · rw [update_of_ne heq] at hkind
      exact h.named kind hkind
  · next hzero =>
    refine ⟨h.named, fun hreason => ?_, fun hpos => absurd hpos hzero⟩
    exact (h.cancelling hreason).imp_right fun hdue => hdue.resolve_left (by simp)

/-- A timer that the session does not need is no longer due. -/
theorem discharge (h : Timely isSender timeout (insert kind due) alarm reason lastActivity)
    (hcancel : kind = .cancel isSender → reason = none) (hinactive : kind ≠ .inactivity isSender) :
    Timely isSender timeout due alarm reason lastActivity where
  named := h.named
  cancelling := fun hreason => (h.cancelling hreason).imp_right fun hdue =>
    hdue.resolve_left fun heq => hreason (hcancel heq.symm)
  inactive := fun ht => (h.inactive ht).imp_right fun hdue => hdue.resolve_left hinactive.symm

/-- A timer that is neither the cancellation's nor the inactivity timer is cancelled. -/
theorem clear (kind : TimerKind) (h : Timely isSender timeout due alarm reason lastActivity)
    (hcancel : kind ≠ .cancel isSender) (hinactive : kind ≠ .inactivity isSender) :
    Timely isSender timeout due (update alarm kind none) reason lastActivity where
  named := fun k hk => by
    by_cases heq : k = kind
    · rw [heq, update_self] at hk
      exact absurd rfl hk
    · rw [update_of_ne heq] at hk
      exact h.named k hk
  cancelling := by
    rw [update_of_ne hcancel.symm]
    exact h.cancelling
  inactive := by
    rw [update_of_ne hinactive.symm]
    exact h.inactive

end Timely

/-! ### Receive sessions -/

/-- The timers of a receive session and of its reports are armed, or due. -/
structure RecvSession.Timed (timeout : Nat) (due : Set TimerKind) (alarm : TimerKind → Option Nat)
    (s : RecvSession) : Prop where
  timely : Timely false timeout due alarm s.cancelReason s.lastActivity
  reports : s.cancelReason = none → ∀ (serial : UInt64) (rec : ReportRecord),
    s.reports[serial]? = some rec → rec.acked = false →
    alarm (.report serial) ≠ none ∨ .report serial ∈ due

namespace RecvSession.Timed

variable {timeout : Nat} {due : Set TimerKind} {alarm : TimerKind → Option Nat}
  {s s' : RecvSession} {kind : TimerKind} {serial : UInt64}

/-- A change of neither the reports nor the activity nor the cancellation. -/
theorem congr (h : s.Timed timeout due alarm) (hreports : s'.reports = s.reports)
    (hreason : s'.cancelReason = s.cancelReason) (hlast : s'.lastActivity = s.lastActivity) :
    s'.Timed timeout due alarm where
  timely := by
    rw [hreason, hlast]
    exact h.timely
  reports := by
    rw [hreports, hreason]
    exact h.reports

theorem markEnds (h : s.Timed timeout due alarm) (ds : DataSegment) :
    (s.markEnds ds).Timed timeout due alarm := by
  simp only [RecvSession.markEnds]
  split <;> split <;> exact h.congr rfl rfl rfl

theorem mono {due' : Set TimerKind} (h : s.Timed timeout due alarm) (hdue : due ⊆ due') :
    s.Timed timeout due' alarm where
  timely := h.timely.mono hdue
  reports := fun hopen serial rec hrec hacked =>
    (h.reports hopen serial rec hrec hacked).imp_right fun hk => hdue hk

theorem set (h : s.Timed timeout (insert kind due) alarm) (hkind : kind.ofSender = false)
    (hne : kind ≠ .inactivity false) (deadline : Nat) :
    s.Timed timeout due (update alarm kind (some deadline)) where
  timely := h.timely.set hkind hne deadline
  reports := fun hopen serial rec hrec hacked =>
    Timely.armed_set deadline (h.reports hopen serial rec hrec hacked)

/-- A record is stored whose timer is armed. -/
theorem putReport (h : s.Timed timeout due alarm) {rec : ReportRecord}
    (harmed : alarm (.report serial) ≠ none)
    (hs : s' = { s with reports := s.reports.insert serial rec }) : s'.Timed timeout due alarm := by
  subst hs
  refine ⟨h.timely, fun hopen k r hr hacked => ?_⟩
  simp only [Maps.getElem?_insert] at hr
  split at hr
  · next heq => exact .inl (heq ▸ harmed)
  · exact h.reports hopen k r hr hacked

/-- The cancellation starts. -/
theorem cancel (h : s.Timed timeout due alarm) (reason : CancelReason) (deadline : Nat) :
    (s.cancelling reason).Timed timeout due (update alarm (.cancel false) (some deadline)) where
  timely := h.timely.cancel (some reason) deadline
  reports := fun hopen => nomatch hopen

/-- The inactivity timer is set anew. -/
theorem activity (h : s.Timed timeout (insert (.inactivity false) due) alarm) {now : Nat}
    (hs : s' = { s with lastActivity := now }) :
    s'.Timed timeout due
      (if 0 < timeout then update alarm (.inactivity false) (some (satAdd now timeout))
        else alarm) := by
  subst hs
  refine ⟨h.timely.activity now, fun hopen serial rec hrec hacked => ?_⟩
  have hreport := h.reports hopen serial rec hrec hacked
  split
  · exact Timely.armed_set _ hreport
  · exact hreport.imp_right fun hdue => hdue.resolve_left (by simp)

/-- The timer of a report is cancelled, and the report needs none any more. -/
theorem ack (h : s.Timed timeout due alarm) (serial : UInt64)
    (hreports : ∀ k, k ≠ serial → s'.reports[k]? = s.reports[k]?)
    (hacked : s.cancelReason = none → ∀ rec, s'.reports[serial]? = some rec → rec.acked = true)
    (hreason : s'.cancelReason = s.cancelReason) (hlast : s'.lastActivity = s.lastActivity) :
    s'.Timed timeout due (update alarm (.report serial) none) := by
  constructor
  · rw [hreason, hlast]
    exact h.timely.clear _ (by simp) (by simp)
  · intro hopen k rec hrec hunacked
    rw [hreason] at hopen
    by_cases hk : k = serial
    · rw [hk] at hrec
      rw [hacked hopen rec hrec] at hunacked
      cases hunacked
    · rw [update_of_ne (by simpa using hk)]
      rw [hreports k hk] at hrec
      exact h.reports hopen k rec hrec hunacked

/-- A timer that the session does not need is no longer due. -/
theorem discharge (h : s.Timed timeout (insert kind due) alarm)
    (hreport : ∀ serial, kind = .report serial → s.cancelReason = none →
      ∀ rec, s.reports[serial]? = some rec → rec.acked = true)
    (hcancel : kind = .cancel false → s.cancelReason = none)
    (hinactive : kind ≠ .inactivity false) : s.Timed timeout due alarm := by
  refine ⟨h.timely.discharge hcancel hinactive, fun hopen serial rec hrec hacked => ?_⟩
  refine (h.reports hopen serial rec hrec hacked).imp_right fun hdue => hdue.resolve_left ?_
  intro heq
  rw [hreport serial heq.symm hopen rec hrec] at hacked
  cases hacked

end RecvSession.Timed

namespace Engine

/-- What the timers are to be for a session of another engine. -/
def RecvTimed (e : Engine) (due : Set TimerKind) (sid : SessionId) : Prop :=
  match e.recvSessions[sid]? with
  | none => ∀ kind, e.alarm sid kind = none
  | some s => s.Timed e.config.sessionInactivityTimeoutMicros due (e.alarm sid)

section Receive

variable {e e' : Engine} {sid : SessionId} {due : Set TimerKind} {s s' : RecvSession}

theorem recvTimed_some (hs : e.recvSessions[sid]? = some s) : e.RecvTimed due sid ↔
    s.Timed e.config.sessionInactivityTimeoutMicros due (e.alarm sid) := by
  rw [RecvTimed, hs]

theorem recvTimed_none (hs : e.recvSessions[sid]? = none) :
    e.RecvTimed due sid ↔ ∀ kind, e.alarm sid kind = none := by
  rw [RecvTimed, hs]

/-- A session in the table is timed by the alarms of the engine. -/
theorem recvTimed_of {alarm : TimerKind → Option Nat} {timeout : Nat}
    (h : s.Timed timeout due alarm) (hs : e'.recvSessions[sid]? = some s)
    (halarm : e'.alarm sid = alarm)
    (hconfig : e'.config.sessionInactivityTimeoutMicros = timeout) : e'.RecvTimed due sid := by
  rw [recvTimed_some hs, halarm, hconfig]
  exact h

theorem recvTimed_removed (hs : e'.recvSessions[sid]? = none)
    (halarm : ∀ kind, e'.alarm sid kind = none) : e'.RecvTimed due sid :=
  (recvTimed_none hs).mpr halarm

theorem recvTimed_putRecv (h : s.Timed e.config.sessionInactivityTimeoutMicros due (e.alarm sid)) :
    (e.putRecv sid s).RecvTimed due sid :=
  recvTimed_of h (by simp) rfl rfl

theorem recvTimed_initiateCancelReceiver
    (h : s.Timed e.config.sessionInactivityTimeoutMicros due (e.alarm sid)) (peer : EngineId)
    (reason : CancelReason) (now : Nat) :
    ((e.putRecv sid s).initiateCancelReceiver sid peer reason now).RecvTimed due sid := by
  simp only [initiateCancelReceiver, putRecv_recvSessions, Maps.getElem?_insert, if_true]
  exact recvTimed_of (h.cancel reason _) (by simp [RecvSession.cancelling]) (alarm_setTimer _ rfl _) rfl

theorem recvTimed_deliverRed (h : s.Timed e.config.sessionInactivityTimeoutMicros due (e.alarm sid))
    (source : EngineId) : (e.deliverRed source sid s).RecvTimed due sid := by
  have hdelivered : s.delivered.Timed e.config.sessionInactivityTimeoutMicros due (e.alarm sid) := by
    unfold RecvSession.delivered
    split
    · exact h.congr rfl rfl rfl
    · exact h
  rw [deliverRed_eq]
  exact recvTimed_of hdelivered (by simp) rfl rfl

theorem Issues.timed {source : EngineId} {reports : List ReportSegment} {timeout : Nat}
    (h : Issues sid source reports e s e' s') (ht : s.Timed timeout due (e.alarm sid)) :
    s'.Timed timeout due (e'.alarm sid) := by
  obtain ⟨lastReportSerial, reports', cpSerialsAnswered, rfl⟩ := h.session
  refine ⟨⟨fun kind hkind => ?_, fun hreason => ?_, fun hpos => ?_⟩,
    fun hopen serial rec hrec hacked => ?_⟩
  · rcases h.armed_new kind hkind with hold | ⟨serial, rfl⟩
    · exact ht.timely.named kind hold
    · rfl
  · exact (ht.timely.cancelling hreason).imp_left fun harmed => h.armed_old harmed
  · have hsame : e'.alarm sid (.inactivity false) = e.alarm sid (.inactivity false) := h.inactivity
    rw [hsame]
    exact ht.timely.inactive hpos
  · rcases h.armed_reports serial rec hrec with hold | harmed
    · exact (ht.reports hopen serial rec hold hacked).imp_left fun harmed => h.armed_old harmed
    · exact .inl harmed

theorem recvTimed_acceptRed
    (h : s.Timed e.config.sessionInactivityTimeoutMicros due (e.alarm sid)) (source : EngineId)
    (ds : DataSegment) (now : Nat) : (e.acceptRed source sid s ds now).RecvTimed due sid := by
  unfold acceptRed
  split
  · exact recvTimed_initiateCancelReceiver h source _ now
  have hinsert := s.insertRed_upToData ds.offset ds.data e.config.maxBlockSize.toNat
  generalize s.insertRed ds.offset ds.data e.config.maxBlockSize.toNat = out at hinsert
  obtain ⟨s₁, stored⟩ := out
  have h₁ : s₁.Timed e.config.sessionInactivityTimeoutMicros due (e.alarm sid) := by
    obtain ⟨_, _, _, _, _, rfl⟩ := hinsert
    exact h.congr rfl rfl rfl
  simp only
  split
  · exact recvTimed_putRecv h₁
  have hmarked := h₁.markEnds ds
  cases ds.kind.checkpoint with
  | none => exact recvTimed_deliverRed hmarked source
  | some cp =>
    simp only
    rcases issues_answerCheckpoint sid source e (s₁.markEnds ds) cp.serial.val ds.segEnd now with
      ⟨reports, e', s', heq, hissues, -⟩ | ⟨reports, e', s', heq, hissues, -⟩
    · have hconfig : e'.config = e.config := hissues.acts.config
      rw [heq]
      exact recvTimed_deliverRed (by rw [hconfig]; exact hissues.timed hmarked) source
    · have hconfig : e'.config = e.config := hissues.acts.config
      rw [heq]
      exact recvTimed_initiateCancelReceiver (by rw [hconfig]; exact hissues.timed hmarked) source _
        now

theorem recvTimed_acceptGreen
    (h : s.Timed e.config.sessionInactivityTimeoutMicros due (e.alarm sid)) (source : EngineId)
    (ds : DataSegment) (now : Nat) : (e.acceptGreen source sid s ds now).RecvTimed due sid := by
  have hmarked : (s.markGreen ds).Timed e.config.sessionInactivityTimeoutMicros due
      (e.alarm sid) := h.congr rfl rfl rfl
  unfold acceptGreen
  simp only
  split
  · exact recvTimed_initiateCancelReceiver hmarked source _ now
  · have hnotify : (s.markGreen ds).Timed
        (e.notify (.greenSegmentArrived sid source ds.offset ds.data ds.kind.isEob)
          ).config.sessionInactivityTimeoutMicros due (e.alarm sid) := hmarked
    exact recvTimed_deliverRed hnotify source

theorem recvTimed_acceptData
    (h : s.Timed e.config.sessionInactivityTimeoutMicros (insert (.inactivity false) due)
      (e.alarm sid)) (source : EngineId) (ds : DataSegment) (now : Nat) :
    (e.acceptData source sid s ds now).RecvTimed due sid := by
  have htouched : ({ s with lastActivity := now } : RecvSession).Timed
      (e.touchInactivity sid false now).config.sessionInactivityTimeoutMicros due
      ((e.touchInactivity sid false now).alarm sid) := by
    rw [touchInactivity_config, alarm_touchInactivity]
    exact h.activity rfl
  unfold acceptData
  simp only
  split
  · exact recvTimed_initiateCancelReceiver htouched source _ now
  split
  · exact recvTimed_acceptRed htouched source ds now
  · exact recvTimed_acceptGreen htouched source ds now

theorem recvTimed_handleIncomingData (h : e.RecvTimed due sid) (source : EngineId)
    (ds : DataSegment) (now : Nat) :
    (e.handleIncomingData source sid ds now).RecvTimed due sid := by
  unfold handleIncomingData
  split
  · unfold reportClosed
    split <;> exact h
  split
  · exact h
  cases hs : e.recvSessions[sid]? with
  | some s =>
    simp only
    split
    · exact h
    · have ht := (recvTimed_some hs).mp h
      exact recvTimed_acceptData (ht.mono (Set.subset_insert _ _)) source ds now
  | none =>
    simp only
    split
    · exact h
    · have halarm := (recvTimed_none hs).mp h
      refine recvTimed_acceptData ⟨⟨?_, ?_, fun _ => .inr (Set.mem_insert _ _)⟩, ?_⟩ source ds now
      · exact fun kind hkind => absurd (halarm kind) hkind
      · exact fun hreason => absurd rfl hreason
      · simp [RecvSession.new]

theorem recvTimed_settleRecv
    (h : s.Timed e.config.sessionInactivityTimeoutMicros due (e.alarm sid)) :
    (e.settleRecv sid s).RecvTimed due sid := by
  unfold settleRecv
  split
  · exact recvTimed_removed (by simp) fun kind => alarm_cancelSession (e.removeRecv sid) kind
  · exact recvTimed_putRecv h

theorem alarm_sampleReport (session : RecvSession) (rec : ReportRecord) (now : Nat) :
    (e.sampleReport session rec now).alarm sid = e.alarm sid := by
  unfold sampleReport
  split <;> rfl

theorem config_sampleReport (session : RecvSession) (rec : ReportRecord) (now : Nat) :
    (e.sampleReport session rec now).config = e.config := by
  unfold sampleReport
  split <;> rfl

theorem recvTimed_handleIncomingReportAck (h : e.RecvTimed due sid) (serial : UInt64) (now : Nat) :
    (e.handleIncomingReportAck sid serial now).RecvTimed due sid := by
  have halarm := e.alarm_cancelTimer (TimerKey.report_session sid serial)
  rw [TimerKey.report_kind] at halarm
  unfold handleIncomingReportAck
  cases hs : e.recvSessions[sid]? with
  | none =>
    simp only [cancelTimer_recvSessions, hs]
    refine recvTimed_removed hs fun kind => ?_
    rw [halarm]
    by_cases hk : kind = .report serial
    · rw [hk, update_self]
    · rw [update_of_ne hk]
      exact (recvTimed_none hs).mp h kind
  | some s =>
    simp only [cancelTimer_recvSessions, hs]
    have ht := (recvTimed_some hs).mp h
    split
    · next hreason =>
      have hack := ht.ack serial (fun k _ => rfl) (fun hopen => by simp [hopen] at hreason) rfl rfl
      exact recvTimed_of hack hs halarm rfl
    -- The session as acknowledged, and then as touched.
    have htouch : ∀ s' : RecvSession, s'.Timed e.config.sessionInactivityTimeoutMicros due
          ((e.cancelTimer (.report sid serial)).alarm sid) → ∀ e₁ : Engine,
        e₁.config = e.config →
        e₁.alarm sid = ((e.cancelTimer (.report sid serial)).touchInactivity sid false now).alarm sid →
        (e₁.settleRecv sid { s' with lastActivity := now }).RecvTimed due sid := by
      intro s' hs' e₁ hconfig halarm₁
      apply recvTimed_settleRecv
      rw [hconfig, halarm₁, alarm_touchInactivity]
      exact (hs'.mono (Set.subset_insert _ _)).activity rfl
    cases hrec : s.reports[serial]? with
    | none =>
      simp only
      refine htouch s ?_ _ (by simp) rfl
      rw [halarm]
      exact ht.ack serial (fun k _ => rfl) (fun _ rec hnone => by simp [hrec] at hnone) rfl rfl
    | some rec =>
      simp only
      refine htouch { s with
        reports := s.reports.insert serial { rec with acked := true }
        reportedCoverage := coverClaims rec.report s.reportedCoverage } ?_ _
        (by simp [config_sampleReport]) (alarm_sampleReport _ _ _)
      rw [halarm]
      refine ht.ack serial (fun k hk => by simp [Ne.symm hk]) (fun _ rec' hrec' => ?_) rfl rfl
      simp only [Maps.getElem?_insert, if_true] at hrec'
      cases hrec'
      rfl

/-! ### Expired timers of receive sessions -/

theorem recvTimed_handleRsTimeout (serial : UInt64) (now : Nat)
    (h : e.RecvTimed (insert (.report serial) due) sid) :
    (e.handleRsTimeout sid serial now).RecvTimed due sid := by
  unfold handleRsTimeout
  cases hs : e.recvSessions[sid]? with
  | none =>
    simp only
    exact recvTimed_removed hs ((recvTimed_none hs).mp h)
  | some s =>
    have ht := (recvTimed_some hs).mp h
    have hidle : (∀ rec, s.reports[serial]? = some rec → rec.acked = true) →
        e.RecvTimed due sid := by
      intro hacked
      refine recvTimed_of (ht.discharge ?_ (fun heq => nomatch heq) (fun heq => nomatch heq)) hs
        rfl rfl
      intro k hk _
      cases hk
      exact hacked
    cases hrec : s.reports[serial]? with
    | none =>
      simp only [hrec]
      exact hidle (by simp [hrec])
    | some rec =>
      simp only [hrec]
      split
      · next hacked => exact hidle (by simp [hrec, hacked])
      split
      · have hset := ht.set rfl (by simp)
          (e.peerTimeoutDeadline s.peer now)
        have harmed : update (e.alarm sid) (.report serial)
            (some (e.peerTimeoutDeadline s.peer now)) (.report serial) ≠ none := by simp
        exact recvTimed_of (s := { s with
          reports := s.reports.insert serial { rec with retries := rec.retries + 1 } })
          (hset.putReport harmed rfl) (by simp) (alarm_setTimer _ rfl _) rfl
      · have hcancel := (ht.cancel .rlexc (e.peerTimeoutDeadline s.peer now)).discharge
          (fun _ _ hopen => nomatch hopen) (fun heq => nomatch heq) (fun heq => nomatch heq)
        exact recvTimed_of hcancel (by simp [cancelRecvSession, RecvSession.cancelling])
          (alarm_setTimer _ rfl _) rfl

theorem recvTimed_handleCancelTimeout (now : Nat) (h : e.RecvTimed (insert (.cancel false) due) sid) :
    (e.handleCancelTimeout sid false now).RecvTimed due sid := by
  simp only [handleCancelTimeout, Bool.false_eq_true, if_false]
  cases hs : e.recvSessions[sid]? with
  | none =>
    simp only
    exact recvTimed_removed hs ((recvTimed_none hs).mp h)
  | some s =>
    have ht := (recvTimed_some hs).mp h
    simp only
    split
    · have hset := ht.set rfl (by simp) (e.peerTimeoutDeadline s.peer now)
      exact recvTimed_of (s := { s with cancelRetries := s.cancelRetries + 1 })
        (hset.congr rfl rfl rfl) (by simp) (alarm_setTimer _ rfl _) rfl
    · exact recvTimed_removed (by simp) fun kind => alarm_cancelSession (e.removeRecv sid) kind

theorem recvTimed_handleInactivityTimeout (now : Nat)
    (h : e.RecvTimed (insert (.inactivity false) due) sid) :
    (e.handleInactivityTimeout sid false now).RecvTimed due sid := by
  simp only [handleInactivityTimeout, Bool.false_eq_true, if_false]
  cases hs : e.recvSessions[sid]? with
  | none =>
    simp only
    exact recvTimed_removed hs ((recvTimed_none hs).mp h)
  | some s =>
    have ht := (recvTimed_some hs).mp h
    simp only
    split
    · exact recvTimed_removed (by simp) fun kind => alarm_cancelSession (e.removeRecv sid) kind
    · have hrearm : (e.rearmInactivity sid false s.lastActivity).alarm sid = _ :=
        e.alarm_touchInactivity false s.lastActivity
      exact recvTimed_of (ht.activity rfl) (by unfold rearmInactivity; simp only; split <;> exact hs)
        hrearm (by unfold rearmInactivity; simp only; split <;> rfl)

/-! ### Cancelled receive sessions -/

theorem recvTimed_handleIncomingCancel (source : EngineId) (reason : CancelReason)
    (fromSender : Bool) : (e.handleIncomingCancel source sid reason fromSender).RecvTimed due sid := by
  have hnotify : ∀ (told : Bool) (e₁ : Engine), e₁.recvSessions[sid]? = none →
      (∀ kind, e₁.alarm sid kind = none) →
      (if told then e₁.notify (.transmissionSessionCancelled sid reason) else e₁).RecvTimed
        due sid := by
    intro told e₁ hs halarm
    cases told with
    | true => exact recvTimed_removed hs halarm
    | false => exact recvTimed_removed hs halarm
  exact hnotify _ _ (by simp) fun kind => alarm_cancelSession _ kind

theorem recvTimed_handleIncomingCancelAck :
    (e.handleIncomingCancelAck sid false).RecvTimed due sid :=
  recvTimed_removed (by simp [handleIncomingCancelAck]) fun kind => alarm_cancelSession _ kind

end Receive

/-! ### Send sessions -/

/-- What the timers are to be for a session of this engine. -/
def SendTimed (e : Engine) (due : Set TimerKind) (sid : SessionId) : Prop :=
  match e.sendSessions[sid]? with
  | none => ∀ kind, e.alarm sid kind = none
  | some s => Timely true e.config.sessionInactivityTimeoutMicros due (e.alarm sid) s.cancelReason
      s.lastActivity

section Send

variable {e e' : Engine} {sid : SessionId} {due : Set TimerKind} {s s' : SendSession}

theorem sendTimed_some (hs : e.sendSessions[sid]? = some s) : e.SendTimed due sid ↔
    Timely true e.config.sessionInactivityTimeoutMicros due (e.alarm sid) s.cancelReason
      s.lastActivity := by
  rw [SendTimed, hs]

theorem sendTimed_none (hs : e.sendSessions[sid]? = none) :
    e.SendTimed due sid ↔ ∀ kind, e.alarm sid kind = none := by
  rw [SendTimed, hs]

/-- A session in the table is timed by the alarms of the engine. -/
theorem sendTimed_of {alarm : TimerKind → Option Nat} {timeout : Nat}
    (h : Timely true timeout due alarm s.cancelReason s.lastActivity)
    (hs : e'.sendSessions[sid]? = some s) (halarm : e'.alarm sid = alarm)
    (hconfig : e'.config.sessionInactivityTimeoutMicros = timeout) : e'.SendTimed due sid := by
  rw [sendTimed_some hs, halarm, hconfig]
  exact h

theorem sendTimed_removed (hs : e'.sendSessions[sid]? = none)
    (halarm : ∀ kind, e'.alarm sid kind = none) : e'.SendTimed due sid :=
  (sendTimed_none hs).mpr halarm

theorem sendTimed_putSend (h : Timely true e.config.sessionInactivityTimeoutMicros due (e.alarm sid)
      s.cancelReason s.lastActivity) : (e.putSend sid s).SendTimed due sid :=
  sendTimed_of h (by simp) rfl rfl

theorem Sends.timely {dest : EngineId} {pushes : List Push} {spans : List Range} {timeout : Nat}
    {reason : Option CancelReason} {lastActivity : Nat} (h : Sends sid dest pushes spans e s e' s')
    (ht : Timely true timeout due (e.alarm sid) reason lastActivity) :
    Timely true timeout due (e'.alarm sid) reason lastActivity := by
  refine ⟨fun kind hkind => ?_, fun hreason => ?_, fun hpos => ?_⟩
  · rcases h.armed_new kind hkind with hold | ⟨serial, rfl⟩
    · exact ht.named kind hold
    · rfl
  · exact (ht.cancelling hreason).imp_left fun harmed => h.armed_old harmed
  · have hsame : e'.alarm sid (.inactivity true) = e.alarm sid (.inactivity true) := h.inactivity
    rw [hsame]
    exact ht.inactive hpos

theorem sendTimed_settleSend
    (h : Timely true e.config.sessionInactivityTimeoutMicros due (e.alarm sid) s.cancelReason
      s.lastActivity) : (e.settleSend sid s).SendTimed due sid := by
  unfold settleSend
  split
  · exact sendTimed_removed (by simp) fun kind => alarm_cancelSession _ kind
  · exact sendTimed_putSend h

theorem alarm_sampleCheckpoint (source : EngineId) (record? : Option CheckpointRecord) (now : Nat) :
    (e.sampleCheckpoint source record? now).alarm sid = e.alarm sid := by
  cases record? with
  | none => rfl
  | some cp =>
    simp only [sampleCheckpoint]
    split <;> rfl

theorem config_sampleCheckpoint (source : EngineId) (record? : Option CheckpointRecord) (now : Nat) :
    (e.sampleCheckpoint source record? now).config = e.config := by
  cases record? with
  | none => rfl
  | some cp =>
    simp only [sampleCheckpoint]
    split <;> rfl

theorem sendTimed_handleIncomingReport (h : e.SendTimed due sid)
    (hsound : ∀ s, e.sendSessions[sid]? = some s → s.Sound sid e.config.maxBlockSize.toNat)
    (source : EngineId) (rs : ReportSegment) (now : Nat) :
    (e.handleIncomingReport source sid rs now).SendTimed due sid := by
  have halarm := (e.push source sid (.reportAck rs.reportSerial.val)).alarm_cancelTimer
    (TimerKey.checkpoint_session sid rs.checkpointSerial)
  rw [TimerKey.checkpoint_kind] at halarm
  unfold handleIncomingReport
  cases hs : e.sendSessions[sid]? with
  | none =>
    simp only [cancelTimer_sendSessions, push_sendSessions, hs]
    refine sendTimed_removed hs fun kind => ?_
    rw [halarm]
    by_cases hk : kind = .checkpoint rs.checkpointSerial
    · rw [hk, update_self]
    · rw [update_of_ne hk]
      exact (sendTimed_none hs).mp h kind
  | some s =>
    simp only [cancelTimer_sendSessions, push_sendSessions, hs]
    have hclear := ((sendTimed_some hs).mp h).clear (.checkpoint rs.checkpointSerial)
      (by simp) (by simp)
    split
    · exact sendTimed_of hclear hs halarm rfl
    -- The engine once the session was touched.
    generalize he₁ : ((((e.push source sid (.reportAck rs.reportSerial.val)).cancelTimer
      (.checkpoint sid rs.checkpointSerial)).touchInactivity sid true now).sampleCheckpoint source
        s.checkpoints[rs.checkpointSerial]? now) = e₁
    have hconfig : e₁.config = e.config := by simp [← he₁, config_sampleCheckpoint]
    have htouched : Timely true e.config.sessionInactivityTimeoutMicros due (e₁.alarm sid)
        s.cancelReason now := by
      rw [← he₁, alarm_sampleCheckpoint, alarm_touchInactivity, halarm]
      exact (hclear.mono (Set.subset_insert _ _)).activity now
    split
    · apply sendTimed_putSend
      rw [hconfig]
      exact htouched
    · have hclaim := (hsound s hs).claim rs now
      obtain ⟨⟨pushes, spans, hsends, -⟩, -⟩ := sends_answerReport e₁ hclaim source rs now
      have hanswered := hsends.timely htouched
      obtain ⟨lastCpSerial, checkpoints, hsession⟩ := hsends.session
      have hsettled : ((e₁.answerReport (s.claim rs now) source rs now).1.settleSend sid
          (e₁.answerReport (s.claim rs now) source rs now).2).SendTimed due sid := by
        apply sendTimed_settleSend
        rw [hsends.acts.config, hconfig, hsession]
        exact hanswered
      exact hsettled

theorem SendTimed.named (h : e.SendTimed due sid) {kind : TimerKind}
    (hkind : e.alarm sid kind ≠ none) : kind.ofSender = true := by
  cases hs : e.sendSessions[sid]? with
  | none => exact absurd ((sendTimed_none hs).mp h kind) hkind
  | some s => exact ((sendTimed_some hs).mp h).named kind hkind

theorem sendTimed_openSession (h : e.SendTimed due s.id)
    (hsize : s.block.length ≤ e.config.maxBlockSize.toNat) (hle : s.redLen ≤ s.block.length)
    (hcps : s.checkpoints = ∅) (hopen : s.cancelReason = none) (hclaims : s.claimsReceived = .new)
    {now : Nat} (hnow : s.lastActivity = now) : (e.openSession s now).SendTimed due s.id := by
  rcases openSession_cases e hsize hle hcps hclaims now with ⟨-, pushes, spans, heq, -⟩ |
    ⟨-, redPushes, redSpans, greenPushes, greenSpans, e₁, s₁, hsends, -, -, heq⟩
  · rw [heq]
    exact h
  · have hconfig : e₁.config = e.config := hsends.acts.config
    -- A session that may have had the same number left no timers but its own.
    have hbase : Timely true e.config.sessionInactivityTimeoutMicros
        (insert (.inactivity true) due) (e.alarm s.id) none now :=
      ⟨fun kind hkind => h.named hkind, fun hreason => absurd rfl hreason,
        fun _ => .inr (Set.mem_insert _ _)⟩
    have htouched := (hsends.timely hbase).activity now
    obtain ⟨lastCpSerial, checkpoints, rfl⟩ := hsends.session
    rw [heq]
    apply sendTimed_putSend
    rw [touchInactivity_config, alarm_touchInactivity]
    simp only [hconfig, hopen, hnow]
    exact htouched

theorem sendTimed_requestTransmission {peer : EngineId} {clientService : UInt64} {block : Bytes}
    {redLen now : Nat} (h : e.SendTimed due sid)
    (hreq : e.requestTransmission peer clientService block redLen now = .ok (sid, e')) :
    e'.SendTimed due sid := by
  simp only [requestTransmission] at hreq
  split at hreq
  · cases hreq
  next hsize =>
  split at hreq
  · cases hreq
  next hred =>
  cases hreq
  have hnumbered : e.numberSession.SendTimed due e.nextSessionId := h
  exact sendTimed_openSession (s := .new e.nextSessionId peer clientService block redLen 0 now)
    hnumbered (not_lt.mp hsize) (not_lt.mp hred) rfl rfl rfl rfl

/-! ### Expired timers of send sessions -/

theorem sendTimed_handleCpTimeout (serial : UInt64) (now : Nat)
    (h : e.SendTimed (insert (.checkpoint serial) due) sid) :
    (e.handleCpTimeout sid serial now).SendTimed due sid := by
  unfold handleCpTimeout
  cases hs : e.sendSessions[sid]? with
  | none =>
    simp only
    exact sendTimed_removed hs ((sendTimed_none hs).mp h)
  | some s =>
    have ht := (sendTimed_some hs).mp h
    cases hcp : s.checkpoints[serial]? with
    | none =>
      simp only [hcp]
      exact sendTimed_of (ht.discharge (fun heq => nomatch heq) (fun heq => nomatch heq)) hs rfl rfl
    | some cp =>
      simp only [hcp]
      split
      · have hset := ht.set rfl (by simp)
          (e.peerTimeoutDeadline s.peer now)
        exact sendTimed_of (s := { s with
          checkpoints := s.checkpoints.insert serial { cp with retries := cp.retries + 1 } }) hset
          (by simp) (alarm_setTimer _ rfl _) rfl
      · have hcancel := (ht.cancel (some .rlexc) (e.peerTimeoutDeadline s.peer now)).discharge
          (fun heq => nomatch heq) (fun heq => nomatch heq)
        exact sendTimed_of (s := s.cancelling .rlexc) hcancel
          (by simp [cancelSendSession, SendSession.cancelling]) (alarm_setTimer _ rfl _) rfl

theorem sendTimed_handleCancelTimeout (now : Nat) (h : e.SendTimed (insert (.cancel true) due) sid) :
    (e.handleCancelTimeout sid true now).SendTimed due sid := by
  simp only [handleCancelTimeout, if_true]
  cases hs : e.sendSessions[sid]? with
  | none =>
    simp only
    exact sendTimed_removed hs ((sendTimed_none hs).mp h)
  | some s =>
    have ht := (sendTimed_some hs).mp h
    simp only
    split
    · have hset := ht.set rfl (by simp) (e.peerTimeoutDeadline s.peer now)
      exact sendTimed_of (s := { s with cancelRetries := s.cancelRetries + 1 }) hset (by simp)
        (alarm_setTimer _ rfl _) rfl
    · exact sendTimed_removed (by simp) fun kind => alarm_cancelSession (e.removeSend sid) kind

theorem sendTimed_handleInactivityTimeout (now : Nat)
    (h : e.SendTimed (insert (.inactivity true) due) sid) :
    (e.handleInactivityTimeout sid true now).SendTimed due sid := by
  simp only [handleInactivityTimeout, if_true]
  cases hs : e.sendSessions[sid]? with
  | none =>
    simp only
    exact sendTimed_removed hs ((sendTimed_none hs).mp h)
  | some s =>
    have ht := (sendTimed_some hs).mp h
    simp only
    split
    · exact sendTimed_removed (by simp) fun kind => alarm_cancelSession (e.removeSend sid) kind
    · have hrearm : (e.rearmInactivity sid true s.lastActivity).alarm sid = _ :=
        e.alarm_touchInactivity true s.lastActivity
      exact sendTimed_of (ht.activity s.lastActivity)
        (by unfold rearmInactivity; simp only; split <;> exact hs)
        hrearm (by unfold rearmInactivity; simp only; split <;> rfl)

/-! ### Cancelled send sessions -/

theorem sendTimed_handleIncomingCancel (source : EngineId) (reason : CancelReason)
    (fromSender : Bool) : (e.handleIncomingCancel source sid reason fromSender).SendTimed due sid := by
  unfold handleIncomingCancel
  have hnotify : ∀ (told : Bool) (e₁ : Engine), e₁.sendSessions[sid]? = none →
      (∀ kind, e₁.alarm sid kind = none) →
      (if told then e₁.notify (.transmissionSessionCancelled sid reason) else e₁).SendTimed
        due sid := by
    intro told e₁ hs halarm
    cases told with
    | true => exact sendTimed_removed hs halarm
    | false => exact sendTimed_removed hs halarm
  exact hnotify _ _ (by simp) fun kind => alarm_cancelSession _ kind

theorem sendTimed_handleIncomingCancelAck :
    (e.handleIncomingCancelAck sid true).SendTimed due sid :=
  sendTimed_removed (by simp [handleIncomingCancelAck]) fun kind => alarm_cancelSession _ kind

end Send

end Engine

end HdyUtils.Ltp
