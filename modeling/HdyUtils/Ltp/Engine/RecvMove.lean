import HdyUtils.Ltp.Engine.Reassembly
import HdyUtils.Ltp.Engine.Reporting
import HdyUtils.Ltp.Engine.SendMove

/-! Everything that can happen to a receive session.  A `RecvMove` leads from one view of the session
to the next, with the segments and notices that come of it; each handler of the receiving half
makes one. -/

namespace HdyUtils.Ltp

open Runs

/-- A receive session, if the engine has it, its armed timers, and whether the engine remembers it
as closed or as cancelled. -/
@[ext] structure RecvView where
  session : Option RecvSession
  armed : Set TimerKind
  closed : Prop
  cancelled : Prop

/-- What makes a receive session move. -/
inductive RecvTrigger
  | data (source : EngineId) (ds : DataSegment) (now : Nat)
  | reportAck (serial : UInt64)
  | peerCancel (source : EngineId) (reason : CancelReason)
  | cancelAck
  | expired (kind : TimerKind) (now : Nat)

namespace RecvSession

/-- The session at its latest activity. -/
def touched (s : RecvSession) (now : Nat) : RecvSession := { s with lastActivity := now }

/-- The session once its cancellation has started. -/
def cancelling (s : RecvSession) (reason : CancelReason) : RecvSession :=
  { s with cancelReason := some reason, cancelRetries := 1 }

/-- The red part is complete and has not been delivered. -/
def deliverable (s : RecvSession) : Bool := s.isRedComplete && !s.redDelivered

/-- The notice of the delivery, if there is one. -/
def deliveryNotices (s : RecvSession) (sid : SessionId) (source : EngineId) : List Notice :=
  if s.deliverable then
    [.redPartReceived sid source s.clientService (s.redBuf.take (s.redPartLen.getD 0))
      s.redEndsBlock]
  else []

def delivered (s : RecvSession) : RecvSession :=
  if s.deliverable then { s with redBuf := [], redDelivered := true } else s

/-- The session once a report has been acknowledged. -/
def ackReport (s : RecvSession) (serial : UInt64) : RecvSession :=
  match s.reports[serial]? with
  | some rec =>
    { s with
      reports := s.reports.insert serial { rec with acked := true }
      reportedCoverage := Engine.coverClaims rec.report s.reportedCoverage }
  | none => s

/-- All of the delivered red part is acknowledged. -/
def settled (s : RecvSession) : Bool :=
  s.isRedComplete && s.redDelivered && s.reportedCoverage.covers ⟨0, s.redPartLen.getD 0⟩

/-- The timers that the session acts on when they expire. -/
def Expects (s : RecvSession) : TimerKind → Prop
  | .report serial => ∃ rec, s.reports[serial]? = some rec ∧ rec.acked = false
  | .cancel isSender | .inactivity isSender => isSender = false
  | .checkpoint _ => False

end RecvSession

/-- The report on a checkpoint of a session that is closed. -/
def closedReport (ds : DataSegment) (cp : Checkpoint) : ReportSegment where
  reportSerial := .one
  checkpointSerial := cp.serial.val
  upperBound := ds.segEnd
  lowerBound := 0
  claims := [{ offset := 0, length := ds.segEnd }]

/-- The session to which a data segment is admitted: the open one, or a new one. -/
def Admits (sid : SessionId) (source : EngineId) (ds : DataSegment) (now : Nat) (v : RecvView)
    (s : RecvSession) : Prop :=
  ¬v.closed ∧ ¬v.cancelled ∧
    (v.session = some s ∧ s.cancelReason = none ∨
      v.session = none ∧ s = .new sid source ds.clientService 0 now)

/-- A red segment, stored in the session and reported on if it is a checkpoint, leads from `s` to
`s'`. -/
structure Stores (config : EngineConfig) (ds : DataSegment) (s s' : RecvSession)
    (reports : List ReportSegment) : Prop where
  red : ds.kind.isRed
  fits : s.redMiscolored ds = false
  stored : ∃ s₁, s.insertRed ds.offset ds.data config.maxBlockSize.toNat = (s₁, true) ∧
    (s₁.markEnds ds).UpToReports s' ∧
    (∀ r ∈ reports, Engine.ReportsFor config (s₁.markEnds ds) ds.segEnd r) ∧
    ∀ (serial : UInt64) (rec : ReportRecord), s'.reports[serial]? = some rec →
      s₁.reports[serial]? = some rec ∨ rec.report ∈ reports
  room : s'.reports.size ≤ max s.reports.size config.maxReportsPerSession
  allowed : config.allows ds.clientService = true
  answers : reports = [] ∨ ∃ cp s₁, ds.kind.checkpoint = some cp ∧
    s.insertRed ds.offset ds.data config.maxBlockSize.toNat = (s₁, true) ∧
    Engine.Answers config (s₁.markEnds ds) cp.serial.val reports

/-- What a data segment may have changed in a session before the session is cancelled. -/
inductive Spoils (config : EngineConfig) (ds : DataSegment) (s : RecvSession) :
    RecvSession → List ReportSegment → Prop
  | untouched : Spoils config ds s s []
  | green : Spoils config ds s (s.markGreen ds) []
  | stored {s' reports} (h : Stores config ds s s' reports)
      (hgap : reports ≠ [] → ∃ x, x < ds.segEnd ∧ x ∉ s'.redReceived) :
      Spoils config ds s s' reports

/-- The segments that carry reports. -/
def reportPushes (dest : EngineId) (reports : List ReportSegment) : List Push :=
  reports.map fun r => (dest, .report r)

inductive RecvMove (config : EngineConfig) (sid : SessionId) :
    RecvTrigger → RecvView → List Push → List Notice → RecvView → Prop
  | dataIgnored {source ds now v} : RecvMove config sid (.data source ds now) v [] [] v
  | dataReported {source ds now cp v} (hclosed : v.closed) (hcp : ds.kind.checkpoint = some cp) :
      RecvMove config sid (.data source ds now) v [(source, .report (closedReport ds cp))] [] v
  | dataCancelled {source ds now v s s' reports reason armed}
      (hadmits : Admits sid source ds now v s) (h : Spoils config ds (s.touched now) s' reports) :
      RecvMove config sid (.data source ds now) v
        (reportPushes source reports ++ [(source, .cancelReceiver reason)])
        [.transmissionSessionCancelled sid reason]
        ⟨some (s'.cancelling reason), armed, v.closed, True⟩
  | dataRefused {source ds now v s s' armed} (hadmits : Admits sid source ds now v s)
      (hred : ds.kind.isRed)
      (hrefused : (s.touched now).insertRed ds.offset ds.data config.maxBlockSize.toNat =
        (s', false))
      (hnew : ∀ k ∈ armed, k ∈ v.armed ∨ k = .inactivity false) :
      RecvMove config sid (.data source ds now) v [] [] ⟨some s', armed, v.closed, v.cancelled⟩
  | dataStored {source ds now v s s' reports armed} (hadmits : Admits sid source ds now v s)
      (h : Stores config ds (s.touched now) s' reports)
      (hnew : ∀ k ∈ armed, k ∈ v.armed ∨ k = .inactivity false ∨ ∃ serial, k = .report serial) :
      RecvMove config sid (.data source ds now) v (reportPushes source reports)
        (s'.deliveryNotices sid source) ⟨some s'.delivered, armed, v.closed, v.cancelled⟩
  | dataGreen {source ds now v s armed} (hadmits : Admits sid source ds now v s)
      (hgreen : ds.kind.isRed = false) (hfits : ((s.touched now).markGreen ds).greenMiscolored ds = false)
      (hnew : ∀ k ∈ armed, k ∈ v.armed ∨ k = .inactivity false) :
      RecvMove config sid (.data source ds now) v []
        (.greenSegmentArrived sid source ds.offset ds.data ds.kind.isEob ::
          ((s.touched now).markGreen ds).deliveryNotices sid source)
        ⟨some ((s.touched now).markGreen ds).delivered, armed, v.closed, v.cancelled⟩
  | ackIgnored {serial v} (h : ∀ s, v.session = some s → s.cancelReason.isSome) :
      RecvMove config sid (.reportAck serial) v [] []
        ⟨v.session, v.armed \ {.report serial}, v.closed, v.cancelled⟩
  | ackKept {serial now s armed armed' closed cancelled} (hopen : s.cancelReason = none)
      (hsettled : ((s.touched now).ackReport serial).settled = false)
      (hnew : ∀ k ∈ armed', k ∈ armed ∨ k = .inactivity false) :
      RecvMove config sid (.reportAck serial) ⟨some s, armed, closed, cancelled⟩ [] []
        ⟨some ((s.touched now).ackReport serial), armed', closed, cancelled⟩
  | ackClosed {serial now s armed closed cancelled} (hopen : s.cancelReason = none)
      (hsettled : ((s.touched now).ackReport serial).settled = true) :
      RecvMove config sid (.reportAck serial) ⟨some s, armed, closed, cancelled⟩ [] []
        ⟨none, ∅, True, cancelled⟩
  | expiredIdle {kind now v} (h : ∀ s, v.session = some s → ¬s.Expects kind) :
      RecvMove config sid (.expired kind now) v [] [] v
  | reportResent {serial now s rec armed closed cancelled} (hrec : s.reports[serial]? = some rec)
      (hacked : rec.acked = false) (hlimit : rec.retries < config.reportRtxLimit) :
      RecvMove config sid (.expired (.report serial) now) ⟨some s, armed, closed, cancelled⟩
        [(s.peer, .report rec.report)] []
        ⟨some { s with reports := s.reports.insert serial { rec with retries := rec.retries + 1 } },
          insert (.report serial) armed, closed, cancelled⟩
  | reportExhausted {serial now s rec armed closed cancelled}
      (hrec : s.reports[serial]? = some rec) (hacked : rec.acked = false)
      (hlimit : config.reportRtxLimit ≤ rec.retries) :
      RecvMove config sid (.expired (.report serial) now) ⟨some s, armed, closed, cancelled⟩
        [(s.peer, .cancelReceiver .rlexc)] [.transmissionSessionCancelled sid .rlexc]
        ⟨some (s.cancelling .rlexc), insert (.cancel false) armed, closed, cancelled⟩
  | cancelResent {now s armed closed cancelled} (hlimit : s.cancelRetries < config.cancelRtxLimit) :
      RecvMove config sid (.expired (.cancel false) now) ⟨some s, armed, closed, cancelled⟩
        [(s.peer, .cancelReceiver (s.cancelReason.getD .rlexc))] []
        ⟨some { s with cancelRetries := s.cancelRetries + 1 }, insert (.cancel false) armed, closed,
          cancelled⟩
  | cancelAbandoned {now s armed closed cancelled} (hlimit : config.cancelRtxLimit ≤ s.cancelRetries) :
      RecvMove config sid (.expired (.cancel false) now) ⟨some s, armed, closed, cancelled⟩ [] []
        ⟨none, ∅, closed, True⟩
  | inactivityRearmed {now s armed armed' closed cancelled}
      (h : ¬config.TimedOut s.lastActivity now)
      (hnew : ∀ k ∈ armed', k ∈ armed ∨ k = .inactivity false) :
      RecvMove config sid (.expired (.inactivity false) now) ⟨some s, armed, closed, cancelled⟩ [] []
        ⟨some s, armed', closed, cancelled⟩
  | inactivityExpired {now s armed closed cancelled} (h : config.TimedOut s.lastActivity now) :
      RecvMove config sid (.expired (.inactivity false) now) ⟨some s, armed, closed, cancelled⟩
        [(s.peer, .cancelReceiver .rlexc)] [.transmissionSessionCancelled sid .rlexc]
        ⟨none, ∅, closed, True⟩
  | peerCancelled {source reason s armed closed cancelled} (hopen : s.cancelReason = none) :
      RecvMove config sid (.peerCancel source reason) ⟨some s, armed, closed, cancelled⟩
        [(source, .cancelAckSender)] [.transmissionSessionCancelled sid reason]
        ⟨none, ∅, closed, True⟩
  | peerCancelledAgain {source reason v} (h : ∀ s, v.session = some s → s.cancelReason.isSome) :
      RecvMove config sid (.peerCancel source reason) v [(source, .cancelAckSender)] []
        ⟨none, ∅, v.closed, True⟩
  | cancelAcked {v} : RecvMove config sid .cancelAck v [] [] ⟨none, ∅, v.closed, True⟩

/-- Only data opens a receive session. -/
theorem RecvMove.data_of_opens {config : EngineConfig} {sid : SessionId} {trigger : RecvTrigger}
    {v v' : RecvView} {p : List Push} {n : List Notice} (h : RecvMove config sid trigger v p n v')
    (hnone : v.session = none) (hsome : v'.session ≠ none) :
    ∃ source ds now, trigger = .data source ds now := by
  cases h with
  | dataIgnored | dataReported | dataCancelled | dataRefused | dataStored | dataGreen =>
    exact ⟨_, _, _, rfl⟩
  | ackIgnored | expiredIdle => exact absurd hnone hsome
  | ackKept | ackClosed | reportResent | reportExhausted | cancelResent | cancelAbandoned
  | inactivityRearmed | inactivityExpired | peerCancelled => cases hnone
  | peerCancelledAgain | cancelAcked => exact absurd rfl hsome

namespace Engine

@[simps] def recvView (e : Engine) (sid : SessionId) : RecvView where
  session := e.recvSessions[sid]?
  armed := e.armed sid
  closed := sid ∈ e.closedRecvSessions
  cancelled := sid ∈ e.cancelledSessions

/-- `e'` follows from `e` by a move of receive session `sid`. -/
structure MovesRecv (sid : SessionId) (trigger : RecvTrigger) (pushes : List Push)
    (notices : List Notice) (e e' : Engine) : Prop where
  acts : Acts sid pushes notices e e'
  move : RecvMove e.config sid trigger (e.recvView sid) pushes notices (e'.recvView sid)
  send : e.sendSessions[sid]? = none → e'.sendSessions[sid]? = none

theorem MovesRecv.of_views {sid : SessionId} {trigger : RecvTrigger} {p : List Push}
    {n : List Notice} {e e' : Engine} {v v' : RecvView} (hv : e.recvView sid = v)
    (hmove : RecvMove e.config sid trigger v p n v') (hacts : Acts sid p n e e')
    (hv' : e'.recvView sid = v') (hsend : e.sendSessions[sid]? = none → e'.sendSessions[sid]? = none) :
    MovesRecv sid trigger p n e e' where
  acts := hacts
  move := by rw [hv, hv']; exact hmove
  send := hsend

@[simp] theorem mem_recordClosed (e : Engine) (sid : SessionId) :
    sid ∈ e.closedRecvSessions.record sid := RecentSet.mem_record_self (by decide) _ _

@[simp] theorem mem_recordCancelled (e : Engine) (sid : SessionId) :
    sid ∈ e.cancelledSessions.record sid := RecentSet.mem_record_self (by decide) _ _

section Timeouts

variable {sid : SessionId} (e : Engine)

theorem recvView_eq {s : RecvSession} (h : e.recvSessions[sid]? = some s) :
    e.recvView sid =
      ⟨some s, e.armed sid, sid ∈ e.closedRecvSessions, sid ∈ e.cancelledSessions⟩ := by
  rw [recvView, h]

theorem movesRecv_idle {kind : TimerKind} (h : ∀ s, e.recvSessions[sid]? = some s → ¬s.Expects kind)
    (now : Nat) : MovesRecv sid (.expired kind now) [] [] e e where
  acts := .refl _ e
  move := .expiredIdle h
  send := id

theorem movesRecv_handleRsTimeout (serial : UInt64) (now : Nat) :
    ∃ pushes notices, MovesRecv sid (.expired (.report serial) now) pushes notices e
      (e.handleRsTimeout sid serial now) := by
  cases hs : e.recvSessions[sid]? with
  | none =>
    rw [handleRsTimeout, hs]
    exact ⟨_, _, movesRecv_idle e (by simp [hs]) now⟩
  | some s =>
    have hidle : (∀ rec, s.reports[serial]? = some rec → rec.acked = true) →
        ∃ pushes notices, MovesRecv sid (.expired (.report serial) now) pushes notices e e := by
      intro h
      refine ⟨_, _, movesRecv_idle e (fun s' hs' => ?_) now⟩
      rw [hs] at hs'
      cases hs'
      rintro ⟨rec, hrec, hacked⟩
      simp [h rec hrec] at hacked
    cases hrec : s.reports[serial]? with
    | none =>
      simp only [handleRsTimeout, hs, hrec]
      exact hidle (by simp [hrec])
    | some rec =>
      simp only [handleRsTimeout, hs, hrec]
      split
      · rename_i hacked
        exact hidle (by simp [hrec, hacked])
      rename_i hacked
      rw [Bool.not_eq_true] at hacked
      split
      · rename_i hlt
        exact ⟨_, _, .of_views (recvView_eq e hs) (.reportResent hrec hacked hlt)
          ((((Acts.refl _ e).putRecv _).push _ _).setTimer _ _) (by simp [recvView]) id⟩
      · rename_i hle
        exact ⟨_, _, .of_views (recvView_eq e hs) (.reportExhausted hrec hacked (not_lt.mp hle))
          (((((Acts.refl _ e).putRecv _).push _ _).setTimer _ _).notify _)
          (by simp [recvView, cancelRecvSession, RecvSession.cancelling]) id⟩

theorem movesRecv_handleCancelTimeout (now : Nat) :
    ∃ pushes notices, MovesRecv sid (.expired (.cancel false) now) pushes notices e
      (e.handleCancelTimeout sid false now) := by
  cases hs : e.recvSessions[sid]? with
  | none =>
    simp only [handleCancelTimeout, hs, Bool.false_eq_true, if_false]
    exact ⟨_, _, movesRecv_idle e (by simp [hs]) now⟩
  | some s =>
    simp only [handleCancelTimeout, hs, Bool.false_eq_true, if_false]
    split
    · rename_i hlt
      exact ⟨_, _, .of_views (recvView_eq e hs) (.cancelResent hlt)
        ((((Acts.refl _ e).putRecv _).push _ _).setTimer _ _) (by simp [recvView]) id⟩
    · rename_i hle
      exact ⟨_, _, .of_views (recvView_eq e hs) (.cancelAbandoned (not_lt.mp hle))
        (((Acts.refl _ e).removeRecv).cancelSession).recordCancelled (by simp [recvView]) id⟩

theorem movesRecv_handleInactivityTimeout (now : Nat) :
    ∃ pushes notices, MovesRecv sid (.expired (.inactivity false) now) pushes notices e
      (e.handleInactivityTimeout sid false now) := by
  cases hs : e.recvSessions[sid]? with
  | none =>
    simp only [handleInactivityTimeout, hs, Bool.false_eq_true, if_false]
    exact ⟨_, _, movesRecv_idle e (by simp [hs]) now⟩
  | some s =>
    simp only [handleInactivityTimeout, hs, Bool.false_eq_true, if_false]
    split
    · rename_i hto
      exact ⟨_, _, .of_views (recvView_eq e hs) (.inactivityExpired (timedOut_iff.mp hto))
        ((((Acts.refl _ e).removeRecv).cancelSession).recordCancelled.push _ _ |>.notify _)
        (by simp [recvView]) id⟩
    · rename_i hto
      rw [timedOut_iff] at hto
      unfold rearmInactivity
      simp only
      split
      · have hmove : RecvMove e.config sid (.expired (.inactivity false) now)
            ⟨some s, e.armed sid, sid ∈ e.closedRecvSessions, sid ∈ e.cancelledSessions⟩ [] []
            ⟨some s, insert (.inactivity false) (e.armed sid), _, _⟩ :=
          .inactivityRearmed hto fun k hk => (Set.mem_insert_iff.mp hk).symm
        exact ⟨_, _, .of_views (recvView_eq e hs) hmove ((Acts.refl _ e).setTimer _ _)
          (by simp [recvView, hs]) id⟩
      · exact ⟨_, _, .of_views (recvView_eq e hs) (.inactivityRearmed hto fun k => .inl) (.refl _ e)
          (recvView_eq e hs) id⟩

end Timeouts

section Cancelling

variable {sid : SessionId} (e : Engine)

theorem movesRecv_handleIncomingCancel (source : EngineId) (reason : CancelReason)
    (hsend : e.sendSessions[sid]? = none) :
    ∃ pushes notices, MovesRecv sid (.peerCancel source reason) pushes notices e
      (e.handleIncomingCancel source sid reason true) := by
  have hacts := (((((Acts.refl sid e).push source .cancelAckSender).removeSend).removeRecv
    ).cancelSession).recordCancelled
  simp only [handleIncomingCancel, if_true, push_sendSessions, push_recvSessions, hsend,
    Bool.false_or]
  cases hs : e.recvSessions[sid]? with
  | none =>
    exact ⟨_, _, .of_views rfl (.peerCancelledAgain (by simp [hs])) hacts (by simp [recvView])
      (by simp)⟩
  | some s =>
    cases hreason : s.cancelReason with
    | none =>
      simp only [hreason, Option.isNone_none, if_true]
      exact ⟨_, _, .of_views (recvView_eq e hs) (.peerCancelled hreason) (hacts.notify _)
        (by simp [recvView]) (by simp)⟩
    | some r =>
      simp only [hreason, Option.isNone_some, Bool.false_eq_true, if_false]
      exact ⟨_, _, .of_views (recvView_eq e hs) (.peerCancelledAgain (by simp [hreason])) hacts
        (by simp [recvView]) (by simp)⟩

theorem movesRecv_handleIncomingCancelAck :
    ∃ pushes notices, MovesRecv sid .cancelAck pushes notices e
      (e.handleIncomingCancelAck sid false) :=
  ⟨_, _, .of_views rfl .cancelAcked
    ((((Acts.refl _ e).cancelTimer _).removeRecv).cancelSession).recordCancelled
    (by simp [recvView, handleIncomingCancelAck]) id⟩

/-- The cancellation of a session that was admitted. -/
theorem movesRecv_cancel {source : EngineId} {ds : DataSegment} {now : Nat} {s s' : RecvSession}
    {reports : List ReportSegment} {e' : Engine} (hadmits : Admits sid source ds now (e.recvView sid) s)
    (h : Spoils e.config ds (s.touched now) s' reports)
    (hacts : Acts sid (reportPushes source reports) [] e e')
    (hsend : e'.sendSessions = e.sendSessions)
    (hclosed : e'.closedRecvSessions = e.closedRecvSessions) (reason : CancelReason) :
    ∃ pushes notices, MovesRecv sid (.data source ds now) pushes notices e
      ((e'.putRecv sid s').initiateCancelReceiver sid source reason now) := by
  simp only [initiateCancelReceiver, putRecv_recvSessions, Maps.getElem?_insert, if_true]
  exact ⟨_, _, .of_views rfl (.dataCancelled hadmits h)
    ((((((hacts.putRecv _).putRecv _).recordCancelled).push _ _).setTimer _ _).notify _)
    (by simp [recvView, RecvSession.cancelling, hclosed]; rfl) (by simp [hsend])⟩

end Cancelling

section Incoming

variable {sid : SessionId} (e : Engine)

theorem deliverRed_eq (source : EngineId) (s : RecvSession) :
    e.deliverRed source sid s =
      ({ e with notices := e.notices ++ s.deliveryNotices sid source } : Engine).putRecv sid
        s.delivered := by
  unfold deliverRed RecvSession.deliveryNotices RecvSession.delivered
  rw [RecvSession.deliverable]
  cases s.isRedComplete && !s.redDelivered with
  | true => rfl
  | false => simp

theorem Acts.deliverRed {p : List Push} {n : List Notice} {e e' : Engine} (h : Acts sid p n e e')
    (source : EngineId) (s : RecvSession) :
    Acts sid p (n ++ s.deliveryNotices sid source) e (e'.deliverRed source sid s) := by
  have hnotices : Acts sid [] (s.deliveryNotices sid source) e'
      { e' with notices := e'.notices ++ s.deliveryNotices sid source } :=
    { Acts.refl sid e' with notices := rfl }
  rw [deliverRed_eq]
  simpa using (h.trans hnotices).putRecv s.delivered

theorem recvView_deliverRed (source : EngineId) (s : RecvSession) :
    (e.deliverRed source sid s).recvView sid = ⟨some s.delivered, e.armed sid,
      sid ∈ e.closedRecvSessions, sid ∈ e.cancelledSessions⟩ := by
  rw [deliverRed_eq]
  simp only [recvView, putRecv_recvSessions, Maps.getElem?_insert, if_true]
  rfl

@[simp] theorem deliverRed_sendSessions (source : EngineId) (s : RecvSession) :
    (e.deliverRed source sid s).sendSessions = e.sendSessions := by
  rw [deliverRed_eq]
  rfl

theorem markEnds_reports (s : RecvSession) (ds : DataSegment) :
    (s.markEnds ds).reports = s.reports := by
  simp only [RecvSession.markEnds]
  split <;> split <;> rfl

theorem insertRed_reports {s s' : RecvSession} {offset : Nat} {data : Bytes} {maxBlockSize : Nat}
    {stored : Bool} (h : s.insertRed offset data maxBlockSize = (s', stored)) :
    s'.reports = s.reports := by
  have hdata := s.insertRed_upToData offset data maxBlockSize
  rw [h] at hdata
  exact hdata.reports_eq

section Accept

variable {source : EngineId} {ds : DataSegment} {now : Nat} {s : RecvSession}

theorem movesRecv_acceptGreen (hadmits : Admits sid source ds now (e.recvView sid) s)
    (hgreen : ds.kind.isRed = false) :
    ∃ pushes notices, MovesRecv sid (.data source ds now) pushes notices e
      ((e.touchInactivity sid false now).acceptGreen source sid (s.touched now) ds now) := by
  have hacts := (Acts.refl sid e).touchInactivity false now
  unfold acceptGreen
  simp only
  split
  · exact movesRecv_cancel e hadmits .green hacts (by simp) (by simp) _
  · rename_i hfits
    rw [Bool.not_eq_true] at hfits
    obtain ⟨-, hnew⟩ := armed_touchInactivity e sid false now
    exact ⟨_, _, .of_views rfl (.dataGreen hadmits hgreen hfits hnew)
      ((hacts.notify _).deliverRed source _) (by rw [recvView_deliverRed]; simp [recvView])
      (by simp)⟩

theorem movesRecv_acceptRed (hadmits : Admits sid source ds now (e.recvView sid) s)
    (hallowed : e.config.allows ds.clientService = true) (hred : ds.kind.isRed) :
    ∃ pushes notices, MovesRecv sid (.data source ds now) pushes notices e
      ((e.touchInactivity sid false now).acceptRed source sid (s.touched now) ds now) := by
  have hacts := (Acts.refl sid e).touchInactivity false now
  obtain ⟨-, hnew⟩ := armed_touchInactivity e sid false now
  have hconfig : (e.touchInactivity sid false now).config = e.config := by simp
  have hsend : (e.touchInactivity sid false now).sendSessions = e.sendSessions := by simp
  have hclosed : (e.touchInactivity sid false now).closedRecvSessions = e.closedRecvSessions := by
    simp
  have hcancelled : (e.touchInactivity sid false now).cancelledSessions = e.cancelledSessions := by
    simp
  generalize e.touchInactivity sid false now = e₁ at *
  unfold acceptRed
  split
  · exact movesRecv_cancel e hadmits .untouched hacts hsend hclosed _
  rename_i hfits
  rw [Bool.not_eq_true] at hfits
  rw [hconfig]
  generalize hinsert : (s.touched now).insertRed ds.offset ds.data e.config.maxBlockSize.toNat = out
  obtain ⟨s₁, stored⟩ := out
  cases stored with
  | false =>
    simp only [Bool.not_false, if_true]
    exact ⟨_, _, .of_views rfl (.dataRefused hadmits hred hinsert hnew) (hacts.putRecv _)
      (by simp [recvView, hclosed, hcancelled]) (by simp [hsend])⟩
  | true =>
    simp only [Bool.not_true, Bool.false_eq_true, if_false]
    cases hcp : ds.kind.checkpoint with
    | none =>
      have hstores : Stores e.config ds (s.touched now) (s₁.markEnds ds) [] :=
        ⟨hred, hfits, ⟨s₁, hinsert, .refl _, by simp, fun serial rec hrec => .inl (by
          rwa [markEnds_reports] at hrec)⟩, by
            rw [markEnds_reports, insertRed_reports hinsert]
            exact le_max_left _ _, hallowed, .inl rfl⟩
      exact ⟨_, _, .of_views rfl (.dataStored hadmits hstores fun k hk => (hnew k hk).imp_right .inl)
        (hacts.deliverRed source _) (by rw [recvView_deliverRed, hclosed, hcancelled]; rfl)
        (by simp [hsend])⟩
    | some cp =>
      have hstores : ∀ s' reports e',
          Issues sid source reports e₁ (s₁.markEnds ds) e' s' →
          (∀ r ∈ reports, ReportsFor e₁.config (s₁.markEnds ds) ds.segEnd r) →
          Answers e₁.config (s₁.markEnds ds) cp.serial.val reports →
          Stores e.config ds (s.touched now) s' reports := fun s' reports e' h hreports hanswers =>
        ⟨hred, hfits, ⟨s₁, hinsert, h.session, by rwa [← hconfig], fun serial rec hrec => by
          rw [← markEnds_reports s₁ ds]
          exact h.stored serial rec hrec⟩, by
            have hsize := h.size
            rwa [markEnds_reports, insertRed_reports hinsert, hconfig] at hsize, hallowed,
          .inr ⟨cp, s₁, hcp, hinsert, by rwa [← hconfig]⟩⟩
      rcases issues_answerCheckpoint sid source e₁ (s₁.markEnds ds) cp.serial.val ds.segEnd now with
        ⟨reports, e', s', heq, h, hreports, hanswers⟩ |
          ⟨reports, e', s', heq, h, hreports, hanswers, hgap⟩
      · simp only [heq]
        exact ⟨_, _, .of_views rfl (.dataStored hadmits (hstores s' reports e' h hreports hanswers)
            fun k hk => by
              rcases h.armed_new k hk with hk | hk
              · exact (hnew k hk).imp_right .inl
              · exact .inr (.inr hk))
          ((hacts.trans h.acts).deliverRed source s')
          (by rw [recvView_deliverRed, h.closed, h.cancelled, hclosed, hcancelled]; rfl)
          (by simp [h.send, hsend])⟩
      · simp only [heq]
        have hspoils : Spoils e.config ds (s.touched now) s' reports :=
          .stored (hstores s' reports e' h hreports hanswers) (by rwa [h.session.received_eq])
        exact movesRecv_cancel e hadmits hspoils (hacts.trans h.acts) (h.send.trans hsend)
          (h.closed.trans hclosed) _

theorem movesRecv_acceptData (hadmits : Admits sid source ds now (e.recvView sid) s) :
    ∃ pushes notices, MovesRecv sid (.data source ds now) pushes notices e
      (e.acceptData source sid s ds now) := by
  have hacts := (Acts.refl sid e).touchInactivity false now
  unfold acceptData
  simp only
  split
  · exact movesRecv_cancel e hadmits .untouched hacts (by simp) (by simp) _
  rename_i hallowed
  split
  · rename_i hred
    exact movesRecv_acceptRed e hadmits (by simpa using hallowed) hred
  · rename_i hgreen
    exact movesRecv_acceptGreen e hadmits (by simpa using hgreen)

theorem movesRecv_handleIncomingData (source : EngineId) (ds : DataSegment) (now : Nat) :
    ∃ pushes notices, MovesRecv sid (.data source ds now) pushes notices e
      (e.handleIncomingData source sid ds now) := by
  have hignored : ∃ pushes notices, MovesRecv sid (.data source ds now) pushes notices e e :=
    ⟨_, _, .of_views rfl .dataIgnored (.refl _ e) rfl id⟩
  unfold handleIncomingData
  split
  · rename_i hclosed
    rw [RecentSet.contains_iff] at hclosed
    unfold reportClosed
    cases hcp : ds.kind.checkpoint with
    | none => exact hignored
    | some cp =>
      exact ⟨_, _, .of_views rfl (.dataReported hclosed hcp) ((Acts.refl _ e).push _ _) rfl id⟩
  rename_i hclosed
  rw [RecentSet.contains_iff] at hclosed
  split
  · exact hignored
  rename_i hcancelled
  rw [RecentSet.contains_iff] at hcancelled
  cases hs : e.recvSessions[sid]? with
  | some s =>
    simp only
    split
    · exact hignored
    · rename_i hopen
      exact movesRecv_acceptData e ⟨hclosed, hcancelled, .inl ⟨hs, by simpa using hopen⟩⟩
  | none =>
    simp only
    split
    · exact hignored
    · exact movesRecv_acceptData e ⟨hclosed, hcancelled, .inr ⟨hs, rfl⟩⟩

end Accept

theorem movesRecv_settleRecv (serial : UInt64) (now : Nat) {s : RecvSession} {e₁ : Engine}
    (hs : e.recvSessions[sid]? = some s) (hopen : s.cancelReason = none)
    (hacts : Acts sid [] [] e e₁) (hsend : e₁.sendSessions = e.sendSessions)
    (hclosed : e₁.closedRecvSessions = e.closedRecvSessions)
    (hcancelled : e₁.cancelledSessions = e.cancelledSessions)
    (hnew : ∀ k ∈ e₁.armed sid, k ∈ e.armed sid ∨ k = .inactivity false) :
    ∃ pushes notices, MovesRecv sid (.reportAck serial) pushes notices e
      (e₁.settleRecv sid ((s.touched now).ackReport serial)) := by
  unfold settleRecv
  split
  · rename_i hsettled
    exact ⟨_, _, .of_views (recvView_eq e hs) (.ackClosed hopen hsettled)
      ((hacts.removeRecv).cancelSession).recordClosed (by simp [recvView, hcancelled])
      (by simp [hsend])⟩
  · rename_i hsettled
    rw [Bool.not_eq_true] at hsettled
    exact ⟨_, _, .of_views (recvView_eq e hs) (.ackKept hopen hsettled hnew) (hacts.putRecv _)
      (by simp [recvView, hclosed, hcancelled]) (by simp [hsend])⟩

theorem movesRecv_handleIncomingReportAck (serial : UInt64) (now : Nat) :
    ∃ pushes notices, MovesRecv sid (.reportAck serial) pushes notices e
      (e.handleIncomingReportAck sid serial now) := by
  have hacts := (Acts.refl sid e).cancelTimer (.report serial)
  have hignored : (∀ s, e.recvSessions[sid]? = some s → s.cancelReason.isSome) →
      ∃ pushes notices, MovesRecv sid (.reportAck serial) pushes notices e
        (e.cancelTimer (.report sid serial)) := fun h =>
    ⟨_, _, .of_views rfl (.ackIgnored h) hacts (by simp [recvView]) id⟩
  unfold handleIncomingReportAck
  cases hs : e.recvSessions[sid]? with
  | none =>
    simp only [cancelTimer_recvSessions, hs]
    exact hignored (by simp [hs])
  | some s =>
    simp only [cancelTimer_recvSessions, hs]
    by_cases hreason : s.cancelReason.isSome = true
    · simp only [hreason, if_true]
      exact hignored (by simp [hs, hreason])
    have hopen : s.cancelReason = none := by simpa using hreason
    simp only [hreason, Bool.false_eq_true, if_false]
    have htouched := hacts.touchInactivity false now
    have hnew : ∀ k ∈ ((e.cancelTimer (.report sid serial)).touchInactivity sid false now).armed sid,
        k ∈ e.armed sid ∨ k = .inactivity false := fun k hk => by
      refine ((armed_touchInactivity _ sid false now).2 k hk).imp_left fun h => ?_
      simp only [armed_cancelTimer, TimerKey.report_session, if_true] at h
      exact h.1
    cases hrec : s.reports[serial]? with
    | none =>
      have hack : (s.touched now).ackReport serial = s.touched now := by
        simp only [RecvSession.ackReport, RecvSession.touched, hrec]
      have hmoves := movesRecv_settleRecv e serial now hs hopen htouched (by simp)
        (by simp) (by simp) hnew
      rw [hack] at hmoves
      exact hmoves
    | some rec =>
      have hack : (s.touched now).ackReport serial = { s.touched now with
          reports := s.reports.insert serial { rec with acked := true }
          reportedCoverage := coverClaims rec.report s.reportedCoverage } := by
        simp only [RecvSession.ackReport, RecvSession.touched, hrec]
      have hmoves := movesRecv_settleRecv e serial now hs hopen
        (htouched.sampleReport (s.touched now) rec now) (by simp) (by simp) (by simp)
        (by rw [armed_sampleReport]; exact hnew)
      rw [hack] at hmoves
      exact hmoves

end Incoming

end Engine

end HdyUtils.Ltp
