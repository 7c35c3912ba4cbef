import HdyUtils.Ltp.Notices
import HdyUtils.Ltp.Stall
import HdyUtils.Ltp.Traffic

/-! What a session sends while it is being cancelled.  Nothing but its cancel segments, at most
`cancelRtxLimit` of them, and acknowledgments, as long as no checkpoint or report of a session that is
being cancelled times out. -/

namespace HdyUtils.Ltp

open Trace Cursor

/-! ### Segments on the wire -/

/-- The type code of the segment is one of `codes`. -/
def hasType (codes : List UInt8) (x : EngineId × Bytes) : Bool := x.2.head?.any codes.contains

/-- A cancel segment. -/
def isCancel (x : EngineId × Bytes) : Bool := hasType [12, 14] x

/-- A cancel segment, or the acknowledgment of a report or of a cancel segment. -/
def closes (x : EngineId × Bytes) : Bool := hasType [9, 12, 13, 14, 15] x

namespace SegmentBody

def isCancel : SegmentBody → Bool
  | .cancelSender _ | .cancelReceiver _ => true
  | _ => false

def closes : SegmentBody → Bool
  | .data _ | .report _ => false
  | _ => true

end SegmentBody

theorem hasType_wire (codes : List UInt8) (sid : SessionId) (p : Push) :
    hasType codes (Push.wire sid p) = codes.contains (Segment.plain sid p.2).typeCode := rfl

@[simp] theorem isCancel_wire (sid : SessionId) (p : Push) :
    isCancel (Push.wire sid p) = p.2.isCancel := by
  obtain ⟨dest, body⟩ := p
  rw [isCancel, hasType_wire]
  cases body with
  | data ds => cases hkind : ds.kind <;> simp only [Segment.plain, Segment.typeCode, hkind] <;> rfl
  | report | reportAck | cancelSender | cancelAckSender | cancelReceiver | cancelAckReceiver => rfl

@[simp] theorem closes_wire (sid : SessionId) (p : Push) :
    closes (Push.wire sid p) = p.2.closes := by
  obtain ⟨dest, body⟩ := p
  rw [closes, hasType_wire]
  cases body with
  | data ds => cases hkind : ds.kind <;> simp only [Segment.plain, Segment.typeCode, hkind] <;> rfl
  | report | reportAck | cancelSender | cancelAckSender | cancelReceiver | cancelAckReceiver => rfl

/-! ### Timeouts that retransmit -/

/-- The session acts on the timer by sending a checkpoint once more or by cancelling. -/
def SendSession.retries (s : SendSession) : TimerKind → Bool
  | .checkpoint serial => s.checkpoints.contains serial
  | _ => false

/-- The session acts on the timer by sending a report once more or by cancelling. -/
def RecvSession.retries (s : RecvSession) : TimerKind → Bool
  | .report serial => s.reports[serial]?.any fun rec => !rec.acked
  | _ => false

/-- Of a session that is being cancelled, or not: after `n` cancel segments its retries count them,
and while it is open it has sent none and has no cancel timer. -/
structure CancelCount (limit : Nat) (reason : Option CancelReason) (retries n : Nat)
    (timer : Prop) : Prop where
  opened : reason = none → n = 0 ∧ ¬timer
  counted : reason ≠ none → n ≤ retries ∧ retries ≤ max 1 limit

namespace CancelCount

variable {limit retries n : Nat} {reason : Option CancelReason} {timer timer' : Prop}

theorem le (h : CancelCount limit reason retries n timer) : n ≤ max 1 limit := by
  by_cases hreason : reason = none
  · rw [(h.opened hreason).1]
    exact Nat.zero_le _
  · exact (h.counted hreason).1.trans (h.counted hreason).2

theorem mono (h : CancelCount limit reason retries n timer) (htimer : timer' → timer) :
    CancelCount limit reason retries n timer' :=
  ⟨fun hreason => (h.opened hreason).imp_right (mt htimer), h.counted⟩

/-- An open session. -/
theorem unsent (hreason : reason = none) (h : n = 0 ∧ ¬timer) (htimer : timer' → timer) :
    CancelCount limit reason retries n timer' :=
  ⟨fun _ => h.imp_right (mt htimer), fun hne => absurd hreason hne⟩

theorem start (r : CancelReason) (h : n = 0) : CancelCount limit (some r) 1 (n + 1) timer := by
  refine ⟨fun hreason => (nomatch hreason), fun _ => ⟨?_, ?_⟩⟩ <;> omega

/-- The cancel timer expires, and another cancel segment goes out. -/
theorem resend (h : CancelCount limit reason retries n timer) (htimer : timer)
    (hlimit : retries < limit) : CancelCount limit reason (retries + 1) (n + 1) timer' := by
  refine ⟨fun hreason => absurd htimer (h.opened hreason).2, fun hreason => ?_⟩
  obtain ⟨hn, hretries⟩ := h.counted hreason
  omega

end CancelCount

/-- The number of cancel segments. -/
def cancelsIn (p : List Push) : Nat := p.countP fun x => x.2.isCancel

theorem cancelsIn_data {t : Transfer} {dest : EngineId} {pushes : List Push} {spans : List Range}
    (h : List.Forall₂ (Push.Carries t dest) pushes spans) : cancelsIn pushes = 0 := by
  rw [cancelsIn, List.countP_eq_zero]
  intro x hx
  obtain ⟨span, -, ds, rfl, -⟩ := Lists.exists_right_of_mem h hx
  simp [SegmentBody.isCancel]

theorem cancelsIn_ack (dest : EngineId) (serial : UInt64) (p : List Push) :
    cancelsIn ((dest, .reportAck serial) :: p) = cancelsIn p :=
  List.countP_cons_of_neg (by simp [SegmentBody.isCancel])

/-! ### Moves -/

section Moves

variable {config : EngineConfig} {sid : SessionId} {p : List Push} {n : List Notice}

/-- While a send session is being cancelled, it sends nothing but what closes it. -/
theorem SendMove.closes {trigger : SendTrigger} {v v' : SendView} {s : SendSession}
    (h : SendMove config sid trigger v p n v') (hs : v.session = some s) (hc : s.Cancelling)
    (hopens : Host.opens trigger = false)
    (hspares : ∀ kind now, trigger = .expired kind now → s.retries kind = false) :
    ∀ x ∈ p, x.2.closes = true := by
  cases h with
  | openGreen | openRed => cases hopens
  | reportIgnored | cancelResent | inactivityExpired | peerCancelledAgain =>
    simp [SegmentBody.closes]
  | reportRepeated hopen | peerCancelled hopen =>
    cases hs
    simp [SendSession.Cancelling, hopen] at hc
  | reportAnswered hanswer | reportCompleted hanswer =>
    cases hs
    simp [SendSession.Cancelling, hanswer.open_] at hc
  | @checkpointResent serial now s' cp armed hcp | @checkpointExhausted serial now s' cp armed hcp =>
    cases hs
    have hspared := hspares (.checkpoint serial) now rfl
    simp [SendSession.retries, Std.TreeMap.contains_eq_isSome_getElem?, hcp] at hspared
  | expiredIdle | cancelAbandoned | inactivityRearmed | cancelAcked => simp

theorem SendMove.cancelsIn_le {trigger : SendTrigger} {v v' : SendView}
    (h : SendMove config sid trigger v p n v') : cancelsIn p ≤ 1 := by
  cases h with
  | openGreen _ _ hdata => simp [cancelsIn_data hdata]
  | openRed _ _ _ _ _ _ hdata => simp [cancelsIn_data hdata]
  | reportAnswered hanswer | reportCompleted hanswer =>
    simp [cancelsIn_ack, cancelsIn_data hanswer.data]
  | _ => simp [cancelsIn, SegmentBody.isCancel]

/-- The cancel segments of a send session that the view shows, after `k` of them. -/
def SendView.Counts (limit : Nat) (due : Set TimerKind) (k : Nat) (v : SendView) : Prop :=
  ∀ s, v.session = some s → CancelCount limit s.cancelReason s.cancelRetries k
    (.cancel true ∈ v.armed ∨ .cancel true ∈ due)

theorem SendMove.counts {trigger : SendTrigger} {v v' : SendView} {due : Set TimerKind} {k : Nat}
    (h : SendMove config sid trigger v p n v')
    (hopens : Host.opens trigger = true → ∀ s, v.session = some s → ¬s.Cancelling)
    (hspares : ∀ kind now, trigger = .expired kind now → ∀ s, v.session = some s → s.Cancelling →
      s.retries kind = false)
    (hnone : v.session = none → v'.session ≠ none →
      k = 0 ∧ ¬(.cancel true ∈ v.armed ∨ .cancel true ∈ due))
    (hv : v.Counts config.cancelRtxLimit (trigger.due due) k) :
    v'.Counts config.cancelRtxLimit due (k + cancelsIn p) := by
  intro t ht
  cases h with
  | openGreen _ _ hdata =>
    rw [cancelsIn_data hdata]
    exact hv t ht
  | @openRed t v pushes spans s armed _ _ hopen _ _ _ hdata _ hnew =>
    cases ht
    have hstart : k = 0 ∧ ¬(TimerKind.cancel true ∈ v.armed ∨ .cancel true ∈ due) := by
      cases hsession : v.session with
      | none => exact hnone hsession (by simp)
      | some s₀ =>
        refine (hv s₀ hsession).opened ?_
        simpa [SendSession.Cancelling] using hopens rfl s₀ hsession
    obtain ⟨rfl, htimer⟩ := hstart
    rw [cancelsIn_data hdata]
    refine .unsent hopen ⟨rfl, htimer⟩ (Or.imp_left fun harmed => ?_)
    simpa using hnew _ harmed
  | reportIgnored => exact (hv t ht).mono (Or.imp_left And.left)
  | @reportRepeated source rs now s armed armed' hopen _ _ hnew =>
    cases ht
    refine (hv s rfl).mono (Or.imp_left fun harmed => ?_)
    simpa using hnew _ harmed
  | @reportAnswered source rs now s armed pushes spans s' armed' hanswer =>
    cases ht
    obtain ⟨_, _, rfl⟩ := hanswer.session
    rw [cancelsIn_ack, cancelsIn_data hanswer.data]
    refine (hv s rfl).mono (Or.imp_left fun harmed => ?_)
    simpa using hanswer.armed_new _ harmed
  | expiredIdle => exact (hv t ht).mono (Or.imp_right .inr)
  | @checkpointResent serial now s cp armed =>
    cases ht
    exact (hv s rfl).mono (Or.imp (by simp) .inr)
  | @checkpointExhausted serial now s cp armed hcp =>
    cases ht
    refine .start .rlexc ((hv s rfl).opened ?_).1
    by_contra hreason
    have hspared := hspares (.checkpoint serial) now rfl s rfl (Option.isSome_iff_ne_none.mpr hreason)
    simp [SendSession.retries, Std.TreeMap.contains_eq_isSome_getElem?, hcp] at hspared
  | @cancelResent now s armed hlimit =>
    cases ht
    exact (hv s rfl).resend (.inr (Set.mem_insert _ _)) hlimit
  | @inactivityRearmed now s armed armed' _ _ hnew =>
    cases ht
    refine (hv t rfl).mono (Or.imp (fun harmed => ?_) .inr)
    simpa using hnew _ harmed
  | reportCompleted | cancelAbandoned | inactivityExpired | peerCancelled | peerCancelledAgain
  | cancelAcked => cases ht

theorem Admits.open_ {source : EngineId} {ds : DataSegment} {now : Nat} {v : RecvView}
    {s : RecvSession} (h : Admits sid source ds now v s) : s.cancelReason = none := by
  rcases h.2.2 with ⟨-, hopen⟩ | ⟨-, rfl⟩
  · exact hopen
  · rfl

theorem Stores.open_ {ds : DataSegment} {s s' : RecvSession} {reports : List ReportSegment}
    (h : Stores config ds s s' reports) (hopen : s.cancelReason = none) :
    s'.cancelReason = none := by
  obtain ⟨s₁, hinsert, ⟨_, _, _, rfl⟩, -⟩ := h.stored
  have hdata := s.insertRed_upToData ds.offset ds.data config.maxBlockSize.toNat
  rw [hinsert] at hdata
  obtain ⟨_, _, _, _, _, rfl⟩ := hdata
  unfold RecvSession.markEnds
  split <;> split <;> exact hopen

theorem RecvSession.delivered_cancelReason (s : RecvSession) :
    s.delivered.cancelReason = s.cancelReason := by
  unfold delivered
  split <;> rfl

theorem RecvSession.ackReport_cancelReason (s : RecvSession) (serial : UInt64) :
    (s.ackReport serial).cancelReason = s.cancelReason := by
  unfold ackReport
  split <;> rfl

theorem cancelsIn_reports (dest : EngineId) (reports : List ReportSegment) :
    cancelsIn (reportPushes dest reports) = 0 := by
  simp [cancelsIn, reportPushes, SegmentBody.isCancel]

theorem cancelsIn_reports_cancel (dest : EngineId) (reports : List ReportSegment)
    (reason : CancelReason) :
    cancelsIn (reportPushes dest reports ++ [(dest, .cancelReceiver reason)]) = 1 := by
  rw [cancelsIn, List.countP_append, ← cancelsIn, cancelsIn_reports]
  rfl

/-- A session that is remembered as closed is gone. -/
theorem RecvMove.closed_gone {trigger : RecvTrigger} {v v' : RecvView}
    (h : RecvMove config sid trigger v p n v') (hv : v.closed → v.session = none) :
    v'.closed → v'.session = none := by
  intro hclosed
  cases h with
  | dataIgnored | dataReported | expiredIdle | ackIgnored => exact hv hclosed
  | dataCancelled hadmits | dataRefused hadmits | dataStored hadmits | dataGreen hadmits =>
    exact absurd hclosed hadmits.1
  | ackKept | reportResent | reportExhausted | cancelResent | inactivityRearmed =>
    exact absurd (hv hclosed) (by simp)
  | ackClosed | cancelAbandoned | inactivityExpired | peerCancelled | peerCancelledAgain
  | cancelAcked => rfl

/-- While a receive session is being cancelled, it sends nothing but what closes it. -/
theorem RecvMove.closes {trigger : RecvTrigger} {v v' : RecvView} {s : RecvSession}
    (h : RecvMove config sid trigger v p n v') (hs : v.session = some s) (hc : s.Cancelling)
    (hclosed : v.closed → v.session = none)
    (hspares : ∀ kind now, trigger = .expired kind now → s.retries kind = false) :
    ∀ x ∈ p, x.2.closes = true := by
  have hnot : ∀ {source ds now s'}, ¬Admits sid source ds now v s' := by
    intro source ds now s' hadmits
    rcases hadmits.2.2 with ⟨hs', hopen⟩ | ⟨hnone, -⟩
    · rw [hs] at hs'
      cases hs'
      simp [RecvSession.Cancelling, hopen] at hc
    · rw [hs] at hnone
      cases hnone
  cases h with
  | dataReported hclosed' =>
    rw [hclosed hclosed'] at hs
    cases hs
  | dataCancelled hadmits | dataRefused hadmits | dataStored hadmits | dataGreen hadmits =>
    exact absurd hadmits hnot
  | cancelResent | inactivityExpired | peerCancelledAgain => simp [SegmentBody.closes]
  | peerCancelled hopen =>
    cases hs
    simp [RecvSession.Cancelling, hopen] at hc
  | @reportResent serial now s' rec armed closed cancelled hrec hacked
  | @reportExhausted serial now s' rec armed closed cancelled hrec hacked =>
    cases hs
    have hspared := hspares (.report serial) now rfl
    simp [RecvSession.retries, hrec, hacked] at hspared
  | dataIgnored | ackIgnored | ackKept | ackClosed | expiredIdle | cancelAbandoned
  | inactivityRearmed | cancelAcked => simp

theorem RecvMove.cancelsIn_le {trigger : RecvTrigger} {v v' : RecvView}
    (h : RecvMove config sid trigger v p n v') : cancelsIn p ≤ 1 := by
  cases h with
  | dataCancelled => exact (cancelsIn_reports_cancel _ _ _).le
  | dataStored => simp [cancelsIn_reports]
  | _ => simp [cancelsIn, SegmentBody.isCancel]

/-- The timers that are due when a move starts, of those that are due when it ends. -/
def RecvTrigger.due (due : Set TimerKind) : RecvTrigger → Set TimerKind
  | .expired kind _ => insert kind due
  | _ => due

/-- The cancel segments of a receive session that the view shows, after `k` of them. -/
def RecvView.Counts (limit : Nat) (due : Set TimerKind) (k : Nat) (v : RecvView) : Prop :=
  ∀ s, v.session = some s → CancelCount limit s.cancelReason s.cancelRetries k
    (.cancel false ∈ v.armed ∨ .cancel false ∈ due)

theorem Admits.unsent {source : EngineId} {ds : DataSegment} {now limit : Nat} {v : RecvView}
    {s : RecvSession} {due : Set TimerKind} {k : Nat} (h : Admits sid source ds now v s)
    (hnone : v.session = none → k = 0 ∧ ¬(.cancel false ∈ v.armed ∨ .cancel false ∈ due))
    (hv : v.Counts limit due k) : k = 0 ∧ ¬(.cancel false ∈ v.armed ∨ .cancel false ∈ due) := by
  rcases h.2.2 with ⟨hs, hopen⟩ | ⟨hgone, -⟩
  · exact (hv s hs).opened hopen
  · exact hnone hgone

theorem RecvMove.counts {trigger : RecvTrigger} {v v' : RecvView} {due : Set TimerKind} {k : Nat}
    (h : RecvMove config sid trigger v p n v')
    (hspares : ∀ kind now, trigger = .expired kind now → ∀ s, v.session = some s → s.Cancelling →
      s.retries kind = false)
    (hnone : v.session = none → v'.session ≠ none →
      k = 0 ∧ ¬(.cancel false ∈ v.armed ∨ .cancel false ∈ due))
    (hv : v.Counts config.cancelRtxLimit (trigger.due due) k) :
    v'.Counts config.cancelRtxLimit due (k + cancelsIn p) := by
  intro t ht
  cases h with
  | dataIgnored | dataReported => exact hv t ht
  | @dataCancelled source ds now v s s' reports reason armed hadmits =>
    cases ht
    rw [cancelsIn_reports_cancel]
    exact .start reason (hadmits.unsent (fun hgone => hnone hgone (by simp)) hv).1
  | @dataRefused source ds now v s s' armed hadmits _ hrefused hnew =>
    cases ht
    have hopen : t.cancelReason = none := by
      have hdata := (s.touched now).insertRed_upToData ds.offset ds.data config.maxBlockSize.toNat
      rw [hrefused] at hdata
      obtain ⟨_, _, _, _, _, rfl⟩ := hdata
      exact hadmits.open_
    refine .unsent hopen (hadmits.unsent (fun hgone => hnone hgone (by simp)) hv) (Or.imp_left fun harmed => ?_)
    simpa using hnew _ harmed
  | @dataStored source ds now v s s' reports armed hadmits hstores hnew =>
    cases ht
    rw [cancelsIn_reports]
    refine .unsent ?_ (hadmits.unsent (fun hgone => hnone hgone (by simp)) hv) (Or.imp_left fun harmed => ?_)
    · rw [RecvSession.delivered_cancelReason]
      exact hstores.open_ hadmits.open_
    · simpa using hnew _ harmed
  | @dataGreen source ds now v s armed hadmits _ _ hnew =>
    cases ht
    refine .unsent ?_ (hadmits.unsent (fun hgone => hnone hgone (by simp)) hv) (Or.imp_left fun harmed => ?_)
    · rw [RecvSession.delivered_cancelReason]
      exact hadmits.open_
    · simpa using hnew _ harmed
  | ackIgnored => exact (hv t ht).mono (Or.imp_left And.left)
  | @ackKept serial now s armed armed' closed cancelled hopen _ hnew =>
    cases ht
    refine .unsent ?_ ((hv s rfl).opened hopen) (Or.imp_left fun harmed => ?_)
    · rw [RecvSession.ackReport_cancelReason]
      exact hopen
    · simpa using hnew _ harmed
  | expiredIdle => exact (hv t ht).mono (Or.imp_right .inr)
  | @reportResent serial now s rec armed =>
    cases ht
    exact (hv s rfl).mono (Or.imp (by simp) .inr)
  | @reportExhausted serial now s rec armed closed cancelled hrec hacked =>
    cases ht
    refine .start .rlexc ((hv s rfl).opened ?_).1
    by_contra hreason
    have hspared := hspares (.report serial) now rfl s rfl (Option.isSome_iff_ne_none.mpr hreason)
    simp [RecvSession.retries, hrec, hacked] at hspared
  | @cancelResent now s armed closed cancelled hlimit =>
    cases ht
    exact (hv s rfl).resend (.inr (Set.mem_insert _ _)) hlimit
  | @inactivityRearmed now s armed armed' closed cancelled _ hnew =>
    cases ht
    refine (hv t rfl).mono (Or.imp (fun harmed => ?_) .inr)
    simpa using hnew _ harmed
  | ackClosed | cancelAbandoned | inactivityExpired | peerCancelled | peerCancelledAgain
  | cancelAcked => cases ht

end Moves

namespace Host

/-! ### Calls -/

/-- The session is being cancelled. -/
def Cancelling (h : Host) (sid : SessionId) : Prop :=
  (∃ s, h.engine.sendSessions[sid]? = some s ∧ s.Cancelling) ∨
    ∃ s, h.engine.recvSessions[sid]? = some s ∧ s.Cancelling

/-- The session is in one of the engine's tables. -/
def has (h : Host) (sid : SessionId) : Bool :=
  h.engine.sendSessions[sid]?.isSome || h.engine.recvSessions[sid]?.isSome

/-- The number of cancel segments of a session that the engine has queued. -/
def cancels (h : Host) (sid : SessionId) : Nat :=
  h.pushed.countP fun x => isFor sid x && isCancel x

/-- The call handles no timeout of a checkpoint or report of a session that is being cancelled, and
does not give its id to a new session. -/
def sparesRetries (h : Host) (c : Call) : Bool :=
  match c with
  | .fire =>
    match h.pending with
    | key :: _ =>
      (h.engine.sendSessions[key.session]?.all fun s =>
        s.cancelReason.isNone || !s.retries key.kind) &&
      (h.engine.recvSessions[key.session]?.all fun s =>
        s.cancelReason.isNone || !s.retries key.kind)
    | [] => true
  | .request .. => h.engine.sendSessions[h.engine.nextSessionId]?.all (·.cancelReason.isNone)
  | _ => true

section Causes

variable {h h' : Host} {c : Call} {sid : SessionId}

theorem sparesRetries_send {trigger : SendTrigger} (hok : h.sparesRetries c)
    (hcause : h.SendCause c sid h' trigger) (kind : TimerKind) (now : Nat)
    (htrigger : trigger = .expired kind now) (s : SendSession)
    (hs : h.engine.sendSessions[sid]? = some s) (hc : s.Cancelling) : s.retries kind = false := by
  subst htrigger
  obtain ⟨rfl, rfl, hpending⟩ := hcause
  have hreason : s.cancelReason.isNone = false := by simpa [SendSession.Cancelling] using hc
  simp only [sparesRetries, hpending, hs, Option.all_some, hreason, Bool.false_or,
    Bool.and_eq_true, Bool.not_eq_true'] at hok
  exact hok.1

theorem sparesRetries_recv {trigger : RecvTrigger} (hok : h.sparesRetries c)
    (hcause : h.RecvCause c sid h' trigger) (kind : TimerKind) (now : Nat)
    (htrigger : trigger = .expired kind now) (s : RecvSession)
    (hs : h.engine.recvSessions[sid]? = some s) (hc : s.Cancelling) : s.retries kind = false := by
  subst htrigger
  obtain ⟨rfl, rfl, hpending⟩ := hcause
  have hreason : s.cancelReason.isNone = false := by simpa [RecvSession.Cancelling] using hc
  simp only [sparesRetries, hpending, hs, Option.all_some, hreason, Bool.false_or,
    Bool.and_eq_true, Bool.not_eq_true'] at hok
  exact hok.2

theorem sparesRetries_opens {trigger : SendTrigger} (hok : h.sparesRetries c)
    (hcause : h.SendCause c sid h' trigger) (hopens : opens trigger = true) (s : SendSession)
    (hs : h.engine.sendSessions[sid]? = some s) : ¬s.Cancelling := by
  cases trigger with
  | request peer t =>
    obtain ⟨-, -, rfl, now, rfl⟩ := hcause
    simpa [sparesRetries, hs, SendSession.Cancelling] using hok
  | report | peerCancel | cancelAck | expired => cases hopens

theorem RecvCause.due {trigger : RecvTrigger} (hcause : h.RecvCause c sid h' trigger) :
    trigger.due (Engine.kindsOf sid h'.pending) = Engine.kindsOf sid h.pending := by
  cases trigger with
  | expired kind now => rw [hcause.2.2, Engine.kindsOf_cons, RecvTrigger.due]
  | data | reportAck | peerCancel | cancelAck =>
    exact congrArg (Engine.kindsOf sid) (hcause.2.1.trans hcause.1.symm)

theorem unarmed {keys : List TimerKey} (halarm : ∀ kind, h.engine.alarm sid kind = none)
    (hkeys : keys = []) (kind : TimerKind) :
    ¬(kind ∈ h.engine.armed sid ∨ kind ∈ Engine.kindsOf sid keys) := by
  rintro (harmed | hmem)
  · exact harmed (halarm kind)
  · simp [hkeys, Engine.kindsOf] at hmem

theorem cancels_own {p : List Push} (hpushed : h'.pushed = h.pushed ++ p.map (Push.wire sid)) :
    h'.cancels sid = h.cancels sid + cancelsIn p := by
  rw [cancels, hpushed, List.countP_append, List.countP_map]
  congr 1
  exact List.countP_congr fun x _ => by simp

theorem cancels_other {q : List (EngineId × Bytes)} (hpushed : h'.pushed = h.pushed ++ q)
    (hq : Others sid q) : h'.cancels sid = h.cancels sid := by
  rw [cancels, hpushed, List.countP_append, cancels, Nat.add_eq_left, List.countP_eq_zero]
  intro x hx
  obtain ⟨t, ht, p, rfl⟩ := hq x hx
  simp [ht]

end Causes

/-! ### The cancel segments of one session -/

/-- A send session has had at most so many cancel segments since it had `base`. -/
structure SendSpends (sid : SessionId) (base : Nat) (h : Host) : Prop where
  owned : h.engine.Owned
  timed : h.engine.Timed h.pending
  own : sid.originator = h.engine.config.engineId
  spent : ∃ k, h.cancels sid = base + k ∧ k ≤ max 1 h.engine.config.cancelRtxLimit + 1 ∧
    (h.engine.sendView sid).Counts h.engine.config.cancelRtxLimit (Engine.kindsOf sid h.pending) k

/-- A receive session has had at most so many cancel segments since it had `base`. -/
structure RecvSpends (sid : SessionId) (base : Nat) (h : Host) : Prop where
  owned : h.engine.Owned
  timed : h.engine.Timed h.pending
  foreign : sid.originator ≠ h.engine.config.engineId
  spent : ∃ k, h.cancels sid = base + k ∧ k ≤ max 1 h.engine.config.cancelRtxLimit + 1 ∧
    (h.engine.recvView sid).Counts h.engine.config.cancelRtxLimit (Engine.kindsOf sid h.pending) k

theorem SendSpends.step {h : Host} {sid : SessionId} {base : Nat} (hinv : SendSpends sid base h)
    {c : Call} (hok : h.sparesRetries c)
    (hfirst : h.engine.sendSessions[sid]? = none → h.cancels sid = base) :
    SendSpends sid base (h.step c) := by
  have hconfig : (h.step c).engine.config = h.engine.config := config_step hinv.owned c
  refine ⟨owned_step hinv.owned c, timed_step hinv.timed hinv.owned c,
    by rw [hconfig]; exact hinv.own, ?_⟩
  obtain ⟨k, hk, hle, hcounts⟩ := hinv.spent
  rw [hconfig]
  cases sendChange hinv.owned c hinv.own with
  | @moved trigger p n cause move pushed =>
    refine ⟨k + cancelsIn p, ?_, ?_, ?_⟩
    · rw [cancels_own pushed, hk, Nat.add_assoc]
    · have hone := move.cancelsIn_le
      cases hs : h.engine.sendSessions[sid]? with
      | none =>
        have hzero := hfirst hs
        omega
      | some s =>
        have hspent := (hcounts s hs).le
        omega
    · refine move.counts (sparesRetries_opens hok cause) (sparesRetries_send hok cause)
        (fun hnone hsome => ?_) (by rw [cause.due]; exact hcounts)
      have hzero := hfirst hnone
      refine ⟨by omega, ?_⟩
      cases hopens : opens trigger with
      | false => exact absurd (move.idle_of_none hnone hopens).1 hsome
      | true =>
        cases trigger with
        | request peer t =>
          have halarm := (Engine.sendTimed_none hnone).mp (hinv.timed.send sid hinv.own)
          exact unarmed halarm cause.2.1 _
        | report | peerCancel | cancelAck | expired => cases hopens
  | tick idle session armed pushed =>
    refine ⟨k, ?_, hle, fun s hs => ?_⟩
    · rw [cancels, pushed, ← cancels, hk]
    · exact (hcounts s (session.symm.trans hs)).mono fun hmem => .inl ((armed _).mpr hmem)
  | other view pending pushed =>
    obtain ⟨q, hq, hothers⟩ := pushed
    refine ⟨k, (cancels_other hq hothers).trans hk, hle, ?_⟩
    have hdue : Engine.kindsOf sid (h.step c).pending = Engine.kindsOf sid h.pending :=
      Set.ext pending
    rw [view, hdue]
    exact hcounts

theorem RecvSpends.step {h : Host} {sid : SessionId} {base : Nat} (hinv : RecvSpends sid base h)
    {c : Call} (hok : h.sparesRetries c)
    (hfirst : h.engine.recvSessions[sid]? = none → h.cancels sid = base) :
    RecvSpends sid base (h.step c) := by
  have hconfig : (h.step c).engine.config = h.engine.config := config_step hinv.owned c
  refine ⟨owned_step hinv.owned c, timed_step hinv.timed hinv.owned c,
    by rw [hconfig]; exact hinv.foreign, ?_⟩
  obtain ⟨k, hk, hle, hcounts⟩ := hinv.spent
  rw [hconfig]
  cases recvChange hinv.owned c hinv.foreign with
  | @moved trigger p n cause move pushed =>
    refine ⟨k + cancelsIn p, ?_, ?_, ?_⟩
    · rw [cancels_own pushed, hk, Nat.add_assoc]
    · have hone := move.cancelsIn_le
      cases hs : h.engine.recvSessions[sid]? with
      | none =>
        have hzero := hfirst hs
        omega
      | some s =>
        have hspent := (hcounts s hs).le
        omega
    · refine move.counts (sparesRetries_recv hok cause) (fun hnone hsome => ?_)
        (by rw [cause.due]; exact hcounts)
      have hzero := hfirst hnone
      obtain ⟨source, ds, now, rfl⟩ := move.data_of_opens hnone hsome
      have halarm := (Engine.recvTimed_none hnone).mp (hinv.timed.recv sid hinv.foreign)
      exact ⟨by omega, unarmed halarm cause.2.1 _⟩
  | tick idle session armed _ _ pushed =>
    refine ⟨k, ?_, hle, fun s hs => ?_⟩
    · rw [cancels, pushed, ← cancels, hk]
    · exact (hcounts s (session.symm.trans hs)).mono fun hmem => .inl ((armed _).mpr hmem)
  | other session armed _ _ pending pushed =>
    obtain ⟨q, hq, hothers⟩ := pushed
    refine ⟨k, (cancels_other hq hothers).trans hk, hle, fun s hs => ?_⟩
    have hdue : Engine.kindsOf sid (h.step c).pending = Engine.kindsOf sid h.pending :=
      Set.ext pending
    simp only [Engine.recvView, armed, hdue]
    exact hcounts s (session.symm.trans hs)

theorem has_own {h : Host} {sid : SessionId} (hown : h.engine.Owned)
    (hsid : sid.originator = h.engine.config.engineId) :
    h.has sid = h.engine.sendSessions[sid]?.isSome := by
  rw [has, hown.recv_none hsid, Option.isSome_none, Bool.or_false]

theorem has_foreign {h : Host} {sid : SessionId} (hown : h.engine.Owned)
    (hsid : sid.originator ≠ h.engine.config.engineId) :
    h.has sid = h.engine.recvSessions[sid]?.isSome := by
  rw [has, hown.send_none hsid, Option.isSome_none, Bool.false_or]

section Life

variable {h : Host} {sid : SessionId} {c : Call} {life : List Call} (hown : h.engine.Owned)
  (htimed : h.engine.Timed h.pending) (hnone : h.has sid = false)
  (hkept : Along step (fun h _ => h.has sid = true) (h.step c) life)
  (hok : Along step (fun h c => h.sparesRetries c) h (c :: life))
include hown htimed hnone hkept hok

theorem sendSpends_life (hsid : sid.originator = h.engine.config.engineId) :
    SendSpends sid (h.cancels sid) (h.run (c :: life)) := by
  rw [has_own hown hsid, Option.isSome_eq_false_iff, Option.isNone_iff_eq_none] at hnone
  have hnew : SendSpends sid (h.cancels sid) h :=
    ⟨hown, htimed, hsid, 0, rfl, Nat.zero_le _, fun s hs => nomatch hnone.symm.trans hs⟩
  have hstep : ∀ h' c', SendSpends sid (h.cancels sid) h' →
      h'.has sid = true ∧ h'.sparesRetries c' → SendSpends sid (h.cancels sid) (h'.step c') := by
    intro h' c' hinv ⟨hhas, hspares⟩
    rw [has_own hinv.owned hinv.own] at hhas
    exact hinv.step hspares fun hgone => absurd hhas (by simp [hgone])
  exact (hkept.and hok.2).invariant hstep (hnew.step hok.1 fun _ => rfl)

theorem recvSpends_life (hsid : sid.originator ≠ h.engine.config.engineId) :
    RecvSpends sid (h.cancels sid) (h.run (c :: life)) := by
  rw [has_foreign hown hsid, Option.isSome_eq_false_iff, Option.isNone_iff_eq_none] at hnone
  have hnew : RecvSpends sid (h.cancels sid) h :=
    ⟨hown, htimed, hsid, 0, rfl, Nat.zero_le _, fun s hs => nomatch hnone.symm.trans hs⟩
  have hstep : ∀ h' c', RecvSpends sid (h.cancels sid) h' →
      h'.has sid = true ∧ h'.sparesRetries c' → RecvSpends sid (h.cancels sid) (h'.step c') := by
    intro h' c' hinv ⟨hhas, hspares⟩
    rw [has_foreign hinv.owned hinv.foreign] at hhas
    exact hinv.step hspares fun hgone => absurd hhas (by simp [hgone])
  exact (hkept.and hok.2).invariant hstep (hnew.step hok.1 fun _ => rfl)

/-- From its insertion to its removal a session has no more than its share of cancel segments. -/
theorem cancels_life :
    (h.run (c :: life)).cancels sid ≤ h.cancels sid + max 1 h.engine.config.cancelRtxLimit +
      if (h.run (c :: life)).has sid then 0 else 1 := by
  have hconfig : (h.run (c :: life)).engine.config = h.engine.config := config_run hown _
  by_cases hsid : sid.originator = h.engine.config.engineId
  · have hspends := sendSpends_life hown htimed hnone hkept hok hsid
    obtain ⟨k, hk, hle, hcounts⟩ := hspends.spent
    rw [hk, has_own hspends.owned hspends.own]
    rw [hconfig] at hle hcounts
    cases hs : (h.run (c :: life)).engine.sendSessions[sid]? with
    | none =>
      simp only [Option.isSome_none, Bool.false_eq_true, if_false]
      omega
    | some s =>
      have hspent := (hcounts s hs).le
      simp only [Option.isSome_some, if_true]
      omega
  · have hspends := recvSpends_life hown htimed hnone hkept hok hsid
    obtain ⟨k, hk, hle, hcounts⟩ := hspends.spent
    rw [hk, has_foreign hspends.owned hspends.foreign]
    rw [hconfig] at hle hcounts
    cases hs : (h.run (c :: life)).engine.recvSessions[sid]? with
    | none =>
      simp only [Option.isSome_none, Bool.false_eq_true, if_false]
      omega
    | some s =>
      have hspent := (hcounts s hs).le
      simp only [Option.isSome_some, if_true]
      omega

end Life

/-! ### The output -/

/-- Of a session that is being cancelled, the call queues only segments that close it. -/
def ClosesOnly (h : Host) (c : Call) : Prop :=
  ∀ sid, h.Cancelling sid → ∀ x ∈ (h.step c).pushed.drop h.pushed.length,
    isFor sid x = true → closes x = true

/-- No session that is remembered as closed is in the table. -/
structure ClosedGone (h : Host) : Prop where
  owned : h.engine.Owned
  gone : ∀ sid, sid ∈ h.engine.closedRecvSessions → h.engine.recvSessions[sid]? = none

theorem closedGone_new (config : EngineConfig) : (new config).ClosedGone :=
  ⟨Engine.owned_new config, by simp [new, Engine.new]⟩

theorem ClosedGone.step {h : Host} (hinv : h.ClosedGone) (c : Call) : (h.step c).ClosedGone := by
  have hown := owned_step hinv.owned c
  refine ⟨hown, fun sid hclosed => ?_⟩
  by_cases hsid : sid.originator = h.engine.config.engineId
  · exact hown.recv_none (by rwa [config_step hinv.owned])
  cases recvChange hinv.owned c hsid with
  | moved _ move => exact move.closed_gone (hinv.gone sid) hclosed
  | tick _ session _ closed =>
    rw [closed] at hclosed
    exact session.trans (hinv.gone sid hclosed)
  | other session _ closed => exact session.trans (hinv.gone sid (closed hclosed))

theorem closes_own {h h' : Host} {sid : SessionId} {p : List Push}
    (hpushed : h'.pushed = h.pushed ++ p.map (Push.wire sid))
    (hp : ∀ x ∈ p, x.2.closes = true) :
    ∀ x ∈ h'.pushed.drop h.pushed.length, closes x = true := by
  intro x hx
  rw [hpushed, List.drop_left] at hx
  obtain ⟨q, hq, rfl⟩ := List.mem_map.mp hx
  rw [closes_wire]
  exact hp q hq

theorem not_isFor_other {h h' : Host} {sid : SessionId} {q : List (EngineId × Bytes)}
    (hpushed : h'.pushed = h.pushed ++ q) (hq : Others sid q) :
    ∀ x ∈ h'.pushed.drop h.pushed.length, isFor sid x = false := by
  intro x hx
  rw [hpushed, List.drop_left] at hx
  obtain ⟨t, ht, p, rfl⟩ := hq x hx
  simp [ht]

theorem ClosedGone.closesOnly {h : Host} (hinv : h.ClosedGone) {c : Call} (hok : h.sparesRetries c) :
    h.ClosesOnly c := by
  rintro sid (⟨s, hs, hc⟩ | ⟨s, hs, hc⟩) x hx hfor
  · have hsid := (hinv.owned.send sid s hs).1
    cases sendChange hinv.owned c hsid with
    | @moved trigger p n cause move pushed =>
      refine closes_own pushed (move.closes hs hc ?_ fun kind now htrigger =>
        sparesRetries_send hok cause kind now htrigger s hs hc) x hx
      by_contra hopens
      exact sparesRetries_opens hok cause (Bool.eq_true_of_not_eq_false hopens) s hs hc
    | tick _ _ _ pushed => simp [pushed] at hx
    | other _ _ pushed =>
      obtain ⟨q, hq, hothers⟩ := pushed
      simp [not_isFor_other hq hothers x hx] at hfor
  · have hsid := hinv.owned.recv sid s hs
    cases recvChange hinv.owned c hsid with
    | @moved trigger p n cause move pushed =>
      exact closes_own pushed (move.closes hs hc (hinv.gone sid) fun kind now htrigger =>
        sparesRetries_recv hok cause kind now htrigger s hs hc) x hx
    | tick _ _ _ _ _ pushed => simp [pushed] at hx
    | other _ _ _ _ _ pushed =>
      obtain ⟨q, hq, hothers⟩ := pushed
      simp [not_isFor_other hq hothers x hx] at hfor

/-- What goes out for sessions that are being cancelled in a run. -/
structure CancelsIsolated (config : EngineConfig) (calls : List Call) : Prop where
  closesOnly : Along step ClosesOnly (new config) calls
  limited : ∀ (sid : SessionId) (before : List Call) (c : Call) (life after : List Call),
    calls = before ++ c :: life ++ after → ((new config).run before).has sid = false →
    Along step (fun h _ => h.has sid = true) (((new config).run before).step c) life →
    ((new config).run (before ++ c :: life)).cancels sid ≤
      ((new config).run before).cancels sid + max 1 config.cancelRtxLimit +
        if ((new config).run (before ++ c :: life)).has sid then 0 else 1

end Host

/-- If no checkpoint or report of a session that is being cancelled times out, nothing goes out for the
session but what closes it; and it has at most `cancelRtxLimit` cancel segments, or one, and one more
when it ends. -/
theorem cancel_output_isolated {config : EngineConfig} {calls : List Call}
    (hspares : Along Host.step (fun h c => h.sparesRetries c) (Host.new config) calls) :
    Host.CancelsIsolated config calls := by
  have hown := Engine.owned_new config
  refine ⟨?_, ?_⟩
  · exact hspares.strengthen (fun h c hinv _ => Host.ClosedGone.step hinv c)
      (fun h c hinv hok => Host.ClosedGone.closesOnly hinv hok) (Host.closedGone_new config)
  · rintro sid before c life after rfl hnone hkept
    rw [List.append_assoc, along_append] at hspares
    have hspares' : Along Host.step (fun h c => h.sparesRetries c)
        ((Host.new config).run before) (c :: life) := (along_append.mp hspares.2).1
    have hlife := Host.cancels_life (Host.owned_run hown before) (Host.timed_run config before) hnone
      hkept hspares'
    have hconfig : ((Host.new config).run before).engine.config = config :=
      Host.config_run hown before
    rw [hconfig] at hlife
    rw [Host.run, run_append]
    exact hlife

/-- One octet is requested, and its checkpoint goes out until the cancellation starts and has sent a
second cancel segment. -/
def cancelledUnanswered : List Call :=
  .request ⟨2⟩ 1 [7] 1 0 ::
    [4, 8, 12, 16, 20, 24, 28].flatMap fun seconds => [.tick (seconds * 1000000), .fire]

theorem cancel_output_isolated_unanswered :
    Host.CancelsIsolated .default cancelledUnanswered :=
  cancel_output_isolated (by decide +kernel)

/-- A checkpoint is sent at most twice. -/
def impatient : EngineConfig := { EngineConfig.default with checkpointRtxLimit := 1 }

/-- Two reports on one checkpoint lead to a checkpoint each, and the earlier one starts the
cancellation. -/
def twoCheckpoints : List Call :=
  [.request ⟨2⟩ 1 [7, 8] 2 0, .segment ⟨2⟩ [8, 1, 1, 0, 1, 1, 2, 0, 1, 0, 1] 1,
    .tick 3750001, .fire, .segment ⟨2⟩ [8, 1, 1, 0, 2, 1, 2, 0, 1, 0, 1] 3750002,
    .tick 7500001, .fire, .tick 8000000]

/-- Then the later one is sent again. -/
theorem cancel_output_checkpoint :
    ¬Host.CancelsIsolated impatient (twoCheckpoints ++ [.fire]) := by
  intro hisolated
  have hlast : ((Host.new impatient).run twoCheckpoints).ClosesOnly .fire :=
    (along_append.mp hisolated.closesOnly).2.1
  have hcancelling : ((Host.new impatient).run twoCheckpoints).engine.sendSessions[
      (⟨⟨1⟩, 1⟩ : SessionId)]?.any (fun s => s.cancelReason.isSome) = true := by
    decide +kernel
  obtain ⟨s, hs, hc⟩ := (Option.any_eq_true _ _).mp hcancelling
  have hcloses := hlast ⟨⟨1⟩, 1⟩ (.inl ⟨s, hs, hc⟩) (⟨2⟩, [3, 1, 1, 0, 1, 1, 1, 3, 2, 8])
    (by decide +kernel) (by decide +kernel)
  exact absurd hcloses (by decide +kernel)

end HdyUtils.Ltp
