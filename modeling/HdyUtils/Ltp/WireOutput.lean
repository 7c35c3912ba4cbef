import HdyUtils.Ltp.Bounds
import HdyUtils.Ltp.Engine.KeptReports
import HdyUtils.Ltp.Segment.Canonical

/-! The engine emits segments that its own parser accepts, unless it answers a checkpoint without data
at the start of the block: the scope of that report is empty. -/

namespace HdyUtils.Ltp

open Trace

/-- A segment body that the serializer writes and the parser accepts. -/
structure SegmentBody.Wired (body : SegmentBody) : Prop where
  bounded : body.Bounded
  valid : body.Valid

/-- The octets are a well-formed segment, all of them, as the serializer writes it. -/
def ParsesBack (bytes : Bytes) : Prop :=
  ∃ seg : Segment, Segment.parse bytes = .ok (seg, bytes.length) ∧ seg.encodeToVec = bytes ∧
    seg.WellFormed

theorem SegmentBody.Wired.parsesBack {sid : SessionId} {p : Push} (h : p.2.Wired) :
    ParsesBack (Push.wire sid p).2 := by
  have hbounded : (Segment.plain sid p.2).Bounded := Segment.bounded_plain h.bounded
  have hparse := parse_encodeToVec hbounded h.valid
  exact ⟨.plain sid p.2, hparse, rfl, (parse_image hparse).2.2.2.1⟩

/-! ### Send moves -/

section Send

variable {config : EngineConfig} {sid : SessionId} {p : List Push} {n : List Notice}

theorem wired_of_cuts {ds : DataSegment} {t : Transfer} (h : ds.Cuts t)
    (hblock : t.block.length < 2 ^ 64) : (SegmentBody.data ds).Wired := by
  have hle := h.le_block
  exact ⟨⟨by omega, by omega⟩, trivial⟩

theorem wired_of_carries {t : Transfer} {dest : EngineId} {pushes : List Push}
    {spans : List Range} (h : List.Forall₂ (Push.Carries t dest) pushes spans)
    (hblock : t.block.length < 2 ^ 64) : ∀ x ∈ pushes, x.2.Wired := by
  intro x hx
  obtain ⟨span, -, ds, rfl, hcuts, -⟩ := Lists.exists_right_of_mem h hx
  exact wired_of_cuts hcuts hblock

theorem wired_silent {body : SegmentBody} (hdata : ∀ ds, body ≠ .data ds)
    (hreport : ∀ rs, body ≠ .report rs) : body.Wired := by
  cases body with
  | data ds => exact absurd rfl (hdata ds)
  | report rs => exact absurd rfl (hreport rs)
  | reportAck | cancelSender | cancelAckSender | cancelReceiver | cancelAckReceiver =>
    exact ⟨trivial, trivial⟩

theorem SendMove.wired {trigger : SendTrigger} {v v' : SendView}
    (h : SendMove config sid trigger v p n v')
    (hv : ∀ s, v.session = some s → s.Sound sid config.maxBlockSize.toNat) :
    ∀ x ∈ p, x.2.Wired := by
  have hmax := config.maxBlockSize.toNat_lt
  cases h with
  | openGreen _ hsize hdata => exact wired_of_carries hdata (by omega)
  | openRed hsound htransfer _ _ _ _ hdata =>
    have hblock := hsound.block_le
    refine wired_of_carries hdata ?_
    rw [← htransfer, SendSession.transfer_block]
    omega
  | @reportAnswered source rs now s armed pushes spans s' armed' hanswer
  | @reportCompleted source rs now s armed pushes spans s' armed' hanswer =>
    have hblock := (hv s rfl).block_le
    intro x hx
    rcases List.mem_cons.mp hx with rfl | hx
    · exact ⟨trivial, trivial⟩
    · exact wired_of_carries hanswer.data (by rw [SendSession.transfer_block]; omega) x hx
  | @checkpointResent serial now s cp armed hcp =>
    have hsound := hv s rfl
    have hblock := hsound.block_le
    obtain ⟨-, hwithin⟩ := hsound.records serial cp hcp
    have hcuts : ({ cp with retries := cp.retries + 1 }.segment s).Cuts s.transfer :=
      CheckpointRecord.Within.cuts { hwithin with } hsound.red_le
    intro x hx
    rw [List.mem_singleton.mp hx]
    exact wired_of_cuts hcuts (by rw [SendSession.transfer_block]; omega)
  | _ => simp [wired_silent]

end Send

/-! ### Receive moves -/

/-- The reports that the session keeps go out well formed. -/
def RecvSession.ReportsWired (s : RecvSession) : Prop :=
  ∀ (serial : UInt64) (rec : ReportRecord), s.reports[serial]? = some rec →
    (SegmentBody.report rec.report).Wired

/-- A red segment of session `s` is a checkpoint at the start of the block that has no data and is
answered with new reports. -/
def RecvSession.AnswersEmpty (config : EngineConfig) (s : RecvSession) (ds : DataSegment) : Prop :=
  ds.segEnd = 0 ∧ config.allows ds.clientService = true ∧ s.redMiscolored ds = false ∧
    s.reports.size < config.maxReportsPerSession ∧
    ∃ cp, ds.kind.checkpoint = some cp ∧ s.cpSerialsAnswered[cp.serial.val]? = none

/-- The data is a checkpoint at the start of the block that has no data and is answered. -/
def RecvTrigger.AnswersEmpty (config : EngineConfig) (sid : SessionId) (v : RecvView) :
    RecvTrigger → Prop
  | .data source ds now =>
    v.closed ∧ ds.segEnd = 0 ∧ ds.kind.checkpoint.isSome ∨
      ∃ s, Admits sid source ds now v s ∧ (s.touched now).AnswersEmpty config ds
  | _ => False

section Receive

variable {config : EngineConfig} {sid : SessionId} {p : List Push} {n : List Notice}

theorem insertRed_empty {s : RecvSession} {ds : DataSegment} (h : ds.segEnd = 0)
    (maxBlockSize : Nat) : s.insertRed ds.offset ds.data maxBlockSize = (s, true) := by
  have hzero : ds.offset + ds.data.length = 0 := by
    simp only [DataSegment.segEnd, satAdd, u64Max] at h
    omega
  have hcovers : s.redReceived.covers ⟨ds.offset, 0⟩ = true :=
    RangeSet.covers_iff.mpr fun x _ hx => absurd hx (Nat.not_lt_zero x)
  simp [RecvSession.insertRed, hzero, hcovers]

theorem RecvSession.markEnds_cpSerialsAnswered (s : RecvSession) (ds : DataSegment) :
    (s.markEnds ds).cpSerialsAnswered = s.cpSerialsAnswered := by
  simp only [RecvSession.markEnds]
  split <;> split <;> rfl

/-- A new report on a stored segment goes out well formed; without data only reports that are kept go
out. -/
theorem Stores.wired {ds : DataSegment} {s s' : RecvSession} {reports : List ReportSegment}
    (h : Stores config ds s s' reports) (hmax : config.maxClaimsPerReport ≤ maxParsedClaims)
    (hempty : ¬s.AnswersEmpty config ds) (hs : s.ReportsWired) {r : ReportSegment}
    (hr : r ∈ reports) (hnew : r.Reports s'.redReceived config.maxClaimsPerReport ds.segEnd) :
    (SegmentBody.report r).Wired := by
  rcases Nat.eq_zero_or_pos ds.segEnd with hzero | hpos
  · rcases h.answers with rfl | ⟨cp, s₁, hcp, hinsert, hstored | ⟨hfresh, hroom⟩⟩
    · cases hr
    · rw [insertRed_empty hzero] at hinsert
      cases hinsert
      obtain ⟨serial, rec, hrec, rfl⟩ := hstored r hr
      rw [Engine.markEnds_reports] at hrec
      exact hs serial rec hrec
    · rw [insertRed_empty hzero] at hinsert
      cases hinsert
      rw [RecvSession.markEnds_cpSerialsAnswered] at hfresh
      rw [Engine.markEnds_reports] at hroom
      exact absurd ⟨hzero, h.allowed, h.fits, hroom, cp, hcp, hfresh⟩ hempty
  · have hlt := satAdd_lt ds.offset ds.data.length
    exact ⟨hnew.bounded hlt, hnew.valid hpos hlt hmax⟩

/-- The report for a session that is closed claims all of its scope. -/
theorem wired_closedReport {ds : DataSegment} (cp : Checkpoint) (hpos : 0 < ds.segEnd) :
    (SegmentBody.report (closedReport ds cp)).Wired := by
  have hlt : ds.segEnd < 2 ^ 64 := satAdd_lt ds.offset ds.data.length
  refine ⟨⟨hlt, by simp [closedReport], by simp [closedReport], fun claim hclaim => ?_⟩,
    ⟨hpos, by simp [closedReport, maxParsedClaims], ?_⟩⟩
  · rw [List.mem_singleton.mp hclaim]
    exact ⟨Nat.two_pow_pos 64, hlt⟩
  · have hle : ds.segEnd ≤ u64Max := by
      simp only [u64Max]
      omega
    simp only [closedReport, ClaimsValid, Nat.zero_add, Nat.sub_zero, lt_self_iff_false,
      and_false, not_false_eq_true, le_refl, hle, and_true]
    omega

/-- What goes out besides reports is well formed. -/
theorem RecvMove.wired_others {trigger : RecvTrigger} {v v' : RecvView}
    (h : RecvMove config sid trigger v p n v') :
    ∀ x ∈ p, (∃ r, x.2 = .report r) ∨ x.2.Wired := by
  have hreports : ∀ (dest : EngineId) (reports : List ReportSegment),
      ∀ x ∈ reportPushes dest reports, ∃ r, x.2 = .report r := by
    intro dest reports x hx
    obtain ⟨r, -, rfl⟩ := List.mem_map.mp hx
    exact ⟨r, rfl⟩
  intro x hx
  cases h with
  | dataReported | reportResent =>
    rw [List.mem_singleton.mp hx]
    exact .inl ⟨_, rfl⟩
  | dataStored => exact .inl (hreports _ _ x hx)
  | dataCancelled =>
    rcases List.mem_append.mp hx with hx | hx
    · exact .inl (hreports _ _ x hx)
    · rw [List.mem_singleton.mp hx]
      exact .inr ⟨trivial, trivial⟩
  | reportExhausted | cancelResent | inactivityExpired | peerCancelled | peerCancelledAgain =>
    rw [List.mem_singleton.mp hx]
    exact .inr ⟨trivial, trivial⟩
  | dataIgnored | dataRefused | dataGreen | ackIgnored | ackKept | ackClosed | expiredIdle
  | inactivityRearmed | cancelAbandoned | cancelAcked => cases hx

theorem RecvMove.wired {trigger : RecvTrigger} {v v' : RecvView}
    (h : RecvMove config sid trigger v p n v')
    (hmax : config.maxClaimsPerReport ≤ maxParsedClaims)
    (hempty : ¬trigger.AnswersEmpty config sid v)
    (hv : ∀ s, v.session = some s → s.ReportsWired) :
    (∀ x ∈ p, x.2.Wired) ∧ ∀ s, v'.session = some s → s.ReportsWired := by
  have hadmitted : ∀ {source ds now s}, Admits sid source ds now v s →
      (s.touched now).ReportsWired := fun hadmits =>
    hadmits.keeps (P := fun r => (SegmentBody.report r).Wired) hv
  have hkept : (∀ x ∈ p, ∀ r, x.2 = .report r → (SegmentBody.report r).Wired) ∧
      ∀ s, v'.session = some s → s.ReportsWired := by
    refine h.keeps ?_ ?_ hv
    · rintro source ds now cp rfl hclosed hcp
      refine wired_closedReport cp (Nat.pos_of_ne_zero fun hzero => hempty (.inl ?_))
      exact ⟨hclosed, hzero, by simp [hcp]⟩
    · rintro source ds now s s' reports rfl hadmits hstores r hr hnew
      exact hstores.wired hmax (fun he => hempty (.inr ⟨s, hadmits, he⟩)) (hadmitted hadmits) hr hnew
  refine ⟨fun x hx => ?_, hkept.2⟩
  rcases h.wired_others x hx with ⟨r, hr⟩ | hwired
  · rw [hr]
    exact hkept.1 x hx r hr
  · exact hwired

end Receive

namespace Host

/-- The call hands the engine a checkpoint at the start of the block that has no data and that the
engine answers: for a session that is closed, or with new reports. -/
def answersEmpty (h : Host) (c : Call) : Bool :=
  match received c with
  | some ⟨sid, _, _, .data ds⟩ =>
    ds.segEnd == 0 && sid.originator != h.engine.config.engineId &&
    match ds.kind.checkpoint with
    | none => false
    | some cp =>
      let s := h.engine.dataSession sid ds
      h.engine.closedRecvSessions.contains sid ||
        (!h.engine.cancelledSessions.contains sid && s.cancelReason.isNone &&
          h.engine.config.allows ds.clientService && !s.redMiscolored ds &&
          s.cpSerialsAnswered[cp.serial.val]?.isNone &&
          decide (s.reports.size < h.engine.config.maxReportsPerSession))
  | _ => false

theorem answersEmpty_of_cause {h h' : Host} {c : Call} {sid : SessionId} {trigger : RecvTrigger}
    (hcause : h.RecvCause c sid h' trigger) (hforeign : sid.originator ≠ h.engine.config.engineId)
    (hempty : trigger.AnswersEmpty h.engine.config sid (h.engine.recvView sid)) :
    h.answersEmpty c = true := by
  cases trigger with
  | data source ds now =>
    obtain ⟨-, -, ⟨session, header, trailer, body⟩, now', hreceives, rfl, htrigger⟩ := hcause
    cases body <;> cases htrigger
    simp only [answersEmpty, hreceives.received_eq]
    rcases hempty with ⟨hclosed, hzero, hcp⟩ | ⟨s, hadmits, hzero, hallowed, hfits, hroom, cp, hcp,
      hfresh⟩
    · obtain ⟨cp, hcp⟩ := Option.isSome_iff_exists.mp hcp
      have hcontains := RecentSet.contains_iff.mpr hclosed
      simp [hzero, hforeign, hcp, hcontains]
    · have hcancelled : h.engine.cancelledSessions.contains session = false := by
        rw [← Bool.not_eq_true, RecentSet.contains_iff]
        exact hadmits.2.1
      have hsession : (h.engine.dataSession session ds).cancelReason = none ∧
          (h.engine.dataSession session ds).redMiscolored ds = (s.touched now).redMiscolored ds ∧
          (h.engine.dataSession session ds).cpSerialsAnswered = s.cpSerialsAnswered ∧
          (h.engine.dataSession session ds).reports = s.reports := by
        rcases hadmits.2.2 with ⟨hs, hopen⟩ | ⟨hs, rfl⟩
        · simp only [Engine.recvView] at hs
          rw [Engine.dataSession, hs, Option.getD_some]
          exact ⟨hopen, rfl, rfl, rfl⟩
        · simp only [Engine.recvView] at hs
          rw [Engine.dataSession, hs, Option.getD_none]
          exact ⟨rfl, rfl, rfl, rfl⟩
      obtain ⟨hreason, hmiscolored, hanswered, hreports⟩ := hsession
      simp [hzero, hforeign, hcp, hcancelled, hreason, hallowed, hmiscolored, hfits, hanswered,
        hreports, show s.cpSerialsAnswered[cp.serial.val]? = none from hfresh,
        show s.reports.size < h.engine.config.maxReportsPerSession from hroom]
  | reportAck | peerCancel | cancelAck | expired => exact absurd hempty id

/-- What was queued, and the reports that are kept, are well formed. -/
structure Wired (h : Host) : Prop where
  owned : h.engine.Owned
  pushed : ∀ x ∈ h.pushed, ParsesBack x.2
  reports : ∀ (sid : SessionId) (s : RecvSession), h.engine.recvSessions[sid]? = some s →
    s.ReportsWired

theorem pushed_parsesBack {h h' : Host} {sid : SessionId} {p : List Push}
    (hpushed : h'.pushed = h.pushed ++ p.map (Push.wire sid))
    (hold : ∀ x ∈ h.pushed, ParsesBack x.2) (hnew : ∀ x ∈ p, x.2.Wired) :
    ∀ x ∈ h'.pushed, ParsesBack x.2 := by
  intro x hx
  rw [hpushed] at hx
  rcases List.mem_append.mp hx with hx | hx
  · exact hold x hx
  · obtain ⟨q, hq, rfl⟩ := List.mem_map.mp hx
    exact (hnew q hq).parsesBack

theorem Wired.step {h : Host} (hinv : h.Wired) {c : Call}
    (hmax : h.engine.config.maxClaimsPerReport ≤ maxParsedClaims)
    (hanswers : h.answersEmpty c = false) : (h.step c).Wired := by
  have hown := owned_step hinv.owned c
  cases steps_step hinv.owned c with
  | same hsame pushed =>
    refine ⟨hown, by rw [pushed]; exact hinv.pushed, fun sid s hs => ?_⟩
    rw [hsame.recv] at hs
    exact hinv.reports sid s hs
  | tick _ _ heq =>
    refine ⟨hown, ?_, fun sid s hs => ?_⟩
    · rw [heq]
      exact hinv.pushed
    · rw [heq] at hs
      exact hinv.reports sid s hs
  | @send sid trigger p n _ _ acts move recv =>
    have hwired := move.wired fun s hs => (hinv.owned.send sid s hs).2
    refine ⟨hown, pushed_parsesBack acts.pushed hinv.pushed hwired, fun t s hs => ?_⟩
    by_cases ht : t = sid
    · rw [ht, recv] at hs
      cases hs
    · rw [acts.recv t ht] at hs
      exact hinv.reports t s hs
  | @recv sid trigger p n hforeign cause acts move =>
    have hempty : ¬trigger.AnswersEmpty h.engine.config sid (h.engine.recvView sid) := fun he => by
      rw [answersEmpty_of_cause cause hforeign he] at hanswers
      cases hanswers
    obtain ⟨hwired, hreports⟩ := move.wired hmax hempty (hinv.reports sid)
    refine ⟨hown, pushed_parsesBack acts.pushed hinv.pushed hwired, fun t s hs => ?_⟩
    by_cases ht : t = sid
    · subst ht
      exact hreports s hs
    · rw [acts.recv t ht] at hs
      exact hinv.reports t s hs

end Host

end HdyUtils.Ltp
