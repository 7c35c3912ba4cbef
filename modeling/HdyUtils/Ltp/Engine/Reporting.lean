import HdyUtils.Lib.Lists
import HdyUtils.Ltp.Engine.Frame
import HdyUtils.Ltp.Segment.RoundTrip

/-! Reports on the red data of a session.  `ReportSegment.Reports` says what a report may claim;
`answerCheckpoint` issues only such reports, or repeats those that it has issued. -/

namespace HdyUtils.Ltp

open Runs

/-! ### Chunks -/

section Chunks

variable {α : Type}

/-- A chunk with its index is a piece of the list: the first chunk starts the list and the last one
ends it. -/
structure ChunkAt (n : Nat) (l : List α) (count i : Nat) (chunk : List α) : Prop where
  split : ∃ pre post, l = pre ++ chunk ++ post ∧ (pre = [] ↔ i = 0) ∧ (post = [] ↔ i + 1 = count)
  nonempty : chunk ≠ []
  le : chunk.length ≤ n

theorem chunksFrom_length_eq_zero {n fuel : Nat} {l : List α} (hfuel : l.length ≤ fuel) :
    (chunksFrom n fuel l).length = 0 ↔ l = [] := by
  cases fuel with
  | zero => simp [chunksFrom, List.length_eq_zero_iff.mp (Nat.le_zero.mp hfuel)]
  | succ fuel => cases l <;> simp [chunksFrom]

theorem chunkAt_chunksFrom {n fuel : Nat} {l : List α} (hn : 0 < n) (hfuel : l.length ≤ fuel)
    {i : Nat} {chunk : List α} (h : (chunksFrom n fuel l)[i]? = some chunk) :
    ChunkAt n l (chunksFrom n fuel l).length i chunk := by
  induction fuel generalizing l i with
  | zero => simp [chunksFrom] at h
  | succ fuel ih =>
    by_cases hl : l = []
    · simp [chunksFrom, hl] at h
    rw [chunksFrom, if_neg (by simpa using hl)] at h ⊢
    have hdrop : (l.drop n).length ≤ fuel := by
      have := List.length_pos_of_ne_nil hl
      rw [List.length_drop]
      omega
    cases i with
    | zero =>
      simp only [List.getElem?_cons_zero, Option.some.injEq] at h
      subst h
      refine ⟨⟨[], l.drop n, by simp, by simp, ?_⟩, ?_, by simp⟩
      · rw [← chunksFrom_length_eq_zero (n := n) hdrop, List.length_cons]
        omega
      · simp only [ne_eq, List.take_eq_nil_iff, hl, or_false]
        omega
    | succ i =>
      rw [List.getElem?_cons_succ] at h
      obtain ⟨⟨pre, post, hsplit, -, hpost⟩, hne, hle⟩ := ih hdrop h
      refine ⟨⟨l.take n ++ pre, post, ?_, ?_, ?_⟩, hne, hle⟩
      · conv_lhs => rw [← List.take_append_drop n l, hsplit]
        simp
      · simp [hl]
        omega
      · rw [hpost, List.length_cons]
        omega

theorem length_chunksFrom_le {n : Nat} (hn : 0 < n) (fuel : Nat) (l : List α) :
    (chunksFrom n fuel l).length ≤ l.length := by
  induction fuel generalizing l with
  | zero => simp [chunksFrom]
  | succ fuel ih =>
    cases l with
    | nil => simp [chunksFrom]
    | cons a l =>
      have := ih ((a :: l).drop n)
      simp only [chunksFrom, List.isEmpty_cons, Bool.false_eq_true, if_false, List.length_cons,
        List.length_drop] at this ⊢
      omega

theorem chunkAt_chunks {n : Nat} {l : List α} (hn : 0 < n) {i : Nat} {chunk : List α}
    (h : (chunks n l)[i]? = some chunk) : ChunkAt n l (chunks n l).length i chunk :=
  chunkAt_chunksFrom hn le_rfl h

end Chunks

/-! ### What a report claims -/

/-- The report claims a stretch of the runs that were received below `upper`, in a scope around
them. -/
structure ReportSegment.Reports (r : ReportSegment) (received : RangeSet) (maxClaims upper : Nat) :
    Prop where
  stretch : ∃ pre chunk post, received.runsWithin ⟨0, upper⟩ = pre ++ chunk ++ post ∧
    (chunk = [] → pre = [] ∧ post = []) ∧ chunk.length ≤ max maxClaims 1 ∧
    r.lowerBound = (if pre = [] then 0 else (chunk.head?.map Run.start).getD 0) ∧
    r.upperBound = (if post = [] then upper else (chunk.getLast?.map Run.stop).getD 0) ∧
    r.claims = chunk.map fun run =>
      { offset := run.start - r.lowerBound, length := run.stop - run.start }

theorem reports_chunkReport {received : RangeSet} {maxClaims upper : Nat} {serial : NonZeroU64}
    {cpSerial : UInt64} {i : Nat} {chunk : List Range}
    (h : (chunks (max maxClaims 1) (received.runsWithin ⟨0, upper⟩))[i]? = some chunk) :
    (chunkReport serial cpSerial upper
      (chunks (max maxClaims 1) (received.runsWithin ⟨0, upper⟩)).length i chunk).Reports received
        maxClaims upper := by
  obtain ⟨⟨pre, post, hsplit, hpre, hpost⟩, hne, hle⟩ := chunkAt_chunks (by omega) h
  refine ⟨pre, chunk, post, hsplit, fun h => absurd h hne, hle, ?_, ?_, rfl⟩
  · simp only [chunkReport, hpre]
  · simp only [chunkReport, hpost]

theorem reports_empty {received : RangeSet} {maxClaims upper : Nat} {serial : NonZeroU64}
    {cpSerial : UInt64} (h : received.runsWithin ⟨0, upper⟩ = []) :
    ReportSegment.Reports ⟨serial, cpSerial, upper, 0, []⟩ received maxClaims upper :=
  ⟨[], [], [], h, by simp, by simp, rfl, rfl, rfl⟩

/-- Ordered runs between `lower` and `upper`, as claims in that scope. -/
theorem claimsValid_map {lower upper i prevEnd : Nat} {chunk : List Range} (hsep : Separated chunk)
    (hin : ∀ q ∈ chunk, lower + prevEnd ≤ q.start ∧ q.stop ≤ upper) (hupper : upper < 2 ^ 64) :
    ClaimsValid (upper - lower) i prevEnd (chunk.map fun run =>
      { offset := run.start - lower, length := run.stop - run.start }) := by
  induction chunk generalizing i prevEnd with
  | nil => trivial
  | cons q chunk ih =>
    obtain ⟨hq, hrest⟩ := hsep.head
    obtain ⟨hstart, hstop⟩ := hin q (by simp)
    simp only [List.map_cons, ClaimsValid, u64Max]
    refine ⟨by omega, by omega, by omega, by omega, ih hsep.tail fun p hp => ?_⟩
    have := hrest p hp
    have := (hin p (by simp [hp])).2
    omega

namespace ReportSegment.Reports

variable {r : ReportSegment} {received : RangeSet} {maxClaims upper : Nat}

/-- The runs of a report lie between its bounds, and its bounds below `upper`. -/
theorem bounds (h : r.Reports received maxClaims upper) (hpos : 0 < upper) :
    ∃ chunk : List Range, Separated chunk ∧ chunk.length ≤ max maxClaims 1 ∧
      r.claims = (chunk.map fun run =>
        { offset := run.start - r.lowerBound, length := run.stop - run.start }) ∧
      r.lowerBound < r.upperBound ∧ r.upperBound ≤ upper ∧
      ∀ q ∈ chunk, r.lowerBound ≤ q.start ∧ q.stop ≤ r.upperBound ∧ ∀ x, q.Contains x → x ∈ received := by
  obtain ⟨pre, chunk, post, hsplit, hempty, hlen, hlower, hupper, hclaims⟩ := h.stretch
  have hsep : Separated (received.runsWithin ⟨0, upper⟩) :=
    separated_within received.separated (by exact hpos)
  have hin : ∀ q ∈ received.runsWithin ⟨0, upper⟩, q.start < q.stop ∧ q.stop ≤ upper :=
    fun q hq => ⟨hsep.nonempty q hq, (mem_within received.separated hq).2.1⟩
  have hmem : ∀ q ∈ received.runsWithin ⟨0, upper⟩, ∀ x, q.Contains x → x ∈ received :=
    fun q hq x hx => (RangeSet.mem_runsWithin_iff.mp ⟨q, hq, hx⟩).2.2
  rw [hsplit] at hsep hin hmem
  have hchunk : Separated chunk := hsep.append_left.append_right
  refine ⟨chunk, hchunk, hlen, hclaims, ?_⟩
  rcases List.eq_nil_or_concat chunk with rfl | ⟨init, last, rfl⟩
  · obtain ⟨rfl, rfl⟩ := hempty rfl
    simp only [if_true] at hlower hupper
    refine ⟨by omega, by omega, by simp⟩
  · rw [List.concat_eq_append] at *
    obtain ⟨first, rest, hfirst⟩ := List.exists_cons_of_ne_nil
      (l := init ++ [last]) (by simp)
    have hlast : ∀ q ∈ init ++ [last], q.stop ≤ last.stop := by
      intro q hq
      rcases List.mem_append.mp hq with hq | hq
      · have := (List.pairwise_append.mp hchunk.apart).2.2 q hq last (by simp)
        have := hchunk.nonempty last (by simp)
        omega
      · rw [List.mem_singleton.mp hq]
    have hhead : ∀ q ∈ init ++ [last], first.start ≤ q.start := by
      rw [hfirst] at hchunk ⊢
      intro q hq
      rcases List.mem_cons.mp hq with rfl | hq
      · exact le_rfl
      · have := hchunk.head.2 q hq
        have := hchunk.nonempty first (by simp)
        omega
    have hfirstMem : first ∈ init ++ [last] := by simp [hfirst]
    have hlastUpper : last.stop ≤ upper := (hin last (by simp)).2
    have hne := hchunk.nonempty first hfirstMem
    have hle := hlast first hfirstMem
    rw [hfirst, List.head?_cons, Option.map_some, Option.getD_some] at hlower
    rw [List.getLast?_concat, Option.map_some, Option.getD_some] at hupper
    have hlower' : r.lowerBound ≤ first.start := by
      rw [hlower]
      split <;> omega
    have hupper' : last.stop ≤ r.upperBound ∧ r.upperBound ≤ upper := by
      rw [hupper]
      split <;> omega
    refine ⟨by omega, hupper'.2, fun q hq => ⟨hlower'.trans (hhead q hq),
      (hlast q hq).trans hupper'.1, hmem q (by simp only [List.mem_append] at hq ⊢; tauto)⟩⟩

theorem valid (h : r.Reports received maxClaims upper) (hpos : 0 < upper) (hupper : upper < 2 ^ 64)
    (hmax : maxClaims ≤ maxParsedClaims) : r.Valid := by
  obtain ⟨chunk, hsep, hlen, hclaims, hlt, hle, hin⟩ := h.bounds hpos
  refine ⟨hlt, ?_, ?_⟩
  · rw [hclaims, List.length_map]
    simp only [maxParsedClaims] at hmax ⊢
    omega
  · rw [hclaims]
    exact claimsValid_map hsep (fun q hq => ⟨(hin q hq).1, (hin q hq).2.1⟩) (by omega)

theorem bounded (h : r.Reports received maxClaims upper) (hupper : upper < 2 ^ 64) : r.Bounded := by
  rcases Nat.eq_zero_or_pos upper with rfl | hpos
  · -- nothing lies below 0
    obtain ⟨pre, chunk, post, hsplit, hempty, -, hlower, hup, hclaims⟩ := h.stretch
    have hnil : received.runsWithin ⟨0, 0⟩ = [] := within_empty _ le_rfl
    rw [hnil] at hsplit
    simp only [List.nil_eq, List.append_eq_nil_iff] at hsplit
    obtain ⟨⟨rfl, rfl⟩, rfl⟩ := hsplit
    simp only [if_true] at hlower hup
    exact ⟨by omega, by omega, by simp [hclaims], by simp [hclaims]⟩
  · obtain ⟨chunk, hsep, hlen, hclaims, hlt, hle, hin⟩ := h.bounds hpos
    refine ⟨by omega, by omega, ?_, ?_⟩
    · have hcount := hsep.length_le upper fun q hq => (hin q hq).2.1.trans hle
      rw [hclaims, List.length_map]
      omega
    · rw [hclaims]
      intro claim hclaim
      obtain ⟨q, hq, rfl⟩ := List.mem_map.mp hclaim
      have := (hin q hq).2.1
      exact ⟨by simp only; have := hsep.nonempty q hq; omega, by simp only; omega⟩

/-- What a report claims was received. -/
theorem mem_received (h : r.Reports received maxClaims upper) {claim : ReceptionClaim}
    (hclaim : claim ∈ r.claims) {x : Nat} (hx : r.lowerBound + claim.offset ≤ x)
    (hx' : x < r.lowerBound + claim.offset + claim.length) : x ∈ received := by
  rcases Nat.eq_zero_or_pos upper with rfl | hpos
  · obtain ⟨pre, chunk, post, hsplit, -, -, -, -, hclaims⟩ := h.stretch
    have hnil : received.runsWithin ⟨0, 0⟩ = [] := within_empty _ le_rfl
    rw [hnil] at hsplit
    simp only [List.nil_eq, List.append_eq_nil_iff] at hsplit
    rw [hclaims, hsplit.1.2] at hclaim
    simp at hclaim
  · obtain ⟨chunk, hsep, -, hclaims, -, -, hin⟩ := h.bounds hpos
    rw [hclaims] at hclaim
    obtain ⟨q, hq, rfl⟩ := List.mem_map.mp hclaim
    obtain ⟨hlower, -, hmem⟩ := hin q hq
    have hne := hsep.nonempty q hq
    simp only at hx hx'
    exact hmem x ⟨by omega, by omega⟩

end ReportSegment.Reports

/-! ### Answering a checkpoint -/

/-- `s'` is `s` but for its reports and answers. -/
def RecvSession.UpToReports (s s' : RecvSession) : Prop :=
  ∃ lastReportSerial reports cpSerialsAnswered,
    s' = { s with lastReportSerial, reports, cpSerialsAnswered }

namespace RecvSession.UpToReports

variable {s s' s'' : RecvSession}

theorem refl (s : RecvSession) : s.UpToReports s := ⟨_, _, _, rfl⟩

theorem trans (h : s.UpToReports s') (h' : s'.UpToReports s'') : s.UpToReports s'' := by
  obtain ⟨_, _, _, rfl⟩ := h
  obtain ⟨l, r, c, rfl⟩ := h'
  exact ⟨l, r, c, rfl⟩

theorem received_eq (h : s.UpToReports s') : s'.redReceived = s.redReceived := by
  obtain ⟨_, _, _, rfl⟩ := h
  rfl

end RecvSession.UpToReports

namespace Engine

/-- From `e` and `s`, the reports are queued for `source`, and those that are new are kept. -/
structure Issues (sid : SessionId) (source : EngineId) (reports : List ReportSegment)
    (e : Engine) (s : RecvSession) (e' : Engine) (s' : RecvSession) : Prop where
  acts : Acts sid (reports.map fun r => (source, .report r)) [] e e'
  send : e'.sendSessions = e.sendSessions
  recv : e'.recvSessions = e.recvSessions
  closed : e'.closedRecvSessions = e.closedRecvSessions
  cancelled : e'.cancelledSessions = e.cancelledSessions
  session : s.UpToReports s'
  stored : ∀ (serial : UInt64) (rec : ReportRecord), s'.reports[serial]? = some rec →
    s.reports[serial]? = some rec ∨ rec.report ∈ reports
  size : s'.reports.size ≤ max s.reports.size e.config.maxReportsPerSession
  armed_new : ∀ k ∈ e'.armed sid, k ∈ e.armed sid ∨ ∃ serial, k = .report serial
  armed_old : e.armed sid ⊆ e'.armed sid
  armed_reports : ∀ (serial : UInt64) (rec : ReportRecord), s'.reports[serial]? = some rec →
    s.reports[serial]? = some rec ∨ .report serial ∈ e'.armed sid
  inactivity : e'.timerTable.deadline? (.inactivity sid false) =
    e.timerTable.deadline? (.inactivity sid false)

namespace Issues

variable {sid : SessionId} {source : EngineId} {reports reports' : List ReportSegment}
  {e e' e'' : Engine} {s s' s'' : RecvSession}

theorem refl (sid : SessionId) (source : EngineId) (e : Engine) (s : RecvSession) :
    Issues sid source [] e s e s where
  acts := .refl _ e
  send := rfl
  recv := rfl
  closed := rfl
  cancelled := rfl
  session := .refl s
  stored := fun _ _ => .inl
  size := le_max_left _ _
  armed_new := fun _ => .inl
  armed_old := fun _ => id
  armed_reports := fun _ _ => .inl
  inactivity := rfl

theorem trans (h : Issues sid source reports e s e' s')
    (h' : Issues sid source reports' e' s' e'' s'') :
    Issues sid source (reports ++ reports') e s e'' s'' where
  acts := by
    rw [List.map_append]
    exact h.acts.trans h'.acts
  send := h'.send.trans h.send
  recv := h'.recv.trans h.recv
  closed := h'.closed.trans h.closed
  cancelled := h'.cancelled.trans h.cancelled
  session := h.session.trans h'.session
  stored := fun serial rec hrec => by
    rcases h'.stored serial rec hrec with hold | hnew
    · exact (h.stored serial rec hold).imp_right (List.mem_append_left _)
    · exact .inr (List.mem_append_right _ hnew)
  size := by
    have hsize := h.size
    have hsize' := h'.size
    rw [h.acts.config] at hsize'
    omega
  armed_new := fun k hk => by
    rcases h'.armed_new k hk with hk | hk
    · exact h.armed_new k hk
    · exact .inr hk
  armed_old := h.armed_old.trans h'.armed_old
  armed_reports := fun serial rec hrec => by
    rcases h'.armed_reports serial rec hrec with hold | hnew
    · exact (h.armed_reports serial rec hold).imp_right fun h => h'.armed_old h
    · exact .inr hnew
  inactivity := h'.inactivity.trans h.inactivity

end Issues

section Answers

variable (sid : SessionId) (source : EngineId) (e : Engine) (s : RecvSession)

theorem issues_issueReport (hroom : s.reports.size < e.config.maxReportsPerSession)
    (report : ReportSegment) (now : Nat) :
    Issues sid source [report] e s (e.issueReport source sid s report now).1
      (e.issueReport source sid s report now).2 where
  acts := ((Acts.refl _ e).push source (.report report)).setTimer _ _
  send := rfl
  recv := rfl
  closed := rfl
  cancelled := rfl
  session := ⟨_, _, _, rfl⟩
  stored := fun serial rec hrec => by
    rw [issueReport, Maps.getElem?_insert] at hrec
    split at hrec
    · cases hrec
      exact .inr (by simp)
    · exact .inl hrec
  size := by
    have hinsert := Std.TreeMap.size_insert_le (t := s.reports) (k := report.reportSerial.val)
      (v := { report, retries := 0, acked := false, transmittedAt := now })
    simp only [issueReport]
    omega
  armed_new := fun k hk => by
    simp only [issueReport, armed_setTimer, TimerKey.report_session, if_true, TimerKey.report_kind,
      armed_push, Set.mem_insert_iff] at hk
    exact hk.symm.imp_right fun h => ⟨_, h⟩
  armed_old := by simp [issueReport]
  armed_reports := fun serial rec hrec => by
    rw [issueReport, Maps.getElem?_insert] at hrec
    split at hrec
    · next heq =>
      subst heq
      exact .inr (by simp [issueReport])
    · exact .inl hrec
  inactivity := by simp [issueReport, TimerKey.report, TimerKey.inactivity]

/-- A report that is repeated was stored. -/
theorem issues_reemitReport (now : Nat) (serial : UInt64) :
    ∃ reports, Issues sid source reports e s (reemitReport source sid s now e serial) s ∧
      ∀ r ∈ reports, ∃ rec : ReportRecord, s.reports[serial]? = some rec ∧ rec.report = r := by
  unfold reemitReport
  cases hrec : s.reports[serial]? with
  | none => exact ⟨[], .refl _ _ e s, by simp⟩
  | some rec =>
    simp only
    split
    · exact ⟨[], .refl _ _ e s, by simp⟩
    · refine ⟨[rec.report], { Issues.refl sid source e s with
        acts := ((Acts.refl _ e).push source (.report rec.report)).setTimer _ _
        stored := fun _ _ => .inl
        armed_new := fun k hk => ?_
        armed_old := by simp
        armed_reports := fun _ _ => .inl
        inactivity := by simp [TimerKey.report, TimerKey.inactivity] }, by simp⟩
      simp only [armed_setTimer, TimerKey.report_session, if_true, TimerKey.report_kind,
        armed_push, Set.mem_insert_iff] at hk
      exact hk.symm.imp_right fun h => ⟨_, h⟩

theorem issues_foldl_reemitReport (now : Nat) (serials : List UInt64) :
    ∃ reports, Issues sid source reports e s (serials.foldl (reemitReport source sid s now) e) s ∧
      ∀ r ∈ reports, ∃ (serial : UInt64) (rec : ReportRecord),
        s.reports[serial]? = some rec ∧ rec.report = r := by
  induction serials generalizing e with
  | nil => exact ⟨[], .refl _ _ e s, by simp⟩
  | cons serial serials ih =>
    obtain ⟨reports, h, hmem⟩ := issues_reemitReport sid source e s now serial
    obtain ⟨reports', h', hmem'⟩ := ih (reemitReport source sid s now e serial)
    refine ⟨reports ++ reports', h.trans h', fun r hr => ?_⟩
    rcases List.mem_append.mp hr with hr | hr
    · exact ⟨serial, hmem r hr⟩
    · exact hmem' r hr

/-- Queueing the reports on chunks: all of them, or in the end a cancellation. -/
theorem issues_issueChunkReports (cpSerial : UInt64) (upper numChunks now : Nat)
    (pairs : List (List Range × Nat)) (rsSerials : List UInt64) :
    (∃ reports e' s' serials, issueChunkReports source sid cpSerial upper numChunks now pairs e s
        rsSerials = .ok (e', s', serials) ∧ Issues sid source reports e s e' s' ∧
      List.Forall₂ (fun r c => ∃ serial, r = chunkReport serial cpSerial upper numChunks c.2 c.1)
        reports pairs) ∨
    ∃ reports e' s' done, issueChunkReports source sid cpSerial upper numChunks now pairs e s
        rsSerials = .error ((e'.putRecv sid s').initiateCancelReceiver sid source .rlexc now) ∧
      Issues sid source reports e s e' s' ∧ done <+: pairs ∧ done.length < pairs.length ∧
      List.Forall₂ (fun r c => ∃ serial, r = chunkReport serial cpSerial upper numChunks c.2 c.1)
        reports done := by
  induction pairs generalizing e s rsSerials with
  | nil => exact .inl ⟨[], e, s, rsSerials, rfl, .refl _ _ e s, .nil⟩
  | cons c pairs ih =>
    obtain ⟨chunk, chunkIdx⟩ := c
    rw [issueChunkReports]
    split
    · exact .inr ⟨[], e, s, [], rfl, .refl _ _ e s, List.nil_prefix, by simp, .nil⟩
    · rename_i hroom
      have hissue := issues_issueReport sid source e s (not_le.mp hroom)
        (chunkReport (nextNonzeroSerial s.lastReportSerial) cpSerial upper numChunks chunkIdx chunk)
        now
      rcases ih (e.issueReport source sid s (chunkReport (nextNonzeroSerial s.lastReportSerial)
          cpSerial upper numChunks chunkIdx chunk) now).1
        (e.issueReport source sid s (chunkReport (nextNonzeroSerial s.lastReportSerial)
          cpSerial upper numChunks chunkIdx chunk) now).2
        (rsSerials ++ [(nextNonzeroSerial s.lastReportSerial).val]) with
        ⟨reports, e', s', serials, heq, h, hall⟩ | ⟨reports, e', s', done, heq, h, hpre, hlt, hall⟩
      · exact .inl ⟨_ :: reports, e', s', serials, heq, hissue.trans h, .cons ⟨_, rfl⟩ hall⟩
      · exact .inr ⟨_ :: reports, e', s', (chunk, chunkIdx) :: done, heq, hissue.trans h,
          List.cons_prefix_cons.mpr ⟨rfl, hpre⟩, by simpa using hlt, .cons ⟨_, rfl⟩ hall⟩

/-- A report on session `s` up to `upper`: one that it has stored, or a new one. -/
def ReportsFor (config : EngineConfig) (s : RecvSession) (upper : Nat) (r : ReportSegment) : Prop :=
  (∃ (serial : UInt64) (rec : ReportRecord), s.reports[serial]? = some rec ∧ rec.report = r) ∨
    r.Reports s.redReceived config.maxClaimsPerReport upper

theorem reports_of_forall₂ {received : RangeSet} {maxClaims upper : Nat} {cpSerial : UInt64}
    {reports : List ReportSegment} {done : List (List Range × Nat)}
    (hpre : done <+: (chunks (max maxClaims 1) (received.runsWithin ⟨0, upper⟩)).zipIdx)
    (hall : List.Forall₂ (fun r c => ∃ serial, r = chunkReport serial cpSerial upper
      (chunks (max maxClaims 1) (received.runsWithin ⟨0, upper⟩)).length c.2 c.1) reports done) :
    ∀ r ∈ reports, r.Reports received maxClaims upper := by
  intro r hr
  obtain ⟨c, hc, serial, rfl⟩ := Lists.exists_right_of_mem hall hr
  exact reports_chunkReport (List.mem_zipIdx_iff_getElem?.mp (hpre.subset hc))

/-- Reports that answer a checkpoint for session `s`: those that it has stored, or if it has not
answered the checkpoint, new ones. -/
def Answers (config : EngineConfig) (s : RecvSession) (cpSerial : UInt64)
    (reports : List ReportSegment) : Prop :=
  (∀ r ∈ reports, ∃ (serial : UInt64) (rec : ReportRecord),
    s.reports[serial]? = some rec ∧ rec.report = r) ∨
  s.cpSerialsAnswered[cpSerial]? = none ∧ s.reports.size < config.maxReportsPerSession

/-- What comes of a checkpoint: reports on the session, or reports on an incomplete red part and then
the cancellation of the session. -/
theorem issues_answerCheckpoint (cpSerial : UInt64) (upper now : Nat) :
    (∃ reports e' s', e.answerCheckpoint source sid s cpSerial upper now = .ok (e', s') ∧
      Issues sid source reports e s e' s' ∧ (∀ r ∈ reports, ReportsFor e.config s upper r) ∧
      Answers e.config s cpSerial reports) ∨
    ∃ reports e' s', e.answerCheckpoint source sid s cpSerial upper now =
        .error ((e'.putRecv sid s').initiateCancelReceiver sid source .rlexc now) ∧
      Issues sid source reports e s e' s' ∧ (∀ r ∈ reports, ReportsFor e.config s upper r) ∧
      Answers e.config s cpSerial reports ∧
      (reports ≠ [] → ∃ x, x < upper ∧ x ∉ s.redReceived) := by
  unfold answerCheckpoint
  split
  · rename_i serials hserials
    obtain ⟨reports, h, hmem⟩ :=
      issues_foldl_reemitReport sid source e s now serials
    exact .inl ⟨reports, _, _, rfl, h, fun r hr => .inl (hmem r hr), .inl hmem⟩
  rename_i hfresh
  unfold answerFreshCheckpoint
  split
  · exact .inr ⟨[], e, s, rfl, .refl _ _ e s, by simp, .inl (by simp), by simp⟩
  rename_i hlimit
  have hanswers : ∀ reports, Answers e.config s cpSerial reports := fun reports =>
    .inr ⟨hfresh, not_le.mp hlimit⟩
  simp only
  split
  · rename_i hempty
    rw [List.isEmpty_iff] at hempty
    have hissue := issues_issueReport sid source e s (not_le.mp hlimit)
      ⟨nextNonzeroSerial s.lastReportSerial, cpSerial, upper, 0, []⟩ now
    refine .inl ⟨_, _, _, rfl, { hissue with
      session := hissue.session.trans ⟨_, _, _, rfl⟩ }, fun r hr => .inr ?_, hanswers _⟩
    rw [List.mem_singleton.mp hr]
    exact reports_empty hempty
  · rename_i hne
    rcases issues_issueChunkReports sid source e s cpSerial upper
      (chunks (max e.config.maxClaimsPerReport 1) (s.redReceived.runsWithin ⟨0, upper⟩)).length now
      (chunks (max e.config.maxClaimsPerReport 1) (s.redReceived.runsWithin ⟨0, upper⟩)).zipIdx []
      with ⟨reports, e', s', serials, heq, h, hall⟩ | ⟨reports, e', s', done, heq, h, hpre, hlt, hall⟩
    · rw [heq]
      exact .inl ⟨reports, _, _, rfl, { h with session := h.session.trans ⟨_, _, _, rfl⟩ },
        fun r hr => .inr (reports_of_forall₂ (List.prefix_refl _) hall r hr), hanswers _⟩
    · rw [heq]
      refine .inr ⟨reports, _, _, rfl, h, fun r hr => .inr (reports_of_forall₂ hpre hall r hr),
        hanswers _, fun hreports => ?_⟩
      -- a second chunk begins after a gap
      have hpos : 0 < done.length := by
        rw [← hall.length_eq]
        exact List.length_pos_of_ne_nil hreports
      rw [List.length_zipIdx] at hlt
      have hruns := length_chunksFrom_le (n := max e.config.maxClaimsPerReport 1) (by omega)
        (s.redReceived.runsWithin ⟨0, upper⟩).length (s.redReceived.runsWithin ⟨0, upper⟩)
      have hupper : 0 < upper := by
        by_contra hzero
        rw [RangeSet.runsWithin, within_empty _ (by omega)] at hne
        simp at hne
      have hsep : Separated (s.redReceived.runsWithin ⟨0, upper⟩) :=
        separated_within s.redReceived.separated (by exact hupper)
      obtain ⟨x, hx, hnot⟩ := hsep.exists_gap (by unfold chunks at hlt; omega) upper
        fun q hq => (mem_within s.redReceived.separated hq).2.1
      exact ⟨x, hx, fun hmem => hnot (RangeSet.mem_runsWithin_iff.mpr ⟨Nat.zero_le _, hx, hmem⟩)⟩

end Answers

end Engine

end HdyUtils.Ltp
