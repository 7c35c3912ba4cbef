import HdyUtils.Ltp.ReportSerials

/-! The claims of the reports on a fresh checkpoint: together they are the runs that were received up
to the end of the checkpoint, each one once and in order. -/

namespace HdyUtils.Ltp

open Runs Trace

theorem flatten_chunksFrom {α : Type} {n : Nat} (hn : 0 < n) {fuel : Nat} {l : List α}
    (hfuel : l.length ≤ fuel) : (chunksFrom n fuel l).flatten = l := by
  induction fuel generalizing l with
  | zero =>
    rw [List.length_eq_zero_iff.mp (Nat.le_zero.mp hfuel)]
    rfl
  | succ fuel ih =>
    cases l with
    | nil => rfl
    | cons a l =>
      have hdrop : ((a :: l).drop n).length ≤ fuel := by
        rw [List.length_drop]
        simp only [List.length_cons] at hfuel ⊢
        omega
      simp only [chunksFrom, List.isEmpty_cons, Bool.false_eq_true, if_false, List.flatten_cons]
      rw [ih hdrop, List.take_append_drop]

/-- The chunks of a list make up the list. -/
theorem flatten_chunks {α : Type} {n : Nat} (hn : 0 < n) (l : List α) : (chunks n l).flatten = l :=
  flatten_chunksFrom hn le_rfl

/-- The extents that a report claims, in the block. -/
def ReportSegment.claimed (r : ReportSegment) : List Range :=
  r.claims.map fun claim =>
    ⟨r.lowerBound + claim.offset, r.lowerBound + claim.offset + claim.length⟩

/-- A report on a chunk claims the runs of the chunk. -/
theorem claimed_chunkReport {chunk : List Range} (hsep : Separated chunk) (serial : NonZeroU64)
    (cpSerial : UInt64) (upper numChunks chunkIdx : Nat) :
    (chunkReport serial cpSerial upper numChunks chunkIdx chunk).claimed = chunk := by
  have hlower : ∀ q ∈ chunk,
      (chunkReport serial cpSerial upper numChunks chunkIdx chunk).lowerBound ≤ q.start := by
    intro q hq
    simp only [chunkReport]
    split
    · exact Nat.zero_le _
    · cases chunk with
      | nil => cases hq
      | cons first rest =>
        rw [List.head?_cons, Option.map_some, Option.getD_some]
        rcases List.mem_cons.mp hq with rfl | hq
        · exact le_rfl
        · have hfirst := hsep.head
          have hlt := hfirst.2 q hq
          omega
  have hclaims : (chunkReport serial cpSerial upper numChunks chunkIdx chunk).claims =
      chunk.map fun q =>
        { offset := q.start - (chunkReport serial cpSerial upper numChunks chunkIdx chunk).lowerBound
          length := q.stop - q.start } := rfl
  rw [ReportSegment.claimed, hclaims, List.map_map]
  refine (List.map_congr_left fun q hq => ?_).trans (List.map_id chunk)
  have hne := hsep.nonempty q hq
  have hle := hlower q hq
  obtain ⟨start, stop⟩ := q
  simp only [Function.comp_apply, id_eq, Run.mk.injEq] at hne hle ⊢
  omega

theorem flatMap_claimed_numberReports {cpSerial : UInt64} {upper numChunks : Nat}
    (pairs : List (List Range × Nat)) (h : ∀ c ∈ pairs, Separated c.1) (last : UInt64) :
    (numberReports cpSerial upper numChunks last pairs).flatMap ReportSegment.claimed =
      (pairs.map Prod.fst).flatten := by
  induction pairs generalizing last with
  | nil => rfl
  | cons c pairs ih =>
    rw [numberReports, List.flatMap_cons, claimed_chunkReport (h c (by simp)),
      ih fun q hq => h q (by simp [hq])]
    rfl

theorem mem_numberReports {cpSerial : UInt64} {upper numChunks : Nat} {last : UInt64}
    {pairs : List (List Range × Nat)} {r : ReportSegment}
    (h : r ∈ numberReports cpSerial upper numChunks last pairs) :
    ∃ c ∈ pairs, ∃ serial, r = chunkReport serial cpSerial upper numChunks c.2 c.1 := by
  induction pairs generalizing last with
  | nil => cases h
  | cons c pairs ih =>
    rcases List.mem_cons.mp h with rfl | h
    · exact ⟨c, by simp, _, rfl⟩
    · obtain ⟨c', hc', hr⟩ := ih h
      exact ⟨c', by simp [hc'], hr⟩

/-- Reports on a checkpoint that ends at `upper`, for a session that had the reports of `s`: they
claim what was received up to there, each octet once and in order, under serials greater than any
that the session has used. -/
structure RecvSession.ExactReports (s : RecvSession) (received : RangeSet) (maxClaims : Nat)
    (cpSerial : UInt64) (upper : Nat) (reports : List ReportSegment) : Prop where
  separated : Separated (reports.flatMap ReportSegment.claimed)
  covers : ∀ x, Covers (reports.flatMap ReportSegment.claimed) x ↔ x ∈ received ∧ x < upper
  length : ∀ r ∈ reports, r.claims.length ≤ max 1 maxClaims
  scope : ∀ r ∈ reports, ∀ q ∈ r.claimed, r.lowerBound ≤ q.start ∧ q.stop ≤ r.upperBound
  checkpoint : ∀ r ∈ reports, r.checkpointSerial = cpSerial
  fresh : ∀ r ∈ reports, ∀ serial ∈ s.reports, serial.toNat < r.reportSerial.val.toNat
  serials : reports.Pairwise fun a b => a.reportSerial.val.toNat < b.reportSerial.val.toNat

namespace Engine

variable {config : EngineConfig} {s : RecvSession} {cpSerial : UInt64} {upper : Nat}

theorem flatten_reportChunks (config : EngineConfig) (s : RecvSession) (upper : Nat) :
    (s.reportChunks config upper).flatten = s.redReceived.runsWithin ⟨0, upper⟩ := by
  unfold RecvSession.reportChunks
  simp only
  split
  · rename_i hempty
    rw [List.isEmpty_iff.mp hempty]
    rfl
  · exact flatten_chunks (by omega) _

theorem separated_runsWithin (received : RangeSet) (upper : Nat) :
    Separated (received.runsWithin ⟨0, upper⟩) := by
  rcases Nat.eq_zero_or_pos upper with rfl | hpos
  · rw [RangeSet.runsWithin, within_empty _ (Nat.le_refl 0)]
    exact .nil
  · exact separated_within received.separated (by exact hpos)

theorem separated_of_mem_reportChunks {chunk : List Range}
    (h : chunk ∈ s.reportChunks config upper) : Separated chunk := by
  have hsep := separated_runsWithin s.redReceived upper
  rw [← flatten_reportChunks config s upper] at hsep
  have hsub := List.sublist_flatten_of_mem h
  exact ⟨fun r hr => hsep.nonempty r (hsub.subset hr), hsep.apart.sublist hsub⟩

/-- Every report on a fresh checkpoint keeps to its scope. -/
theorem reports_of_mem_freshReports {r : ReportSegment}
    (h : r ∈ freshReports config s cpSerial upper) :
    r.Reports s.redReceived config.maxClaimsPerReport upper ∧ r.checkpointSerial = cpSerial := by
  obtain ⟨⟨chunk, i⟩, hc, serial, rfl⟩ := mem_numberReports h
  refine ⟨?_, rfl⟩
  have hget := List.mem_zipIdx_iff_getElem?.mp hc
  unfold RecvSession.reportChunks at hget ⊢
  simp only at hget ⊢
  split at hget
  · rename_i hempty
    rw [if_pos hempty]
    obtain ⟨rfl, rfl⟩ : i = 0 ∧ chunk = [] := by
      cases i with
      | zero => simpa using hget.symm
      | succ i => simp at hget
    exact reports_empty (List.isEmpty_iff.mp hempty)
  · rename_i hne
    rw [if_neg hne]
    exact reports_chunkReport hget

theorem flatMap_claimed_freshReports (config : EngineConfig) (s : RecvSession) (cpSerial : UInt64)
    (upper : Nat) :
    (freshReports config s cpSerial upper).flatMap ReportSegment.claimed =
      s.redReceived.runsWithin ⟨0, upper⟩ := by
  rw [freshReports, flatMap_claimed_numberReports, List.zipIdx_map_fst, flatten_reportChunks]
  intro c hc
  have hmem : c.1 ∈ (s.reportChunks config upper).zipIdx.map Prod.fst := List.mem_map_of_mem hc
  rw [List.zipIdx_map_fst] at hmem
  exact separated_of_mem_reportChunks hmem

/-- The claims of a report in its scope. -/
theorem claimed_bounds {r : ReportSegment} {received : RangeSet} {maxClaims : Nat}
    (h : r.Reports received maxClaims upper) :
    r.claims.length ≤ max maxClaims 1 ∧
      (0 < upper → ∀ q ∈ r.claimed, r.lowerBound ≤ q.start ∧ q.stop ≤ r.upperBound) := by
  constructor
  · obtain ⟨pre, chunk, post, -, -, hlen, -, -, hclaims⟩ := h.stretch
    rwa [hclaims, List.length_map]
  · intro hpos q hq
    obtain ⟨chunk, hsep, -, hclaims, -, -, hin⟩ := h.bounds hpos
    rw [ReportSegment.claimed, hclaims, List.map_map] at hq
    obtain ⟨run, hrun, rfl⟩ := List.mem_map.mp hq
    obtain ⟨hlower, hupper, -⟩ := hin run hrun
    have hne := hsep.nonempty run hrun
    simp only [Function.comp_apply]
    omega

theorem exactReports_freshReports (hs : s.Serials)
    (hserials : (freshReports config s cpSerial upper).map (fun r => r.reportSerial.val.toNat) =
      List.range' (s.lastReportSerial.toNat + 1) (freshReports config s cpSerial upper).length) :
    s.ExactReports s.redReceived config.maxClaimsPerReport cpSerial upper
      (freshReports config s cpSerial upper) := by
  have hclaimed := flatMap_claimed_freshReports config s cpSerial upper
  constructor
  · rw [hclaimed]
    exact separated_runsWithin s.redReceived upper
  · intro x
    rw [hclaimed, RangeSet.mem_runsWithin_iff]
    simp only [Nat.zero_le, true_and]
    exact And.comm
  · intro r hr
    rw [Nat.max_comm]
    exact (claimed_bounds (reports_of_mem_freshReports hr).1).1
  · intro r hr q hq
    rcases Nat.eq_zero_or_pos upper with rfl | hpos
    · -- nothing is claimed below 0
      have hmem : q ∈ (freshReports config s cpSerial 0).flatMap ReportSegment.claimed :=
        List.mem_flatMap.mpr ⟨r, hr, hq⟩
      rw [hclaimed, RangeSet.runsWithin, within_empty _ (Nat.le_refl 0)] at hmem
      cases hmem
    · exact (claimed_bounds (reports_of_mem_freshReports hr).1).2 hpos q hq
  · exact fun r hr => (reports_of_mem_freshReports hr).2
  · intro r hr serial hserial
    have hmem : r.reportSerial.val.toNat ∈
        (freshReports config s cpSerial upper).map fun r => r.reportSerial.val.toNat :=
      List.mem_map_of_mem hr
    rw [hserials, List.mem_range'] at hmem
    obtain ⟨i, -, hi⟩ := hmem
    have hle := hs.le serial hserial
    omega
  · have hsorted := List.pairwise_lt_range' (s := s.lastReportSerial.toNat + 1)
      (n := (freshReports config s cpSerial upper).length)
    rw [← hserials, List.pairwise_map] at hsorted
    exact hsorted

/-- A fresh checkpoint that does not end in a cancellation is answered with all of its reports. -/
theorem handleIncomingData_reports {e : Engine} {source : EngineId} {sid : SessionId}
    {ds : DataSegment} {now : Nat} {s' : RecvSession}
    (hanswering : e.answering source sid ds now = some (s, cpSerial))
    (hs' : (e.handleIncomingData source sid ds now).recvSessions[sid]? = some s')
    (hopen : s'.cancelReason = none) :
    (e.handleIncomingData source sid ds now).outbound =
        e.outbound ++ (freshReports e.config s cpSerial ds.segEnd).map (fun r =>
          Push.wire sid (source, .report r)) ∧
      s'.redReceived = s.redReceived ∧
      ∀ k < (freshReports e.config s cpSerial ds.segEnd).length,
        (keptAfter e.config s cpSerial ds.segEnd now k).reports.size <
          e.config.maxReportsPerSession := by
  have hconfig : (e.touchInactivity sid false now).config = e.config := by simp
  have hdata := handleIncomingData_answering hanswering
  rcases answerFreshCheckpoint_eq source sid now (e.touchInactivity sid false now) s cpSerial
    ds.segEnd with ⟨heq, hsizes⟩ | ⟨k, hk, heq, -, -⟩
  · rw [hconfig] at heq hsizes
    simp only [heq] at hdata
    refine ⟨?_, ?_, hsizes⟩
    · rw [hdata, deliverRed_eq]
      simp only [putRecv_outbound, sendReports_outbound, touchInactivity_outbound]
    · rw [hdata, recvSessions_deliverRed] at hs'
      cases hs'
      exact (delivered_answeredFresh e.config s cpSerial ds.segEnd now).1
  · simp only [heq] at hdata
    rw [hdata, recvSessions_initiateCancelReceiver] at hs'
    cases hs'
    cases hopen

/-- These reports are exact. -/
theorem handleIncomingData_exactReports {e : Engine} {source : EngineId} {sid : SessionId}
    {ds : DataSegment} {now : Nat} {s' : RecvSession}
    (hlimit : e.config.maxReportsPerSession < 2 ^ 64)
    (hserials : ∀ s, e.recvSessions[sid]? = some s →
      s.Serials ∧ s.reports.size ≤ e.config.maxReportsPerSession)
    (hanswering : e.answering source sid ds now = some (s, cpSerial))
    (hs' : (e.handleIncomingData source sid ds now).recvSessions[sid]? = some s')
    (hopen : s'.cancelReason = none) :
    (e.handleIncomingData source sid ds now).outbound =
        e.outbound ++ (freshReports e.config s cpSerial ds.segEnd).map (fun r =>
          Push.wire sid (source, .report r)) ∧
      s'.redReceived = s.redReceived ∧
      s.ExactReports s.redReceived e.config.maxClaimsPerReport cpSerial ds.segEnd
        (freshReports e.config s cpSerial ds.segEnd) := by
  have hs := (serials_found source ds now hserials).1.same
    (quiet_of_answering hanswering).1.same
  obtain ⟨hout, hreceived, hsizes⟩ := handleIncomingData_reports hanswering hs' hopen
  obtain ⟨-, -, -, hmap, -⟩ := serials_keptAfter hs hlimit le_rfl hsizes
  rw [List.take_length] at hmap
  exact ⟨hout, hreceived, exactReports_freshReports hs hmap⟩

/-- A checkpoint that is answered for the first time is a fresh one. -/
theorem exists_answering {e : Engine} {source : EngineId} {sid : SessionId} {ds : DataSegment}
    {now : Nat} {cp : Checkpoint} {s' : RecvSession} (hcp : ds.kind.checkpoint = some cp)
    (hfresh : (e.found source sid ds now).cpSerialsAnswered[cp.serial.val]? = none)
    (hs' : (e.handleIncomingData source sid ds now).recvSessions[sid]? = some s')
    (hanswered : s'.cpSerialsAnswered[cp.serial.val]? ≠ none) :
    ∃ s, e.answering source sid ds now = some (s, cp.serial.val) ∧
      (e.found source sid ds now).SameReports s := by
  cases hanswering : e.answering source sid ds now with
  | none =>
    have hquiet := quiet_handleIncomingData hanswering hs'
    rw [hquiet.same.answered] at hanswered
    exact absurd hfresh hanswered
  | some found =>
    obtain ⟨s, cpSerial⟩ := found
    have hsame := (quiet_of_answering hanswering).1.same
    obtain ⟨-, -, cp', hcp', rfl⟩ := answering_eq_some.mp hanswering
    rw [hcp] at hcp'
    cases hcp'
    exact ⟨s, rfl, hsame⟩

end Engine

/-- Whatever has happened, the reports that answer a checkpoint for the first time claim exactly what
was received up to the end of the checkpoint. -/
theorem report_claims_exact {config : EngineConfig} (hlimit : config.maxReportsPerSession < 2 ^ 64)
    {calls : List Call} {source : EngineId} {sid : SessionId} {ds : DataSegment} {now : Nat}
    {cp : Checkpoint} {s' : RecvSession} (hcp : ds.kind.checkpoint = some cp)
    (hfresh : (((Host.new config).run calls).engine.found source sid ds now).cpSerialsAnswered[
      cp.serial.val]? = none)
    (hs' : (((Host.new config).run calls).engine.handleIncomingData source sid ds now).recvSessions[
      sid]? = some s')
    (hopen : s'.cancelReason = none) (hanswered : s'.cpSerialsAnswered[cp.serial.val]? ≠ none) :
    ∃ reports,
      (((Host.new config).run calls).engine.handleIncomingData source sid ds now).outbound =
        ((Host.new config).run calls).engine.outbound ++
          reports.map (fun r => Push.wire sid (source, .report r)) ∧
      (((Host.new config).run calls).engine.found source sid ds now).ExactReports s'.redReceived
        config.maxClaimsPerReport cp.serial.val ds.segEnd reports := by
  have hserialled := Host.serialled_run hlimit calls
  have hconfig := hserialled.config
  obtain ⟨s, hanswering, hsame⟩ := Engine.exists_answering hcp hfresh hs' hanswered
  obtain ⟨hout, hreceived, hexact⟩ := Engine.handleIncomingData_exactReports
    (by rw [hconfig]; exact hlimit) (hserialled.serials sid) hanswering hs' hopen
  rw [hconfig] at hout hexact
  refine ⟨_, hout, ?_⟩
  rw [hreceived]
  exact ⟨hexact.separated, hexact.covers, hexact.length, hexact.scope, hexact.checkpoint,
    fun r hr serial hserial => hexact.fresh r hr serial (by rw [hsame.reports]; exact hserial),
    hexact.serials⟩

/-- The default configuration with two claims in a report. -/
def twoClaims : EngineConfig := { EngineConfig.default with maxClaimsPerReport := 2 }

/-- The octets 0, 2 and 4 of a block arrive. -/
def threeRuns : List Call :=
  [.segment ⟨2⟩ [0, 2, 1, 0, 1, 0, 1, 7] 0, .segment ⟨2⟩ [0, 2, 1, 0, 1, 2, 1, 7] 0,
    .segment ⟨2⟩ [0, 2, 1, 0, 1, 4, 1, 7] 0]

/-- The checkpoint at octet 6. -/
def sixthOctet : DataSegment := ⟨1, 6, .redCp ⟨.one, 0⟩, [7]⟩

/-- The checkpoint is answered with reports on the four runs. -/
theorem report_claims_exact_four_runs :
    ∃ reports,
      (((Host.new twoClaims).run threeRuns).engine.handleIncomingData ⟨2⟩ ⟨⟨2⟩, 1⟩ sixthOctet 1
        ).outbound = ((Host.new twoClaims).run threeRuns).engine.outbound ++
          reports.map (fun r => Push.wire ⟨⟨2⟩, 1⟩ (⟨2⟩, .report r)) ∧
      (((Host.new twoClaims).run threeRuns).engine.found ⟨2⟩ ⟨⟨2⟩, 1⟩ sixthOctet 1).ExactReports
        ((((Host.new twoClaims).run threeRuns).engine.handleIncomingData ⟨2⟩ ⟨⟨2⟩, 1⟩ sixthOctet 1
          ).recvSessions[(⟨⟨2⟩, 1⟩ : SessionId)]?.get (by decide +kernel)).redReceived
        twoClaims.maxClaimsPerReport 1 sixthOctet.segEnd reports :=
  report_claims_exact (by decide) (rfl : sixthOctet.kind.checkpoint = some ⟨.one, 0⟩)
    (by decide +kernel)
    (Option.some_get _).symm (by decide +kernel) (by decide +kernel)

end HdyUtils.Ltp
