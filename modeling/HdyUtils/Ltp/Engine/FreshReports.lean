import HdyUtils.Lib.Sums
import HdyUtils.Ltp.Engine.Reporting

/-! The reports on a checkpoint that a session has not seen, exactly: how many there are, what serials
they get, and when the limit on the reports of a session stops them. -/

namespace HdyUtils.Ltp

open Runs

namespace RecvSession

/-- The chunks of the runs received below `upper` on which a fresh checkpoint is reported.  Without
any run there is still one report. -/
def reportChunks (s : RecvSession) (config : EngineConfig) (upper : Nat) : List (List Range) :=
  let allRuns := s.redReceived.runsWithin ⟨0, upper⟩
  if allRuns.isEmpty then [[]] else chunks (max config.maxClaimsPerReport 1) allRuns

/-- The session with a new report that awaits its acknowledgment. -/
def keepReport (now : Nat) (s : RecvSession) (report : ReportSegment) : RecvSession :=
  { s with
    lastReportSerial := report.reportSerial.val
    reports := s.reports.insert report.reportSerial.val
      { report, retries := 0, acked := false, transmittedAt := now } }

/-- Keeping reports changes nothing else. -/
theorem foldl_keepReport_frame (now : Nat) (s : RecvSession) (l : List ReportSegment) :
    ∃ lastReportSerial reports, l.foldl (keepReport now) s =
      { s with lastReportSerial, reports } := by
  induction l generalizing s with
  | nil => exact ⟨_, _, rfl⟩
  | cons r l ih =>
    obtain ⟨last, reports, h⟩ := ih (s.keepReport now r)
    exact ⟨last, reports, by rw [List.foldl_cons, h]; rfl⟩

end RecvSession

/-- The reports on chunks, each with its index, numbered from the serial after `last`. -/
def numberReports (cpSerial : UInt64) (upper numChunks : Nat) :
    UInt64 → List (List Range × Nat) → List ReportSegment
  | _, [] => []
  | last, (chunk, chunkIdx) :: rest =>
    let serial := nextNonzeroSerial last
    chunkReport serial cpSerial upper numChunks chunkIdx chunk ::
      numberReports cpSerial upper numChunks serial.val rest

@[simp] theorem length_numberReports (cpSerial : UInt64) (upper numChunks : Nat) (last : UInt64)
    (pairs : List (List Range × Nat)) :
    (numberReports cpSerial upper numChunks last pairs).length = pairs.length := by
  induction pairs generalizing last with
  | nil => rfl
  | cons c pairs ih => simp [numberReports, ih]

namespace Engine

/-- Queues a report and arms its timer. -/
def sendReport (source : EngineId) (sid : SessionId) (now : Nat) (e : Engine)
    (report : ReportSegment) : Engine :=
  (e.push source sid (.report report)).setTimer (.report sid report.reportSerial.val)
    (e.peerTimeoutDeadline source now)

section Issue

variable (source : EngineId) (sid : SessionId) (now : Nat)

theorem issueReport_eq (e : Engine) (s : RecvSession) (report : ReportSegment) :
    e.issueReport source sid s report now =
      (e.sendReport source sid now report, s.keepReport now report) := rfl

@[simp] theorem sendReport_config (e : Engine) (report : ReportSegment) :
    (e.sendReport source sid now report).config = e.config := rfl

/-- The engine once the reports are queued. -/
def sendReports (e : Engine) (reports : List ReportSegment) : Engine :=
  reports.foldl (sendReport source sid now) e

theorem sendReports_cons (e : Engine) (r : ReportSegment) (reports : List ReportSegment) :
    e.sendReports source sid now (r :: reports) =
      (e.sendReport source sid now r).sendReports source sid now reports := rfl

theorem sendReports_outbound (e : Engine) (reports : List ReportSegment) :
    (e.sendReports source sid now reports).outbound =
      e.outbound ++ reports.map fun r => Push.wire sid (source, .report r) := by
  induction reports generalizing e with
  | nil => simp [sendReports]
  | cons r reports ih =>
    rw [sendReports_cons, ih]
    simp [sendReport, Push.wire]

/-- Issuing reports on chunks ends after all of them, or at the first one for which the session holds
too many reports. -/
theorem issueChunkReports_eq (cpSerial : UInt64) (upper numChunks : Nat)
    (pairs : List (List Range × Nat)) (e : Engine) (s : RecvSession) (rsSerials : List UInt64) :
    let reports := numberReports cpSerial upper numChunks s.lastReportSerial pairs
    let kept := fun k => (reports.take k).foldl (RecvSession.keepReport now) s
    (issueChunkReports source sid cpSerial upper numChunks now pairs e s rsSerials =
        .ok (e.sendReports source sid now reports, kept pairs.length,
          rsSerials ++ reports.map fun r => r.reportSerial.val) ∧
      ∀ k < pairs.length, (kept k).reports.size < e.config.maxReportsPerSession) ∨
    ∃ k < pairs.length, issueChunkReports source sid cpSerial upper numChunks now pairs e s rsSerials =
        .error (((e.sendReports source sid now (reports.take k)).putRecv sid (kept k)
          ).initiateCancelReceiver sid source .rlexc now) ∧
      (∀ j < k, (kept j).reports.size < e.config.maxReportsPerSession) ∧
      e.config.maxReportsPerSession ≤ (kept k).reports.size := by
  induction pairs generalizing e s rsSerials with
  | nil => exact .inl ⟨by simp [issueChunkReports, numberReports, sendReports], by simp⟩
  | cons c pairs ih =>
    obtain ⟨chunk, chunkIdx⟩ := c
    rw [issueChunkReports]
    split
    · rename_i hfull
      exact .inr ⟨0, by simp, rfl, by simp, hfull⟩
    · rename_i hroom
      simp only [issueReport_eq, numberReports]
      generalize hr : chunkReport (nextNonzeroSerial s.lastReportSerial) cpSerial upper numChunks
        chunkIdx chunk = r
      have hserial : r.reportSerial = nextNonzeroSerial s.lastReportSerial := by rw [← hr]; rfl
      rcases ih (e.sendReport source sid now r) (s.keepReport now r)
        (rsSerials ++ [(nextNonzeroSerial s.lastReportSerial).val]) with ⟨heq, hsizes⟩ |
          ⟨k, hk, heq, hsizes, hfull⟩
      · refine .inl ⟨?_, fun k hk => ?_⟩
        · rw [heq]
          simp [RecvSession.keepReport, hserial, sendReports_cons]
        · cases k with
          | zero => exact not_le.mp hroom
          | succ k =>
            have hsize := hsizes k (by simpa using hk)
            simpa [RecvSession.keepReport, hserial] using hsize
      · refine .inr ⟨k + 1, by simpa using hk, ?_, fun j hj => ?_, ?_⟩
        · rw [heq]
          simp [RecvSession.keepReport, hserial, sendReports_cons]
        · cases j with
          | zero => exact not_le.mp hroom
          | succ j =>
            have hsize := hsizes j (by omega)
            simpa [RecvSession.keepReport, hserial] using hsize
        · simpa [RecvSession.keepReport, hserial] using hfull

/-- The reports on a checkpoint that the session has not seen. -/
def freshReports (config : EngineConfig) (s : RecvSession) (cpSerial : UInt64) (upper : Nat) :
    List ReportSegment :=
  let chunks := s.reportChunks config upper
  numberReports cpSerial upper chunks.length s.lastReportSerial chunks.zipIdx

theorem length_freshReports (config : EngineConfig) (s : RecvSession) (cpSerial : UInt64)
    (upper : Nat) :
    (freshReports config s cpSerial upper).length = (s.reportChunks config upper).length := by
  simp [freshReports]

theorem reportChunks_ne_nil (config : EngineConfig) (s : RecvSession) (upper : Nat) :
    s.reportChunks config upper ≠ [] := by
  unfold RecvSession.reportChunks
  simp only
  split
  · simp
  · rename_i hne
    cases hruns : s.redReceived.runsWithin ⟨0, upper⟩ with
    | nil => simp [hruns] at hne
    | cons r runs => simp [chunks, chunksFrom]

/-- The session that has kept the first `k` reports on a fresh checkpoint. -/
def keptAfter (config : EngineConfig) (s : RecvSession) (cpSerial : UInt64) (upper now k : Nat) :
    RecvSession :=
  ((freshReports config s cpSerial upper).take k).foldl (RecvSession.keepReport now) s

/-- The session that has answered a fresh checkpoint. -/
def answeredFresh (config : EngineConfig) (s : RecvSession) (cpSerial : UInt64) (upper now : Nat) :
    RecvSession :=
  let reports := freshReports config s cpSerial upper
  { keptAfter config s cpSerial upper now reports.length with
    cpSerialsAnswered := s.cpSerialsAnswered.insert cpSerial
      (reports.map fun r => r.reportSerial.val) }

/-- A fresh checkpoint is answered with all of the reports on it, or the session is cancelled when it
holds too many reports for the next one. -/
theorem answerFreshCheckpoint_eq (e : Engine) (s : RecvSession) (cpSerial : UInt64) (upper : Nat) :
    let reports := freshReports e.config s cpSerial upper
    (e.answerFreshCheckpoint source sid s cpSerial upper now =
        .ok (e.sendReports source sid now reports, answeredFresh e.config s cpSerial upper now) ∧
      ∀ k < reports.length,
        (keptAfter e.config s cpSerial upper now k).reports.size < e.config.maxReportsPerSession) ∨
    ∃ k < reports.length, e.answerFreshCheckpoint source sid s cpSerial upper now =
        .error (((e.sendReports source sid now (reports.take k)).putRecv sid
          (keptAfter e.config s cpSerial upper now k)).initiateCancelReceiver sid source .rlexc now) ∧
      (∀ j < k,
        (keptAfter e.config s cpSerial upper now j).reports.size < e.config.maxReportsPerSession) ∧
      e.config.maxReportsPerSession ≤ (keptAfter e.config s cpSerial upper now k).reports.size := by
  intro reports
  have hpos : 0 < reports.length := by
    rw [length_freshReports]
    exact List.length_pos_of_ne_nil (reportChunks_ne_nil e.config s upper)
  unfold answerFreshCheckpoint
  by_cases hfull : e.config.maxReportsPerSession ≤ s.reports.size
  · rw [if_pos hfull]
    exact .inr ⟨0, hpos, rfl, by simp, hfull⟩
  rw [if_neg hfull]
  simp only
  by_cases hempty : (s.redReceived.runsWithin ⟨0, upper⟩).isEmpty = true
  · have hreports : reports = [⟨nextNonzeroSerial s.lastReportSerial, cpSerial, upper, 0, []⟩] := by
      simp [reports, freshReports, RecvSession.reportChunks, hempty, numberReports, chunkReport]
    rw [if_pos hempty]
    refine .inl ⟨?_, fun k hk => ?_⟩
    · simp only [answeredFresh, keptAfter]
      rw [show freshReports e.config s cpSerial upper = reports from rfl, hreports]
      rfl
    · have hzero : k = 0 := by simpa [hreports] using hk
      rw [hzero]
      exact not_le.mp hfull
  · have hchunks : s.reportChunks e.config upper =
        chunks (max e.config.maxClaimsPerReport 1) (s.redReceived.runsWithin ⟨0, upper⟩) :=
      if_neg hempty
    have hlength : (chunks (max e.config.maxClaimsPerReport 1)
        (s.redReceived.runsWithin ⟨0, upper⟩)).zipIdx.length = reports.length := by
      rw [length_freshReports, hchunks, List.length_zipIdx]
    have hreports : reports = numberReports cpSerial upper
        (chunks (max e.config.maxClaimsPerReport 1) (s.redReceived.runsWithin ⟨0, upper⟩)).length
        s.lastReportSerial (chunks (max e.config.maxClaimsPerReport 1)
          (s.redReceived.runsWithin ⟨0, upper⟩)).zipIdx := by
      rw [← hchunks]
      rfl
    rw [if_neg hempty]
    rcases issueChunkReports_eq source sid now cpSerial upper
      (chunks (max e.config.maxClaimsPerReport 1) (s.redReceived.runsWithin ⟨0, upper⟩)).length
      (chunks (max e.config.maxClaimsPerReport 1) (s.redReceived.runsWithin ⟨0, upper⟩)).zipIdx e s []
      with ⟨heq, hsizes⟩ | ⟨k, hk, heq, hsizes, hsize⟩
    · rw [← hreports, hlength] at heq hsizes
      obtain ⟨last, records, hframe⟩ := RecvSession.foldl_keepReport_frame now s reports
      refine .inl ⟨?_, hsizes⟩
      rw [heq]
      simp only [answeredFresh, keptAfter, List.nil_append]
      rw [show freshReports e.config s cpSerial upper = reports from rfl, List.take_length, hframe]
    · rw [← hreports] at heq hsizes hsize
      rw [hlength] at hk
      exact .inr ⟨k, hk, by rw [heq]; rfl, hsizes, hsize⟩

end Issue

end Engine

/-! ### Serials -/

theorem toNat_nextNonzeroSerial {cur : UInt64} (h : cur.toNat + 1 < 2 ^ 64) :
    (nextNonzeroSerial cur).val.toNat = cur.toNat + 1 := by
  have hsum : (cur + 1).toNat = cur.toNat + 1 := by
    rw [UInt64.toNat_add]
    simp only [UInt64.toNat_one]
    omega
  have hne : cur + 1 ≠ 0 := by
    intro hzero
    rw [hzero] at hsum
    simp at hsum
  rw [nextNonzeroSerial, dif_neg hne]
  exact hsum

namespace RecvSession

/-- The number of reports that await their acknowledgment. -/
def unacked (s : RecvSession) : Nat :=
  Maps.total (fun rec : ReportRecord => if rec.acked then 0 else 1) s.reports

/-- The reports of a session carry the serials from 1 to the last one given. -/
structure Serials (s : RecvSession) : Prop where
  size : s.reports.size = s.lastReportSerial.toNat
  le : ∀ serial ∈ s.reports, serial.toNat ≤ s.lastReportSerial.toNat

variable {s : RecvSession} {now : Nat}

variable (now) in
theorem Serials.keepReport (hs : s.Serials) (hroom : s.lastReportSerial.toNat + 1 < 2 ^ 64)
    {r : ReportSegment} (hr : r.reportSerial = nextNonzeroSerial s.lastReportSerial) :
    (s.keepReport now r).Serials ∧ s.reports[r.reportSerial.val]? = none := by
  have hnext := toNat_nextNonzeroSerial hroom
  rw [← hr] at hnext
  have hnew : r.reportSerial.val ∉ s.reports := fun hmem => by
    have hle := hs.le _ hmem
    omega
  have hsize : (s.keepReport now r).reports.size = s.reports.size + 1 := by
    simp only [RecvSession.keepReport]
    rw [Std.TreeMap.size_insert, if_neg (mt Std.TreeMap.mem_iff_contains.mpr hnew)]
  refine ⟨⟨?_, fun serial hmem => ?_⟩, Std.TreeMap.getElem?_eq_none hnew⟩
  · rw [hsize, hs.size]
    exact hnext.symm
  · have hlast : (s.keepReport now r).lastReportSerial.toNat = s.lastReportSerial.toNat + 1 := hnext
    rcases (Maps.mem_map_insert _ _ _ _).mp hmem with rfl | hold
    · omega
    · have hle := hs.le serial hold
      omega

theorem unacked_keepReport {r : ReportSegment} (h : s.reports[r.reportSerial.val]? = none) :
    (s.keepReport now r).unacked = s.unacked + 1 := by
  simp only [unacked, RecvSession.keepReport]
  rw [Maps.total_insert_of_none _ h, Nat.add_comm]
  rfl

variable (now) in
/-- Reports numbered from a session's last serial are new to the session, one after the other. -/
theorem Serials.foldl_keepReport (cpSerial : UInt64) (upper numChunks : Nat) (hs : s.Serials)
    (pairs : List (List Range × Nat)) {k : Nat} (hk : k ≤ pairs.length)
    (hroom : s.lastReportSerial.toNat + k < 2 ^ 64) :
    let reports := numberReports cpSerial upper numChunks s.lastReportSerial pairs
    let kept := (reports.take k).foldl (RecvSession.keepReport now) s
    kept.Serials ∧ kept.reports.size = s.reports.size + k ∧ kept.unacked = s.unacked + k ∧
      (reports.take k).map (fun r => r.reportSerial.val.toNat) =
        List.range' (s.lastReportSerial.toNat + 1) k := by
  induction pairs generalizing s k with
  | nil =>
    obtain rfl : k = 0 := by simpa using hk
    exact ⟨hs, rfl, rfl, rfl⟩
  | cons c pairs ih =>
    obtain ⟨chunk, chunkIdx⟩ := c
    cases k with
    | zero => exact ⟨hs, rfl, rfl, rfl⟩
    | succ k =>
      generalize hr : chunkReport (nextNonzeroSerial s.lastReportSerial) cpSerial upper numChunks
        chunkIdx chunk = r
      have hserial : r.reportSerial = nextNonzeroSerial s.lastReportSerial := by rw [← hr]; rfl
      have hnext : (nextNonzeroSerial s.lastReportSerial).val.toNat = s.lastReportSerial.toNat + 1 :=
        toNat_nextNonzeroSerial (by omega)
      obtain ⟨hserials, hnew⟩ := hs.keepReport now (by omega) hserial
      have hlast : (s.keepReport now r).lastReportSerial =
          (nextNonzeroSerial s.lastReportSerial).val := by
        rw [RecvSession.keepReport, hserial]
      have hsize : (s.keepReport now r).reports.size = s.reports.size + 1 := by
        rw [hserials.size, hlast, hnext, hs.size]
      obtain ⟨h, hsize', hunacked, hmap⟩ := ih hserials (k := k) (by simpa using hk)
        (by rw [hlast, hnext]; omega)
      rw [hlast] at h hsize' hunacked hmap
      simp only [numberReports, hr, List.take_succ_cons, List.foldl_cons, List.map_cons]
      refine ⟨h, by rw [hsize', hsize]; omega, by rw [hunacked, unacked_keepReport hnew]; omega, ?_⟩
      rw [hmap, hserial, hnext, List.range'_succ]

/-- As long as there is room for each report, all of them are numbered. -/
theorem Serials.room {cpSerial : UInt64} {upper numChunks limit : Nat} (hs : s.Serials)
    (hlimit : limit < 2 ^ 64) (pairs : List (List Range × Nat)) {k : Nat} (hk : k ≤ pairs.length)
    (hsizes : ∀ j < k, (((numberReports cpSerial upper numChunks s.lastReportSerial pairs).take j
      ).foldl (RecvSession.keepReport now) s).reports.size < limit) :
    s.lastReportSerial.toNat + k < 2 ^ 64 ∧ (k = 0 ∨ s.reports.size + k ≤ limit) := by
  induction k with
  | zero => exact ⟨s.lastReportSerial.toNat_lt, .inl rfl⟩
  | succ k ih =>
    obtain ⟨hroom, -⟩ := ih (by omega) fun j hj => hsizes j (by omega)
    have hsize := (hs.foldl_keepReport now cpSerial upper numChunks pairs (k := k) (by omega) hroom).2.1
    have hlt := hsizes k (by omega)
    rw [hsize] at hlt
    have hlast := hs.size
    omega

end RecvSession

/-- The reports on a fresh checkpoint for which there is room are new to the session. -/
theorem Engine.serials_keptAfter {config : EngineConfig} {s : RecvSession} {cpSerial : UInt64}
    {upper now limit k : Nat} (hs : s.Serials) (hlimit : limit < 2 ^ 64)
    (hk : k ≤ (freshReports config s cpSerial upper).length)
    (hsizes : ∀ j < k, (keptAfter config s cpSerial upper now j).reports.size < limit) :
    (keptAfter config s cpSerial upper now k).Serials ∧
      (keptAfter config s cpSerial upper now k).reports.size = s.reports.size + k ∧
      (keptAfter config s cpSerial upper now k).unacked = s.unacked + k ∧
      ((freshReports config s cpSerial upper).take k).map (fun r => r.reportSerial.val.toNat) =
        List.range' (s.lastReportSerial.toNat + 1) k ∧
      (k = 0 ∨ s.reports.size + k ≤ limit) := by
  rw [length_freshReports, ← List.length_zipIdx] at hk
  obtain ⟨hroom, hle⟩ := hs.room hlimit _ hk hsizes
  obtain ⟨hserials, hsize, hunacked, hmap⟩ := hs.foldl_keepReport now _ _ _ _ hk hroom
  exact ⟨hserials, hsize, hunacked, hmap, hle⟩

end HdyUtils.Ltp
