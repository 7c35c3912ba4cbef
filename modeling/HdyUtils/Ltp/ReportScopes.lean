import HdyUtils.Lib.Tilings
import HdyUtils.Ltp.Claims
import HdyUtils.Ltp.ReportClaims
import HdyUtils.Ltp.Retransmission

/-! The scopes of the reports on a fresh checkpoint.  One report has the whole scope.  When the runs
that were received take several reports, the scope of each ends at its last run, and what lies before
the next run is in no scope. -/

namespace HdyUtils.Ltp

open Runs

/-- The scope of a report, in the block. -/
def ReportSegment.scope (r : ReportSegment) : Range := ⟨r.lowerBound, r.upperBound⟩

/-! ### The chunks -/

/-- A list that fits in a chunk is one chunk. -/
theorem chunks_of_le {α : Type} {n : Nat} {l : List α} (hne : l ≠ []) (hle : l.length ≤ n) :
    chunks n l = [l] := by
  obtain ⟨m, hm⟩ := Nat.exists_eq_add_one.mpr (List.length_pos_iff.mpr hne)
  have hempty : l.isEmpty = false := by simpa using hne
  have hrest : chunksFrom n m (l.drop n) = [] := by
    rw [List.drop_eq_nil_of_le hle]
    cases m <;> rfl
  simp only [chunks, hm, chunksFrom, hempty, Bool.false_eq_true, if_false, hrest,
    List.take_of_length_le hle]

/-- A list that does not fit in a chunk starts with two chunks. -/
theorem chunks_of_lt {α : Type} {n : Nat} {l : List α} (hn : 0 < n) (hlt : n < l.length) :
    ∃ rest, chunks n l = l.take n :: (l.drop n).take n :: rest ∧
      (l.drop n).take n ≠ [] := by
  obtain ⟨m, hm⟩ : ∃ m, l.length = m + 2 := ⟨l.length - 2, by omega⟩
  have hempty : l.isEmpty = false := by
    rw [List.isEmpty_eq_false_iff]
    exact List.ne_nil_of_length_pos (by omega)
  have hlen : 0 < (l.drop n).length := by
    rw [List.length_drop]
    omega
  have hempty' : (l.drop n).isEmpty = false := by
    rw [List.isEmpty_eq_false_iff]
    exact List.ne_nil_of_length_pos hlen
  refine ⟨_, by simp only [chunks, hm, chunksFrom, hempty, hempty', Bool.false_eq_true, if_false]; rfl,
    ?_⟩
  apply List.ne_nil_of_length_pos
  rw [List.length_take]
  omega

namespace Engine

variable {config : EngineConfig} {s : RecvSession} {cpSerial : UInt64} {upper : Nat}

/-- The report on all runs received below `upper`. -/
def wholeReport (serial : NonZeroU64) (cpSerial : UInt64) (upper : Nat) (received : RangeSet) :
    ReportSegment :=
  chunkReport serial cpSerial upper 1 0 (received.runsWithin ⟨0, upper⟩)

/-- Runs that one report can claim are in one report. -/
theorem freshReports_whole
    (hle : (s.redReceived.runsWithin ⟨0, upper⟩).length ≤ max config.maxClaimsPerReport 1) :
    freshReports config s cpSerial upper =
      [wholeReport (nextNonzeroSerial s.lastReportSerial) cpSerial upper s.redReceived] := by
  have hone : s.reportChunks config upper = [s.redReceived.runsWithin ⟨0, upper⟩] := by
    unfold RecvSession.reportChunks
    simp only
    split
    · rename_i hempty
      rw [List.isEmpty_iff.mp hempty]
    · rename_i hne
      rw [List.isEmpty_iff] at hne
      exact chunks_of_le hne hle
  rw [freshReports, hone]
  rfl

/-- The runs in one report: it has the whole scope. -/
theorem freshReports_of_le
    (hle : (s.redReceived.runsWithin ⟨0, upper⟩).length ≤ max config.maxClaimsPerReport 1) :
    ∃ r, freshReports config s cpSerial upper = [r] ∧ r.scope = ⟨0, upper⟩ :=
  ⟨_, freshReports_whole hle, rfl⟩

/-- Separated runs in two pieces: the first one ends before the second one starts. -/
theorem stop_lt_start {runs c c' : List Range} (hsep : Separated (c ++ runs)) (hc : c ≠ [])
    (hsub : c'.Sublist runs) (hne : c' ≠ []) :
    (c.getLast?.map Run.stop).getD 0 < (c'.head?.map Run.start).getD 0 := by
  obtain ⟨first, rest, rfl⟩ := List.exists_cons_of_ne_nil hne
  rw [List.getLast?_eq_some_getLast hc]
  exact (List.pairwise_append.mp hsep.apart).2.2 (c.getLast hc) (List.getLast_mem hc) first
    (hsub.subset List.mem_cons_self)

/-- The runs in several reports: the first scope ends before the second one starts. -/
theorem freshReports_of_lt
    (hlt : max config.maxClaimsPerReport 1 < (s.redReceived.runsWithin ⟨0, upper⟩).length) :
    ∃ r r' rest, freshReports config s cpSerial upper = r :: r' :: rest ∧
      r.upperBound < r'.lowerBound := by
  have hsep := separated_runsWithin s.redReceived upper
  have hempty : (s.redReceived.runsWithin ⟨0, upper⟩).isEmpty = false := by
    rw [List.isEmpty_eq_false_iff]
    exact List.ne_nil_of_length_pos (by omega)
  have hpos : 0 < max config.maxClaimsPerReport 1 := by omega
  have hchunks : s.reportChunks config upper =
      chunks (max config.maxClaimsPerReport 1) (s.redReceived.runsWithin ⟨0, upper⟩) := by
    unfold RecvSession.reportChunks
    simp only [hempty, Bool.false_eq_true, if_false]
  rw [freshReports, hchunks]
  clear hchunks hempty
  generalize s.redReceived.runsWithin ⟨0, upper⟩ = runs at hlt hsep
  generalize max config.maxClaimsPerReport 1 = n at hlt hpos
  obtain ⟨rest, hchunks, hne⟩ := chunks_of_lt hpos hlt
  have hfirst : runs.take n ≠ [] := by
    apply List.ne_nil_of_length_pos
    rw [List.length_take]
    omega
  rw [← List.take_append_drop n runs] at hsep
  have hgap := stop_lt_start hsep hfirst (List.take_sublist n (runs.drop n)) hne
  rw [hchunks]
  refine ⟨_, _, _, rfl, ?_⟩
  simpa [chunkReport] using hgap

/-- The scopes tile the bound exactly if the runs take one report. -/
theorem tiles_freshReports_iff (hpos : 0 < upper) :
    Tiles 0 upper ((freshReports config s cpSerial upper).map ReportSegment.scope) ↔
      (s.redReceived.runsWithin ⟨0, upper⟩).length ≤ max config.maxClaimsPerReport 1 := by
  rcases Nat.lt_or_ge (max config.maxClaimsPerReport 1)
    (s.redReceived.runsWithin ⟨0, upper⟩).length with hlt | hle
  · obtain ⟨r, r', rest, heq, hgap⟩ : ∃ r r' rest, freshReports config s cpSerial upper =
        r :: r' :: rest ∧ r.upperBound < r'.lowerBound := freshReports_of_lt hlt
    rw [heq]
    refine iff_of_false (fun htiles => ?_) (not_le.mpr hlt)
    have hnext : r'.scope.start = r.scope.stop := htiles.2.2.1
    simp only [ReportSegment.scope] at hnext
    omega
  · obtain ⟨r, heq, hscope⟩ : ∃ r, freshReports config s cpSerial upper = [r] ∧ r.scope = ⟨0, upper⟩ :=
      freshReports_of_le hle
    rw [heq, List.map_singleton, hscope]
    exact iff_of_true ⟨rfl, hpos, rfl⟩ hle

end Engine

/-! ### The sender -/

/-- Handles reports one after another. -/
def Engine.handleReports (source : EngineId) (sid : SessionId) (e : Engine)
    (reports : List (ReportSegment × Nat)) : Engine :=
  reports.foldl (fun e r => e.handleIncomingReport source sid r.1 r.2) e

/-- Octet `x` of the session's block is in one of the data segments put out. -/
def SendSession.Sends (s : SendSession) (dest : EngineId) (sid : SessionId)
    (out : List (EngineId × Bytes)) (x : Nat) : Prop :=
  ∃ ds : DataSegment, Push.wire sid (dest, .data ds) ∈ out ∧ ds.offset ≤ x ∧
    x < ds.offset + ds.data.length ∧ ds.data = s.slice ds.offset (ds.offset + ds.data.length)

/-- Whatever has happened to a sender, and in whatever order the reports reach it: an open session that
has not seen them and that has claims on received octets only sends again every red octet below `upper`
that was not received. -/
def RetransmitsLacking (sid : SessionId) (received : RangeSet) (upper : Nat)
    (reports : List ReportSegment) : Prop :=
  ∀ (config : EngineConfig) (calls : List Call) (s : SendSession) (source : EngineId)
    (handled : List (ReportSegment × Nat)),
    ((Host.new config).run calls).engine.sendSessions[sid]? = some s → s.cancelReason = none →
    (∀ r ∈ reports, r.reportSerial.val ∉ s.reportSerialsSeen) →
    (∀ x ∈ s.claimsReceived, x ∈ received) → (handled.map Prod.fst).Perm reports →
    ∃ out, (((Host.new config).run calls).engine.handleReports source sid handled).outbound =
        ((Host.new config).run calls).engine.outbound ++ out ∧
      ∀ x < upper, x < s.redLen → x ∉ received → s.Sends source sid out x

/-- The claims of a session after a report on received octets. -/
theorem SendSession.claim_received {s : SendSession} {rs : ReportSegment} {received : RangeSet}
    {now maxClaims upper : Nat} (hred : s.redLen < 2 ^ 64)
    (hreports : rs.Reports received maxClaims upper) (hs : ∀ x ∈ s.claimsReceived, x ∈ received) :
    ∀ x ∈ (s.claim rs now).claimsReceived, x ∈ received := by
  intro x hx
  rcases Engine.mem_recordClaims hred hx with hold | hclaims
  · exact hs x hold
  · exact hreports.claims_received hclaims

/-- A report on the whole scope is answered with all that was not received. -/
theorem retransmitsLacking_singleton {sid : SessionId} {received : RangeSet} {upper maxClaims : Nat}
    {r : ReportSegment} (hreports : r.Reports received maxClaims upper)
    (hscope : r.scope = ⟨0, upper⟩) : RetransmitsLacking sid received upper [r] := by
  intro config calls s source handled hs hopen hfresh hclaims hperm
  obtain ⟨⟨r', now⟩, rfl⟩ : ∃ x, handled = [x] := by
    apply List.length_eq_one_iff.mp
    rw [← List.length_map, hperm.length_eq, List.length_singleton]
  obtain rfl : r' = r := by simpa using hperm
  have hqueued := Host.queued_run config calls
  have hsound := (hqueued.owned.send sid s hs).2
  obtain ⟨segs, hout, hanswer⟩ := Engine.handleIncomingReport_reanswers hs hsound
    (hqueued.sent sid s hs) hopen (hfresh r' List.mem_cons_self) source now
  refine ⟨_, hout, fun x hx hred hlacks => ?_⟩
  have hlower : r'.lowerBound = 0 := congrArg Run.start hscope
  have hupper : r'.upperBound = upper := congrArg Run.stop hscope
  have hbound : s.redLen < 2 ^ 64 :=
    hsound.red_le.trans_lt (hsound.block_le.trans_lt (UInt64.toNat_lt _))
  have hlacking : x ∈ (s.claim r' now).lacking r' := by
    refine ⟨by omega, by omega, hred, fun hclaimed => ?_⟩
    exact hlacks (SendSession.claim_received hbound hreports hclaims x hclaimed)
  have hretransmits := hanswer.gaps ⟨x, hlacking⟩
  obtain ⟨ds, hds, hle, hlt⟩ := (hretransmits.covers x).mpr hlacking
  refine ⟨ds, ?_, hle, hlt, hretransmits.payload ds hds⟩
  exact List.mem_cons_of_mem _ (List.mem_map_of_mem hds)

/-! ### Every fresh checkpoint -/

/-- The reports on a checkpoint that ends at `upper` leave no hole: their scopes tile the octets before
it, and a sender that handles them sends again all that `received` lacks of these. -/
structure LeavesNoHole (sid : SessionId) (received : RangeSet) (upper : Nat)
    (reports : List ReportSegment) : Prop where
  tiles : Tiles 0 upper (reports.map ReportSegment.scope)
  retransmits : RetransmitsLacking sid received upper reports

/-- What the session of a data segment will have received once it stores the segment. -/
def Engine.receiving (e : Engine) (source : EngineId) (sid : SessionId) (ds : DataSegment)
    (now : Nat) : RangeSet :=
  (e.found source sid ds now).redReceived.insert ds.span

theorem Engine.redReceived_answering {e : Engine} {source : EngineId} {sid : SessionId}
    {ds : DataSegment} {now : Nat} {s : RecvSession} {cpSerial : UInt64}
    (h : e.answering source sid ds now = some (s, cpSerial)) :
    s.redReceived = e.receiving source sid ds now := by
  obtain ⟨⟨t, htakes⟩, -, -⟩ := answering_eq_some.mp h
  obtain ⟨s₁, hinsert, rfl⟩ := htakes.inserted
  have hfound := (handleIncomingData_admitted htakes.admitted).2.1
  have hmark : (s₁.markEnds ds).redReceived = s₁.redReceived := by
    simp only [RecvSession.markEnds]
    split <;> split <;> rfl
  have hmem : ∀ x, Covers s₁.redReceived.runs x ↔ Covers (e.receiving source sid ds now).runs x := by
    intro x
    have hstored := RecvSession.insertRed_received hinsert x
    rw [receiving, ← hfound]
    show x ∈ s₁.redReceived ↔ x ∈ t.redReceived.insert ds.span
    rw [hstored, RangeSet.mem_insert]
    rfl
  have hruns := s₁.redReceived.separated.eq_of_covers_iff (e.receiving source sid ds now).separated hmem
  rw [hmark]
  generalize s₁.redReceived = a, e.receiving source sid ds now = b at hruns
  cases a
  cases b
  cases hruns
  rfl

/-- Whatever a session has received and however many claims a report may carry: the reports on a fresh
checkpoint leave no hole exactly if one report can claim all runs that were received before the end of
the checkpoint. -/
theorem scopes_leave_no_hole_iff {e : Engine} {source : EngineId} {sid : SessionId}
    {ds : DataSegment} {now : Nat} {cp : Checkpoint} {s' : RecvSession} (hpos : 0 < ds.segEnd)
    (hcp : ds.kind.checkpoint = some cp)
    (hfresh : (e.found source sid ds now).cpSerialsAnswered[cp.serial.val]? = none)
    (hs' : (e.handleIncomingData source sid ds now).recvSessions[sid]? = some s')
    (hopen : s'.cancelReason = none) (hanswered : s'.cpSerialsAnswered[cp.serial.val]? ≠ none) :
    ∃ reports,
      (e.handleIncomingData source sid ds now).outbound =
        e.outbound ++ reports.map (fun r => Push.wire sid (source, .report r)) ∧
      (LeavesNoHole sid s'.redReceived ds.segEnd reports ↔
        ((e.receiving source sid ds now).runsWithin ⟨0, ds.segEnd⟩).length ≤
          max e.config.maxClaimsPerReport 1) := by
  obtain ⟨s, hanswering, -⟩ := Engine.exists_answering hcp hfresh hs' hanswered
  obtain ⟨hout, hreceived, -⟩ := Engine.handleIncomingData_reports hanswering hs' hopen
  refine ⟨_, hout, ?_⟩
  rw [hreceived, ← Engine.redReceived_answering hanswering]
  constructor
  · intro hwhole
    exact (Engine.tiles_freshReports_iff hpos).mp hwhole.tiles
  · intro hle
    refine ⟨(Engine.tiles_freshReports_iff hpos).mpr hle, ?_⟩
    obtain ⟨r, heq, hscope⟩ : ∃ r, Engine.freshReports e.config s cp.serial.val ds.segEnd = [r] ∧
        r.scope = ⟨0, ds.segEnd⟩ := Engine.freshReports_of_le hle
    have hreports : r ∈ Engine.freshReports e.config s cp.serial.val ds.segEnd := by
      rw [heq]
      exact List.mem_cons_self
    rw [heq]
    exact retransmitsLacking_singleton (Engine.reports_of_mem_freshReports hreports).1 hscope

/-- Four runs in one report of at most twenty claims. -/
theorem scopes_leave_no_hole_iff_four_runs :
    ∃ reports,
      (((Host.new .default).run threeRuns).engine.handleIncomingData ⟨2⟩ ⟨⟨2⟩, 1⟩ sixthOctet 1
        ).outbound = ((Host.new .default).run threeRuns).engine.outbound ++
          reports.map (fun r => Push.wire ⟨⟨2⟩, 1⟩ (⟨2⟩, .report r)) ∧
      (LeavesNoHole ⟨⟨2⟩, 1⟩
        ((((Host.new .default).run threeRuns).engine.handleIncomingData ⟨2⟩ ⟨⟨2⟩, 1⟩ sixthOctet 1
          ).recvSessions[(⟨⟨2⟩, 1⟩ : SessionId)]?.get (by decide +kernel)).redReceived
        sixthOctet.segEnd reports ↔
        ((((Host.new .default).run threeRuns).engine.receiving ⟨2⟩ ⟨⟨2⟩, 1⟩ sixthOctet 1).runsWithin
          ⟨0, sixthOctet.segEnd⟩).length ≤ 20) :=
  scopes_leave_no_hole_iff (by decide +kernel)
    (rfl : sixthOctet.kind.checkpoint = some ⟨.one, 0⟩) (by decide +kernel) (Option.some_get _).symm
    (by decide +kernel) (by decide +kernel)

/-- Four runs in two reports of two claims each: octet 3 is in the scope of neither. -/
theorem scopes_leave_hole :
    ∃ reports,
      (((Host.new twoClaims).run threeRuns).engine.handleIncomingData ⟨2⟩ ⟨⟨2⟩, 1⟩ sixthOctet 1
        ).outbound = ((Host.new twoClaims).run threeRuns).engine.outbound ++
          reports.map (fun r => Push.wire ⟨⟨2⟩, 1⟩ (⟨2⟩, .report r)) ∧
      ∀ received, ¬LeavesNoHole ⟨⟨2⟩, 1⟩ received sixthOctet.segEnd reports := by
  refine ⟨[⟨.one, 1, 3, 0, [⟨0, 1⟩, ⟨2, 1⟩]⟩, ⟨nextNonzeroSerial 1, 1, 7, 4, [⟨0, 1⟩, ⟨2, 1⟩]⟩],
    by decide +kernel, fun received hwhole => ?_⟩
  have hnext : 4 = 3 := hwhole.tiles.2.2.1
  omega

end HdyUtils.Ltp
