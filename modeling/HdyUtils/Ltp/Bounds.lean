import HdyUtils.Ltp.HostMove

/-! The memory of a receiver under attack: however segments arrive, the tables, the buffers and the
caches of the engine stay within their limits. -/

namespace HdyUtils.Ltp

open Trace

/-- A receive session within the limits of the configuration. -/
structure RecvSession.Bounded (config : EngineConfig) (s : RecvSession) : Prop where
  reports : s.reports.size ≤ config.maxReportsPerSession
  data : s.Fits config.maxBlockSize.toNat
  claims : ∀ (serial : UInt64) (rec : ReportRecord), s.reports[serial]? = some rec →
    rec.report.claims.length ≤ max config.maxClaimsPerReport 1

/-! ### Moves -/

section Moves

variable {config : EngineConfig} {sid : SessionId} {source : EngineId} {ds : DataSegment}
  {now : Nat} {s s' : RecvSession} {reports : List ReportSegment}

namespace RecvSession.Bounded

theorem new (id : SessionId) (peer : EngineId) (clientService initialRsSerial : UInt64) :
    (RecvSession.new id peer clientService initialRsSerial now).Bounded config where
  reports := Nat.zero_le _
  data := ⟨Nat.zero_le _, by simp [RecvSession.new], Nat.le_refl _, Nat.zero_le _⟩
  claims := by simp [RecvSession.new]

/-- A change of neither the reports nor the received data. -/
theorem congr (h : s.Bounded config) (hreports : s'.reports = s.reports)
    (hbuf : s'.redBuf = s.redBuf) (hsparse : s'.sparseRed = s.sparseRed)
    (htotal : s'.totalReceivedBytes = s.totalReceivedBytes) : s'.Bounded config where
  reports := by
    rw [hreports]
    exact h.reports
  data := h.data.congr (by rw [hbuf]) hsparse htotal
  claims := by
    rw [hreports]
    exact h.claims

theorem insertRed (h : s.Bounded config) (offset : Nat) {data : Bytes}
    (hcounts : s.Counts config.maxBlockSize.toNat data) :
    (s.insertRed offset data config.maxBlockSize.toNat).1.Bounded config := by
  have hreports := (s.insertRed_upToData offset data config.maxBlockSize.toNat).reports_eq
  exact ⟨by rw [hreports]; exact h.reports, h.data.insertRed offset hcounts,
    by rw [hreports]; exact h.claims⟩

theorem markEnds (h : s.Bounded config) (ds : DataSegment) : (s.markEnds ds).Bounded config := by
  simp only [RecvSession.markEnds]
  split <;> split <;> exact h.congr rfl rfl rfl rfl

/-- A record is replaced by one on the same report. -/
theorem putReport (h : s.Bounded config) {serial : UInt64} {rec rec' : ReportRecord}
    (hrec : s.reports[serial]? = some rec) (hreport : rec'.report = rec.report)
    (hreports : s'.reports = s.reports.insert serial rec')
    (hdata : s'.Fits config.maxBlockSize.toNat) : s'.Bounded config := by
  have hcontains : s.reports.contains serial = true := by
    rw [Std.TreeMap.contains_eq_isSome_getElem?, hrec]
    rfl
  refine ⟨?_, hdata, ?_⟩
  · rw [hreports, Std.TreeMap.size_insert, if_pos hcontains]
    exact h.reports
  · intro k r hr
    rw [hreports, Maps.getElem?_insert] at hr
    split at hr
    · cases hr
      rw [hreport]
      exact h.claims serial rec hrec
    · exact h.claims k r hr

theorem ackReport (h : s.Bounded config) (serial : UInt64) :
    (s.ackReport serial).Bounded config := by
  unfold RecvSession.ackReport
  split
  · next rec hrec =>
    have hreport : ({ rec with acked := true } : ReportRecord).report = rec.report := rfl
    exact h.putReport hrec hreport rfl (h.data.congr le_rfl rfl rfl)
  · exact h

theorem delivered (h : s.Bounded config) : s.delivered.Bounded config := by
  unfold RecvSession.delivered
  split
  · exact ⟨h.reports, h.data.congr (Nat.zero_le _) rfl rfl, h.claims⟩
  · exact h

end RecvSession.Bounded

theorem claims_of_reports {r : ReportSegment} {received : RangeSet} {maxClaims upper : Nat}
    (h : r.Reports received maxClaims upper) : r.claims.length ≤ max maxClaims 1 := by
  obtain ⟨pre, chunk, post, -, -, hlen, -, -, hclaims⟩ := h.stretch
  rw [hclaims, List.length_map]
  exact hlen

theorem Stores.bounded (h : Stores config ds s s' reports)
    (hcounts : s.Counts config.maxBlockSize.toNat ds.data) (hs : s.Bounded config) :
    s'.Bounded config := by
  obtain ⟨s₁, hinsert, hupTo, hreports, hstored⟩ := h.stored
  have h₁ := hs.insertRed ds.offset hcounts
  rw [hinsert] at h₁
  have hmarked := h₁.markEnds ds
  obtain ⟨_, _, _, rfl⟩ := hupTo
  refine ⟨h.room.trans (max_le hs.reports le_rfl), hmarked.data.congr le_rfl rfl rfl, ?_⟩
  intro serial rec hrec
  rcases hstored serial rec hrec with hold | hnew
  · exact h₁.claims serial rec hold
  · rcases hreports rec.report hnew with ⟨k, r, hr, heq⟩ | hfresh
    · rw [← heq]
      exact hmarked.claims k r hr
    · exact claims_of_reports hfresh

/-- The counter of sparse octets does not overflow in the session to which data is admitted. -/
def RecvTrigger.Counts (config : EngineConfig) (sid : SessionId) (v : RecvView) :
    RecvTrigger → Prop
  | .data source ds now => ds.kind.isRed = true → ∀ s, Admits sid source ds now v s →
    s.Counts config.maxBlockSize.toNat ds.data
  | _ => True

theorem Spoils.bounded (h : Spoils config ds s s' reports)
    (hcounts : ds.kind.isRed = true → s.Counts config.maxBlockSize.toNat ds.data)
    (hs : s.Bounded config) : s'.Bounded config := by
  cases h with
  | untouched => exact hs
  | green => exact hs.congr rfl rfl rfl rfl
  | stored hstores => exact hstores.bounded (hcounts hstores.red) hs

/-- Data is admitted to a session within its limits. -/
theorem Admits.bounded {v : RecvView} (h : Admits sid source ds now v s)
    (hv : ∀ s, v.session = some s → s.Bounded config) : (s.touched now).Bounded config := by
  obtain ⟨-, -, ⟨hs, -⟩ | ⟨-, rfl⟩⟩ := h
  · exact (hv s hs).congr rfl rfl rfl rfl
  · exact (RecvSession.Bounded.new sid source ds.clientService 0).congr rfl rfl rfl rfl

theorem RecvMove.bounded {trigger : RecvTrigger} {v v' : RecvView} {p : List Push}
    {n : List Notice} (h : RecvMove config sid trigger v p n v')
    (hcounts : trigger.Counts config sid v) (hv : ∀ s, v.session = some s → s.Bounded config) :
    ∀ s, v'.session = some s → s.Bounded config := by
  intro t ht
  cases h with
  | dataIgnored | dataReported | ackIgnored | expiredIdle | inactivityRearmed => exact hv t ht
  | @dataCancelled source ds now v s s' reports reason armed hadmits hspoils =>
    cases ht
    have hs' := hspoils.bounded (fun hred => hcounts hred s hadmits) (hadmits.bounded hv)
    exact hs'.congr rfl rfl rfl rfl
  | @dataRefused source ds now v s s' armed hadmits hred hrefused =>
    cases ht
    have hs' := (hadmits.bounded hv).insertRed ds.offset (hcounts hred s hadmits)
    rwa [hrefused] at hs'
  | @dataStored source ds now v s s' reports armed hadmits hstores =>
    cases ht
    have hs := hadmits.bounded hv
    exact (hstores.bounded (hcounts hstores.red s hadmits) hs).delivered
  | @dataGreen source ds now v s armed hadmits =>
    cases ht
    have hgreen : ((s.touched now).markGreen ds).Bounded config :=
      (hadmits.bounded hv).congr rfl rfl rfl rfl
    exact hgreen.delivered
  | @ackKept serial now s =>
    cases ht
    have htouched : (s.touched now).Bounded config := (hv s rfl).congr rfl rfl rfl rfl
    exact htouched.ackReport serial
  | @reportResent serial now s rec armed closed cancelled hrec =>
    cases ht
    have hs := hv s rfl
    have hreport : ({ rec with retries := rec.retries + 1 } : ReportRecord).report = rec.report :=
      rfl
    exact hs.putReport hrec hreport rfl (hs.data.congr le_rfl rfl rfl)
  | @reportExhausted serial now s =>
    cases ht
    exact (hv s rfl).congr rfl rfl rfl rfl
  | @cancelResent now s =>
    cases ht
    exact (hv s rfl).congr rfl rfl rfl rfl
  | ackClosed | cancelAbandoned | inactivityExpired | peerCancelled | peerCancelledAgain
  | cancelAcked => cases ht

end Moves

/-! ### The engine -/

namespace Engine

/-- The receiving half of an engine within the limits of its configuration. -/
structure Bounded (e : Engine) : Prop where
  sessions : e.recvSessions.size ≤ e.config.maxRecvSessions
  recv : ∀ (sid : SessionId) (s : RecvSession), e.recvSessions[sid]? = some s →
    s.Bounded e.config

/-- The session that the data of `ds` goes to, if it is admitted. -/
def dataSession (e : Engine) (sid : SessionId) (ds : DataSegment) : RecvSession :=
  e.recvSessions[sid]?.getD (.new sid sid.originator ds.clientService 0 0)

end Engine

namespace Host

/-- The call does not overflow a counter of sparse octets. -/
def counts (h : Host) (c : Call) : Bool :=
  match received c with
  | some ⟨session, _, _, .data ds⟩ => !ds.kind.isRed ||
    decide ((h.engine.dataSession session ds).Counts h.engine.config.maxBlockSize.toNat ds.data)
  | _ => true

/-- The call of a data segment is a call of `handleIncomingData`. -/
theorem engine_of_data {h h' : Host} {c : Call} {sid : SessionId} {source : EngineId}
    {ds : DataSegment} {now : Nat} (hcause : h.RecvCause c sid h' (.data source ds now))
    (hforeign : sid.originator ≠ h.engine.config.engineId) :
    (h.step c).engine = h.engine.handleIncomingData source sid ds now := by
  obtain ⟨hidle, -, ⟨session, header, trailer, body⟩, now', ⟨src, bytes, rfl, hparse⟩, rfl,
    htrigger⟩ := hcause
  cases body <;> cases htrigger
  rw [step_idle hidle]
  simp [call, receive, Engine.handleIncomingSegment, hparse, Engine.handleSegment,
    Engine.effectiveFrom, hforeign]

/-- The data segment of another engine's session that a call has the engine handle, and when. -/
def handed (h : Host) (c : Call) : Option (SessionId × DataSegment × Nat) :=
  match c, received c with
  | .segment _ _ now, some ⟨sid, _, _, .data ds⟩ =>
    if h.pending = [] ∧ sid.originator ≠ h.engine.config.engineId then some (sid, ds, now) else none
  | _, _ => none

theorem handed_eq_some {h : Host} {c : Call} {sid : SessionId} {ds : DataSegment} {now : Nat}
    (hhanded : h.handed c = some (sid, ds, now)) :
    sid.originator ≠ h.engine.config.engineId ∧
      h.step c =
        { h with engine := h.engine.handleIncomingData sid.originator sid ds now } := by
  unfold handed at hhanded
  split at hhanded
  · rename_i source bytes now' session header trailer data hreceived
    split at hhanded
    · rename_i hguard
      obtain ⟨hidle, hforeign⟩ := hguard
      cases hhanded
      refine ⟨hforeign, ?_⟩
      simp only [received] at hreceived
      split at hreceived
      · rename_i segment consumed hparse
        split at hreceived
        · rename_i hwhole
          cases hreceived
          rw [step_idle hidle]
          simp [call, receive, Engine.handleIncomingSegment, hparse, hwhole, Engine.handleSegment,
            Engine.effectiveFrom, hforeign]
        · cases hreceived
      · cases hreceived
    · cases hhanded
  · cases hhanded

theorem handed_of_cause {h h' : Host} {c : Call} {sid : SessionId} {source : EngineId}
    {ds : DataSegment} {now : Nat} (hcause : h.RecvCause c sid h' (.data source ds now))
    (hforeign : sid.originator ≠ h.engine.config.engineId) :
    h.handed c = some (sid, ds, now) := by
  obtain ⟨hidle, -, ⟨session, header, trailer, body⟩, now', hreceives, rfl, htrigger⟩ := hcause
  cases body <;> cases htrigger
  have hreceived := hreceives.received_eq
  obtain ⟨src, bytes, rfl, -⟩ := hreceives
  simp [handed, hreceived, hidle, hforeign]

end Host

/-- The default configuration with the greatest limit on the size of a block. -/
def unlimited : EngineConfig := { EngineConfig.default with maxBlockSize := 0xFFFFFFFFFFFFFFFF }

/-- Red data of session 1 of engine 2 that ends nothing. -/
def redData (offset : Nat) (data : Bytes) : DataSegment := ⟨1, offset, .red, data⟩

def redSegment (offset : Nat) (data : Bytes) : Bytes :=
  (Segment.plain ⟨⟨2⟩, 1⟩ (.data (redData offset data))).encodeToVec

/-- A session without contiguous data, whose sparse data ends at `stop` and is counted as `total`
octets. -/
structure RecvSession.Sparse (stop total : Nat) (s : RecvSession) : Prop where
  opened : s.cancelReason = none
  redEnd : s.redPartLen = none
  green : s.minGreenOffset = none
  buffered : s.redBuf = []
  received : ∀ x, x ∈ s.redReceived → x < stop
  total : s.totalReceivedBytes = total

theorem RecvSession.Sparse.insertRed {s : RecvSession} {stop total offset : Nat} {data : Bytes}
    (h : s.Sparse stop total) (hoffset : 0 < offset) (hstop : stop < offset + data.length)
    (hdata : data ≠ []) (hend : offset + data.length ≤ u64Max) :
    ∃ s', s.insertRed offset data u64Max = (s', true) ∧
      s'.Sparse (offset + data.length) ((total + data.length) % 2 ^ 64) ∧
      s'.sparseRed[offset]? = some data := by
  have hlength : 0 < data.length := List.length_pos_of_ne_nil hdata
  have hfresh : s.redReceived.covers ⟨offset, offset + data.length⟩ = false := by
    rw [RangeSet.not_covers_iff]
    refine ⟨offset + data.length - 1, by simp only; omega, by simp only; omega, fun hmem => ?_⟩
    have hlt := h.received _ hmem
    omega
  have hgap : ¬offset ≤ ([] : Bytes).length := by simp only [List.length_nil]; omega
  have hquota : ¬u64Max < satAdd s.totalReceivedBytes data.length := by simp only [satAdd]; omega
  unfold RecvSession.insertRed
  simp only [not_lt.mpr hend, if_false, hfresh, h.buffered, hgap, hquota, Bool.false_eq_true]
  refine ⟨_, rfl, ⟨h.opened, h.redEnd, h.green, rfl, ?_, ?_⟩, by simp⟩
  · intro x hx
    rcases RangeSet.mem_insert.mp hx with hold | ⟨-, hnew⟩
    · have hlt := h.received x hold
      omega
    · exact hnew
  · rw [h.total]

/-- A host that has received nothing, or sparse data of session 1 of engine 2. -/
structure Host.Gathers (stop total : Nat) (h : Host) : Prop where
  idle : h.pending = []
  config : h.engine.config = unlimited
  closed : ⟨⟨2⟩, 1⟩ ∉ h.engine.closedRecvSessions
  cancelled : ⟨⟨2⟩, 1⟩ ∉ h.engine.cancelledSessions
  session : (∃ s, h.engine.recvSessions[(⟨⟨2⟩, 1⟩ : SessionId)]? = some s ∧ s.Sparse stop total) ∨
    h.engine.recvSessions = ∅ ∧ stop = 0 ∧ total = 0

/-- Accepting the data stores a session that holds it. -/
theorem acceptData_sparse {e : Engine} {s : RecvSession} {stop total offset : Nat} {data : Bytes}
    (hconfig : e.config = unlimited) (hs : s.Sparse stop total) (hoffset : 0 < offset)
    (hstop : stop < offset + data.length) (hdata : data ≠ []) (hend : offset + data.length ≤ u64Max) :
    ∃ s', e.acceptData ⟨2⟩ ⟨⟨2⟩, 1⟩ s (redData offset data) 0 =
        (e.touchInactivity ⟨⟨2⟩, 1⟩ false 0).putRecv ⟨⟨2⟩, 1⟩ s' ∧
      s'.Sparse (offset + data.length) ((total + data.length) % 2 ^ 64) ∧
      s'.sparseRed[offset]? = some data := by
  have htouched : (s.touched 0).Sparse stop total := { hs with }
  obtain ⟨s', hinsert, hsparse, hentry⟩ := htouched.insertRed hoffset hstop hdata hend
  have hfits : (s.touched 0).redMiscolored (redData offset data) = false := by
    simp [RecvSession.redMiscolored, htouched.redEnd, htouched.green, redData,
      DataSegKind.isEorp]
  have hcomplete : s'.isRedComplete = false := by
    simp [RecvSession.isRedComplete, hsparse.redEnd]
  have hlimit : unlimited.maxBlockSize.toNat = u64Max := by decide
  refine ⟨s', ?_, hsparse, hentry⟩
  have haccept : (e.touchInactivity ⟨⟨2⟩, 1⟩ false 0).acceptRed ⟨2⟩ ⟨⟨2⟩, 1⟩ (s.touched 0)
      (redData offset data) 0 = (e.touchInactivity ⟨⟨2⟩, 1⟩ false 0).putRecv ⟨⟨2⟩, 1⟩ s' := by
    unfold Engine.acceptRed
    rw [hfits, Engine.touchInactivity_config, hconfig, hlimit]
    have hinsert' : (s.touched 0).insertRed (redData offset data).offset (redData offset data).data
        u64Max = (s', true) := hinsert
    simp only [hinsert', Bool.false_eq_true, if_false, Bool.not_true]
    simp [redData, DataSegKind.checkpoint, RecvSession.markEnds, DataSegKind.isEorp,
      DataSegKind.isEob, Engine.deliverRed, hcomplete]
  have hallows : unlimited.allows 1 = true := rfl
  simpa [Engine.acceptData, hconfig, redData, hallows, DataSegKind.isRed, RecvSession.touched]
    using haccept

theorem Host.Gathers.receive {h : Host} {stop total offset : Nat} {data : Bytes}
    (hgathers : h.Gathers stop total) (hoffset : 0 < offset) (hstop : stop < offset + data.length)
    (hdata : data ≠ []) (hend : offset + data.length ≤ u64Max) :
    (h.step (.segment ⟨2⟩ (redSegment offset data) 0)).Gathers (offset + data.length)
        ((total + data.length) % 2 ^ 64) ∧
      ∃ s, (h.step (.segment ⟨2⟩ (redSegment offset data) 0)).engine.recvSessions[
        (⟨⟨2⟩, 1⟩ : SessionId)]? = some s ∧ s.sparseRed[offset]? = some data := by
  have hbody : (SegmentBody.data (redData offset data)).Bounded := by
    simp only [SegmentBody.Bounded, redData, u64Max] at hend ⊢
    omega
  have hparse : Segment.parse (redSegment offset data) =
      .ok (.plain ⟨⟨2⟩, 1⟩ (.data (redData offset data)), (redSegment offset data).length) :=
    parse_encodeToVec (Segment.bounded_plain hbody) trivial
  have hdispatch : h.step (.segment ⟨2⟩ (redSegment offset data) 0) =
      { h with engine := h.engine.handleIncomingData ⟨2⟩ ⟨⟨2⟩, 1⟩ (redData offset data) 0 } := by
    have hforeign : (⟨1⟩ : EngineId) ≠ ⟨2⟩ := by decide
    rw [step_idle hgathers.idle]
    simp [call, Host.receive, Engine.handleIncomingSegment, hparse, Engine.handleSegment,
      Segment.plain, Engine.effectiveFrom, hgathers.config, unlimited, EngineConfig.default,
      Ne.symm hforeign]
  have hclosed : h.engine.closedRecvSessions.contains ⟨⟨2⟩, 1⟩ = false := by
    simpa [← RecentSet.contains_iff] using hgathers.closed
  have hcancelled : h.engine.cancelledSessions.contains ⟨⟨2⟩, 1⟩ = false := by
    simpa [← RecentSet.contains_iff] using hgathers.cancelled
  have haccepts : ∃ s : RecvSession, s.Sparse stop total ∧
      h.engine.handleIncomingData ⟨2⟩ ⟨⟨2⟩, 1⟩ (redData offset data) 0 =
        h.engine.acceptData ⟨2⟩ ⟨⟨2⟩, 1⟩ s (redData offset data) 0 := by
    unfold Engine.handleIncomingData
    simp only [hclosed, hcancelled, Bool.false_eq_true, if_false]
    rcases hgathers.session with ⟨s, hs, hsparse⟩ | ⟨hnone, rfl, rfl⟩
    · refine ⟨s, hsparse, ?_⟩
      simp [hs, hsparse.opened]
    · refine ⟨.new ⟨⟨2⟩, 1⟩ ⟨2⟩ 1 0 0, ⟨rfl, rfl, rfl, rfl, ?_, rfl⟩, ?_⟩
      · exact fun x hx => absurd hx (RangeSet.not_mem_new x)
      · rw [hnone, hgathers.config]
        rfl
  obtain ⟨s, hsparse, heq⟩ := haccepts
  obtain ⟨s', heq', hsparse', hentry⟩ :=
    acceptData_sparse hgathers.config hsparse hoffset hstop hdata hend
  rw [hdispatch, heq, heq']
  refine ⟨⟨hgathers.idle, ?_, ?_, ?_, .inl ⟨s', by simp, hsparse'⟩⟩, s', by simp, hentry⟩
  · simpa using hgathers.config
  · simpa using hgathers.closed
  · simpa using hgathers.cancelled

end HdyUtils.Ltp
