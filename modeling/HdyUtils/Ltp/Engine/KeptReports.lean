import HdyUtils.Ltp.Engine.RecvMove

/-! What holds of every report of a session.  A property of the reports that a session issues and of
those on closed sessions is one of all reports that it keeps and sends again. -/

namespace HdyUtils.Ltp

namespace RecvSession

/-- The reports that the session keeps have the property. -/
def Keeps (P : ReportSegment → Prop) (s : RecvSession) : Prop :=
  ∀ (serial : UInt64) (rec : ReportRecord), s.reports[serial]? = some rec → P rec.report

namespace Keeps

variable {P : ReportSegment → Prop} {s s' : RecvSession}

theorem new (id : SessionId) (peer : EngineId) (clientService initialRsSerial : UInt64)
    (now : Nat) : (RecvSession.new id peer clientService initialRsSerial now).Keeps P := by
  simp [Keeps, RecvSession.new]

theorem congr (h : s.Keeps P) (hreports : s'.reports = s.reports) : s'.Keeps P := by
  rw [Keeps, hreports]
  exact h

/-- A record is replaced by one on the same report. -/
theorem putReport (h : s.Keeps P) {serial : UInt64} {rec rec' : ReportRecord}
    (hrec : s.reports[serial]? = some rec) (hreport : rec'.report = rec.report)
    (hreports : s'.reports = s.reports.insert serial rec') : s'.Keeps P := by
  intro k r hr
  rw [hreports, Maps.getElem?_insert] at hr
  split at hr
  · cases hr
    rw [hreport]
    exact h serial rec hrec
  · exact h k r hr

theorem ackReport (h : s.Keeps P) (serial : UInt64) : (s.ackReport serial).Keeps P := by
  unfold RecvSession.ackReport
  split
  · next rec hrec =>
    have hreport : ({ rec with acked := true } : ReportRecord).report = rec.report := rfl
    exact h.putReport hrec hreport rfl
  · exact h

theorem delivered (h : s.Keeps P) : s.delivered.Keeps P := by
  refine h.congr ?_
  unfold RecvSession.delivered
  split <;> rfl

end Keeps

end RecvSession

section Moves

variable {config : EngineConfig} {sid : SessionId} {P : ReportSegment → Prop}

/-- A report on a stored segment is one that the session has kept, or a new one on what it has
received. -/
theorem Stores.mem_reports {ds : DataSegment} {s s' : RecvSession} {reports : List ReportSegment}
    (h : Stores config ds s s' reports) {r : ReportSegment} (hr : r ∈ reports) :
    (∃ (serial : UInt64) (rec : ReportRecord), s.reports[serial]? = some rec ∧ rec.report = r) ∨
      r.Reports s'.redReceived config.maxClaimsPerReport ds.segEnd := by
  obtain ⟨s₁, hinsert, hupTo, hreports, -⟩ := h.stored
  rcases hreports r hr with hkept | hnew
  · rw [Engine.markEnds_reports, Engine.insertRed_reports hinsert] at hkept
    exact .inl hkept
  · rw [← hupTo.received_eq] at hnew
    exact .inr hnew

theorem Stores.keeps {ds : DataSegment} {s s' : RecvSession} {reports : List ReportSegment}
    (h : Stores config ds s s' reports) (hs : s.Keeps P)
    (hnew : ∀ r ∈ reports, r.Reports s'.redReceived config.maxClaimsPerReport ds.segEnd → P r) :
    (∀ r ∈ reports, P r) ∧ s'.Keeps P := by
  have hall : ∀ r ∈ reports, P r := by
    intro r hr
    rcases h.mem_reports hr with ⟨serial, rec, hrec, rfl⟩ | hreports
    · exact hs serial rec hrec
    · exact hnew r hr hreports
  obtain ⟨s₁, hinsert, -, -, hstored⟩ := h.stored
  refine ⟨hall, fun serial rec hrec => ?_⟩
  rcases hstored serial rec hrec with hold | hadded
  · rw [Engine.insertRed_reports hinsert] at hold
    exact hs serial rec hold
  · exact hall rec.report hadded

theorem Spoils.keeps {ds : DataSegment} {s s' : RecvSession} {reports : List ReportSegment}
    (h : Spoils config ds s s' reports) (hs : s.Keeps P)
    (hnew : Stores config ds s s' reports → ∀ r ∈ reports,
      r.Reports s'.redReceived config.maxClaimsPerReport ds.segEnd → P r) :
    (∀ r ∈ reports, P r) ∧ s'.Keeps P := by
  cases h with
  | untouched => exact ⟨by simp, hs⟩
  | green => exact ⟨by simp, hs.congr rfl⟩
  | stored hstores => exact hstores.keeps hs (hnew hstores)

/-- Data is admitted to a session that keeps such reports. -/
theorem Admits.keeps {source : EngineId} {ds : DataSegment} {now : Nat} {v : RecvView}
    {s : RecvSession} (h : Admits sid source ds now v s)
    (hv : ∀ s, v.session = some s → s.Keeps P) : (s.touched now).Keeps P := by
  obtain ⟨-, -, ⟨hs, -⟩ | ⟨-, rfl⟩⟩ := h
  · exact (hv s hs).congr rfl
  · exact (RecvSession.Keeps.new sid source ds.clientService 0 now).congr rfl

theorem reportPushes_spec {dest : EngineId} {reports : List ReportSegment}
    (h : ∀ r ∈ reports, P r) :
    ∀ x ∈ reportPushes dest reports, ∀ r, x.2 = .report r → P r := by
  intro x hx r hr
  obtain ⟨r', hr', rfl⟩ := List.mem_map.mp hx
  cases hr
  exact h r hr'

/-- What holds of the reports that the session keeps, of the reports on a closed session and of new
reports holds of all reports that go out. -/
theorem RecvMove.keeps {trigger : RecvTrigger} {v v' : RecvView} {p : List Push} {n : List Notice}
    (h : RecvMove config sid trigger v p n v')
    (hclosed : ∀ source ds now cp, trigger = .data source ds now → v.closed →
      ds.kind.checkpoint = some cp → P (closedReport ds cp))
    (hnew : ∀ source ds now s s' reports, trigger = .data source ds now →
      Admits sid source ds now v s → Stores config ds (s.touched now) s' reports → ∀ r ∈ reports,
      r.Reports s'.redReceived config.maxClaimsPerReport ds.segEnd → P r)
    (hv : ∀ s, v.session = some s → s.Keeps P) :
    (∀ x ∈ p, ∀ r, x.2 = .report r → P r) ∧ ∀ s, v'.session = some s → s.Keeps P := by
  cases h with
  | dataIgnored | ackIgnored | expiredIdle => exact ⟨by simp, hv⟩
  | @dataReported source ds now cp v hclosed' hcp =>
    refine ⟨fun x hx r hr => ?_, hv⟩
    rw [List.mem_singleton.mp hx] at hr
    cases hr
    exact hclosed source ds now cp rfl hclosed' hcp
  | @dataCancelled source ds now v s s' reports reason armed hadmits hspoils =>
    obtain ⟨hreports, hs'⟩ := hspoils.keeps (hadmits.keeps hv) fun hstores =>
      hnew source ds now s s' reports rfl hadmits hstores
    refine ⟨fun x hx r hr => ?_, ?_⟩
    · rcases List.mem_append.mp hx with hx | hx
      · exact reportPushes_spec hreports x hx r hr
      · rw [List.mem_singleton.mp hx] at hr
        cases hr
    · rintro t ⟨⟩
      exact hs'.congr rfl
  | @dataRefused source ds now v s s' armed hadmits _ hrefused =>
    refine ⟨by simp, ?_⟩
    rintro t ⟨⟩
    exact (hadmits.keeps hv).congr (Engine.insertRed_reports hrefused)
  | @dataStored source ds now v s s' reports armed hadmits hstores =>
    obtain ⟨hreports, hs'⟩ := hstores.keeps (hadmits.keeps hv)
      (hnew source ds now s s' reports rfl hadmits hstores)
    refine ⟨reportPushes_spec hreports, ?_⟩
    rintro t ⟨⟩
    exact hs'.delivered
  | @dataGreen source ds now v s armed hadmits =>
    have hgreen : ((s.touched now).markGreen ds).Keeps P := (hadmits.keeps hv).congr rfl
    refine ⟨by simp, ?_⟩
    rintro t ⟨⟩
    exact hgreen.delivered
  | @ackKept serial now s =>
    have htouched : (s.touched now).Keeps P := (hv s rfl).congr rfl
    refine ⟨by simp, ?_⟩
    rintro t ⟨⟩
    exact htouched.ackReport serial
  | @reportResent serial now s rec armed closed cancelled hrec =>
    refine ⟨fun x hx r hr => ?_, ?_⟩
    · rw [List.mem_singleton.mp hx] at hr
      cases hr
      exact hv s rfl serial rec hrec
    · rintro t ⟨⟩
      have hreport : ({ rec with retries := rec.retries + 1 } : ReportRecord).report = rec.report :=
        rfl
      exact (hv s rfl).putReport hrec hreport rfl
  | @reportExhausted serial now s | @cancelResent now s =>
    refine ⟨by simp, ?_⟩
    rintro t ⟨⟩
    exact (hv s rfl).congr rfl
  | inactivityRearmed => exact ⟨by simp, hv⟩
  | inactivityExpired | peerCancelled | peerCancelledAgain => exact ⟨by simp, by simp⟩
  | ackClosed | cancelAbandoned | cancelAcked => exact ⟨by simp, by simp⟩

end Moves

end HdyUtils.Ltp
