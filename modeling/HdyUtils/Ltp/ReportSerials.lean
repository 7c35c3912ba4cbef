import HdyUtils.Ltp.Engine.Answering
import HdyUtils.Ltp.Bounds

/-! The serials of the reports of a session.  However segments arrive, the reports that a receive
session has issued carry the serials from 1 to the last one given. -/

namespace HdyUtils.Ltp

open Runs Trace

/-! ### Moves -/

namespace RecvSession

variable {s s' : RecvSession}

theorem Serials.congr (h : s.Serials) (hlast : s'.lastReportSerial = s.lastReportSerial)
    (hreports : s'.reports = s.reports) : s'.Serials :=
  ⟨by rw [hlast, hreports]; exact h.size, by rw [hlast, hreports]; exact h.le⟩

theorem Serials.same (h : s.Serials) (hsame : s.SameReports s') : s'.Serials :=
  h.congr hsame.last hsame.reports

/-- `s'` has reports of the serials of `s`. -/
structure SameSerials (s s' : RecvSession) : Prop where
  last : s'.lastReportSerial = s.lastReportSerial
  size : s'.reports.size = s.reports.size
  mem : ∀ serial ∈ s'.reports, serial ∈ s.reports

namespace SameSerials

theorem of_reports (hlast : s'.lastReportSerial = s.lastReportSerial)
    (hreports : s'.reports = s.reports) : s.SameSerials s' :=
  ⟨hlast, by rw [hreports], fun serial h => by rwa [hreports] at h⟩

/-- A record is replaced by another one of the same serial. -/
theorem putReport {serial : UInt64} {rec rec' : ReportRecord}
    (hrec : s.reports[serial]? = some rec) (hlast : s'.lastReportSerial = s.lastReportSerial)
    (hreports : s'.reports = s.reports.insert serial rec') : s.SameSerials s' := by
  have hmem : serial ∈ s.reports := Std.TreeMap.mem_iff_isSome_getElem?.mpr (by simp [hrec])
  refine ⟨hlast, ?_, fun k hk => ?_⟩
  · rw [hreports, Std.TreeMap.size_insert, if_pos (Std.TreeMap.mem_iff_contains.mp hmem)]
  · rw [hreports] at hk
    rcases (Maps.mem_map_insert _ _ _ _).mp hk with rfl | hk
    · exact hmem
    · exact hk

theorem ackReport (s : RecvSession) (serial : UInt64) : s.SameSerials (s.ackReport serial) := by
  unfold RecvSession.ackReport
  split
  · rename_i rec hrec
    exact putReport hrec rfl rfl
  · exact of_reports rfl rfl

end SameSerials

theorem Serials.sameSerials (h : s.Serials) (hsame : s.SameSerials s') : s'.Serials := by
  constructor
  · rw [hsame.size, hsame.last]
    exact h.size
  · intro serial hserial
    rw [hsame.last]
    exact h.le serial (hsame.mem serial hserial)

theorem serials_new (id : SessionId) (peer : EngineId) (clientService : UInt64) (now : Nat) :
    (RecvSession.new id peer clientService 0 now).Serials :=
  ⟨rfl, by simp [RecvSession.new]⟩

end RecvSession

/-- Whatever but data moves a session, its reports keep their serials. -/
theorem RecvMove.sameSerials {config : EngineConfig} {sid : SessionId} {trigger : RecvTrigger}
    {v v' : RecvView} {p : List Push} {n : List Notice} (h : RecvMove config sid trigger v p n v')
    (hdata : ∀ source ds now, trigger ≠ .data source ds now) {t : RecvSession}
    (ht : v'.session = some t) : ∃ s, v.session = some s ∧ s.SameSerials t := by
  cases h with
  | dataIgnored | dataReported | dataCancelled | dataRefused | dataStored | dataGreen =>
    exact absurd rfl (hdata _ _ _)
  | ackIgnored | expiredIdle => exact ⟨t, ht, .of_reports rfl rfl⟩
  | @ackKept serial now s =>
    cases ht
    have hacked := RecvSession.SameSerials.ackReport (s.touched now) serial
    exact ⟨s, rfl, hacked.last, hacked.size, hacked.mem⟩
  | @reportResent serial now s rec armed closed cancelled hrec =>
    cases ht
    exact ⟨s, rfl, .putReport hrec rfl rfl⟩
  | reportExhausted | cancelResent =>
    cases ht
    exact ⟨_, rfl, .of_reports rfl rfl⟩
  | inactivityRearmed =>
    cases ht
    exact ⟨t, rfl, .of_reports rfl rfl⟩
  | _ => cases ht

namespace Engine

variable {e : Engine} {source : EngineId} {sid : SessionId} {ds : DataSegment} {now : Nat}

variable (source ds now) in
theorem serials_found (h : ∀ s, e.recvSessions[sid]? = some s →
    s.Serials ∧ s.reports.size ≤ e.config.maxReportsPerSession) :
    (e.found source sid ds now).Serials ∧
      (e.found source sid ds now).reports.size ≤ e.config.maxReportsPerSession := by
  unfold found
  cases hs : e.recvSessions[sid]? with
  | none => exact ⟨RecvSession.serials_new sid source ds.clientService now, Nat.zero_le _⟩
  | some s => exact h s hs

/-- The session that answers a fresh checkpoint is open, and has the reports of the one that the
segment found. -/
theorem quiet_of_answering {s : RecvSession} {cpSerial : UInt64}
    (h : e.answering source sid ds now = some (s, cpSerial)) :
    Quiet (e.found source sid ds now) s ∧ (e.found source sid ds now).cancelReason = none := by
  obtain ⟨⟨t, htakes⟩, -, -⟩ := answering_eq_some.mp h
  obtain ⟨s₁, hinsert, rfl⟩ := htakes.inserted
  have hinserted := Quiet.insertRed (t.touched now) ds.offset ds.data e.config.maxBlockSize.toNat
  rw [hinsert] at hinserted
  obtain ⟨-, hfound, hopen⟩ := handleIncomingData_admitted htakes.admitted
  rw [← hfound]
  exact ⟨(Quiet.touched t now).trans (hinserted.trans (.markEnds s₁ ds)), hopen⟩

theorem serials_handleIncomingData (hlimit : e.config.maxReportsPerSession < 2 ^ 64)
    (h : ∀ s, e.recvSessions[sid]? = some s →
      s.Serials ∧ s.reports.size ≤ e.config.maxReportsPerSession) {s' : RecvSession}
    (hs' : (e.handleIncomingData source sid ds now).recvSessions[sid]? = some s') :
    s'.Serials ∧ s'.reports.size ≤ e.config.maxReportsPerSession := by
  obtain ⟨hfound, hsize⟩ := serials_found source ds now h
  cases hanswering : e.answering source sid ds now with
  | none =>
    have hsame := (quiet_handleIncomingData hanswering hs').same
    exact ⟨hfound.same hsame, by rw [hsame.reports]; exact hsize⟩
  | some found =>
    obtain ⟨s, cpSerial⟩ := found
    have hsame := (quiet_of_answering hanswering).1.same
    have hs := hfound.same hsame
    rw [← hsame.reports] at hsize
    have hconfig : (e.touchInactivity sid false now).config = e.config := by simp
    rw [handleIncomingData_answering hanswering] at hs'
    rcases answerFreshCheckpoint_eq source sid now (e.touchInactivity sid false now) s cpSerial
      ds.segEnd with ⟨heq, hsizes⟩ | ⟨k, hk, heq, hsizes, -⟩
    · rw [hconfig] at heq hsizes
      obtain ⟨hkept, hsize', -, -, hroom⟩ := serials_keptAfter hs hlimit le_rfl hsizes
      rw [heq] at hs'
      simp only [recvSessions_deliverRed, Option.some.injEq] at hs'
      have hanswered : (answeredFresh e.config s cpSerial ds.segEnd now).Serials :=
        hkept.congr rfl rfl
      have hdelivered :=
        (Quiet.delivered (answeredFresh e.config s cpSerial ds.segEnd now)).same
      rw [← hs']
      refine ⟨hanswered.same hdelivered, ?_⟩
      rw [hdelivered.reports]
      simp only [answeredFresh, hsize']
      omega
    · rw [hconfig] at heq hsizes hk
      obtain ⟨hkept, hsize', -, -, hroom⟩ := serials_keptAfter hs hlimit hk.le hsizes
      rw [heq] at hs'
      simp only [recvSessions_initiateCancelReceiver, Option.some.injEq] at hs'
      rw [← hs']
      refine ⟨hkept.congr rfl rfl, ?_⟩
      simp only [RecvSession.cancelling, hsize']
      omega

end Engine

namespace Host

/-- A host that keeps its configuration.  Its receive sessions are of other engines, and their
reports are numbered, up to the limit. -/
structure Serialled (config : EngineConfig) (h : Host) : Prop where
  config : h.engine.config = config
  owned : h.engine.Owned
  serials : ∀ (sid : SessionId) (s : RecvSession), h.engine.recvSessions[sid]? = some s →
    s.Serials ∧ s.reports.size ≤ h.engine.config.maxReportsPerSession

variable {config : EngineConfig}

theorem serialled_new (config : EngineConfig) : (Host.new config).Serialled config :=
  ⟨rfl, Engine.owned_new config, by simp [Host.new, Engine.new]⟩

theorem Serialled.step {h : Host} (hserial : h.Serialled config)
    (hlimit : config.maxReportsPerSession < 2 ^ 64) (c : Call) : (h.step c).Serialled config := by
  have hown := owned_step hserial.owned c
  have hconfig := config_step hserial.owned c
  refine ⟨hconfig.trans hserial.config, hown, fun sid s hs => ?_⟩
  have hsid : sid.originator ≠ h.engine.config.engineId := by
    rw [← hconfig]
    exact hown.recv sid s hs
  rw [hconfig]
  cases recvChange hserial.owned c hsid with
  | @moved trigger p n cause move =>
    by_cases hdata : ∃ source ds now, trigger = .data source ds now
    · obtain ⟨source, ds, now, rfl⟩ := hdata
      rw [engine_of_data cause hsid] at hs
      rw [← hserial.config] at hlimit
      exact Engine.serials_handleIncomingData hlimit (hserial.serials sid) hs
    · obtain ⟨t, ht, hsame⟩ := move.sameSerials
        (fun source ds now htrigger => hdata ⟨source, ds, now, htrigger⟩) hs
      obtain ⟨hserials, hsize⟩ := hserial.serials sid t ht
      exact ⟨hserials.sameSerials hsame, by rw [hsame.size]; exact hsize⟩
  | tick _ session =>
    rw [session] at hs
    exact hserial.serials sid s hs
  | other session =>
    rw [session] at hs
    exact hserial.serials sid s hs

theorem serialled_run (hlimit : config.maxReportsPerSession < 2 ^ 64) (calls : List Call) :
    ((Host.new config).run calls).Serialled config :=
  run_invariant (fun _ c hserial => hserial.step hlimit c) calls (serialled_new config)

end Host

end HdyUtils.Ltp
