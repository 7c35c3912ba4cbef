import HdyUtils.Ltp.ReportSerials

/-! The limit on the reports of a session.  A session keeps the records of its acknowledged reports,
so the limit counts every report that it has issued; `report_limit_iff` says when this is the number
of reports that await their acknowledgment. -/

namespace HdyUtils.Ltp

open Runs Trace

namespace RecvSession

variable {s s' : RecvSession}

theorem unacked_le_size (s : RecvSession) : s.unacked ≤ s.reports.size :=
  Maps.total_le_size _ (fun rec => by split <;> omega) s.reports

/-- Every report awaits its acknowledgment. -/
theorem unacked_eq_size_iff (s : RecvSession) :
    s.unacked = s.reports.size ↔
      ∀ (serial : UInt64) (rec : ReportRecord), s.reports[serial]? = some rec → rec.acked = false := by
  rw [unacked, Maps.total_eq_size_iff _ fun rec => by split <;> omega]
  have hone (rec : ReportRecord) : (if rec.acked then 0 else 1) = 1 ↔ rec.acked = false := by
    cases rec.acked <;> simp
  simp only [hone]

end RecvSession

namespace Engine

variable {e : Engine} {source : EngineId} {sid : SessionId} {ds : DataSegment} {now : Nat}
  {s s' : RecvSession} {cpSerial : UInt64}

/-- A fresh checkpoint for whose reports there is room is answered, and otherwise the session is
cancelled with as many reports as the limit. -/
theorem handleIncomingData_limit (hs : s.Serials)
    (hlimit : e.config.maxReportsPerSession < 2 ^ 64)
    (hsize : s.reports.size ≤ e.config.maxReportsPerSession)
    (hanswering : e.answering source sid ds now = some (s, cpSerial)) :
    ∃ s', (e.handleIncomingData source sid ds now).recvSessions[sid]? = some s' ∧
      if s.reports.size + (s.reportChunks e.config ds.segEnd).length ≤ e.config.maxReportsPerSession
      then s'.cancelReason = s.cancelReason
      else s'.cancelReason = some .rlexc ∧
        s'.unacked = s.unacked + (e.config.maxReportsPerSession - s.reports.size) := by
  have hconfig : (e.touchInactivity sid false now).config = e.config := by simp
  rw [handleIncomingData_answering hanswering]
  rcases answerFreshCheckpoint_eq source sid now (e.touchInactivity sid false now) s cpSerial
    ds.segEnd with ⟨heq, hsizes⟩ | ⟨k, hk, heq, hsizes, hfull⟩
  · rw [hconfig] at heq hsizes
    obtain ⟨-, -, -, -, hroom⟩ := serials_keptAfter hs hlimit le_rfl hsizes
    rw [length_freshReports] at hroom
    rw [heq]
    refine ⟨_, recvSessions_deliverRed _ _ _ _, ?_⟩
    rw [if_pos (by omega)]
    exact (delivered_answeredFresh e.config s cpSerial ds.segEnd now).2
  · rw [hconfig] at heq hsizes hk hfull
    obtain ⟨-, hkept, hunacked, -, hroom⟩ := serials_keptAfter hs hlimit hk.le hsizes
    rw [hkept] at hfull
    rw [length_freshReports] at hk
    rw [heq]
    refine ⟨_, recvSessions_initiateCancelReceiver _ _ _ _ _ _, ?_⟩
    rw [if_neg (by omega)]
    refine ⟨rfl, ?_⟩
    have hk' : k = e.config.maxReportsPerSession - s.reports.size := by omega
    rw [← hk', ← hunacked]
    rfl

end Engine

namespace Host

/-- A fresh checkpoint for whose reports the session has no room finds no acknowledged report. -/
def SparesAcked (h : Host) (c : Call) : Prop :=
  ∀ sid ds now s cpSerial, h.handed c = some (sid, ds, now) →
    h.engine.answering sid.originator sid ds now = some (s, cpSerial) →
    s.reports.size + (s.reportChunks h.engine.config ds.segEnd).length ≤
        h.engine.config.maxReportsPerSession ∨
      ∀ (serial : UInt64) (rec : ReportRecord), s.reports[serial]? = some rec → rec.acked = false

/-- Data that cancels an open session for the number of its reports leaves at least as many
unacknowledged as the limit, and a fresh checkpoint whose reports fit in beside the unacknowledged
ones does not. -/
structure LimitsUnacked (h : Host) (c : Call) : Prop where
  outstanding : ∀ sid ds now s', h.handed c = some (sid, ds, now) →
    (h.engine.found sid.originator sid ds now).cancelReason = none →
    (h.step c).engine.recvSessions[sid]? = some s' → s'.cancelReason = some .rlexc →
    h.engine.config.maxReportsPerSession ≤ s'.unacked
  timely : ∀ sid ds now s cpSerial s', h.handed c = some (sid, ds, now) →
    h.engine.answering sid.originator sid ds now = some (s, cpSerial) →
    s.unacked + (s.reportChunks h.engine.config ds.segEnd).length ≤
      h.engine.config.maxReportsPerSession →
    (h.step c).engine.recvSessions[sid]? = some s' → s'.cancelReason ≠ some .rlexc

/-- What a fresh checkpoint finds and leaves. -/
theorem Serialled.limit {config : EngineConfig} {h : Host} (hserialled : h.Serialled config)
    (hlimit : config.maxReportsPerSession < 2 ^ 64) {c : Call} {sid : SessionId} {ds : DataSegment}
    {now : Nat} {s : RecvSession} {cpSerial : UInt64}
    (hhanded : h.handed c = some (sid, ds, now))
    (hanswering : h.engine.answering sid.originator sid ds now = some (s, cpSerial)) :
    s.reports.size ≤ h.engine.config.maxReportsPerSession ∧ s.cancelReason ≠ some .rlexc ∧
      (h.engine.found sid.originator sid ds now).cancelReason = none ∧
      ∃ s', (h.step c).engine.recvSessions[sid]? = some s' ∧
        if s.reports.size + (s.reportChunks h.engine.config ds.segEnd).length ≤
          h.engine.config.maxReportsPerSession then s'.cancelReason = s.cancelReason
        else s'.cancelReason = some .rlexc ∧ s'.unacked =
          s.unacked + (h.engine.config.maxReportsPerSession - s.reports.size) := by
  obtain ⟨hserials, hsize⟩ := Engine.serials_found sid.originator ds now
    (hserialled.serials sid)
  obtain ⟨hquiet, hopen⟩ := Engine.quiet_of_answering hanswering
  rw [← hquiet.same.reports] at hsize
  rw [(handed_eq_some hhanded).2]
  rw [← hserialled.config] at hlimit
  refine ⟨hsize, fun hreason => ?_, hopen,
    Engine.handleIncomingData_limit (hserials.same hquiet.same) hlimit hsize hanswering⟩
  rw [hquiet.reason hreason] at hopen
  cases hopen

theorem Serialled.sparesAcked_iff {config : EngineConfig} {h : Host}
    (hserialled : h.Serialled config) (hlimit : config.maxReportsPerSession < 2 ^ 64) (c : Call) :
    h.SparesAcked c ↔ h.LimitsUnacked c := by
  constructor
  · intro hspares
    constructor
    · intro sid ds now s' hhanded hopen hs' hreason
      cases hanswering : h.engine.answering sid.originator sid ds now with
      | none =>
        rw [(handed_eq_some hhanded).2] at hs'
        rw [(Engine.quiet_handleIncomingData hanswering hs').reason hreason] at hopen
        cases hopen
      | some found =>
        obtain ⟨s, cpSerial⟩ := found
        obtain ⟨hsize, hnot, -, t, ht, hend⟩ := hserialled.limit hlimit hhanded hanswering
        rw [ht] at hs'
        cases hs'
        split at hend
        · rw [hend] at hreason
          exact absurd hreason hnot
        · rename_i hfull
          have hunacked := (hspares sid ds now s cpSerial hhanded hanswering).resolve_left hfull
          rw [← RecvSession.unacked_eq_size_iff] at hunacked
          have hcount := hend.2
          omega
    · intro sid ds now s cpSerial s' hhanded hanswering hfits hs'
      obtain ⟨-, hnot, -, t, ht, hend⟩ := hserialled.limit hlimit hhanded hanswering
      rw [ht] at hs'
      cases hs'
      split at hend
      · rwa [hend]
      · rename_i hfull
        have hunacked := (hspares sid ds now s cpSerial hhanded hanswering).resolve_left hfull
        rw [← RecvSession.unacked_eq_size_iff] at hunacked
        omega
  · intro hlimits sid ds now s cpSerial hhanded hanswering
    obtain ⟨hsize, -, hopen, t, ht, hend⟩ := hserialled.limit hlimit hhanded hanswering
    rw [← RecvSession.unacked_eq_size_iff]
    split at hend
    · rename_i hfits
      exact .inl hfits
    · -- a session that is cancelled holds as many reports as the limit
      have houtstanding := hlimits.outstanding sid ds now t hhanded hopen ht hend.1
      have hcount := hend.2
      have hle := s.unacked_le_size
      exact .inr (by omega)

end Host

/-- The limit on the reports of a session counts the unacknowledged ones in a run, if no fresh
checkpoint of the run finds acknowledged reports in a session without room for its reports. -/
theorem report_limit_iff {config : EngineConfig} (hlimit : config.maxReportsPerSession < 2 ^ 64)
    (calls : List Call) :
    Along Host.step Host.SparesAcked (Host.new config) calls ↔
      Along Host.step Host.LimitsUnacked (Host.new config) calls := by
  have hstep : ∀ (h : Host) (c : Call), h.Serialled config → (h.step c).Serialled config :=
    fun h c hserialled => hserialled.step hlimit c
  have hiff : ∀ (h : Host) (c : Call), h.Serialled config → (h.SparesAcked c ↔ h.LimitsUnacked c) :=
    fun h c hserialled => hserialled.sparesAcked_iff hlimit c
  have hnew := Host.serialled_new config
  constructor
  · intro hspares
    exact hspares.strengthen (fun h c hserialled _ => hstep h c hserialled)
      (fun h c hserialled => (hiff h c hserialled).mp) hnew
  · intro hlimits
    exact hlimits.strengthen (fun h c hserialled _ => hstep h c hserialled)
      (fun h c hserialled => (hiff h c hserialled).mpr) hnew

/-- Two checkpoints, the report on the first one acknowledged before the second one. -/
def acknowledgedCheckpoints : List Call :=
  [.segment ⟨2⟩ [1, 2, 1, 0, 1, 0, 1, 1, 0, 7] 0, .segment ⟨2⟩ [9, 2, 1, 0, 1] 1,
    .segment ⟨2⟩ [1, 2, 1, 0, 1, 1, 1, 2, 0, 8] 2]

theorem report_limit_iff_default :
    Along Host.step Host.SparesAcked (Host.new .default) acknowledgedCheckpoints ↔
      Along Host.step Host.LimitsUnacked (Host.new .default) acknowledgedCheckpoints :=
  report_limit_iff (by decide) acknowledgedCheckpoints

/-- One report in a session. -/
def oneReport : EngineConfig := { EngineConfig.default with maxReportsPerSession := 1 }

/-- The second checkpoint cancels the session although its only report is acknowledged. -/
theorem report_limit_counts_acked :
    ¬Along Host.step Host.LimitsUnacked (Host.new oneReport) acknowledgedCheckpoints := by
  rintro ⟨-, -, h, -⟩
  have hle := h.outstanding ⟨⟨2⟩, 1⟩ ⟨1, 1, .redCp ⟨⟨2, by decide⟩, 0⟩, [8]⟩ 2
    ((((Host.new oneReport).run acknowledgedCheckpoints).engine.recvSessions[
      (⟨⟨2⟩, 1⟩ : SessionId)]?).get (by decide +kernel))
    (by decide +kernel) (by decide +kernel) (Option.some_get _).symm (by decide +kernel)
  revert hle
  decide +kernel

end HdyUtils.Ltp
