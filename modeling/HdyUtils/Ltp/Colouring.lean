import HdyUtils.Ltp.Bounds
import HdyUtils.Ltp.Engine.Colouring

/-! Colouring does not depend on the order in which segments arrive, over every run of a host.  The
segments that a session has taken since it was opened are the log of `Host.hear`. -/

namespace HdyUtils.Ltp

open Trace

/-! ### Moves without data -/

/-- Without data, an open session was open before and keeps its colours. -/
theorem RecvMove.colours {config : EngineConfig} {sid : SessionId} {trigger : RecvTrigger}
    {v v' : RecvView} {p : List Push} {n : List Notice} (h : RecvMove config sid trigger v p n v')
    (hdata : ∀ source ds now, trigger ≠ .data source ds now) {log : List DataSegment}
    (hv : ∀ s, v.session = some s → s.cancelReason = none → s.Colours log) :
    ∀ s, v'.session = some s → v.session ≠ none ∧ (s.cancelReason = none → s.Colours log) := by
  intro s' hs'
  cases h with
  | dataIgnored | dataReported | dataCancelled | dataRefused | dataStored | dataGreen =>
    exact absurd rfl (hdata _ _ _)
  | ackIgnored | expiredIdle => exact ⟨by rw [hs']; nofun, hv s' hs'⟩
  | @ackKept serial now s armed armed' closed cancelled hopen =>
    cases hs'
    refine ⟨nofun, fun _ => ?_⟩
    have htouched : (s.touched now).Colours log := (hv s rfl hopen).congr rfl rfl rfl rfl rfl rfl rfl
    exact htouched.ackReport serial
  | reportResent | cancelResent =>
    cases hs'
    refine ⟨nofun, fun hopen => ?_⟩
    exact (hv _ rfl hopen).congr rfl rfl rfl rfl rfl rfl rfl
  | reportExhausted =>
    cases hs'
    exact ⟨nofun, nofun⟩
  | inactivityRearmed =>
    cases hs'
    exact ⟨nofun, hv _ rfl⟩
  | _ => cases hs'

/-- Without data, nothing is delivered. -/
theorem RecvMove.no_redPart {config : EngineConfig} {sid : SessionId} {trigger : RecvTrigger}
    {v v' : RecvView} {p : List Push} {n : List Notice} (h : RecvMove config sid trigger v p n v')
    (hdata : ∀ source ds now, trigger ≠ .data source ds now) :
    ∀ x ∈ n, x.redPartOf sid = none := by
  cases h with
  | dataIgnored | dataReported | dataCancelled | dataRefused | dataStored | dataGreen =>
    exact absurd rfl (hdata _ _ _)
  | _ => simp [Notice.redPartOf]

theorem SendMove.no_redPart {config : EngineConfig} {sid : SessionId} {trigger : SendTrigger}
    {v v' : SendView} {p : List Push} {n : List Notice} (h : SendMove config sid trigger v p n v') :
    ∀ x ∈ n, x.redPartOf sid = none := by
  cases h <;> simp [Notice.redPartOf]

theorem Notice.redPartOf_eq_none {x : Notice} {sid : SessionId} (h : x.session ≠ sid) :
    x.redPartOf sid = none := by
  cases x with
  | redPartReceived session => exact if_neg h
  | _ => rfl

/-! ### Runs -/

namespace Host

/-- The segments that session `sid` has taken since it was opened, once a call is over. -/
def logAfter (sid : SessionId) (h : Host) (log : List DataSegment) (c : Call) : List DataSegment :=
  if (h.step c).engine.recvSessions[sid]?.isNone then []
  else
    match h.handed c with
    | some (session, ds, now) =>
      if session = sid ∧ h.engine.hears session.originator session ds now then log ++ [ds] else log
    | none => log

/-- The call does not end the red part of a session below other red data. -/
def keepsRed (h : Host) (c : Call) : Bool :=
  match h.handed c with
  | some (sid, ds, now) => h.engine.keepsRed sid.originator sid ds now
  | none => true

/-- What a call leaves of the colouring of session `sid`: an open session keeps to the bounds, the
segments that it has taken obey the rules, segments that break them cancel it whatever their order,
and a delivery has all red data. -/
structure KeepsColours (sid : SessionId) (p : Host × List DataSegment) (c : Call) : Prop where
  colours : ∀ s, (p.1.step c).engine.recvSessions[sid]? = some s → s.cancelReason = none →
    s.Colours (p.1.logAfter sid p.2 c) ∧ Coloured (p.1.logAfter sid p.2 c)
  miscolored : ∀ ds now segs, p.1.handed c = some (sid, ds, now) →
    p.1.engine.hears sid.originator sid ds now = true → segs.Perm (p.2 ++ [ds]) → ¬Coloured segs →
    ∃ s, (p.1.step c).engine.recvSessions[sid]? = some s ∧ s.cancelReason = some .miscolored
  delivers : ∀ n, (p.1.step c).emitted = p.1.emitted ++ n → ∀ x ∈ n, ∀ data,
    x.redPartOf sid = some data → ∃ s, (p.1.step c).engine.recvSessions[sid]? = some s ∧
      s.Complete (p.1.logAfter sid p.2 c) data

/-- The log belongs to the session. -/
structure Logged (sid : SessionId) (p : Host × List DataSegment) : Prop where
  owned : p.1.engine.Owned
  absent : p.1.engine.recvSessions[sid]? = none → p.2 = []
  colours : ∀ s, p.1.engine.recvSessions[sid]? = some s → s.cancelReason = none → s.Colours p.2

variable {sid : SessionId} {h : Host} {log : List DataSegment} {c : Call}

/-- The session that takes a segment has the colours of the log. -/
theorem Logged.admitted (hlogged : Logged sid (h, log)) {source : EngineId} {ds : DataSegment}
    {now : Nat} {t : RecvSession} (hadmitted : h.engine.admitted source sid ds now = some t) :
    t.Colours log := by
  obtain ⟨-, rfl, hopen⟩ := Engine.handleIncomingData_admitted hadmitted
  unfold Engine.found at hopen ⊢
  cases hs : h.engine.recvSessions[sid]? with
  | some s =>
    simp only [hs, Option.getD_some] at hopen ⊢
    exact hlogged.colours s hs hopen
  | none =>
    have hlog : log = [] := hlogged.absent hs
    rw [hlog]
    exact .new sid source ds.clientService now

/-- A data segment for the session. -/
theorem Logged.handed (hlogged : Logged sid (h, log)) (hkeeps : h.keepsRed c = true)
    {ds : DataSegment} {now : Nat} (hhanded : h.handed c = some (sid, ds, now)) :
    KeepsColours sid (h, log) c := by
  obtain ⟨-, hstep⟩ := handed_eq_some hhanded
  simp only [keepsRed, hhanded] at hkeeps
  have hlog : ∀ s, (h.step c).engine.recvSessions[sid]? = some s → h.logAfter sid log c =
      if h.engine.hears sid.originator sid ds now then log ++ [ds] else log := by
    intro s hs
    simp only [logAfter, hs, Option.isNone_some, Bool.false_eq_true, if_false, hhanded, true_and]
  have hemitted : (h.step c).emitted = h.told ++
      (h.engine.handleIncomingData sid.originator sid ds now).notices := by
    rw [hstep]
    rfl
  cases hadmitted : h.engine.admitted sid.originator sid ds now with
  | none =>
    obtain ⟨hrecv, hnotices⟩ := Engine.handleIncomingData_not_admitted hadmitted
    have hheard : h.engine.hears sid.originator sid ds now = false := by
      simp only [Engine.hears, hadmitted]
    constructor
    · intro s hs hopen
      rw [hlog s hs, hheard]
      rw [hstep, hrecv] at hs
      have hcolours := hlogged.colours s hs hopen
      exact ⟨hcolours, hcolours.coloured⟩
    · intro ds' now' segs hhanded' hheard'
      rw [hhanded] at hhanded'
      cases hhanded'
      rw [hheard] at hheard'
      cases hheard'
    · intro n hn
      rw [hemitted, hnotices] at hn
      rw [List.self_eq_append_right.mp hn]
      simp
  | some t =>
    obtain ⟨s', n', houtcome, hs', hnotices⟩ := Engine.dataOutcome hadmitted
    obtain ⟨hcolours, hmiscolored, hdelivers⟩ :=
      Engine.colours_of_dataOutcome houtcome hadmitted (hlogged.admitted hadmitted) hkeeps
    have hafter : (h.step c).engine.recvSessions[sid]? = some s' := by
      rw [hstep]
      exact hs'
    constructor
    · intro s hs hopen
      rw [hlog s hs]
      rw [hafter] at hs
      cases hs
      exact ⟨hcolours hopen, (hcolours hopen).coloured⟩
    · intro ds' now' segs hhanded' hheard hperm hnot
      rw [hhanded] at hhanded'
      cases hhanded'
      exact ⟨s', hafter, hmiscolored hheard fun hcoloured => hnot (hcoloured.perm hperm.symm)⟩
    · intro n hn x hx data hdata
      rw [hemitted, hnotices, emitted, List.append_assoc] at hn
      have heq : n' = n := List.append_cancel_left (List.append_cancel_left hn)
      rw [← heq] at hx
      rw [hlog s' hafter]
      exact ⟨s', hafter, hdelivers x hx data hdata⟩

/-- Anything else leaves the log alone. -/
theorem Logged.other (hlogged : Logged sid (h, log))
    (hhanded : ∀ ds now, h.handed c ≠ some (sid, ds, now)) : KeepsColours sid (h, log) c := by
  have hlog : ∀ s, (h.step c).engine.recvSessions[sid]? = some s → h.logAfter sid log c = log := by
    intro s hs
    simp only [logAfter, hs, Option.isNone_some, Bool.false_eq_true, if_false]
    split
    · rename_i session ds now heq
      rw [if_neg]
      rintro ⟨rfl, -⟩
      exact hhanded ds now heq
    · rfl
  -- the call keeps an open session, and delivers nothing for it
  have hcall : (∀ s, (h.step c).engine.recvSessions[sid]? = some s →
        s.cancelReason = none → s.Colours log) ∧
      ∃ n, (h.step c).emitted = h.emitted ++ n ∧ ∀ x ∈ n, x.redPartOf sid = none := by
    by_cases hsid : sid.originator = h.engine.config.engineId
    · have hown := owned_step hlogged.owned c
      refine ⟨fun s hs => ?_, ?_⟩
      · rw [← config_step hlogged.owned c] at hsid
        exact absurd hsid (hown.recv sid s hs)
      · cases sendChange hlogged.owned c hsid with
        | @moved trigger p n cause move pushed emitted => exact ⟨n, emitted, move.no_redPart⟩
        | tick _ _ _ _ emitted => exact ⟨[], by simp [emitted], by simp⟩
        | other _ _ _ emitted =>
          obtain ⟨n, hn, hne⟩ := emitted
          exact ⟨n, hn, fun x hx => Notice.redPartOf_eq_none (hne x hx)⟩
    · cases recvChange hlogged.owned c hsid with
      | @moved trigger p n cause move pushed emitted =>
        have hdata : ∀ source ds now, trigger ≠ .data source ds now := by
          rintro source ds now rfl
          exact hhanded ds now (handed_of_cause cause hsid)
        refine ⟨fun s hs => ?_, n, emitted, move.no_redPart hdata⟩
        exact (move.colours hdata hlogged.colours s hs).2
      | tick _ session _ _ _ _ emitted =>
        refine ⟨fun s hs => ?_, [], by simp [emitted], by simp⟩
        rw [session] at hs
        exact hlogged.colours s hs
      | other session _ _ _ _ _ emitted =>
        obtain ⟨n, hn, hne⟩ := emitted
        refine ⟨fun s hs => ?_, n, hn, fun x hx => Notice.redPartOf_eq_none (hne x hx)⟩
        rw [session] at hs
        exact hlogged.colours s hs
  obtain ⟨hcolours, n, hn, hnone⟩ := hcall
  constructor
  · intro s hs hopen
    rw [hlog s hs]
    exact ⟨hcolours s hs hopen, (hcolours s hs hopen).coloured⟩
  · intro ds now segs hhanded'
    exact absurd hhanded' (hhanded ds now)
  · intro n' hn' x hx data hdata
    rw [hn] at hn'
    rw [← List.append_cancel_left hn'] at hx
    rw [hnone x hx] at hdata
    cases hdata

end Host

end HdyUtils.Ltp
