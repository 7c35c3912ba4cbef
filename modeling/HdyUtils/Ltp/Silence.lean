import HdyUtils.Lib.Alarms
import HdyUtils.Ltp.Deadlines

/-! An engine that hears nothing comes to rest.  The charge of a timer bounds how often the timer and
what it leads to can still expire: the retransmissions that its segment has left, and for a checkpoint
or a report the cancellation that follows.  Every timer that is handled lowers the sum of the charges,
so a silent engine sends only so much, and in the end no timer is armed and no session is left. -/

namespace HdyUtils.Ltp

open Alarms

/-! ### Charges -/

namespace EngineConfig

/-- How often the segment that goes with a timer may be sent again. -/
def rtxLimit (config : EngineConfig) : TimerKind → Nat
  | .checkpoint _ => config.checkpointRtxLimit
  | .report _ => config.reportRtxLimit
  | .cancel _ => config.cancelRtxLimit
  | .inactivity _ => 0

/-- What follows the last retransmission: a checkpoint or a report starts a cancellation, whose timer
may be armed and may also be due. -/
def aftermath (config : EngineConfig) : TimerKind → Nat
  | .checkpoint _ | .report _ => 2 * (config.cancelRtxLimit + 1) + 1
  | .cancel _ | .inactivity _ => 1

/-- The charge of a timer whose segment was sent again `retries` times, if it has one. -/
def charge (config : EngineConfig) (retries : Option Nat) (kind : TimerKind) : Nat :=
  (match retries with
    | some n => config.rtxLimit kind - n
    | none => 0) + config.aftermath kind

/-- The greatest charge of a timer. -/
def maxCharge (config : EngineConfig) : Nat :=
  max config.checkpointRtxLimit config.reportRtxLimit + 2 * (config.cancelRtxLimit + 1) + 1

variable (config : EngineConfig)

theorem charge_pos (retries : Option Nat) (kind : TimerKind) : 0 < config.charge retries kind := by
  have hpos : 0 < config.aftermath kind := by cases kind <;> simp [aftermath]
  simp only [charge]
  omega

theorem charge_le (retries : Option Nat) (kind : TimerKind) :
    config.charge retries kind ≤ config.maxCharge := by
  have hle : config.rtxLimit kind + config.aftermath kind ≤ config.maxCharge := by
    cases kind <;> simp only [rtxLimit, aftermath, maxCharge] <;> omega
  simp only [charge]
  split <;> omega

theorem charge_none_le (retries : Option Nat) (kind : TimerKind) :
    config.charge none kind ≤ config.charge retries kind := by
  simp only [charge]
  omega

/-- Another retransmission lowers the charge. -/
theorem charge_succ_lt (kind : TimerKind) {n : Nat} (h : n < config.rtxLimit kind) :
    config.charge (some (n + 1)) kind < config.charge (some n) kind := by
  simp only [charge]
  omega

/-- A checkpoint or a report pays twice for the cancellation that it starts. -/
theorem charge_cancel_lt (isSender : Bool) (retries : Option Nat) {kind : TimerKind}
    (h : config.aftermath kind = 2 * (config.cancelRtxLimit + 1) + 1) :
    2 * config.charge (some 1) (.cancel isSender) < config.charge retries kind := by
  have hcancel : config.charge (some 1) (.cancel isSender) ≤ config.cancelRtxLimit + 1 := by
    simp only [charge, rtxLimit, aftermath]
    omega
  have hkind : config.aftermath kind ≤ config.charge retries kind := by
    simp only [charge]
    omega
  omega

end EngineConfig

/-- How often the segment of a timer was sent again. -/
def SendSession.resends (s : SendSession) : TimerKind → Option Nat
  | .checkpoint serial => s.checkpoints[serial]?.map CheckpointRecord.retries
  | .cancel isSender => if isSender then some s.cancelRetries else none
  | .report _ | .inactivity _ => none

def RecvSession.resends (s : RecvSession) : TimerKind → Option Nat
  | .report serial => s.reports[serial]?.map ReportRecord.retries
  | .cancel isSender => if isSender then none else some s.cancelRetries
  | .checkpoint _ | .inactivity _ => none

theorem SendSession.resends_resent (s : SendSession) (serial : UInt64) (cp : CheckpointRecord)
    {kind : TimerKind} (hkind : kind ≠ .checkpoint serial) :
    { s with checkpoints := s.checkpoints.insert serial cp }.resends kind = s.resends kind := by
  cases kind with
  | checkpoint serial' =>
    have hne : serial ≠ serial' := fun heq => hkind (by rw [heq])
    simp only [resends, Maps.getElem?_insert, if_neg hne]
  | report | cancel | inactivity => rfl

theorem SendSession.resends_cancel (s : SendSession) (reason : Option CancelReason) (n : Nat)
    {kind : TimerKind} (hkind : kind ≠ .cancel true) :
    { s with cancelReason := reason, cancelRetries := n }.resends kind = s.resends kind := by
  cases kind with
  | cancel isSender =>
    cases isSender with
    | true => exact absurd rfl hkind
    | false => rfl
  | checkpoint | report | inactivity => rfl

theorem RecvSession.resends_resent (s : RecvSession) (serial : UInt64) (rec : ReportRecord)
    {kind : TimerKind} (hkind : kind ≠ .report serial) :
    { s with reports := s.reports.insert serial rec }.resends kind = s.resends kind := by
  cases kind with
  | report serial' =>
    have hne : serial ≠ serial' := fun heq => hkind (by rw [heq])
    simp only [resends, Maps.getElem?_insert, if_neg hne]
  | checkpoint | cancel | inactivity => rfl

theorem RecvSession.resends_cancel (s : RecvSession) (reason : Option CancelReason) (n : Nat)
    {kind : TimerKind} (hkind : kind ≠ .cancel false) :
    { s with cancelReason := reason, cancelRetries := n }.resends kind = s.resends kind := by
  cases kind with
  | cancel isSender =>
    cases isSender with
    | true => rfl
    | false => exact absurd rfl hkind
  | checkpoint | report | inactivity => rfl

/-! ### Moves -/

section Moves

variable {config : EngineConfig} {sid : SessionId} {kind : TimerKind} {now : Nat} {p : List Push}
  {n : List Notice}

/-- The charges of a session's timers, with what its retransmissions are. -/
def EngineConfig.charges (config : EngineConfig) (retries : Option (TimerKind → Option Nat))
    (kind : TimerKind) : Nat :=
  config.charge (retries.bind fun r => r kind) kind

theorem EngineConfig.charges_le {retries retries' : TimerKind → Option Nat} {k : TimerKind}
    (h : retries' k = retries k) :
    config.charges (some retries') k ≤ config.charges (some retries) k :=
  le_of_eq (congrArg (config.charge · k) h)

theorem EngineConfig.charges_removed (retries : Option (TimerKind → Option Nat)) {armed : Set TimerKind} :
    Lapses kind (config.charges retries) armed (config.charges none) ∅ :=
  .settled (fun k => config.charge_none_le _ k) (Set.empty_subset _)

theorem SendMove.lapses {v v' : SendView} (h : SendMove config sid (.expired kind now) v p n v')
    (hdue : kind = .inactivity true →
      ∀ s, v.session = some s → config.TimedOut s.lastActivity now) :
    Lapses kind (config.charges (v.session.map SendSession.resends)) v.armed
      (config.charges (v'.session.map SendSession.resends)) v'.armed ∧ p.length ≤ 1 := by
  cases h with
  | expiredIdle => exact ⟨.settled (fun _ => le_rfl) subset_rfl, Nat.zero_le 1⟩
  | @checkpointResent serial now s cp armed hcp hlimit =>
    refine ⟨.rearmed (.checkpoint serial)
      (fun k hk => config.charges_le (s.resends_resent serial _ hk)) subset_rfl ?_, le_rfl⟩
    have hlt := config.charge_succ_lt (.checkpoint serial) hlimit
    simpa [EngineConfig.charges, SendSession.resends, hcp] using hlt
  | @checkpointExhausted serial now s cp armed hcp =>
    refine ⟨.rearmed (.cancel true)
      (fun k hk => config.charges_le (s.resends_cancel _ 1 hk)) subset_rfl ?_, le_rfl⟩
    exact config.charge_cancel_lt true _ rfl
  | @cancelResent now s armed hlimit =>
    refine ⟨.rearmed (.cancel true)
      (fun k hk => config.charges_le (s.resends_cancel _ _ hk)) subset_rfl ?_, le_rfl⟩
    have hlt := config.charge_succ_lt (.cancel true) hlimit
    simpa [EngineConfig.charges, SendSession.resends] using hlt
  | cancelAbandoned => exact ⟨config.charges_removed _, Nat.zero_le 1⟩
  | inactivityRearmed hactive => exact absurd (hdue rfl _ rfl) hactive
  | inactivityExpired => exact ⟨config.charges_removed _, le_rfl⟩

theorem RecvMove.lapses {v v' : RecvView} (h : RecvMove config sid (.expired kind now) v p n v')
    (hdue : kind = .inactivity false →
      ∀ s, v.session = some s → config.TimedOut s.lastActivity now) :
    Lapses kind (config.charges (v.session.map RecvSession.resends)) v.armed
      (config.charges (v'.session.map RecvSession.resends)) v'.armed ∧ p.length ≤ 1 := by
  cases h with
  | expiredIdle => exact ⟨.settled (fun _ => le_rfl) subset_rfl, Nat.zero_le 1⟩
  | @reportResent serial now s rec armed closed cancelled hrec hacked hlimit =>
    refine ⟨.rearmed (.report serial)
      (fun k hk => config.charges_le (s.resends_resent serial _ hk)) subset_rfl ?_, le_rfl⟩
    have hlt := config.charge_succ_lt (.report serial) hlimit
    simpa [EngineConfig.charges, RecvSession.resends, hrec] using hlt
  | @reportExhausted serial now s rec armed closed cancelled hrec =>
    refine ⟨.rearmed (.cancel false)
      (fun k hk => config.charges_le (s.resends_cancel _ 1 hk)) subset_rfl ?_, le_rfl⟩
    exact config.charge_cancel_lt false _ rfl
  | @cancelResent now s armed closed cancelled hlimit =>
    refine ⟨.rearmed (.cancel false)
      (fun k hk => config.charges_le (s.resends_cancel _ _ hk)) subset_rfl ?_, le_rfl⟩
    have hlt := config.charge_succ_lt (.cancel false) hlimit
    simpa [EngineConfig.charges, RecvSession.resends] using hlt
  | cancelAbandoned => exact ⟨config.charges_removed _, Nat.zero_le 1⟩
  | inactivityRearmed hactive => exact absurd (hdue rfl _ rfl) hactive
  | inactivityExpired => exact ⟨config.charges_removed _, le_rfl⟩

end Moves

/-! ### Expired timers -/

namespace TimerTable

/-- The keys of the armed timers. -/
def armed (t : TimerTable) : Finset TimerKey := t.byKey.keys.toFinset

@[simp] theorem mem_armed {t : TimerTable} {key : TimerKey} :
    key ∈ t.armed ↔ t.deadline? key ≠ none := by
  rw [armed, List.mem_toFinset, Std.TreeMap.mem_keys, Std.TreeMap.mem_iff_isSome_getElem?,
    Option.isSome_iff_ne_none, deadline?]

theorem armed_cancel (t : TimerTable) (key : TimerKey) :
    (t.cancel key).armed = t.armed.erase key := by
  ext k
  rw [Finset.mem_erase, mem_armed, mem_armed, deadline?_cancel]
  by_cases hk : key = k <;> simp [hk, eq_comm]

end TimerTable

namespace Engine

/-- The charge of a timer. -/
def charge (e : Engine) (key : TimerKey) : Nat :=
  e.config.charge ((e.sendSessions[key.session]?.bind fun s => s.resends key.kind) <|>
    e.recvSessions[key.session]?.bind fun s => s.resends key.kind) key.kind

/-- The charges of the armed timers. -/
def unrest (e : Engine) : Nat := Alarms.unrest e.charge e.timerTable.armed []

/-- Every due inactivity timer is that of a session that has timed out, if sessions time out at
all. -/
structure Lapsed (e : Engine) (now : Nat) (due : List TimerKey) : Prop where
  send : 0 < e.config.sessionInactivityTimeoutMicros → ∀ (sid : SessionId) (s : SendSession),
    .inactivity sid true ∈ due → e.sendSessions[sid]? = some s →
    e.config.TimedOut s.lastActivity now
  recv : 0 < e.config.sessionInactivityTimeoutMicros → ∀ (sid : SessionId) (s : RecvSession),
    .inactivity sid false ∈ due → e.recvSessions[sid]? = some s →
    e.config.TimedOut s.lastActivity now

section Expired

variable {e e' : Engine} {sid : SessionId} {kind : TimerKind} {now : Nat} {due : List TimerKey}

/-- The charges of one session's timers are those of its view. -/
theorem charge_own (hown : e.Owned) (hsid : sid.originator = e.config.engineId) :
    (fun k => e.charge ⟨sid, k⟩) =
      e.config.charges ((e.sendView sid).session.map SendSession.resends) := by
  ext k
  simp only [charge, hown.recv_none hsid, EngineConfig.charges, sendView_session]
  cases e.sendSessions[sid]? <;> simp

theorem charge_foreign (hown : e.Owned) (hsid : sid.originator ≠ e.config.engineId) :
    (fun k => e.charge ⟨sid, k⟩) =
      e.config.charges ((e.recvView sid).session.map RecvSession.resends) := by
  ext k
  simp only [charge, hown.send_none hsid, EngineConfig.charges, recvView_session]
  cases e.recvSessions[sid]? <;> simp

/-- Work on one session leaves the charges of the others. -/
theorem Acts.charge {p : List Push} {n : List Notice} (h : Acts sid p n e e') {key : TimerKey}
    (hkey : key.session ≠ sid) : e'.charge key = e.charge key := by
  simp only [Engine.charge, h.config, h.send _ hkey, h.recv _ hkey]

/-- What happens to the timers of one session is all that happens. -/
theorem Acts.lapses {p : List Push} {n : List Notice} (h : Acts sid p n e e')
    (hsid : Lapses kind (fun k => e.charge ⟨sid, k⟩) (e.armed sid) (fun k => e'.charge ⟨sid, k⟩)
      (e'.armed sid)) :
    Lapses ⟨sid, kind⟩ e.charge e.timerTable.armed e'.charge e'.timerTable.armed := by
  have hview : ∀ e : Engine, Set.preimage (TimerKey.mk sid) e.timerTable.armed = e.armed sid := by
    intro e
    ext k
    simp [armed]
  have hother : ∀ key : TimerKey, (∀ k, TimerKey.mk sid k ≠ key) → key.session ≠ sid := by
    rintro ⟨t, k⟩ hne rfl
    exact hne k rfl
  refine Lapses.lift (f := TimerKey.mk sid) (fun k k' heq => (TimerKey.mk.inj heq).2) ?_
    (fun key hkey => (h.charge (hother key hkey)).le) fun key harmed hkey => ?_
  · rw [hview, hview]
    exact hsid
  · have htimer := h.timers key (hother key hkey)
    simpa [htimer] using harmed

/-- Without a timeout the inactivity timer does nothing. -/
theorem handleInactivityTimeout_of_zero (hzero : e.config.sessionInactivityTimeoutMicros = 0)
    (sid : SessionId) (isSender : Bool) (now : Nat) :
    e.handleInactivityTimeout sid isSender now = e := by
  unfold handleInactivityTimeout
  simp only [timedOut, rearmInactivity, hzero, lt_irrefl, decide_false, Bool.false_and,
    Bool.false_eq_true, if_false]
  split <;> split <;> rfl

/-- Handling an expired timer lowers the charges, and puts out at most one segment. -/
theorem lapses_handleExpired (hown : e.Owned) (hlapsed : e.Lapsed now (⟨sid, kind⟩ :: due)) :
    (e.handleExpired now ⟨sid, kind⟩).config = e.config ∧
    Lapses ⟨sid, kind⟩ e.charge e.timerTable.armed (e.handleExpired now ⟨sid, kind⟩).charge
      (e.handleExpired now ⟨sid, kind⟩).timerTable.armed ∧
    ∃ out, (e.handleExpired now ⟨sid, kind⟩).outbound = e.outbound ++ out ∧ out.length ≤ 1 := by
  by_cases hidle : e.config.sessionInactivityTimeoutMicros = 0 ∧ ∃ b, kind = .inactivity b
  · obtain ⟨hzero, b, rfl⟩ := hidle
    have heq : e.handleExpired now ⟨sid, .inactivity b⟩ = e :=
      handleInactivityTimeout_of_zero hzero sid b now
    rw [heq]
    exact ⟨rfl, .settled (fun _ => le_rfl) subset_rfl, [], by simp, Nat.zero_le 1⟩
  have hpos : ∀ b, kind = .inactivity b → 0 < e.config.sessionInactivityTimeoutMicros :=
    fun b hb => Nat.pos_of_ne_zero fun hzero => hidle ⟨hzero, b, hb⟩
  by_cases hsid : sid.originator = e.config.engineId
  · obtain ⟨p, n, hmoves⟩ := @handleExpired_own e hown ⟨sid, kind⟩ now hsid
    have hconfig := hmoves.acts.config
    have hown' := hown.movesSend hsid hmoves
    obtain ⟨hlapses, hlen⟩ := hmoves.move.lapses fun hkind s hs =>
      hlapsed.send (hpos true hkind) sid s
        (List.mem_cons.mpr (.inl (congrArg (TimerKey.mk sid) hkind).symm)) hs
    refine ⟨hconfig, hmoves.acts.lapses ?_, _, hmoves.acts.outbound, by simpa using hlen⟩
    rw [charge_own hown hsid, charge_own hown' (by rw [hconfig]; exact hsid), hconfig]
    exact hlapses
  · obtain ⟨p, n, hmoves⟩ := @handleExpired_foreign e hown ⟨sid, kind⟩ now hsid
    have hconfig := hmoves.acts.config
    have hown' := hown.movesRecv hsid hmoves
    obtain ⟨hlapses, hlen⟩ := hmoves.move.lapses fun hkind s hs =>
      hlapsed.recv (hpos false hkind) sid s
        (List.mem_cons.mpr (.inl (congrArg (TimerKey.mk sid) hkind).symm)) hs
    refine ⟨hconfig, hmoves.acts.lapses ?_, _, hmoves.acts.outbound, by simpa using hlen⟩
    rw [charge_foreign hown hsid, charge_foreign hown' (by rw [hconfig]; exact hsid), hconfig]
    exact hlapses

/-- Handling a timer moves no last activity. -/
theorem Lapsed.handleExpired (hown : e.Owned) {key : TimerKey} (h : e.Lapsed now (key :: due)) :
    (e.handleExpired now key).Owned ∧ (e.handleExpired now key).Lapsed now due := by
  by_cases hsid : key.session.originator = e.config.engineId
  · obtain ⟨p, n, hmoves⟩ := handleExpired_own hown now hsid
    have hconfig := hmoves.acts.config
    have hnone := hmoves.recv (hown.recv_none hsid)
    refine ⟨hown.movesSend hsid hmoves, fun hpos t s' hmem hs' => ?_, fun hpos t s' hmem hs' => ?_⟩
    · rw [hconfig] at hpos ⊢
      by_cases ht : t = key.session
      · subst ht
        obtain ⟨s, hs, hlast, -⟩ := hmoves.move.of_expired hs'
        rw [← hlast]
        exact h.send hpos _ s (List.mem_cons_of_mem _ hmem) hs
      · rw [hmoves.acts.send t ht] at hs'
        exact h.send hpos t s' (List.mem_cons_of_mem _ hmem) hs'
    · rw [hconfig] at hpos ⊢
      by_cases ht : t = key.session
      · rw [ht, hnone] at hs'
        cases hs'
      · rw [hmoves.acts.recv t ht] at hs'
        exact h.recv hpos t s' (List.mem_cons_of_mem _ hmem) hs'
  · obtain ⟨p, n, hmoves⟩ := handleExpired_foreign hown now hsid
    have hconfig := hmoves.acts.config
    have hnone := hmoves.send (hown.send_none hsid)
    refine ⟨hown.movesRecv hsid hmoves, fun hpos t s' hmem hs' => ?_, fun hpos t s' hmem hs' => ?_⟩
    · rw [hconfig] at hpos ⊢
      by_cases ht : t = key.session
      · rw [ht, hnone] at hs'
        cases hs'
      · rw [hmoves.acts.send t ht] at hs'
        exact h.send hpos t s' (List.mem_cons_of_mem _ hmem) hs'
    · rw [hconfig] at hpos ⊢
      by_cases ht : t = key.session
      · subst ht
        obtain ⟨s, hs, hlast, -⟩ := hmoves.move.of_expired hs'
        rw [← hlast]
        exact h.recv hpos _ s (List.mem_cons_of_mem _ hmem) hs
      · rw [hmoves.acts.recv t ht] at hs'
        exact h.recv hpos t s' (List.mem_cons_of_mem _ hmem) hs'

/-- Handling the expired timers of a tick. -/
theorem Lapsed.foldl (hown : e.Owned) (htimed : e.Timed due) (hdue : due.Nodup)
    (h : e.Lapsed now due) :
    (due.foldl (fun e key => e.handleExpired now key) e).Owned ∧
    (due.foldl (fun e key => e.handleExpired now key) e).Timed [] ∧
    (due.foldl (fun e key => e.handleExpired now key) e).config = e.config ∧
    (due.foldl (fun e key => e.handleExpired now key) e).unrest + due.length ≤
      Alarms.unrest e.charge e.timerTable.armed due ∧
    ∃ out, (due.foldl (fun e key => e.handleExpired now key) e).outbound = e.outbound ++ out ∧
      out.length ≤ due.length := by
  induction due generalizing e with
  | nil => exact ⟨hown, htimed, rfl, le_rfl, [], by simp, le_rfl⟩
  | cons key due ih =>
    obtain ⟨hown', h'⟩ := h.handleExpired hown
    obtain ⟨hconfig, hlapses, out, hout, hlen⟩ := lapses_handleExpired hown h
    obtain ⟨hownAfter, htimedAfter, hconfig', hle, out', hout', hlen'⟩ :=
      ih hown' (htimed.handleExpired hown now) (List.nodup_cons.mp hdue).2 h'
    have hlt : Alarms.unrest (e.handleExpired now key).charge
        (e.handleExpired now key).timerTable.armed due <
        Alarms.unrest e.charge e.timerTable.armed (key :: due) :=
      hlapses.unrest_lt (EngineConfig.charge_pos ..) hdue
    simp only [List.foldl_cons, List.length_cons]
    refine ⟨hownAfter, htimedAfter, hconfig'.trans hconfig, by omega, out ++ out', ?_, ?_⟩
    · rw [hout', hout, List.append_assoc]
    · rw [List.length_append]
      omega

end Expired

/-! ### Ticks -/

/-- What the expired timers of a table are. -/
theorem drainExpired_spec (now fuel : Nat) (table : TimerTable) (charge : TimerKey → Nat) :
    (drainExpired now fuel table).1.Nodup ∧
    (∀ key ∈ (drainExpired now fuel table).1, ∃ d, table.deadline? key = some d ∧ d ≤ now) ∧
    Alarms.unrest charge (drainExpired now fuel table).2.armed (drainExpired now fuel table).1 =
      Alarms.unrest charge table.armed [] := by
  induction fuel generalizing table with
  | zero => exact ⟨List.nodup_nil, by simp [drainExpired], rfl⟩
  | succ fuel ih =>
    rw [drainExpired]
    cases hpoll : table.pollExpired now with
    | none => exact ⟨List.nodup_nil, by simp, rfl⟩
    | some out =>
      obtain ⟨first, rest⟩ := out
      obtain ⟨rfl, d, hfirst, hd⟩ := TimerTable.pollExpired_some hpoll
      obtain ⟨hnodup, hdue, hsum⟩ := ih (table.cancel first)
      simp only
      refine ⟨List.nodup_cons.mpr ⟨fun hmem => ?_, hnodup⟩, fun key hkey => ?_, ?_⟩
      · obtain ⟨d', hd', -⟩ := hdue first hmem
        simp at hd'
      · rcases List.mem_cons.mp hkey with rfl | hkey
        · exact ⟨d, hfirst, hd⟩
        · obtain ⟨d', hd', hle⟩ := hdue key hkey
          rw [TimerTable.deadline?_cancel] at hd'
          split at hd'
          · cases hd'
          · exact ⟨d', hd', hle⟩
      · have hmem : first ∈ table.armed := by simp [hfirst]
        have hsplit := Finset.add_sum_erase table.armed charge hmem
        simp only [Alarms.unrest, TimerTable.armed_cancel, List.map_cons, List.sum_cons,
          List.map_nil, List.sum_nil] at hsum ⊢
        omega

section Ticks

variable {e : Engine} {now : Nat}

/-- A due inactivity timer has the deadline of its session's last activity. -/
theorem timedOut_of_timely {sid : SessionId} {isSender : Bool} {reason : Option CancelReason}
    {lastActivity : Nat} (hnow : now < u64Max)
    (hpos : 0 < e.config.sessionInactivityTimeoutMicros)
    (h : Timely isSender e.config.sessionInactivityTimeoutMicros ∅ (e.alarm sid) reason lastActivity)
    (hdue : .inactivity sid isSender ∈ (e.expire now).1) : e.config.TimedOut lastActivity now := by
  obtain ⟨-, hdeadline, -⟩ := drainExpired_spec now e.timerTable.byDeadline.size e.timerTable e.charge
  obtain ⟨d, hd, hle⟩ := hdeadline _ hdue
  have hset := (h.inactive hpos).resolve_right fun hnone => hnone
  have hd' : satAdd lastActivity e.config.sessionInactivityTimeoutMicros = d :=
    Option.some.inj (hset.symm.trans hd)
  simp only [satAdd] at hd'
  exact ⟨hpos, by omega⟩

theorem Timed.lapsed (hown : e.Owned) (h : e.Timed []) (hnow : now < u64Max) :
    (e.expire now).2.Lapsed now (e.expire now).1 where
  send := fun hpos sid s hdue hs => by
    have hs' : e.sendSessions[sid]? = some s := hs
    have hout : e.config.TimedOut s.lastActivity now :=
      timedOut_of_timely hnow hpos (h.sendSession hown hs') hdue
    exact hout
  recv := fun hpos sid s hdue hs => by
    have hs' : e.recvSessions[sid]? = some s := hs
    have hout : e.config.TimedOut s.lastActivity now :=
      timedOut_of_timely hnow hpos (h.recvSession hown hs').timely hdue
    exact hout

/-- An engine between two calls: its sessions are its own, and its timers are kept. -/
structure Settled (config : EngineConfig) (e : Engine) : Prop where
  owned : e.Owned
  timed : e.Timed []
  configured : e.config = config

/-- A tick lowers the unrest by the number of the timers that it handles. -/
theorem Settled.handleTimerTick {config : EngineConfig} (h : Settled config e) (hnow : now < u64Max) :
    Settled config (e.handleTimerTick now) ∧
    (e.handleTimerTick now).unrest + (e.expire now).1.length ≤ e.unrest ∧
    ∃ out, (e.handleTimerTick now).outbound = e.outbound ++ out ∧
      out.length ≤ (e.expire now).1.length := by
  have hown' : (e.expire now).2.Owned := ⟨h.owned.send, h.owned.recv⟩
  obtain ⟨hdue, -, hsum⟩ :=
    drainExpired_spec now e.timerTable.byDeadline.size e.timerTable e.charge
  obtain ⟨hown, htimed, hconfig, hle, hout⟩ :=
    (h.timed.lapsed h.owned hnow).foldl hown' (h.timed.expire now) hdue
  refine ⟨⟨hown, htimed, hconfig.trans h.configured⟩, ?_, hout⟩
  exact hle.trans hsum.le

/-- A tick before the next deadline handles nothing. -/
theorem expire_of_lt (h : ∀ d, e.nextTimerDeadline = some d → now < d) : e.expire now = ([], e) := by
  have hpoll : e.timerTable.pollExpired now = none := by
    rw [TimerTable.pollExpired]
    cases hfirst : e.timerTable.first? with
    | none => rfl
    | some x =>
      have hlt := h x.deadline (by simp [nextTimerDeadline, TimerTable.nextDeadline, hfirst])
      simp only [if_neg (not_le.mpr hlt)]
  have hdrain : ∀ fuel, drainExpired now fuel e.timerTable = ([], e.timerTable) := by
    intro fuel
    cases fuel with
    | zero => rfl
    | succ fuel => rw [drainExpired, hpoll]
  rw [expire, hdrain]

/-- A tick that reaches the next deadline handles a timer. -/
theorem length_expire_pos {d : Nat} (hd : e.nextTimerDeadline = some d) (hle : d ≤ now) :
    0 < (e.expire now).1.length := by
  rw [nextTimerDeadline, TimerTable.nextDeadline, Option.map_eq_some_iff] at hd
  obtain ⟨x, hfirst, rfl⟩ := hd
  have hkey := (TimerTable.first?_eq_some hfirst).1
  exact List.length_pos_of_mem (mem_drainExpired_of_le le_rfl hkey hle)

theorem Settled.unrest_le {config : EngineConfig} (h : Settled config e) :
    e.unrest ≤ e.timerTable.armed.card * config.maxCharge := by
  rw [← h.configured]
  exact Alarms.unrest_le (fun key => e.config.charge_le _ _) _

/-- Without an armed timer there is no session, if sessions time out. -/
theorem Settled.no_sessions {config : EngineConfig} (h : Settled config e)
    (hpos : 0 < config.sessionInactivityTimeoutMicros) (hnone : e.nextTimerDeadline = none)
    (sid : SessionId) : e.sendSessions[sid]? = none ∧ e.recvSessions[sid]? = none := by
  rw [← h.configured] at hpos
  have hfirst : e.timerTable.first? = none := Option.map_eq_none_iff.mp hnone
  have halarm : ∀ kind, e.alarm sid kind = none := fun kind =>
    TimerTable.first?_eq_none hfirst ⟨sid, kind⟩
  constructor
  · by_contra hs
    obtain ⟨s, hs⟩ := Option.ne_none_iff_exists'.mp hs
    have hset := ((h.timed.sendSession h.owned hs).inactive hpos).resolve_right fun hdue => hdue
    rw [halarm] at hset
    cases hset
  · by_contra hs
    obtain ⟨s, hs⟩ := Option.ne_none_iff_exists'.mp hs
    have hset :=
      ((h.timed.recvSession h.owned hs).timely.inactive hpos).resolve_right fun hdue => hdue
    rw [halarm] at hset
    cases hset

end Ticks

/-! ### Runs of ticks -/

/-- The engine after ticks at the given times, with nothing received in between. -/
abbrev ticks (e : Engine) (nows : List Nat) : Engine := Trace.run handleTimerTick e nows

/-- How many timers ticks at the given times handle. -/
def handled : Engine → List Nat → Nat
  | _, [] => 0
  | e, now :: nows => (e.expire now).1.length + (e.handleTimerTick now).handled nows

section Runs

variable {config : EngineConfig} {e : Engine} {nows : List Nat}

theorem Settled.ticks (h : Settled config e) (hclock : ∀ now ∈ nows, now < u64Max) :
    Settled config (e.ticks nows) ∧ (e.ticks nows).unrest + e.handled nows ≤ e.unrest ∧
    ∃ out, (e.ticks nows).outbound = e.outbound ++ out ∧ out.length ≤ e.handled nows := by
  induction nows generalizing e with
  | nil => exact ⟨h, le_rfl, [], by simp, le_rfl⟩
  | cons now nows ih =>
    obtain ⟨h', hle, out, hout, hlen⟩ := h.handleTimerTick (hclock now List.mem_cons_self)
    obtain ⟨hend, hle', out', hout', hlen'⟩ :=
      ih h' fun t ht => hclock t (List.mem_cons_of_mem now ht)
    simp only [Engine.ticks, Trace.run_cons, handled] at *
    refine ⟨hend, by omega, out ++ out', ?_, ?_⟩
    · rw [hout', hout, List.append_assoc]
    · rw [List.length_append]
      omega

/-- Each tick that reaches a deadline handles a timer. -/
theorem length_le_handled
    (hdue : Trace.Along handleTimerTick (fun e now => ∃ d, e.nextTimerDeadline = some d ∧ d ≤ now)
      e nows) : nows.length ≤ e.handled nows := by
  induction nows generalizing e with
  | nil => exact le_rfl
  | cons now nows ih =>
    obtain ⟨⟨d, hd, hle⟩, hrest⟩ := hdue
    have hpos := length_expire_pos hd hle
    have hrest' := ih hrest
    simp only [handled, List.length_cons]
    omega

/-- Without an armed timer ticks do nothing. -/
theorem ticks_of_none (hnone : e.nextTimerDeadline = none) : e.ticks nows = e := by
  induction nows with
  | nil => rfl
  | cons now nows ih =>
    have hidle : e.expire now = ([], e) := expire_of_lt fun d hd => by
      rw [hnone] at hd
      cases hd
    have htick : e.handleTimerTick now = e := by simp [handleTimerTick, hidle]
    rw [Engine.ticks, Trace.run_cons, htick]
    exact ih

/-- Ticks that keep to the deadlines either all reach one, or there is none left at the end. -/
theorem rests_or_reaches
    (hdue : Trace.Along handleTimerTick (fun e now => ∀ d, e.nextTimerDeadline = some d → d ≤ now)
      e nows) :
    (e.ticks nows).nextTimerDeadline = none ∨
      Trace.Along handleTimerTick (fun e now => ∃ d, e.nextTimerDeadline = some d ∧ d ≤ now)
        e nows := by
  induction nows generalizing e with
  | nil => exact .inr trivial
  | cons now nows ih =>
    cases hnext : e.nextTimerDeadline with
    | none =>
      rw [ticks_of_none hnext]
      exact .inl hnext
    | some d => exact (ih hdue.2).imp_right fun hrest => ⟨⟨d, hnext, hdue.1 d hnext⟩, hrest⟩

end Runs

end Engine

theorem Host.settled_run {config : EngineConfig} {calls : List Call}
    (hidle : ((Host.new config).run calls).pending = []) :
    Engine.Settled config ((Host.new config).run calls).engine := by
  have htimed := Host.timed_run config calls
  rw [hidle] at htimed
  exact ⟨Host.owned_run (Engine.owned_new config) calls, htimed,
    Host.config_run (Engine.owned_new config) calls⟩

/-- From every reachable state, an engine that hears nothing sends at most a fixed number of segments
for each timer that it has armed; ticks before the next deadline change nothing, only so many ticks
can reach a deadline, and after so many no timer is armed and no session is left. -/
theorem silent_engine_rests {config : EngineConfig} {calls : List Call}
    (hidle : ((Host.new config).run calls).pending = []) :
    let e := ((Host.new config).run calls).engine
    let bound := e.timerTable.armed.card * config.maxCharge
    (∀ now, (∀ d, e.nextTimerDeadline = some d → now < d) → e.handleTimerTick now = e) ∧
    ∀ nows : List Nat, (∀ now ∈ nows, now < u64Max) →
      (∃ out, (e.ticks nows).outbound = e.outbound ++ out ∧ out.length ≤ bound) ∧
      (Trace.Along Engine.handleTimerTick
        (fun e now => ∃ d, e.nextTimerDeadline = some d ∧ d ≤ now) e nows → nows.length ≤ bound) ∧
      (Trace.Along Engine.handleTimerTick
        (fun e now => ∀ d, e.nextTimerDeadline = some d → d ≤ now) e nows → bound < nows.length →
        (e.ticks nows).nextTimerDeadline = none ∧
        (0 < config.sessionInactivityTimeoutMicros → ∀ sid : SessionId,
          (e.ticks nows).sendSessions[sid]? = none ∧ (e.ticks nows).recvSessions[sid]? = none)) := by
  intro e bound
  have hsettled : Engine.Settled config e := Host.settled_run hidle
  have hbound : e.unrest ≤ bound := hsettled.unrest_le
  refine ⟨fun now hearly => ?_, fun nows hclock => ?_⟩
  · simp [Engine.handleTimerTick, Engine.expire_of_lt hearly]
  · obtain ⟨hend, hle, out, hout, hlen⟩ := hsettled.ticks hclock
    refine ⟨⟨out, hout, by omega⟩, fun hdue => ?_, fun hdue hlong => ?_⟩
    · have hwork := Engine.length_le_handled hdue
      omega
    · have hrest : (e.ticks nows).nextTimerDeadline = none := by
        refine (Engine.rests_or_reaches hdue).resolve_right fun hreaches => ?_
        have hwork := Engine.length_le_handled hreaches
        omega
      exact ⟨hrest, fun hpos => hend.no_sessions hpos hrest⟩

/-- A block is requested, and then nothing is heard for an hour. -/
theorem silent_engine_rests_requested :
    (((Host.new .default).run [.request ⟨2⟩ 1 [7] 1 0]).engine.ticks
      ((List.range 60).map fun minute => (minute + 1) * 60000000)).nextTimerDeadline = none :=
  (((@silent_engine_rests .default [.request ⟨2⟩ 1 [7] 1 0] (by decide +kernel)).2
    ((List.range 60).map fun minute => (minute + 1) * 60000000) (by decide)).2.2
    (by decide +kernel) (by decide +kernel)).1

end HdyUtils.Ltp
