import HdyUtils.Ltp.Engine.Timing
import HdyUtils.Ltp.HostMove

/-! Every timer has its session and every session has its timers, in all states that an engine
reaches; and a tick leaves no session that has been inactive for too long. -/

namespace HdyUtils.Ltp

/-! ### Taking the expired timers -/

namespace Engine

/-- Taking the expired timers leaves the deadlines of the others. -/
theorem deadline?_drainExpired (now fuel : Nat) (table : TimerTable) (key : TimerKey) :
    (drainExpired now fuel table).2.deadline? key = table.deadline? key ∨
      (drainExpired now fuel table).2.deadline? key = none ∧
        key ∈ (drainExpired now fuel table).1 := by
  induction fuel generalizing table with
  | zero => exact .inl rfl
  | succ fuel ih =>
    rw [drainExpired]
    cases hpoll : table.pollExpired now with
    | none => exact .inl rfl
    | some out =>
      obtain ⟨first, rest⟩ := out
      obtain ⟨rfl, -⟩ := TimerTable.pollExpired_some hpoll
      simp only
      have hrest := ih (table.cancel first)
      by_cases hkey : first = key
      · subst hkey
        rw [TimerTable.deadline?_cancel, if_pos rfl] at hrest
        exact .inr ⟨hrest.elim (fun heq => heq) And.left, List.mem_cons_self⟩
      · rw [TimerTable.deadline?_cancel, if_neg hkey] at hrest
        exact hrest.imp_right fun h => ⟨h.1, List.mem_cons_of_mem _ h.2⟩

/-- With fuel for the whole table, every timer that has expired is taken. -/
theorem mem_drainExpired_of_le {now fuel : Nat} {table : TimerTable}
    (hfuel : table.byDeadline.size ≤ fuel) {key : TimerKey} {deadline : Nat}
    (hkey : table.deadline? key = some deadline) (hdue : deadline ≤ now) :
    key ∈ (drainExpired now fuel table).1 := by
  induction fuel generalizing table with
  | zero =>
    have hsize := TimerTable.size_cancel hkey
    omega
  | succ fuel ih =>
    rw [drainExpired]
    cases hpoll : table.pollExpired now with
    | none =>
      have hlate := TimerTable.pollExpired_none hpoll hkey
      omega
    | some out =>
      obtain ⟨first, rest⟩ := out
      obtain ⟨rfl, d, hfirst, -⟩ := TimerTable.pollExpired_some hpoll
      simp only
      by_cases heq : first = key
      · rw [heq]
        exact List.mem_cons_self
      · have hsize := TimerTable.size_cancel hfirst
        apply List.mem_cons_of_mem
        apply ih (by omega)
        rw [TimerTable.deadline?_cancel, if_neg heq]
        exact hkey

/-! ### All sessions -/

/-- The kinds of a session's timers among some keys. -/
def kindsOf (sid : SessionId) (keys : List TimerKey) : Set TimerKind :=
  {kind | (⟨sid, kind⟩ : TimerKey) ∈ keys}

/-- The timers of all sessions, apart from those that are due. -/
structure Timed (e : Engine) (due : List TimerKey) : Prop where
  send : ∀ sid : SessionId, sid.originator = e.config.engineId → e.SendTimed (kindsOf sid due) sid
  recv : ∀ sid : SessionId, sid.originator ≠ e.config.engineId → e.RecvTimed (kindsOf sid due) sid

theorem timed_new (config : EngineConfig) : (new config).Timed [] := by
  have halarm : ∀ (sid : SessionId) (kind : TimerKind), (new config).alarm sid kind = none :=
    fun sid kind => TimerTable.deadline?_new _
  constructor
  · exact fun sid _ => sendTimed_removed (by simp [new]) (halarm sid)
  · exact fun sid _ => recvTimed_removed (by simp [new]) (halarm sid)

section Frame

variable {e e' : Engine} {sid : SessionId} {due due' : Set TimerKind}

theorem SendTimed.congr (h : e.SendTimed due sid) (hconfig : e'.config = e.config)
    (hsession : e'.sendSessions[sid]? = e.sendSessions[sid]?) (halarm : e'.alarm sid = e.alarm sid)
    (hdue : due' = due) : e'.SendTimed due' sid := by
  rw [SendTimed, hsession, halarm, hconfig, hdue]
  exact h

theorem RecvTimed.congr (h : e.RecvTimed due sid) (hconfig : e'.config = e.config)
    (hsession : e'.recvSessions[sid]? = e.recvSessions[sid]?) (halarm : e'.alarm sid = e.alarm sid)
    (hdue : due' = due) : e'.RecvTimed due' sid := by
  rw [RecvTimed, hsession, halarm, hconfig, hdue]
  exact h

/-- Work on one session leaves the timers of the others as they are. -/
theorem Timed.acts {p : List Push} {n : List Notice} {keys keys' : List TimerKey}
    (h : e.Timed keys) (hacts : Acts sid p n e e')
    (hkeys : ∀ t, t ≠ sid → kindsOf t keys' = kindsOf t keys)
    (hsend : sid.originator = e.config.engineId → e'.SendTimed (kindsOf sid keys') sid)
    (hrecv : sid.originator ≠ e.config.engineId → e'.RecvTimed (kindsOf sid keys') sid) :
    e'.Timed keys' := by
  have halarm : ∀ t, t ≠ sid → e'.alarm t = e.alarm t := fun t ht =>
    funext fun kind => hacts.timers ⟨t, kind⟩ ht
  constructor
  · intro t ht
    rw [hacts.config] at ht
    by_cases heq : t = sid
    · rw [heq]
      exact hsend (heq ▸ ht)
    · exact (h.send t ht).congr hacts.config (hacts.send t heq) (halarm t heq) (hkeys t heq)
  · intro t ht
    rw [hacts.config] at ht
    by_cases heq : t = sid
    · rw [heq]
      exact hrecv (heq ▸ ht)
    · exact (h.recv t ht).congr hacts.config (hacts.recv t heq) (halarm t heq) (hkeys t heq)

end Frame

/-! ### Segments -/

section Segments

variable {e : Engine} {due : Set TimerKind} {segment : Segment}

theorem sendTimed_handleSegment (hown : e.Owned)
    (hsid : segment.session.originator = e.config.engineId)
    (h : e.SendTimed due segment.session) (source : EngineId) (now : Nat) :
    (e.handleSegment source segment now).SendTimed due segment.session := by
  have hsound : ∀ s, e.sendSessions[segment.session]? = some s →
      s.Sound segment.session e.config.maxBlockSize.toNat := fun s hs => (hown.send _ s hs).2
  unfold handleSegment
  simp only [hsid, beq_self_eq_true, if_true]
  cases segment.body with
  | data | reportAck | cancelSender | cancelAckReceiver => exact h
  | report rs => exact sendTimed_handleIncomingReport h hsound _ rs now
  | cancelReceiver reason => exact sendTimed_handleIncomingCancel _ reason false
  | cancelAckSender => exact sendTimed_handleIncomingCancelAck

theorem recvTimed_handleSegment (hsid : segment.session.originator ≠ e.config.engineId)
    (h : e.RecvTimed due segment.session) (source : EngineId) (now : Nat) :
    (e.handleSegment source segment now).RecvTimed due segment.session := by
  have hforeign : (segment.session.originator == e.config.engineId) = false := by simpa using hsid
  unfold handleSegment
  simp only [hforeign, Bool.false_eq_true, if_false]
  cases segment.body with
  | report | cancelReceiver | cancelAckSender => exact h
  | data ds => exact recvTimed_handleIncomingData h _ ds now
  | reportAck serial => exact recvTimed_handleIncomingReportAck h serial now
  | cancelSender reason => exact recvTimed_handleIncomingCancel _ reason true
  | cancelAckReceiver => exact recvTimed_handleIncomingCancelAck

theorem Timed.handleSegment (hown : e.Owned) (h : e.Timed []) (source : EngineId)
    (segment : Segment) (now : Nat) : (e.handleSegment source segment now).Timed [] := by
  by_cases hsid : segment.session.originator = e.config.engineId
  · rcases handleSegment_own hown hsid with heq | ⟨trigger, p, n, -, hmoves⟩
    · rw [heq]
      exact h
    · exact h.acts hmoves.acts (fun _ _ => rfl)
        (fun _ => sendTimed_handleSegment hown hsid (h.send _ hsid) source now)
        (fun hforeign => absurd hsid hforeign)
  · rcases handleSegment_foreign hown hsid with heq | ⟨trigger, p, n, -, hmoves⟩
    · rw [heq]
      exact h
    · exact h.acts hmoves.acts (fun _ _ => rfl) (fun hsame => absurd hsame hsid)
        (fun _ => recvTimed_handleSegment hsid (h.recv _ hsid) source now)

end Segments

/-! ### Expired timers -/

section Expired

variable {e : Engine} {due : Set TimerKind} {sid : SessionId} {kind : TimerKind}

/-- A timer that is not of a send session is not missed. -/
theorem SendTimed.discharge (h : e.SendTimed (insert kind due) sid)
    (hkind : kind.ofSender = false) : e.SendTimed due sid := by
  cases hs : e.sendSessions[sid]? with
  | none => exact sendTimed_removed hs ((sendTimed_none hs).mp h)
  | some s =>
    refine (sendTimed_some hs).mpr (((sendTimed_some hs).mp h).discharge ?_ ?_)
    · rintro rfl
      cases hkind
    · rintro rfl
      cases hkind

theorem RecvTimed.discharge (h : e.RecvTimed (insert kind due) sid)
    (hkind : kind.ofSender = true) : e.RecvTimed due sid := by
  cases hs : e.recvSessions[sid]? with
  | none => exact recvTimed_removed hs ((recvTimed_none hs).mp h)
  | some s =>
    refine (recvTimed_some hs).mpr (((recvTimed_some hs).mp h).discharge ?_ ?_ ?_)
    · rintro serial rfl
      cases hkind
    · rintro rfl
      cases hkind
    · rintro rfl
      cases hkind

theorem sendTimed_handleExpired (hown : e.Owned) (hsid : sid.originator = e.config.engineId)
    (h : e.SendTimed (insert kind due) sid) (now : Nat) :
    (e.handleExpired now ⟨sid, kind⟩).SendTimed due sid := by
  have hrecv := hown.recv_none hsid
  cases kind with
  | checkpoint serial => exact sendTimed_handleCpTimeout serial now h
  | report serial =>
    simp only [handleExpired, handleRsTimeout, hrecv]
    exact h.discharge rfl
  | cancel isSender =>
    cases isSender with
    | true => exact sendTimed_handleCancelTimeout now h
    | false =>
      simp only [handleExpired, handleCancelTimeout, hrecv, Bool.false_eq_true, if_false]
      exact h.discharge rfl
  | inactivity isSender =>
    cases isSender with
    | true => exact sendTimed_handleInactivityTimeout now h
    | false =>
      simp only [handleExpired, handleInactivityTimeout, hrecv, Bool.false_eq_true, if_false]
      exact h.discharge rfl

theorem recvTimed_handleExpired (hown : e.Owned) (hsid : sid.originator ≠ e.config.engineId)
    (h : e.RecvTimed (insert kind due) sid) (now : Nat) :
    (e.handleExpired now ⟨sid, kind⟩).RecvTimed due sid := by
  have hsend := hown.send_none hsid
  cases kind with
  | checkpoint serial =>
    simp only [handleExpired, handleCpTimeout, hsend]
    exact h.discharge rfl
  | report serial => exact recvTimed_handleRsTimeout serial now h
  | cancel isSender =>
    cases isSender with
    | true =>
      simp only [handleExpired, handleCancelTimeout, hsend, if_true]
      exact h.discharge rfl
    | false => exact recvTimed_handleCancelTimeout now h
  | inactivity isSender =>
    cases isSender with
    | true =>
      simp only [handleExpired, handleInactivityTimeout, hsend, if_true]
      exact h.discharge rfl
    | false => exact recvTimed_handleInactivityTimeout now h

theorem kindsOf_cons (sid : SessionId) (kind : TimerKind) (keys : List TimerKey) :
    kindsOf sid (⟨sid, kind⟩ :: keys) = insert kind (kindsOf sid keys) := by
  ext k
  simp [kindsOf]

theorem Timed.handleExpired (hown : e.Owned) {key : TimerKey} {keys : List TimerKey}
    (h : e.Timed (key :: keys)) (now : Nat) : (e.handleExpired now key).Timed keys := by
  have hkeys : ∀ t, t ≠ key.session → kindsOf t keys = kindsOf t (key :: keys) := by
    intro t ht
    ext kind
    simp only [kindsOf, Set.mem_ofPred_eq, List.mem_cons]
    refine (or_iff_right ?_).symm
    rintro rfl
    exact ht rfl
  by_cases hsid : key.session.originator = e.config.engineId
  · obtain ⟨p, n, hmoves⟩ := handleExpired_own hown now hsid
    refine h.acts hmoves.acts hkeys (fun _ => ?_) (fun hforeign => absurd hsid hforeign)
    have hsend := h.send _ hsid
    rw [kindsOf_cons key.session key.kind] at hsend
    exact sendTimed_handleExpired hown hsid hsend now
  · obtain ⟨p, n, hmoves⟩ := handleExpired_foreign hown now hsid
    refine h.acts hmoves.acts hkeys (fun hsame => absurd hsame hsid) (fun _ => ?_)
    have hrecv := h.recv _ hsid
    rw [kindsOf_cons key.session key.kind] at hrecv
    exact recvTimed_handleExpired hown hsid hrecv now

theorem timely_expire {isSender : Bool} {timeout : Nat} {reason : Option CancelReason}
    {lastActivity : Nat} (now : Nat)
    (h : Timely isSender timeout ∅ (e.alarm sid) reason lastActivity) :
    Timely isSender timeout (kindsOf sid (e.expire now).1) ((e.expire now).2.alarm sid) reason
      lastActivity where
  named := fun kind hkind => h.named kind ((e.armed_expire now sid kind).mpr (.inl hkind))
  cancelling := fun hreason =>
    (e.armed_expire now sid _).mp ((h.cancelling hreason).resolve_right fun hdue => hdue)
  inactive := fun hpos => by
    have hset := (h.inactive hpos).resolve_right fun hdue => hdue
    rw [← hset]
    exact (deadline?_drainExpired now _ e.timerTable ⟨sid, .inactivity isSender⟩).imp_right And.right

theorem Timed.expire (h : e.Timed []) (now : Nat) : (e.expire now).2.Timed (e.expire now).1 := by
  have hempty : ∀ t, kindsOf t [] = ∅ := fun t => by simp [kindsOf]
  have halarm : ∀ (t : SessionId), (∀ kind, e.alarm t kind = none) →
      ∀ kind, (e.expire now).2.alarm t kind = none := by
    intro t ht kind
    by_contra hkind
    exact (e.armed_expire now t kind).mpr (.inl hkind) (ht kind)
  constructor
  · intro t hsid
    have ht := h.send t hsid
    rw [hempty] at ht
    cases hs : e.sendSessions[t]? with
    | none => exact sendTimed_removed hs (halarm t ((sendTimed_none hs).mp ht))
    | some s => exact sendTimed_of (timely_expire now ((sendTimed_some hs).mp ht)) hs rfl rfl
  · intro t hsid
    have ht := h.recv t hsid
    rw [hempty] at ht
    cases hs : e.recvSessions[t]? with
    | none => exact recvTimed_removed hs (halarm t ((recvTimed_none hs).mp ht))
    | some s =>
      have hs' := (recvTimed_some hs).mp ht
      refine recvTimed_of ⟨timely_expire now hs'.timely, fun hopen serial rec hrec hacked => ?_⟩ hs rfl rfl
      have harmed := (hs'.reports hopen serial rec hrec hacked).resolve_right fun hdue => hdue
      exact (e.armed_expire now t _).mp harmed

end Expired

end Engine

namespace Host

variable {h : Host}

theorem timed_request (htimed : h.engine.Timed []) (peer : EngineId)
    (clientService : UInt64) (block : Bytes) (redLen now : Nat) :
    (h.request peer clientService block redLen now).engine.Timed [] := by
  unfold request
  cases hreq : h.engine.requestTransmission peer clientService block redLen now with
  | error err => exact htimed
  | ok out =>
    obtain ⟨sid, e⟩ := out
    obtain ⟨rfl, -, p, n, hmoves⟩ := Engine.movesSend_requestTransmission hreq
    have hnumbered : h.engine.numberSession.Timed [] := ⟨htimed.send, htimed.recv⟩
    exact hnumbered.acts hmoves.acts (fun _ _ => rfl)
      (fun hsid => Engine.sendTimed_requestTransmission (htimed.send _ hsid) hreq)
      (fun hforeign => absurd rfl hforeign)

theorem timed_step (htimed : h.engine.Timed h.pending) (hown : h.engine.Owned) (c : Call) :
    (h.step c).engine.Timed (h.step c).pending := by
  by_cases hfire : c = .fire
  · rw [hfire, step_fire, fire]
    cases hpending : h.pending with
    | nil =>
      rw [hpending] at htimed
      simpa [hpending] using htimed
    | cons key rest =>
      rw [hpending] at htimed
      exact htimed.handleExpired hown h.tickTime
  by_cases hidle : h.pending = []
  · rw [step_idle hidle]
    rw [hidle] at htimed
    cases c with
    | request peer clientService block redLen now =>
      rw [call, request_pending, hidle]
      exact timed_request htimed peer clientService block redLen now
    | segment source bytes now =>
      rw [call, receive_pending, hidle]
      unfold receive Engine.handleIncomingSegment
      split
      · next e heq =>
        split at heq
        · cases heq
        · split at heq
          · cases heq
          · cases heq
            exact htimed.handleSegment hown source _ now
      · exact htimed
    | tick now => exact htimed.expire now
    | fire => exact absurd rfl hfire
    | pollOutput | pollNotice | setPeerTiming | updatePeerRttSample =>
      have hsame : h.engine.Timed h.pending := by rwa [hidle]
      exact ⟨hsame.send, hsame.recv⟩
  · rw [step, if_neg (by simp [hidle, hfire])]
    exact htimed

theorem timed_run (config : EngineConfig) (calls : List Call) :
    ((new config).run calls).engine.Timed ((new config).run calls).pending := by
  have hstep : ∀ (h : Host) (c : Call), h.engine.Owned ∧ h.engine.Timed h.pending →
      (h.step c).engine.Owned ∧ (h.step c).engine.Timed (h.step c).pending := fun h c hinv =>
    ⟨owned_step hinv.1 c, timed_step hinv.2 hinv.1 c⟩
  have hnew : (new config).engine.Owned ∧ (new config).engine.Timed (new config).pending :=
    ⟨Engine.owned_new config, Engine.timed_new config⟩
  exact (Trace.run_invariant hstep calls hnew).2

end Host

/-! ### Inactive sessions -/

/-- What an expired timer leaves of a send session was there before, and not with the timer's
inactivity. -/
theorem SendMove.of_expired {config : EngineConfig} {sid : SessionId} {kind : TimerKind} {now : Nat}
    {v v' : SendView} {p : List Push} {n : List Notice}
    (h : SendMove config sid (.expired kind now) v p n v') {s' : SendSession}
    (hs' : v'.session = some s') : ∃ s, v.session = some s ∧ s.lastActivity = s'.lastActivity ∧
      (kind = .inactivity true → ¬config.TimedOut s.lastActivity now) := by
  cases h with
  | expiredIdle hidle =>
    refine ⟨s', hs', rfl, ?_⟩
    rintro rfl
    exact absurd rfl (hidle s' hs')
  | checkpointResent | checkpointExhausted | cancelResent =>
    cases hs'
    exact ⟨_, rfl, rfl, fun heq => nomatch heq⟩
  | inactivityRearmed hactive =>
    cases hs'
    exact ⟨_, rfl, rfl, fun _ => hactive⟩
  | cancelAbandoned | inactivityExpired => cases hs'

theorem RecvMove.of_expired {config : EngineConfig} {sid : SessionId} {kind : TimerKind} {now : Nat}
    {v v' : RecvView} {p : List Push} {n : List Notice}
    (h : RecvMove config sid (.expired kind now) v p n v') {s' : RecvSession}
    (hs' : v'.session = some s') : ∃ s, v.session = some s ∧ s.lastActivity = s'.lastActivity ∧
      (kind = .inactivity false → ¬config.TimedOut s.lastActivity now) := by
  cases h with
  | expiredIdle hidle =>
    refine ⟨s', hs', rfl, ?_⟩
    rintro rfl
    exact absurd rfl (hidle s' hs')
  | reportResent | reportExhausted | cancelResent =>
    cases hs'
    exact ⟨_, rfl, rfl, fun heq => nomatch heq⟩
  | inactivityRearmed hactive =>
    cases hs'
    exact ⟨_, rfl, rfl, fun _ => hactive⟩
  | cancelAbandoned | inactivityExpired => cases hs'

namespace Engine

/-- Every session that has timed out at `now` is among the keys by its inactivity timer. -/
structure Overdue (e : Engine) (config : EngineConfig) (now : Nat) (keys : List TimerKey) : Prop where
  configured : e.config = config
  send : ∀ (sid : SessionId) (s : SendSession), e.sendSessions[sid]? = some s →
    config.TimedOut s.lastActivity now → .inactivity sid true ∈ keys
  recv : ∀ (sid : SessionId) (s : RecvSession), e.recvSessions[sid]? = some s →
    config.TimedOut s.lastActivity now → .inactivity sid false ∈ keys

section Overdue

variable {e : Engine} {config : EngineConfig} {now : Nat}

theorem Overdue.handleExpired (hown : e.Owned) {sid : SessionId} {kind : TimerKind}
    {keys : List TimerKey} (h : e.Overdue config now (⟨sid, kind⟩ :: keys)) :
    (e.handleExpired now ⟨sid, kind⟩).Owned ∧
      (e.handleExpired now ⟨sid, kind⟩).Overdue config now keys := by
  have hother : ∀ {t isSender}, t ≠ sid → .inactivity t isSender ∈ (⟨sid, kind⟩ : TimerKey) :: keys →
      .inactivity t isSender ∈ keys := fun ht hmem =>
    (List.mem_cons.mp hmem).resolve_left fun heq => ht (congrArg TimerKey.session heq)
  have hself : ∀ {isSender}, kind ≠ .inactivity isSender →
      .inactivity sid isSender ∈ (⟨sid, kind⟩ : TimerKey) :: keys →
      .inactivity sid isSender ∈ keys := fun hkind hmem =>
    (List.mem_cons.mp hmem).resolve_left fun heq => hkind (congrArg TimerKey.kind heq).symm
  have hconfig := h.configured
  subst hconfig
  by_cases hsid : sid.originator = e.config.engineId
  · obtain ⟨p, n, hmoves⟩ := @handleExpired_own e hown ⟨sid, kind⟩ now hsid
    have hnone : (e.handleExpired now ⟨sid, kind⟩).recvSessions[sid]? = none :=
      hmoves.recv (hown.recv_none hsid)
    refine ⟨hown.movesSend hsid hmoves, hmoves.acts.config, fun t s' hs' hout => ?_,
      fun t s' hs' hout => ?_⟩
    · by_cases ht : t = sid
      · subst ht
        obtain ⟨s, hs, hlast, hactive⟩ := hmoves.move.of_expired hs'
        rw [← hlast] at hout
        exact hself (fun hkind => hactive hkind hout) (h.send t s hs hout)
      · rw [hmoves.acts.send t ht] at hs'
        exact hother ht (h.send t s' hs' hout)
    · by_cases ht : t = sid
      · rw [ht, hnone] at hs'
        cases hs'
      · rw [hmoves.acts.recv t ht] at hs'
        exact hother ht (h.recv t s' hs' hout)
  · obtain ⟨p, n, hmoves⟩ := @handleExpired_foreign e hown ⟨sid, kind⟩ now hsid
    have hnone : (e.handleExpired now ⟨sid, kind⟩).sendSessions[sid]? = none :=
      hmoves.send (hown.send_none hsid)
    refine ⟨hown.movesRecv hsid hmoves, hmoves.acts.config, fun t s' hs' hout => ?_,
      fun t s' hs' hout => ?_⟩
    · by_cases ht : t = sid
      · rw [ht, hnone] at hs'
        cases hs'
      · rw [hmoves.acts.send t ht] at hs'
        exact hother ht (h.send t s' hs' hout)
    · by_cases ht : t = sid
      · subst ht
        obtain ⟨s, hs, hlast, hactive⟩ := hmoves.move.of_expired hs'
        rw [← hlast] at hout
        exact hself (fun hkind => hactive hkind hout) (h.recv t s hs hout)
      · rw [hmoves.acts.recv t ht] at hs'
        exact hother ht (h.recv t s' hs' hout)

theorem Overdue.foldl (hown : e.Owned) {keys : List TimerKey} (h : e.Overdue config now keys) :
    (keys.foldl (fun e key => e.handleExpired now key) e).Overdue config now [] := by
  induction keys generalizing e with
  | nil => exact h
  | cons key keys ih =>
    obtain ⟨hown', h'⟩ := h.handleExpired hown
    exact ih hown' h'

theorem Timed.sendSession (hown : e.Owned) (h : e.Timed []) {sid : SessionId} {s : SendSession}
    (hs : e.sendSessions[sid]? = some s) :
    Timely true e.config.sessionInactivityTimeoutMicros ∅ (e.alarm sid) s.cancelReason
      s.lastActivity := by
  have ht := (sendTimed_some hs).mp (h.send sid (hown.send sid s hs).1)
  simpa [kindsOf] using ht

theorem Timed.recvSession (hown : e.Owned) (h : e.Timed []) {sid : SessionId} {s : RecvSession}
    (hs : e.recvSessions[sid]? = some s) :
    s.Timed e.config.sessionInactivityTimeoutMicros ∅ (e.alarm sid) := by
  have ht := (recvTimed_some hs).mp (h.recv sid (hown.recv sid s hs))
  simpa [kindsOf] using ht

/-- The inactivity timer of a session that has timed out has expired. -/
theorem mem_expire_of_timely {sid : SessionId} {isSender : Bool} {reason : Option CancelReason}
    {lastActivity : Nat}
    (h : Timely isSender e.config.sessionInactivityTimeoutMicros ∅ (e.alarm sid) reason lastActivity)
    (hout : e.config.TimedOut lastActivity now) : .inactivity sid isSender ∈ (e.expire now).1 := by
  obtain ⟨hpos, hlate⟩ := hout
  have hset := (h.inactive hpos).resolve_right fun hdue => hdue
  refine mem_drainExpired_of_le le_rfl hset ?_
  simp only [satAdd]
  omega

/-- A tick ends every session that has timed out. -/
theorem Timed.handleTimerTick (hown : e.Owned) (h : e.Timed []) (now : Nat) :
    (e.handleTimerTick now).Overdue e.config now [] := by
  have hown' : (e.expire now).2.Owned := ⟨hown.send, hown.recv⟩
  have hoverdue : (e.expire now).2.Overdue e.config now (e.expire now).1 :=
    ⟨rfl, fun _ _ hs hout => mem_expire_of_timely (h.sendSession hown hs) hout,
      fun _ _ hs hout => mem_expire_of_timely (h.recvSession hown hs).timely hout⟩
  exact hoverdue.foldl hown'

end Overdue

/-- The session that a timer is for is in the table of send sessions or of receive sessions. -/
def Names (e : Engine) (key : TimerKey) : Prop :=
  if key.kind.ofSender then e.sendSessions[key.session]? ≠ none
  else e.recvSessions[key.session]? ≠ none

/-- What holds of the timers between two calls. -/
structure TimersKept (e : Engine) : Prop where
  indices : ∀ (key : TimerKey) (deadline : Nat),
    ⟨deadline, key⟩ ∈ e.timerTable.byDeadline ↔ e.timerTable.byKey[key]? = some deadline
  named : ∀ (key : TimerKey) (deadline : Nat), e.timerTable.byKey[key]? = some deadline → e.Names key
  reports : ∀ (sid : SessionId) (s : RecvSession), e.recvSessions[sid]? = some s →
    s.cancelReason = none → ∀ (serial : UInt64) (rec : ReportRecord),
    s.reports[serial]? = some rec → rec.acked = false →
    ∃ deadline, e.timerTable.byKey[TimerKey.report sid serial]? = some deadline
  sendCancel : ∀ (sid : SessionId) (s : SendSession), e.sendSessions[sid]? = some s →
    s.cancelReason ≠ none → ∃ deadline, e.timerTable.byKey[TimerKey.cancel sid true]? = some deadline
  recvCancel : ∀ (sid : SessionId) (s : RecvSession), e.recvSessions[sid]? = some s →
    s.cancelReason ≠ none →
    ∃ deadline, e.timerTable.byKey[TimerKey.cancel sid false]? = some deadline
  sendActivity : 0 < e.config.sessionInactivityTimeoutMicros →
    ∀ (sid : SessionId) (s : SendSession), e.sendSessions[sid]? = some s →
    e.timerTable.byKey[TimerKey.inactivity sid true]? =
      some (satAdd s.lastActivity e.config.sessionInactivityTimeoutMicros)
  recvActivity : 0 < e.config.sessionInactivityTimeoutMicros →
    ∀ (sid : SessionId) (s : RecvSession), e.recvSessions[sid]? = some s →
    e.timerTable.byKey[TimerKey.inactivity sid false]? =
      some (satAdd s.lastActivity e.config.sessionInactivityTimeoutMicros)

theorem Timed.timersKept {e : Engine} (hown : e.Owned) (h : e.Timed []) : e.TimersKept := by
  have harmed : ∀ {t kind}, e.alarm t kind ≠ none ∨ kind ∈ (∅ : Set TimerKind) →
      ∃ deadline, e.timerTable.byKey[(⟨t, kind⟩ : TimerKey)]? = some deadline := fun hk =>
    Option.ne_none_iff_exists'.mp (hk.resolve_right fun hdue => hdue)
  refine ⟨e.timerTable.agree, fun key deadline hkey => ?_,
    fun sid s hs hopen serial rec hrec hacked =>
      harmed ((h.recvSession hown hs).reports hopen serial rec hrec hacked),
    fun sid s hs hreason => harmed ((h.sendSession hown hs).cancelling hreason),
    fun sid s hs hreason => harmed ((h.recvSession hown hs).timely.cancelling hreason),
    fun hpos sid s hs => ((h.sendSession hown hs).inactive hpos).resolve_right fun hdue => hdue,
    fun hpos sid s hs =>
      ((h.recvSession hown hs).timely.inactive hpos).resolve_right fun hdue => hdue⟩
  obtain ⟨sid, kind⟩ := key
  have hkind : e.alarm sid kind ≠ none := by
    have hsome : e.alarm sid kind = some deadline := hkey
    simp [hsome]
  unfold Names
  by_cases hsid : sid.originator = e.config.engineId
  · rw [if_pos ((h.send sid hsid).named hkind)]
    exact fun hnone => hkind ((sendTimed_none hnone).mp (h.send sid hsid) kind)
  · cases hs : e.recvSessions[sid]? with
    | none => exact absurd ((recvTimed_none hs).mp (h.recv sid hsid) kind) hkind
    | some s =>
      rw [if_neg (by simp [(h.recvSession hown hs).timely.named kind hkind])]
      simp

end Engine

/-- Between the calls of every run the timers are kept, and after a tick no session is left that has
been inactive for the configured time. -/
theorem timers_kept {config : EngineConfig} {calls : List Call}
    (hidle : ((Host.new config).run calls).pending = []) :
    ((Host.new config).run calls).engine.TimersKept ∧
    (0 < config.sessionInactivityTimeoutMicros → ∀ now : Nat,
      (∀ (sid : SessionId) (s : SendSession),
        (((Host.new config).run calls).engine.handleTimerTick now).sendSessions[sid]? = some s →
        now - s.lastActivity < config.sessionInactivityTimeoutMicros) ∧
      ∀ (sid : SessionId) (s : RecvSession),
        (((Host.new config).run calls).engine.handleTimerTick now).recvSessions[sid]? = some s →
        now - s.lastActivity < config.sessionInactivityTimeoutMicros) := by
  have hown : ((Host.new config).run calls).engine.Owned :=
    Host.owned_run (Engine.owned_new config) calls
  have htimed := Host.timed_run config calls
  rw [hidle] at htimed
  refine ⟨htimed.timersKept hown, fun hpos now => ?_⟩
  have hnone := htimed.handleTimerTick hown now
  rw [Host.config_run (Engine.owned_new config)] at hnone
  constructor
  · intro sid s hs
    by_contra hle
    exact List.not_mem_nil (hnone.send sid s hs ⟨hpos, not_lt.mp hle⟩)
  · intro sid s hs
    by_contra hle
    exact List.not_mem_nil (hnone.recv sid s hs ⟨hpos, not_lt.mp hle⟩)

/-- A block of one octet is requested and another one arrives; a tick takes both sessions. -/
theorem timers_kept_tick :
    ((Host.new .default).run [.request ⟨2⟩ 1 [7] 1 0,
      .segment ⟨2⟩ [3, 2, 1, 0, 1, 0, 1, 1, 0, 7] 5, .tick 60000000, .fire, .fire, .fire, .fire]
      ).engine.TimersKept :=
  (timers_kept (by decide +kernel)).1

end HdyUtils.Ltp
