import HdyUtils.Ltp.Deadlines

/-! The sender never waits for nothing.  A session that is neither complete nor being cancelled has a
checkpoint whose timer runs, as long as no repeated report takes its last checkpoint away. -/

namespace HdyUtils.Ltp

open Trace

/-- A session that is open: stored with all of its block sent, and if some of its red part is not
claimed, with a checkpoint.  The timers of its checkpoints are armed, or due. -/
structure SendSession.Waits (s : SendSession) (armed due : Set TimerKind) : Prop where
  sent : s.eobSent = true
  checkpoint : s.cancelReason = none → s.claimsReceived.covers ⟨0, s.redLen⟩ = false →
    ∃ serial, serial ∈ s.checkpoints
  timers : s.cancelReason = none → ∀ serial, serial ∈ s.checkpoints →
    .checkpoint serial ∈ armed ∨ .checkpoint serial ∈ due

/-! ### Moves -/

/-- A report that the session has seen does not take its last checkpoint. -/
def SendSession.Keeps (s : SendSession) (rs : ReportSegment) : Prop :=
  s.cancelReason = none → rs.reportSerial.val ∈ s.reportSerialsSeen →
    (s.checkpoints.erase rs.checkpointSerial).isEmpty = false

instance (s : SendSession) (rs : ReportSegment) : Decidable (s.Keeps rs) :=
  inferInstanceAs (Decidable (_ → _ → _))

/-- The timers that are due when a move starts, of those that are due when it ends. -/
def SendTrigger.due (due : Set TimerKind) : SendTrigger → Set TimerKind
  | .expired kind _ => insert kind due
  | _ => due

theorem SendMove.waits {config : EngineConfig} {sid : SessionId} {trigger : SendTrigger}
    {v v' : SendView} {p : List Push} {n : List Notice} {due : Set TimerKind}
    (h : SendMove config sid trigger v p n v')
    (hkeeps : ∀ source rs, trigger = .report source rs → ∀ s, v.session = some s → s.Keeps rs)
    (hv : ∀ s, v.session = some s → s.Waits v.armed (trigger.due due)) :
    ∀ s, v'.session = some s → s.Waits v'.armed due := by
  intro t ht
  cases h with
  | openGreen => exact hv t ht
  | @openRed t v pushes spans s armed hsound _ _ _ _ hrecord _ harmed _ hsent =>
    cases ht
    exact ⟨hsent, fun _ _ => hrecord, fun _ serial hserial => .inl (harmed serial hserial)⟩
  | reportIgnored hignored =>
    have hcancelled : t.cancelReason ≠ none := Option.isSome_iff_ne_none.mp (hignored t ht)
    exact ⟨(hv t ht).sent, fun hopen => absurd hopen hcancelled,
      fun hopen => absurd hopen hcancelled⟩
  | @reportRepeated source rs now s armed armed' hopen hseen hold =>
    cases ht
    have hs := hv s rfl
    have hleft := hkeeps source rs rfl s rfl hopen hseen
    refine ⟨hs.sent, fun _ _ => ?_, fun _ serial hserial => ?_⟩
    · exact Std.TreeMap.isEmpty_eq_false_iff_exists_mem.mp hleft
    · obtain ⟨hne, hmem⟩ := (Maps.mem_map_erase s.checkpoints _ _).mp hserial
      refine (hs.timers hopen serial hmem).imp_left fun harmed => hold _ harmed ?_
      simpa using hne.symm
  | @reportAnswered source rs now s armed pushes spans s' armed' hanswer =>
    cases ht
    have hs := hv s rfl
    have hsent : t.eobSent = true := by
      obtain ⟨_, _, rfl⟩ := hanswer.session
      exact hs.sent
    refine ⟨hsent, fun _ hgap => hanswer.record hgap, fun _ serial hserial => ?_⟩
    rcases hanswer.armed_record serial hserial with ⟨hmem, hne⟩ | harmed
    · refine (hs.timers hanswer.open_ serial hmem).imp_left fun harmed => ?_
      exact hanswer.armed_old _ harmed (by simpa using hne)
    · exact .inl harmed
  | @expiredIdle kind now v hidle =>
    have hs := hv t ht
    refine ⟨hs.sent, hs.checkpoint, fun hopen serial hserial => ?_⟩
    refine (hs.timers hopen serial hserial).imp_right fun hdue => hdue.resolve_left ?_
    rintro rfl
    exact hidle t ht hserial
  | @checkpointResent serial now s cp armed hcp =>
    cases ht
    have hs := hv s rfl
    refine ⟨hs.sent, fun _ _ => ⟨serial, by simp⟩, fun hopen serial' hserial => ?_⟩
    rw [Maps.mem_map_insert] at hserial
    by_cases heq : serial = serial'
    · rw [heq]
      exact .inl (Set.mem_insert _ _)
    · rcases hs.timers hopen serial' (hserial.resolve_left heq) with harmed | hdue
      · exact .inl (Set.mem_insert_of_mem _ harmed)
      · exact .inr (hdue.resolve_left fun hkind => heq (by simpa using hkind.symm))
  | @checkpointExhausted serial now s =>
    cases ht
    exact ⟨(hv s rfl).sent, fun hopen => (nomatch hopen), fun hopen => (nomatch hopen)⟩
  | @cancelResent now s armed =>
    cases ht
    have hs := hv s rfl
    refine ⟨hs.sent, hs.checkpoint, fun hopen serial hserial => ?_⟩
    rcases hs.timers hopen serial hserial with harmed | hdue
    · exact .inl (Set.mem_insert_of_mem _ harmed)
    · exact .inr (hdue.resolve_left (by simp))
  | @inactivityRearmed now s armed armed' _ hold =>
    cases ht
    have hs := hv t rfl
    refine ⟨hs.sent, hs.checkpoint, fun hopen serial hserial => ?_⟩
    rcases hs.timers hopen serial hserial with harmed | hdue
    · exact .inl (hold harmed)
    · exact .inr (hdue.resolve_left (by simp))
  | reportCompleted | cancelAbandoned | inactivityExpired | peerCancelled | peerCancelledAgain
  | cancelAcked => cases ht

namespace Host

/-- The call is not a repeated report that takes the last checkpoint of its session. -/
def keeps (h : Host) (c : Call) : Bool :=
  match received c with
  | some ⟨session, _, _, .report rs⟩ =>
    match h.engine.sendSessions[session]? with
    | some s => decide (s.Keeps rs)
    | none => true
  | _ => true

theorem keeps_of_cause {h h' : Host} {c : Call} {sid : SessionId} {source : EngineId}
    {rs : ReportSegment} (hcause : h.SendCause c sid h' (.report source rs))
    (hkeeps : h.keeps c = true) : ∀ s, (h.engine.sendView sid).session = some s → s.Keeps rs := by
  obtain ⟨-, -, ⟨session, header, trailer, body⟩, peer, now, hreceives, rfl, htrigger, -⟩ := hcause
  cases body <;> cases htrigger
  intro s hs
  simp only [Engine.sendView] at hs
  simpa only [keeps, hreceives.received_eq, hs, decide_eq_true_eq] using hkeeps

theorem SendCause.due {h h' : Host} {c : Call} {sid : SessionId} {trigger : SendTrigger}
    (hcause : h.SendCause c sid h' trigger) :
    trigger.due (Engine.kindsOf sid h'.pending) = Engine.kindsOf sid h.pending := by
  cases trigger with
  | expired kind now => rw [hcause.2.2, Engine.kindsOf_cons, SendTrigger.due]
  | request | report | peerCancel | cancelAck =>
    exact congrArg (Engine.kindsOf sid) (hcause.2.1.trans hcause.1.symm)

/-- The sessions of the host's own engine wait for something. -/
structure Waits (sid : SessionId) (h : Host) : Prop where
  owned : h.engine.Owned
  own : sid.originator = h.engine.config.engineId
  waits : ∀ s, h.engine.sendSessions[sid]? = some s →
    s.Waits (h.engine.armed sid) (Engine.kindsOf sid h.pending)

theorem Waits.step {h : Host} {sid : SessionId} (hw : Waits sid h) {c : Call}
    (hkeeps : h.keeps c = true) : Waits sid (h.step c) := by
  refine ⟨owned_step hw.owned c, by rw [config_step hw.owned]; exact hw.own, ?_⟩
  cases sendChange hw.owned c hw.own with
  | @moved trigger p n cause move =>
    refine move.waits (fun source rs htrigger s hs => ?_) (fun s hs => ?_)
    · subst htrigger
      exact keeps_of_cause cause hkeeps s hs
    · rw [cause.due]
      exact hw.waits s hs
  | tick idle session armed =>
    intro s hs
    rw [session] at hs
    have hs' := hw.waits s hs
    refine ⟨hs'.sent, hs'.checkpoint, fun hopen serial hserial => (armed _).mp ?_⟩
    refine (hs'.timers hopen serial hserial).resolve_right ?_
    simp [idle, Engine.kindsOf]
  | other view pending =>
    intro s hs
    have hsession : (h.step c).engine.sendSessions[sid]? = h.engine.sendSessions[sid]? :=
      congrArg SendView.session view
    have harmed : (h.step c).engine.armed sid = h.engine.armed sid := congrArg SendView.armed view
    have hdue : Engine.kindsOf sid (h.step c).pending = Engine.kindsOf sid h.pending :=
      Set.ext pending
    rw [hsession] at hs
    rw [harmed, hdue]
    exact hw.waits s hs

end Host

/-- Every session that is neither complete nor being cancelled has a checkpoint, and the timers of its
checkpoints are armed. -/
def Engine.SendersWait (e : Engine) : Prop :=
  ∀ (sid : SessionId) (s : SendSession), e.sendSessions[sid]? = some s → s.cancelReason = none →
    s.isComplete = false →
    (∃ serial, serial ∈ s.checkpoints) ∧ ∀ serial, serial ∈ s.checkpoints →
      ∃ deadline, e.timerTable.byKey[TimerKey.checkpoint sid serial]? = some deadline

/-- Between the calls of a run in which no repeated report takes the last checkpoint of its session,
no session stalls. -/
theorem sender_never_stalls {config : EngineConfig} {calls : List Call}
    (hkeeps : Along Host.step (fun h c => h.keeps c = true) (Host.new config) calls)
    (hidle : ((Host.new config).run calls).pending = []) :
    ((Host.new config).run calls).engine.SendersWait := by
  intro sid s hs hopen hincomplete
  have hown : ((Host.new config).run calls).engine.Owned :=
    Host.owned_run (Engine.owned_new config) calls
  have hsid : sid.originator = config.engineId := by
    rw [(hown.send sid s hs).1, Host.config_run (Engine.owned_new config)]
    rfl
  have hstep : ∀ (h : Host) (c : Call), Host.Waits sid h → h.keeps c = true →
      Host.Waits sid (h.step c) := fun h c hw hc => hw.step hc
  have hnew : Host.Waits sid (Host.new config) :=
    ⟨Engine.owned_new config, hsid, by simp [Host.new, Engine.new]⟩
  have hwaits := (hkeeps.invariant hstep hnew).waits s hs
  have hgap : s.claimsReceived.covers ⟨0, s.redLen⟩ = false := by
    simpa [SendSession.isComplete, hwaits.sent] using hincomplete
  refine ⟨hwaits.checkpoint hopen hgap, fun serial hserial => ?_⟩
  have harmed := (hwaits.timers hopen serial hserial).resolve_right (by simp [hidle, Engine.kindsOf])
  exact Option.ne_none_iff_exists'.mp harmed

/-- A block of two octets is requested, and a report claims the first of them. -/
def partlyReported : List Call :=
  [.request ⟨2⟩ 1 [7, 8] 2 0, .segment ⟨2⟩ [8, 1, 1, 0, 1, 1, 2, 0, 1, 0, 1] 1]

theorem sender_never_stalls_partly :
    ((Host.new .default).run partlyReported).engine.SendersWait :=
  sender_never_stalls (by decide +kernel) (by decide +kernel)

/-- The receiver has restarted, and its first report again has serial 1 and answers the second
checkpoint. -/
theorem sender_stalls_repeated :
    ¬((Host.new .default).run (partlyReported ++
      [.segment ⟨2⟩ [8, 1, 1, 0, 1, 2, 2, 0, 1, 0, 1] 2])).engine.SendersWait := by
  intro hwaits
  have hstalled : (((Host.new .default).run (partlyReported ++
      [.segment ⟨2⟩ [8, 1, 1, 0, 1, 2, 2, 0, 1, 0, 1] 2])).engine.sendSessions[
        (⟨⟨1⟩, 1⟩ : SessionId)]?).any
      (fun s => s.cancelReason.isNone && !s.isComplete && s.checkpoints.isEmpty) = true := by
    decide +kernel
  obtain ⟨s, hs, hall⟩ := (Option.any_eq_true _ _).mp hstalled
  simp only [Bool.and_eq_true, Option.isNone_iff_eq_none, Bool.not_eq_true'] at hall
  obtain ⟨⟨hopen, hincomplete⟩, hempty⟩ := hall
  obtain ⟨serial, hserial⟩ := (hwaits _ s hs hopen hincomplete).1
  exact Std.TreeMap.isEmpty_iff_forall_not_mem.mp hempty serial hserial

end HdyUtils.Ltp
