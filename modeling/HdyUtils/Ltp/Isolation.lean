import HdyUtils.Ltp.HostMove
import HdyUtils.Ltp.Segment.RoundTrip

/-! Isolation of sessions.  An incoming segment touches the session that it names and no other. -/

namespace HdyUtils.Ltp

/-- Between `e` and `e'` nothing happened to session `t`. -/
structure Engine.Untouched (t : SessionId) (e e' : Engine) : Prop where
  send : e'.sendSessions[t]? = e.sendSessions[t]?
  recv : e'.recvSessions[t]? = e.recvSessions[t]?
  timers : ∀ kind, e'.timerTable.deadline? ⟨t, kind⟩ = e.timerTable.deadline? ⟨t, kind⟩

namespace Engine

theorem Untouched.refl (t : SessionId) (e : Engine) : Untouched t e e := ⟨rfl, rfl, fun _ => rfl⟩

theorem Acts.untouched {sid t : SessionId} {p : List Push} {n : List Notice} {e e' : Engine}
    (h : Acts sid p n e e') (ht : t ≠ sid) : Untouched t e e' where
  send := h.send t ht
  recv := h.recv t ht
  timers := fun kind => h.timers ⟨t, kind⟩ ht

/-- A segment is work on the session that it names, with segments and notices of that session
alone. -/
theorem handleSegment_isolated {e : Engine} (h : e.Owned) (source : EngineId) (segment : Segment)
    (now : Nat) :
    (∀ t, t ≠ segment.session → Untouched t e (e.handleSegment source segment now)) ∧
    (∃ pushes : List Push, (e.handleSegment source segment now).outbound =
      e.outbound ++ pushes.map (Push.wire segment.session)) ∧
    ∃ notices : List Notice, (e.handleSegment source segment now).notices = e.notices ++ notices ∧
      ∀ x ∈ notices, x.session = segment.session := by
  have hsame : e.handleSegment source segment now = e →
      (∀ t, t ≠ segment.session → Untouched t e (e.handleSegment source segment now)) ∧
      (∃ pushes : List Push, (e.handleSegment source segment now).outbound =
        e.outbound ++ pushes.map (Push.wire segment.session)) ∧
      ∃ notices : List Notice, (e.handleSegment source segment now).notices = e.notices ++ notices ∧
        ∀ x ∈ notices, x.session = segment.session := by
    intro heq
    rw [heq]
    exact ⟨fun t _ => .refl t e, ⟨[], by simp⟩, [], by simp, by simp⟩
  by_cases hown : segment.session.originator = e.config.engineId
  · rcases handleSegment_own h hown with heq | ⟨trigger, p, n, -, hmoves⟩
    · exact hsame heq
    · exact ⟨fun t ht => hmoves.acts.untouched ht, ⟨p, hmoves.acts.outbound⟩, n,
        hmoves.acts.notices, hmoves.move.notices_session⟩
  · rcases handleSegment_foreign h hown with heq | ⟨trigger, p, n, -, hmoves⟩
    · exact hsame heq
    · exact ⟨fun t ht => hmoves.acts.untouched ht, ⟨p, hmoves.acts.outbound⟩, n,
        hmoves.acts.notices, hmoves.move.notices_session⟩

end Engine

/-- In every state that an engine can reach, a segment leaves every session but the one that it names
as it was, and queues segments and notices of that session alone; and the timers of a session are
cancelled without those of another. -/
theorem incoming_segment_isolated (config : EngineConfig) (calls : List Call) :
    (∀ (source : EngineId) (bytes : Bytes) (now : Nat) (segment : Segment) (consumed : Nat),
      Segment.parse bytes = .ok (segment, consumed) →
      ∀ e', ((Host.new config).run calls).engine.handleIncomingSegment source bytes now = .ok e' →
        (∀ t, t ≠ segment.session →
          Engine.Untouched t ((Host.new config).run calls).engine e') ∧
        (∃ pushes : List Push, e'.outbound = ((Host.new config).run calls).engine.outbound ++
          pushes.map (Push.wire segment.session)) ∧
        ∃ notices : List Notice, e'.notices = ((Host.new config).run calls).engine.notices ++ notices ∧
          ∀ x ∈ notices, x.session = segment.session) ∧
    ∀ (table : TimerTable) (s : SessionId) (key : TimerKey),
      (table.cancelSession s).deadline? key =
        if key.session = s then none else table.deadline? key := by
  have hown : ((Host.new config).run calls).engine.Owned :=
    Host.owned_run (Engine.owned_new config) calls
  refine ⟨fun source bytes now segment consumed hparse e' he' => ?_,
    fun table s key => TimerTable.deadline?_cancelSession table s key⟩
  simp only [Engine.handleIncomingSegment, hparse] at he'
  split at he'
  · cases he'
  · cases he'
    exact Engine.handleSegment_isolated hown source segment now

/-- The report that all of a block of one octet was received. -/
def oneOctetReport : ReportSegment where
  reportSerial := .one
  checkpointSerial := 1
  upperBound := 1
  lowerBound := 0
  claims := [⟨0, 1⟩]

theorem oneOctetReport_valid : oneOctetReport.Bounded ∧ oneOctetReport.Valid := by
  constructor <;> constructor <;> simp [oneOctetReport, maxParsedClaims, ClaimsValid, u64Max]

/-- A report on the first session of engine 1 leaves the second one alone. -/
theorem incoming_segment_isolated_report :
    let e := ((Host.new .default).run [.request ⟨2⟩ 1 [7] 1 0, .request ⟨2⟩ 1 [8] 1 0]).engine
    ∃ e', e.handleIncomingSegment ⟨2⟩
        (Segment.plain ⟨⟨1⟩, 1⟩ (.report oneOctetReport)).encodeToVec 5 = .ok e' ∧
      Engine.Untouched ⟨⟨1⟩, 2⟩ e e' := by
  intro e
  have hparse : Segment.parse (Segment.plain ⟨⟨1⟩, 1⟩ (.report oneOctetReport)).encodeToVec =
      .ok (.plain ⟨⟨1⟩, 1⟩ (.report oneOctetReport), _) :=
    parse_encodeToVec (Segment.bounded_plain oneOctetReport_valid.1) oneOctetReport_valid.2
  have hok : e.handleIncomingSegment ⟨2⟩
      (Segment.plain ⟨⟨1⟩, 1⟩ (.report oneOctetReport)).encodeToVec 5 =
        .ok (e.handleSegment ⟨2⟩ (.plain ⟨⟨1⟩, 1⟩ (.report oneOctetReport)) 5) := by
    simp only [Engine.handleIncomingSegment, hparse, ne_eq, not_true_eq_false, if_false]
  refine ⟨_, hok, ?_⟩
  exact ((incoming_segment_isolated .default _).1 ⟨2⟩ _ 5 _ _ hparse _ hok).1 ⟨⟨1⟩, 2⟩
    (by decide)

end HdyUtils.Ltp
