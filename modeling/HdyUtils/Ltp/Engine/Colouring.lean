import HdyUtils.Ltp.Engine.Answering
import HdyUtils.Ltp.Engine.Layout

/-! The colours of a session's data.  `DataOutcome` says what a data segment makes of the session that
takes it; `Colours` ties the running bounds of an open session to the segments that it has taken, of
which they keep the red ones below the green ones and below the end of the red part. -/

namespace HdyUtils.Ltp

open Runs

/-! ### What a data segment does -/

/-- What a data segment makes of an open session, and the notices that it gives. -/
inductive DataOutcome (config : EngineConfig) (sid : SessionId) (source : EngineId)
    (ds : DataSegment) (s : RecvSession) : RecvSession → List Notice → Prop
  | unreachable (h : config.allows ds.clientService = false) :
      DataOutcome config sid source ds s (s.cancelling .unreach)
        [.transmissionSessionCancelled sid .unreach]
  | redMiscolored (hallowed : config.allows ds.clientService = true) (hred : ds.kind.isRed = true)
      (h : s.redMiscolored ds = true) :
      DataOutcome config sid source ds s (s.cancelling .miscolored)
        [.transmissionSessionCancelled sid .miscolored]
  | refused {s'} (hred : ds.kind.isRed = true) (hfits : s.redMiscolored ds = false)
      (h : s.insertRed ds.offset ds.data config.maxBlockSize.toNat = (s', false)) :
      DataOutcome config sid source ds s s' []
  | limited {s₁ s'} (hallowed : config.allows ds.clientService = true)
      (hred : ds.kind.isRed = true) (hfits : s.redMiscolored ds = false)
      (h : s.insertRed ds.offset ds.data config.maxBlockSize.toNat = (s₁, true))
      (hreports : (s₁.markEnds ds).UpToReports s') :
      DataOutcome config sid source ds s (s'.cancelling .rlexc)
        [.transmissionSessionCancelled sid .rlexc]
  | stored {s₁ s'} (hallowed : config.allows ds.clientService = true)
      (hred : ds.kind.isRed = true) (hfits : s.redMiscolored ds = false)
      (h : s.insertRed ds.offset ds.data config.maxBlockSize.toNat = (s₁, true))
      (hreports : (s₁.markEnds ds).UpToReports s') :
      DataOutcome config sid source ds s s'.delivered (s'.deliveryNotices sid source)
  | greenMiscolored (hallowed : config.allows ds.clientService = true)
      (hgreen : ds.kind.isRed = false) (h : (s.markGreen ds).greenMiscolored ds = true) :
      DataOutcome config sid source ds s ((s.markGreen ds).cancelling .miscolored)
        [.transmissionSessionCancelled sid .miscolored]
  | green (hallowed : config.allows ds.clientService = true) (hgreen : ds.kind.isRed = false)
      (h : (s.markGreen ds).greenMiscolored ds = false) :
      DataOutcome config sid source ds s (s.markGreen ds).delivered
        (.greenSegmentArrived sid source ds.offset ds.data ds.kind.isEob ::
          (s.markGreen ds).deliveryNotices sid source)

namespace Engine

variable {e : Engine} {source : EngineId} {sid : SessionId} {ds : DataSegment} {now : Nat}
  {t s' : RecvSession}

theorem notices_initiateCancelReceiver (e : Engine) (source : EngineId) (sid : SessionId)
    (s : RecvSession) (reason : CancelReason) (now : Nat) :
    ((e.putRecv sid s).initiateCancelReceiver sid source reason now).notices =
      e.notices ++ [.transmissionSessionCancelled sid reason] := by
  simp [initiateCancelReceiver]

theorem dataOutcome (hadmitted : e.admitted source sid ds now = some t) :
    ∃ s' n, DataOutcome e.config sid source ds (t.touched now) s' n ∧
      (e.handleIncomingData source sid ds now).recvSessions[sid]? = some s' ∧
      (e.handleIncomingData source sid ds now).notices = e.notices ++ n := by
  rw [(handleIncomingData_admitted hadmitted).1, acceptData_eq]
  cases hallowed : e.config.allows ds.clientService with
  | false =>
    refine ⟨_, _, .unreachable hallowed, ?_, ?_⟩
    · simp only [Bool.not_false, if_true, recvSessions_initiateCancelReceiver]
    · simp only [Bool.not_false, if_true, notices_initiateCancelReceiver, touchInactivity_notices]
  | true =>
    simp only [Bool.not_true, Bool.false_eq_true, if_false]
    cases hred : ds.kind.isRed with
    | true =>
      simp only [if_true, acceptRed, touchInactivity_config]
      cases hfits : (t.touched now).redMiscolored ds with
      | true =>
        refine ⟨_, _, .redMiscolored hallowed hred hfits, ?_, ?_⟩
        · simp only [if_true, recvSessions_initiateCancelReceiver]
        · simp only [if_true, notices_initiateCancelReceiver, touchInactivity_notices]
      | false =>
        simp only [Bool.false_eq_true, if_false]
        cases hinsert : (t.touched now).insertRed ds.offset ds.data e.config.maxBlockSize.toNat with
        | mk s₁ stored =>
        cases stored with
        | false =>
          refine ⟨_, _, .refused hred hfits hinsert, ?_, ?_⟩
          · simp
          · simp
        | true =>
          simp only [Bool.not_true, Bool.false_eq_true, if_false]
          cases hcp : ds.kind.checkpoint with
          | none =>
            refine ⟨_, _, .stored hallowed hred hfits hinsert (.refl _), ?_, ?_⟩
            · simp only [recvSessions_deliverRed]
            · simp [deliverRed_eq]
          | some cp =>
            simp only
            rcases issues_answerCheckpoint sid source (e.touchInactivity sid false now)
              (s₁.markEnds ds) cp.serial.val ds.segEnd now with
              ⟨reports, e', s', heq, hissues, -⟩ | ⟨reports, e', s', heq, hissues, -⟩
            · have hnotices := hissues.acts.notices
              refine ⟨_, _, .stored hallowed hred hfits hinsert hissues.session, ?_, ?_⟩
              · simp only [heq, recvSessions_deliverRed]
              · simp only [heq, deliverRed_eq, putRecv_notices, hnotices, touchInactivity_notices,
                  List.append_nil]
            · have hnotices := hissues.acts.notices
              refine ⟨_, _, .limited hallowed hred hfits hinsert hissues.session, ?_, ?_⟩
              · simp only [heq, recvSessions_initiateCancelReceiver]
              · simp only [heq, notices_initiateCancelReceiver, hnotices, touchInactivity_notices,
                  List.append_nil]
    | false =>
      simp only [Bool.false_eq_true, if_false, acceptGreen]
      cases hfits : ((t.touched now).markGreen ds).greenMiscolored ds with
      | true =>
        refine ⟨_, _, .greenMiscolored hallowed hred hfits, ?_, ?_⟩
        · simp only [if_true, recvSessions_initiateCancelReceiver]
        · simp only [if_true, notices_initiateCancelReceiver, touchInactivity_notices]
      | false =>
        refine ⟨_, _, .green hallowed hred hfits, ?_, ?_⟩
        · simp only [Bool.false_eq_true, if_false, recvSessions_deliverRed]
        · simp [deliverRed_eq, notify]

end Engine

/-! ### The colour rules -/

/-- The rules of colouring: one end of the red part, no red data beyond it, and no green data below
any red data. -/
structure Coloured (segs : List DataSegment) : Prop where
  ends : ∀ a ∈ segs, a.kind.isEorp = true → ∀ b ∈ segs, b.kind.isEorp = true → b.segEnd = a.segEnd
  red : ∀ a ∈ segs, a.kind.isEorp = true → ∀ b ∈ segs, b.kind.isRed = true → b.data ≠ [] →
    b.segEnd ≤ a.segEnd
  green : ∀ a ∈ segs, a.kind.isRed = false → ∀ b ∈ segs, b.kind.isRed = true →
    b.data ≠ [] ∨ b.kind.isEorp = true → b.segEnd ≤ a.offset

/-- The rules do not depend on the order of the segments. -/
theorem Coloured.perm {segs segs' : List DataSegment} (h : Coloured segs) (hperm : segs.Perm segs') :
    Coloured segs' where
  ends := fun a ha hea b hb heb =>
    h.ends a (hperm.mem_iff.mpr ha) hea b (hperm.mem_iff.mpr hb) heb
  red := fun a ha hea b hb hrb hdb =>
    h.red a (hperm.mem_iff.mpr ha) hea b (hperm.mem_iff.mpr hb) hrb hdb
  green := fun a ha hga b hb hrb hdb =>
    h.green a (hperm.mem_iff.mpr ha) hga b (hperm.mem_iff.mpr hb) hrb hdb

namespace RecvSession

/-- The bounds of a session that has taken the segments of `log`. -/
structure Colours (log : List DataSegment) (s : RecvSession) : Prop where
  redEnd : ∀ r, s.redPartLen = some r → s.maxRedEnd ≤ r
  greenStart : ∀ g, s.minGreenOffset = some g →
    s.maxRedEnd ≤ g ∧ ∀ r, s.redPartLen = some r → r ≤ g
  received : ∀ x ∈ s.redReceived, x < s.maxRedEnd
  reds : ∀ b ∈ log, b.kind.isRed = true → b.data ≠ [] → b.segEnd ≤ s.maxRedEnd
  eorps : ∀ a ∈ log, a.kind.isEorp = true → s.redPartLen = some a.segEnd
  greens : ∀ a ∈ log, a.kind.isRed = false → ∃ g, s.minGreenOffset = some g ∧ g ≤ a.offset
  laid : s.redDelivered = false → s.Laid ∧ s.Apart

theorem connectSparse_maxRedEnd (fuel : Nat) (s : RecvSession) :
    (connectSparse fuel s).maxRedEnd = s.maxRedEnd :=
  connectSparse_keeps (P := fun s' => s'.maxRedEnd = s.maxRedEnd) (fun _ _ _ h _ _ => h) fuel rfl

/-- What storing a segment does to the greatest end. -/
theorem insertRed_maxRedEnd {s s' : RecvSession} {ds : DataSegment} {maxBlockSize : Nat}
    {stored : Bool} (h : s.insertRed ds.offset ds.data maxBlockSize = (s', stored)) :
    (s'.maxRedEnd = s.maxRedEnd ∨ s'.maxRedEnd = max s.maxRedEnd ds.segEnd) ∧
      (stored = true → ds.offset + ds.data.length ≤ u64Max ∧
        (s'.maxRedEnd = max s.maxRedEnd ds.segEnd ∨
          s' = s ∧ ∀ x, ds.offset ≤ x → x < ds.offset + ds.data.length → x ∈ s.redReceived)) := by
  simp only [insertRed] at h
  split at h
  · cases h
    exact ⟨.inl rfl, by simp⟩
  next hcap =>
  have hend : ds.segEnd = ds.offset + ds.data.length := by
    rw [DataSegment.segEnd, satAdd]
    omega
  rw [hend]
  split at h
  · cases h
    exact ⟨.inl rfl, by simp⟩
  split at h
  · next hcovers =>
    cases h
    rw [RangeSet.covers_iff] at hcovers
    exact ⟨.inl rfl, fun _ => ⟨not_lt.mp hcap, .inr ⟨rfl, hcovers⟩⟩⟩
  split at h
  · cases h
    rw [connectSparse_maxRedEnd]
    exact ⟨.inr rfl, fun _ => ⟨not_lt.mp hcap, .inl rfl⟩⟩
  split at h
  · cases h
    exact ⟨.inr rfl, by simp⟩
  · cases h
    exact ⟨.inr rfl, fun _ => ⟨not_lt.mp hcap, .inl rfl⟩⟩

theorem redMiscolored_eq_false {s : RecvSession} {ds : DataSegment} (h : s.redMiscolored ds = false) :
    (∀ r, s.redPartLen = some r → ds.segEnd ≤ r ∧ (ds.kind.isEorp = true → r = ds.segEnd)) ∧
      ∀ g, s.minGreenOffset = some g → ds.segEnd ≤ g := by
  simp only [redMiscolored, Bool.or_eq_false_iff, Bool.and_eq_false_iff] at h
  obtain ⟨⟨hred, hgreen⟩, heorp⟩ := h
  constructor
  · intro r hr
    simp only [hr, decide_eq_false_iff_not, not_lt, ne_eq, Decidable.not_not] at hred heorp
    exact ⟨hred, fun hend => heorp.resolve_left (by simp [hend])⟩
  · intro g hg
    simpa [hg] using hgreen

theorem greenMiscolored_eq_false {s : RecvSession} {ds : DataSegment}
    (h : s.greenMiscolored ds = false) :
    (∀ r, s.redPartLen = some r → r ≤ ds.offset) ∧ s.maxRedEnd ≤ ds.offset := by
  simp only [greenMiscolored, Bool.or_eq_false_iff, decide_eq_false_iff_not, not_lt] at h
  refine ⟨fun r hr => ?_, h.2⟩
  simpa [hr] using h.1

namespace Colours

variable {log : List DataSegment} {s s' : RecvSession} {ds : DataSegment}

theorem coloured (h : s.Colours log) : Coloured log where
  ends := fun a ha hea b hb heb => by
    have heq := (h.eorps a ha hea).symm.trans (h.eorps b hb heb)
    exact (Option.some.inj heq).symm
  red := fun a ha hea b hb hrb hdb =>
    (h.reds b hb hrb hdb).trans (h.redEnd a.segEnd (h.eorps a ha hea))
  green := fun a ha hga b hb hrb hdb => by
    obtain ⟨g, hg, hle⟩ := h.greens a ha hga
    obtain ⟨hmax, hred⟩ := h.greenStart g hg
    rcases hdb with hdata | heorp
    · exact (h.reds b hb hrb hdata).trans (hmax.trans hle)
    · exact (hred b.segEnd (h.eorps b hb heorp)).trans hle

theorem new (id : SessionId) (peer : EngineId) (clientService : UInt64) (now : Nat) :
    (RecvSession.new id peer clientService 0 now).Colours [] := by
  constructor <;> simp [RecvSession.new, Apart]
  exact ⟨by simp, by simp⟩

theorem congr (h : s.Colours log) (hlen : s'.redPartLen = s.redPartLen)
    (hmax : s'.maxRedEnd = s.maxRedEnd) (hgreen : s'.minGreenOffset = s.minGreenOffset)
    (hreceived : s'.redReceived = s.redReceived) (hbuf : s'.redBuf = s.redBuf)
    (hsparse : s'.sparseRed = s.sparseRed) (hdelivered : s'.redDelivered = s.redDelivered) :
    s'.Colours log := by
  constructor
  · rw [hlen, hmax]; exact h.redEnd
  · rw [hlen, hmax, hgreen]; exact h.greenStart
  · rw [hreceived, hmax]; exact h.received
  · rw [hmax]; exact h.reds
  · rw [hlen]; exact h.eorps
  · rw [hgreen]; exact h.greens
  · rw [hdelivered]
    intro hd
    obtain ⟨hlaid, hapart⟩ := h.laid hd
    refine ⟨⟨?_, ?_⟩, ?_⟩
    · rw [hsparse, hreceived]; exact hlaid.stored
    · rw [hsparse, hreceived, hbuf]; exact hlaid.received
    · rw [Apart, hsparse, hbuf]; exact hapart

theorem upToReports (h : s.Colours log) (hreports : s.UpToReports s') : s'.Colours log := by
  obtain ⟨_, _, _, rfl⟩ := hreports
  exact h.congr rfl rfl rfl rfl rfl rfl rfl

theorem ackReport (h : s.Colours log) (serial : UInt64) : (s.ackReport serial).Colours log := by
  unfold RecvSession.ackReport
  split
  · exact h.congr rfl rfl rfl rfl rfl rfl rfl
  · exact h

theorem delivered (h : s.Colours log) : s.delivered.Colours log := by
  unfold RecvSession.delivered
  split
  · exact { h with laid := fun hd => nomatch hd }
  · exact h

/-- The end of the red part that a stored segment reveals. -/
theorem markEnds_eq_of_le (s : RecvSession) (hcap : ds.offset + ds.data.length ≤ u64Max) :
    ∃ blockLen redEndsBlock, s.markEnds ds = { s with
      redPartLen := if ds.kind.isEorp then some ds.segEnd else s.redPartLen
      blockLen
      redEndsBlock } := by
  have hend : ds.segEnd = ds.offset + ds.data.length := by
    rw [DataSegment.segEnd, satAdd]
    omega
  simp only [markEnds, hend, if_neg (not_lt.mpr hcap)]
  cases ds.kind.isEorp <;> cases ds.kind.isEob <;> exact ⟨_, _, rfl⟩

/-- A stored segment raises the greatest end to its own end. -/
theorem maxRedEnd_of_stored (h : s.Colours log) {s₁ : RecvSession} {maxBlockSize : Nat}
    (hinsert : s.insertRed ds.offset ds.data maxBlockSize = (s₁, true)) :
    s.maxRedEnd ≤ s₁.maxRedEnd ∧ s₁.maxRedEnd ≤ max s.maxRedEnd ds.segEnd ∧
      (ds.data ≠ [] → ds.segEnd ≤ s₁.maxRedEnd) := by
  obtain ⟨-, hstored⟩ := insertRed_maxRedEnd hinsert
  obtain ⟨hcap, hmax | ⟨rfl, hcovered⟩⟩ := hstored rfl
  · rw [hmax]
    exact ⟨le_max_left _ _, le_rfl, fun _ => le_max_right _ _⟩
  · refine ⟨le_rfl, le_max_left _ _, fun hdata => ?_⟩
    -- the last octet of the segment was received before
    have hpos := List.length_pos_of_ne_nil hdata
    have hlast := h.received _ (hcovered (ds.offset + ds.data.length - 1) (by omega) (by omega))
    rw [DataSegment.segEnd, satAdd]
    omega

/-- A segment that is stored joins the log, unless it ends the red part below other red data. -/
theorem stored (h : s.Colours log) (hred : ds.kind.isRed = true) (hfits : s.redMiscolored ds = false)
    (hkeeps : ds.kind.isEorp = true → s.maxRedEnd ≤ ds.segEnd) {s₁ : RecvSession}
    {maxBlockSize : Nat} (hinsert : s.insertRed ds.offset ds.data maxBlockSize = (s₁, true)) :
    (s₁.markEnds ds).Colours (log ++ [ds]) := by
  obtain ⟨hredEnd, hgreen⟩ := redMiscolored_eq_false hfits
  obtain ⟨hraised, hle, hdata⟩ := h.maxRedEnd_of_stored hinsert
  have hcap := ((insertRed_maxRedEnd hinsert).2 rfl).1
  have hreceived := insertRed_received hinsert
  have hlaid : s.redDelivered = false → s₁.Laid ∧ s₁.Apart := fun hd => by
    obtain ⟨hlaid, hapart⟩ := h.laid hd
    have hnew := hlaid.insertRed hapart ds.offset ds.data maxBlockSize
    rwa [hinsert] at hnew
  have hsame := s.insertRed_upToData ds.offset ds.data maxBlockSize
  rw [hinsert] at hsame
  obtain ⟨redBuf, redReceived, sparseRed, totalReceivedBytes, maxRedEnd, rfl⟩ := hsame
  obtain ⟨blockLen, redEndsBlock, hends⟩ := markEnds_eq_of_le
    { s with redBuf, redReceived, sparseRed, totalReceivedBytes, maxRedEnd } hcap
  rw [hends]
  simp only at hraised hle hdata hreceived
  refine ⟨fun r hr => ?_, fun g hg => ?_, fun x hx => ?_, fun b hb hrb hdb => ?_, fun a ha hea => ?_,
    fun a ha hga => ?_, fun hd => ?_⟩
  · simp only at hr ⊢
    split at hr
    · next heorp =>
      cases hr
      have hkept := hkeeps heorp
      omega
    · have hold := h.redEnd r hr
      have hend := (hredEnd r hr).1
      omega
  · obtain ⟨hold, hpart⟩ := h.greenStart g hg
    have hend := hgreen g hg
    simp only
    refine ⟨by omega, fun r hr => ?_⟩
    split at hr
    · cases hr
      exact hend
    · exact hpart r hr
  · simp only
    rcases (hreceived x).mp hx with hold | hnew
    · have hlt := h.received x hold
      omega
    · have hend := hdata (List.ne_nil_of_length_pos (by omega))
      rw [DataSegment.segEnd, satAdd] at hend
      omega
  · simp only
    rcases List.mem_append.mp hb with hold | hnew
    · have hend := h.reds b hold hrb hdb
      omega
    · rw [List.mem_singleton.mp hnew] at hdb ⊢
      exact hdata hdb
  · simp only
    rcases List.mem_append.mp ha with hold | hnew
    · have hpart := h.eorps a hold hea
      split
      · next heorp => rw [(hredEnd a.segEnd hpart).2 heorp]
      · exact hpart
    · rw [List.mem_singleton.mp hnew] at hea ⊢
      exact if_pos hea
  · rcases List.mem_append.mp ha with hold | hnew
    · exact h.greens a hold hga
    · rw [List.mem_singleton.mp hnew, hred] at hga
      cases hga
  · obtain ⟨hl, hapart⟩ := hlaid hd
    exact ⟨⟨hl.stored, hl.received⟩, hapart⟩

/-- A green segment that starts above the red data joins the log. -/
theorem green (h : s.Colours log) (hgreen : ds.kind.isRed = false)
    (hfits : (s.markGreen ds).greenMiscolored ds = false) :
    (s.markGreen ds).Colours (log ++ [ds]) := by
  obtain ⟨hpart, hmax⟩ := greenMiscolored_eq_false hfits
  simp only [markGreen] at hpart hmax
  have hleast : ∀ g, (s.markGreen ds).minGreenOffset = some g →
      g ≤ ds.offset ∧ (g = ds.offset ∨ s.minGreenOffset = some g) ∧
        ∀ g', s.minGreenOffset = some g' → g ≤ g' := by
    intro g hg
    simp only [markGreen, Option.some.injEq] at hg
    cases hmin : s.minGreenOffset with
    | none =>
      simp only [hmin] at hg
      exact ⟨hg.ge, .inl hg.symm, by simp⟩
    | some m =>
      simp only [hmin] at hg
      refine ⟨by omega, ?_, fun g' hg' => ?_⟩
      · rcases Nat.le_total m ds.offset with hle | hle
        · exact .inr (congrArg some (by omega))
        · exact .inl (by omega)
      · cases hg'
        omega
  refine ⟨h.redEnd, fun g hg => ?_, h.received, fun b hb hrb hdb => ?_, fun a ha hea => ?_,
    fun a ha hga => ?_, fun hd => ?_⟩
  · obtain ⟨-, rfl | hold, -⟩ := hleast g hg
    · exact ⟨hmax, hpart⟩
    · exact h.greenStart g hold
  · rcases List.mem_append.mp hb with hold | hnew
    · exact h.reds b hold hrb hdb
    · rw [List.mem_singleton.mp hnew, hgreen] at hrb
      cases hrb
  · rcases List.mem_append.mp ha with hold | hnew
    · exact h.eorps a hold hea
    · rw [List.mem_singleton.mp hnew] at hea
      cases hkind : ds.kind <;> simp [hkind, DataSegKind.isRed, DataSegKind.isEorp] at hgreen hea
  · obtain ⟨g, hg⟩ : ∃ g, (s.markGreen ds).minGreenOffset = some g := ⟨_, rfl⟩
    obtain ⟨hle, -, hold⟩ := hleast g hg
    refine ⟨g, hg, ?_⟩
    rcases List.mem_append.mp ha with hmem | hnew
    · obtain ⟨g', hg', hle'⟩ := h.greens a hmem hga
      exact (hold g' hg').trans hle'
    · rwa [List.mem_singleton.mp hnew]
  · obtain ⟨hlaid, hapart⟩ := h.laid hd
    exact ⟨⟨hlaid.stored, hlaid.received⟩, hapart⟩

/-- A segment that is refused may still raise the greatest end. -/
theorem refused (h : s.Colours log) (hfits : s.redMiscolored ds = false) {maxBlockSize : Nat}
    (hinsert : s.insertRed ds.offset ds.data maxBlockSize = (s', false)) : s'.Colours log := by
  obtain ⟨hred, hgreen⟩ := redMiscolored_eq_false hfits
  have hmax := (insertRed_maxRedEnd hinsert).1
  obtain ⟨maxRedEnd, rfl⟩ := insertRed_refused hinsert
  simp only at hmax
  refine ⟨fun r hr => ?_, fun g hg => ⟨?_, (h.greenStart g hg).2⟩, fun x hx => ?_,
    fun b hb hrb hdb => ?_, h.eorps, h.greens, fun hd => ?_⟩
  · have hle := h.redEnd r hr
    have hle' := (hred r hr).1
    simp only
    omega
  · have hle := (h.greenStart g hg).1
    have hle' := hgreen g hg
    simp only
    omega
  · have hlt := h.received x hx
    simp only
    omega
  · have hle := h.reds b hb hrb hdb
    simp only
    omega
  · obtain ⟨hlaid, hapart⟩ := h.laid hd
    exact ⟨⟨hlaid.stored, hlaid.received⟩, hapart⟩

end Colours

/-- `data` has all of the red data that the session has received. -/
structure Complete (log : List DataSegment) (s : RecvSession) (data : Bytes) : Prop where
  length : s.redPartLen = some data.length
  received : ∀ x ∈ s.redReceived, x < data.length
  reds : ∀ ds ∈ log, ds.kind.isRed = true → ds.data ≠ [] → ds.segEnd ≤ data.length

end RecvSession

/-- The red part that a notice delivers for a session. -/
def Notice.redPartOf (sid : SessionId) : Notice → Option Bytes
  | .redPartReceived session _ _ data _ => if session = sid then some data else none
  | _ => none

namespace Engine

variable {e : Engine} {source : EngineId} {sid : SessionId} {ds : DataSegment} {now : Nat}

/-- The session takes the segment: it is open, allows the client service, and does not refuse the
data. -/
def hears (e : Engine) (source : EngineId) (sid : SessionId) (ds : DataSegment) (now : Nat) : Bool :=
  match e.admitted source sid ds now with
  | none => false
  | some t => e.config.allows ds.clientService && (!ds.kind.isRed ||
      ((t.touched now).insertRed ds.offset ds.data e.config.maxBlockSize.toNat).2)

/-- A segment that is stored and ends the red part ends no lower than the red data before it. -/
def keepsRed (e : Engine) (source : EngineId) (sid : SessionId) (ds : DataSegment) (now : Nat) :
    Bool :=
  (e.stored source sid ds now).isNone || !ds.kind.isEorp ||
    decide ((e.found source sid ds now).maxRedEnd ≤ ds.segEnd)

/-- Nothing is cut off a delivery. -/
theorem complete_deliveryNotices {log : List DataSegment} {s : RecvSession} (h : s.Colours log)
    (sid : SessionId) (source : EngineId) {x : Notice} (hx : x ∈ s.deliveryNotices sid source)
    {data : Bytes} (hdata : x.redPartOf sid = some data) : s.delivered.Complete log data := by
  unfold RecvSession.deliveryNotices at hx
  split at hx
  · next hdeliverable =>
    have hparts := hdeliverable
    simp only [RecvSession.deliverable, Bool.and_eq_true, Bool.not_eq_true'] at hparts
    obtain ⟨hcomplete, hdelivered⟩ := hparts
    obtain ⟨hlaid, hapart⟩ := h.laid hdelivered
    rw [List.mem_singleton.mp hx] at hdata
    simp only [Notice.redPartOf, if_true, Option.some.injEq] at hdata
    unfold RecvSession.isRedComplete at hcomplete
    cases hlen : s.redPartLen with
    | none => simp [hlen] at hcomplete
    | some r =>
      simp only [hlen] at hcomplete
      have hfull : r ≤ s.redBuf.length := by
        apply hlaid.le_length hapart
        intro x hx
        exact RangeSet.covers_iff.mp hcomplete x (Nat.zero_le x) hx
      have hlength : data.length = r := by
        rw [← hdata, hlen, Option.getD_some, List.length_take, Nat.min_eq_left hfull]
      have hmax := h.redEnd r hlen
      simp only [RecvSession.delivered, hdeliverable, if_true]
      refine ⟨?_, fun x hx => ?_, fun ds hds hred hne => ?_⟩
      · rw [hlength]
        exact hlen
      · rw [hlength]
        exact lt_of_lt_of_le (h.received x hx) hmax
      · rw [hlength]
        exact (h.reds ds hds hred hne).trans hmax
  · cases hx

/-- What a data segment does to the colours of the session that takes it. -/
theorem colours_of_dataOutcome {t s' : RecvSession} {n : List Notice} {log : List DataSegment}
    (h : DataOutcome e.config sid source ds (t.touched now) s' n)
    (hadmitted : e.admitted source sid ds now = some t) (ht : t.Colours log)
    (hkeeps : e.keepsRed source sid ds now = true) :
    (s'.cancelReason = none →
      s'.Colours (if e.hears source sid ds now then log ++ [ds] else log)) ∧
    (e.hears source sid ds now = true → ¬Coloured (log ++ [ds]) →
      s'.cancelReason = some .miscolored) ∧
    ∀ x ∈ n, ∀ data, x.redPartOf sid = some data →
      s'.Complete (if e.hears source sid ds now then log ++ [ds] else log) data := by
  have htouched : (t.touched now).Colours log := ht.congr rfl rfl rfl rfl rfl rfl rfl
  have hfound := (handleIncomingData_admitted hadmitted).2.1
  have hkept : ∀ s₁, e.config.allows ds.clientService = true → ds.kind.isRed = true →
      (t.touched now).redMiscolored ds = false →
      (t.touched now).insertRed ds.offset ds.data e.config.maxBlockSize.toNat = (s₁, true) →
      (s₁.markEnds ds).Colours (log ++ [ds]) := by
    intro s₁ hallowed hred hfits hinsert
    refine htouched.stored hred hfits (fun heorp => ?_) hinsert
    have hstored : e.stored source sid ds now = some (s₁.markEnds ds) :=
      stored_eq_some.mpr ⟨t, hadmitted, hallowed, hred, hfits, s₁, hinsert, rfl⟩
    rw [keepsRed, hstored, heorp, ← hfound] at hkeeps
    have hle : t.maxRedEnd ≤ ds.segEnd := by simpa using hkeeps
    exact hle
  have hheard : e.hears source sid ds now = (e.config.allows ds.clientService && (!ds.kind.isRed ||
      ((t.touched now).insertRed ds.offset ds.data e.config.maxBlockSize.toNat).2)) := by
    simp only [hears, hadmitted]
  cases h with
  | unreachable hallowed =>
    rw [hheard, hallowed]
    exact ⟨nofun, nofun, by simp [Notice.redPartOf]⟩
  | redMiscolored hallowed hred hfits => exact ⟨nofun, fun _ _ => rfl, by simp [Notice.redPartOf]⟩
  | greenMiscolored hallowed hgreen hfits => exact ⟨nofun, fun _ _ => rfl, by simp [Notice.redPartOf]⟩
  | refused hred hfits hinsert =>
    rw [hheard, hred, hinsert]
    simp only [Bool.not_true, Bool.or_self, Bool.and_false, Bool.false_eq_true, if_false]
    exact ⟨fun _ => htouched.refused hfits hinsert, nofun, by simp⟩
  | limited hallowed hred hfits hinsert hreports =>
    have hcolours := hkept _ hallowed hred hfits hinsert
    exact ⟨nofun, fun _ hnot => absurd hcolours.coloured hnot, by simp [Notice.redPartOf]⟩
  | stored hallowed hred hfits hinsert hreports =>
    have hcolours := (hkept _ hallowed hred hfits hinsert).upToReports hreports
    rw [hheard, hallowed, hinsert]
    simp only [Bool.or_true, Bool.and_self, if_true]
    exact ⟨fun _ => hcolours.delivered, fun _ hnot => absurd hcolours.coloured hnot,
      fun x hx data hdata => complete_deliveryNotices hcolours sid source hx hdata⟩
  | green hallowed hgreen hfits =>
    have hcolours := htouched.green hgreen hfits
    rw [hheard, hallowed, hgreen]
    simp only [Bool.not_false, Bool.true_or, Bool.and_self, if_true]
    refine ⟨fun _ => hcolours.delivered, fun _ hnot => absurd hcolours.coloured hnot,
      fun x hx data hdata => ?_⟩
    rcases List.mem_cons.mp hx with rfl | hx
    · cases hdata
    · exact complete_deliveryNotices hcolours sid source hx hdata

end Engine

end HdyUtils.Ltp
