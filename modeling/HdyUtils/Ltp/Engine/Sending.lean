import HdyUtils.Ltp.Engine.Transfer

/-! Sending parts of a block: what `issueCheckpoint`, the loops over spans and the answer to a report
do to the engine and to the session. -/

namespace HdyUtils.Ltp

open Runs

/-- The push is a data segment for `dest` that is cut from the transfer along `span`. -/
def Push.Carries (t : Transfer) (dest : EngineId) (p : Push) (span : Range) : Prop :=
  ∃ ds, p = (dest, .data ds) ∧ ds.Cuts t ∧ ds.offset = span.start ∧
    ds.offset + ds.data.length = span.stop

/-- `s'` is `s` but for its checkpoints. -/
def SendSession.UpToCheckpoints (s s' : SendSession) : Prop :=
  ∃ lastCpSerial checkpoints, s' = { s with lastCpSerial, checkpoints }

namespace SendSession.UpToCheckpoints

variable {s s' s'' : SendSession}

theorem refl (s : SendSession) : s.UpToCheckpoints s := ⟨_, _, rfl⟩

theorem trans (h : s.UpToCheckpoints s') (h' : s'.UpToCheckpoints s'') :
    s.UpToCheckpoints s'' := by
  obtain ⟨_, _, rfl⟩ := h
  obtain ⟨l, c, rfl⟩ := h'
  exact ⟨l, c, rfl⟩

theorem transfer_eq (h : s.UpToCheckpoints s') : s'.transfer = s.transfer := by
  obtain ⟨_, _, rfl⟩ := h
  rfl

theorem peer_eq (h : s.UpToCheckpoints s') : s'.peer = s.peer := by
  obtain ⟨_, _, rfl⟩ := h
  rfl

theorem claims_eq (h : s.UpToCheckpoints s') : s'.claimsReceived = s.claimsReceived := by
  obtain ⟨_, _, rfl⟩ := h
  rfl

end SendSession.UpToCheckpoints

namespace Engine

/-- From `e` and `s`, data along the spans is queued for `dest` and new checkpoints are kept, with
their timers armed. -/
structure Sends (sid : SessionId) (dest : EngineId) (pushes : List Push) (spans : List Range)
    (e : Engine) (s : SendSession) (e' : Engine) (s' : SendSession) : Prop where
  acts : Acts sid pushes [] e e'
  send : e'.sendSessions = e.sendSessions
  recv : e'.recvSessions = e.recvSessions
  session : s.UpToCheckpoints s'
  sound : ∀ maxBlockSize, s.Sound sid maxBlockSize → s'.Sound sid maxBlockSize
  data : List.Forall₂ (Push.Carries s.transfer dest) pushes spans
  armed_old : e.armed sid ⊆ e'.armed sid
  armed_new : ∀ k ∈ e'.armed sid, k ∈ e.armed sid ∨ ∃ serial, k = .checkpoint serial
  armed_record : ∀ serial, serial ∈ s'.checkpoints →
    serial ∈ s.checkpoints ∨ .checkpoint serial ∈ e'.armed sid
  kept : ∀ serial, serial ∈ s.checkpoints → serial ∈ s'.checkpoints
  inactivity : e'.timerTable.deadline? (.inactivity sid true) =
    e.timerTable.deadline? (.inactivity sid true)

namespace Sends

variable {sid : SessionId} {dest : EngineId} {p p' : List Push} {spans spans' : List Range}
  {e e' e'' : Engine} {s s' s'' : SendSession}

theorem refl (sid : SessionId) (dest : EngineId) (e : Engine) (s : SendSession) :
    Sends sid dest [] [] e s e s where
  acts := .refl sid e
  send := rfl
  recv := rfl
  session := .refl s
  sound := fun _ h => h
  data := .nil
  armed_old := subset_rfl
  armed_new := fun _ => .inl
  armed_record := fun _ => .inl
  kept := fun _ h => h
  inactivity := rfl

theorem trans (h : Sends sid dest p spans e s e' s') (h' : Sends sid dest p' spans' e' s' e'' s'') :
    Sends sid dest (p ++ p') (spans ++ spans') e s e'' s'' where
  acts := h.acts.trans h'.acts
  send := h'.send.trans h.send
  recv := h'.recv.trans h.recv
  session := h.session.trans h'.session
  sound := fun m hs => h'.sound m (h.sound m hs)
  data := by
    have hdata := h'.data
    rw [h.session.transfer_eq] at hdata
    exact List.rel_append h.data hdata
  armed_old := h.armed_old.trans h'.armed_old
  armed_new := fun k hk => by
    rcases h'.armed_new k hk with hk | hk
    · exact h.armed_new k hk
    · exact .inr hk
  armed_record := fun serial hserial => by
    rcases h'.armed_record serial hserial with hs | hs
    · exact (h.armed_record serial hs).imp_right fun ha => h'.armed_old ha
    · exact .inr hs
  kept := fun serial hs => h'.kept serial (h.kept serial hs)
  inactivity := h'.inactivity.trans h.inactivity

/-- A loop over chunks, each of which is sent along its span. -/
theorem foldl {β : Type*} {f : Engine × SendSession → β → Engine × SendSession} (span : β → Range)
    {l : List β} {maxBlockSize : Nat}
    (hf : ∀ b ∈ l, ∀ e₁ s₁, s₁.Sound sid maxBlockSize → s.UpToCheckpoints s₁ →
      ∃ push, Sends sid dest [push] [span b] e₁ s₁ (f (e₁, s₁) b).1 (f (e₁, s₁) b).2)
    (hs : s.Sound sid maxBlockSize) (e : Engine) :
    ∃ pushes, Sends sid dest pushes (l.map span) e s (l.foldl f (e, s)).1 (l.foldl f (e, s)).2 := by
  induction l generalizing e s with
  | nil => exact ⟨[], .refl sid dest e s⟩
  | cons b l ih =>
    obtain ⟨push, hb⟩ := hf b (by simp) e s hs (.refl s)
    obtain ⟨pushes, hl⟩ := ih (s := (f (e, s) b).2)
      (fun c hc e₁ s₁ hs₁ ht₁ => hf c (by simp [hc]) e₁ s₁ hs₁ (hb.session.trans ht₁))
      (hb.sound _ hs) (f (e, s) b).1
    exact ⟨push :: pushes, hb.trans hl⟩

/-- A loop over chunks of which one keeps a record ends with a record. -/
theorem foldl_record {β : Type*} {f : Engine × SendSession → β → Engine × SendSession}
    (span : β → Range) {l : List β} {maxBlockSize : Nat}
    (hf : ∀ b ∈ l, ∀ e₁ s₁, s₁.Sound sid maxBlockSize → s.UpToCheckpoints s₁ →
      ∃ push, Sends sid dest [push] [span b] e₁ s₁ (f (e₁, s₁) b).1 (f (e₁, s₁) b).2)
    (hs : s.Sound sid maxBlockSize) (e : Engine) {b : β} (hb : b ∈ l)
    (hrecord : ∀ e₁ s₁, s.UpToCheckpoints s₁ → ∃ serial, serial ∈ (f (e₁, s₁) b).2.checkpoints) :
    ∃ serial, serial ∈ (l.foldl f (e, s)).2.checkpoints := by
  obtain ⟨l₁, l₂, rfl⟩ := List.append_of_mem hb
  obtain ⟨p₁, h₁⟩ := foldl span (l := l₁) (fun c hc => hf c (by simp [hc])) hs e
  obtain ⟨push, hpush⟩ := hf b (by simp) _ _ (h₁.sound _ hs) h₁.session
  have hsent := h₁.trans hpush
  obtain ⟨p₂, h₂⟩ := foldl span (l := l₂)
    (fun c hc e₁ s₁ hs₁ ht₁ => hf c (by simp [hc]) e₁ s₁ hs₁ (hsent.session.trans ht₁))
    (hsent.sound _ hs) (f (l₁.foldl f (e, s)) b).1
  obtain ⟨serial, hserial⟩ := hrecord _ _ h₁.session
  rw [List.foldl_append, List.foldl_cons]
  exact ⟨serial, h₂.kept serial hserial⟩

end Sends

section Loops

variable {sid : SessionId} {s : SendSession} {maxBlockSize : Nat} (e : Engine)

theorem sends_issueCheckpoint (hs : s.Sound sid maxBlockSize) (record : CheckpointRecord)
    (hrecord : record.Within s.transfer) (dest : EngineId) (now : Nat) :
    Sends sid dest [(dest, .data (record.segment s))]
      [⟨record.offset, record.offset + record.length⟩] e s
      (e.issueCheckpoint s dest record now).1 (e.issueCheckpoint s dest record now).2 := by
  obtain ⟨rfl, -, hle, -, -⟩ := hs
  have hred := hrecord.le_red
  rw [SendSession.transfer_redLen] at hred
  have hacts := ((Acts.refl s.id e).push dest (.data (record.segment s))).setTimer
    (.checkpoint record.serial.val) (e.peerTimeoutDeadline s.peer now)
  refine ⟨hacts, rfl, rfl, ⟨_, _, rfl⟩, fun m hs => ?_,
    .cons ⟨_, rfl, hrecord.cuts hle, rfl, ?_⟩ .nil, ?_, ?_, ?_, ?_, ?_⟩
  · refine { hs with records := fun serial cp hcp => ?_ }
    rw [issueCheckpoint, Maps.getElem?_insert] at hcp
    split at hcp
    · rename_i hserial
      cases hcp
      exact ⟨hserial, hrecord⟩
    · exact hs.records serial cp hcp
  · rw [CheckpointRecord.segment, SendSession.length_slice (by omega)]
    simp only
    omega
  · simp [issueCheckpoint]
  · intro k hk
    simp only [issueCheckpoint, armed_setTimer, TimerKey.checkpoint_session, if_true,
      TimerKey.checkpoint_kind, armed_push, Set.mem_insert_iff] at hk
    exact hk.symm.imp_right fun h => ⟨_, h⟩
  · intro serial hserial
    simp only [issueCheckpoint, Std.TreeMap.mem_insert, Std.LawfulEqCmp.compare_eq_iff_eq]
      at hserial
    simp only [issueCheckpoint, armed_setTimer, TimerKey.checkpoint_session, if_true,
      TimerKey.checkpoint_kind, armed_push, Set.mem_insert_iff, TimerKind.checkpoint.injEq]
    rcases hserial with rfl | h
    · exact .inr (.inl rfl)
    · exact .inl h
  · intro serial hserial
    simp [issueCheckpoint, Std.TreeMap.mem_insert, hserial]
  · simp [issueCheckpoint, TimerKey.checkpoint, TimerKey.inactivity]

theorem sends_push (hs : s.Sound sid maxBlockSize) (dest : EngineId) {span : Range}
    (h : span.start < span.stop) (hred : span.stop < s.redLen) :
    Sends sid dest [(dest, .data (s.dataSegment .red span))] [span] e s
      (e.push dest s.id (.data (s.dataSegment .red span))) s := by
  obtain ⟨rfl, -, hle, -, -⟩ := hs
  refine { Sends.refl s.id dest e s with
    acts := (Acts.refl s.id e).push dest _
    data := .cons ⟨_, rfl, SendSession.cuts_red h hred hle, rfl, ?_⟩ .nil }
  rw [SendSession.dataSegment, SendSession.length_slice (by omega)]
  simp only
  omega

theorem sends_sendRedSpan (hs : s.Sound sid maxBlockSize) (now : Nat) {span : Range}
    (h : span.start < span.stop) (hred : span.stop ≤ s.redLen) :
    ∃ push, Sends sid s.peer [push] [span] e s (sendRedSpan now (e, s) span).1
      (sendRedSpan now (e, s) span).2 := by
  obtain ⟨start, stop⟩ := span
  simp only at h hred
  simp only [sendRedSpan]
  split
  · rename_i hlast
    rw [beq_iff_eq] at hlast
    have hsends := sends_issueCheckpoint e hs
      { serial := nextNonzeroSerial s.lastCpSerial, reportSerial := 0, offset := start,
        length := stop - start, isEorp := true, isEob := stop == s.block.length, retries := 0,
        transmittedAt := now } (by constructor <;> simp <;> omega) s.peer now
    rw [Nat.add_sub_cancel' h.le] at hsends
    exact ⟨_, hsends⟩
  · rename_i hlast
    rw [beq_iff_eq] at hlast
    exact ⟨_, sends_push e hs s.peer h (by simp only; omega)⟩

theorem mem_issueCheckpoint (record : CheckpointRecord) (dest : EngineId) (now : Nat) :
    record.serial.val ∈ (e.issueCheckpoint s dest record now).2.checkpoints := by
  simp [issueCheckpoint]

/-- The red part of a request goes out along its spans, with a checkpoint at its end. -/
theorem sends_redPart (hs : s.Sound sid maxBlockSize) {mtu : Nat} (hmtu : 0 < mtu) (now : Nat) :
    (∃ pushes, Sends sid s.peer pushes (chunkSpans mtu 0 s.redLen) e s
      ((chunkSpans mtu 0 s.redLen).foldl (sendRedSpan now) (e, s)).1
      ((chunkSpans mtu 0 s.redLen).foldl (sendRedSpan now) (e, s)).2) ∧
    ∃ serial, serial ∈
      ((chunkSpans mtu 0 s.redLen).foldl (sendRedSpan now) (e, s)).2.checkpoints := by
  have hspan : ∀ span ∈ chunkSpans mtu 0 s.redLen, ∀ e₁ s₁, s₁.Sound sid maxBlockSize →
      s.UpToCheckpoints s₁ → ∃ push, Sends sid s.peer [push] [span] e₁ s₁
        (sendRedSpan now (e₁, s₁) span).1 (sendRedSpan now (e₁, s₁) span).2 := by
    intro span hmem e₁ s₁ hs₁ hsame
    have hbounds := chunkSpans_bounds hmtu hmem
    have hred : s₁.redLen = s.redLen := congrArg Transfer.redLen hsame.transfer_eq
    rw [← hsame.peer_eq]
    exact sends_sendRedSpan e₁ hs₁ now hbounds.2.1 (by omega)
  obtain ⟨span, hmem, hstop⟩ := exists_last_chunkSpan hmtu hs.red_pos
  refine ⟨by simpa using Sends.foldl id hspan hs e,
    Sends.foldl_record id hspan hs e hmem fun e₁ s₁ hsame => ?_⟩
  have hred : s₁.redLen = s.redLen := congrArg Transfer.redLen hsame.transfer_eq
  simp only [sendRedSpan, hstop, hred, beq_self_eq_true, if_true]
  exact ⟨_, mem_issueCheckpoint e₁ _ _ _⟩

theorem sends_retransmitChunk (hs : s.Sound sid maxBlockSize) (dest : EngineId)
    (rs : ReportSegment) (now : Nat) {gaps : List Range} {chunk : Range × Bool}
    (h : ChunkOf gaps s.redLen chunk) :
    ∃ push, Sends sid dest [push] [chunk.1] e s (retransmitChunk dest rs now (e, s) chunk).1
      (retransmitChunk dest rs now (e, s) chunk).2 := by
  obtain ⟨⟨start, stop⟩, isFinal⟩ := chunk
  have hne := h.nonempty
  have hle := h.le_stop
  have hlt := h.lt_stop
  have hblock := hs.red_le
  simp only at hne hle hlt
  simp only [retransmitChunk, show stop ≤ s.block.length by omega, if_true]
  cases isFinal with
  | true =>
    have hsends := sends_issueCheckpoint e hs
      { serial := nextNonzeroSerial s.lastCpSerial, reportSerial := rs.reportSerial.val,
        offset := start, length := stop - start, isEorp := stop == s.redLen,
        isEob := stop == s.block.length, retries := 0, transmittedAt := now }
      (by constructor <;> simp <;> omega) dest now
    rw [Nat.add_sub_cancel' hne.le] at hsends
    exact ⟨_, hsends⟩
  | false => exact ⟨_, sends_push e hs dest hne (hlt rfl)⟩

theorem sends_unstick (hs : s.Sound sid maxBlockSize) (dest : EngineId) (rs : ReportSegment)
    (now : Nat) :
    (∃ push, Sends sid dest [push] [⟨s.redLen - 1, s.redLen⟩] e s (e.unstick s dest rs now).1
      (e.unstick s dest rs now).2) ∧
    ∃ serial, serial ∈ (e.unstick s dest rs now).2.checkpoints := by
  have hpos := hs.red_pos
  have hblock := hs.red_le
  simp only [unstick, hpos, if_true, show s.redLen - 1 + 1 ≤ s.block.length by omega]
  have hsends := sends_issueCheckpoint e hs
    { serial := nextNonzeroSerial s.lastCpSerial, reportSerial := rs.reportSerial.val,
      offset := s.redLen - 1, length := 1, isEorp := true, isEob := s.redLen == s.block.length,
      retries := 0, transmittedAt := now }
    (by constructor <;> simp <;> omega) dest now
  rw [Nat.sub_add_cancel hpos] at hsends
  exact ⟨⟨_, hsends⟩, _, mem_issueCheckpoint e _ _ _⟩

/-- The answer to a report sends every gap in the scope of the report again, and leaves the session
with a checkpoint unless the whole red part is claimed. -/
theorem sends_answerReport (hs : s.Sound sid maxBlockSize) (dest : EngineId) (rs : ReportSegment)
    (now : Nat) :
    (∃ pushes spans, Sends sid dest pushes spans e s (e.answerReport s dest rs now).1
      (e.answerReport s dest rs now).2 ∧
      ∀ x, Covers (scopeGaps s rs) x → Covers spans x) ∧
    (s.claimsReceived.covers ⟨0, s.redLen⟩ = false →
      ∃ serial, serial ∈ (e.answerReport s dest rs now).2.checkpoints) := by
  obtain ⟨hsep, hstop, -⟩ := scopeGaps_spec s rs
  have hmtu := e.config.mtu_pos
  have hchunk : ∀ chunk ∈ gapChunks e.config.mtu (scopeGaps s rs), ∀ e₁ s₁,
      s₁.Sound sid maxBlockSize → s.UpToCheckpoints s₁ →
      ∃ push, Sends sid dest [push] [chunk.1] e₁ s₁
        (retransmitChunk dest rs now (e₁, s₁) chunk).1
        (retransmitChunk dest rs now (e₁, s₁) chunk).2 := by
    intro chunk hmem e₁ s₁ hs₁ hsame
    have hred : s₁.redLen = s.redLen := congrArg Transfer.redLen hsame.transfer_eq
    have hof := chunkOf_of_mem hmtu hsep hstop hmem
    rw [← hred] at hof
    exact sends_retransmitChunk e₁ hs₁ dest rs now hof
  obtain ⟨pushes, hloop⟩ := Sends.foldl Prod.fst hchunk hs e
  have hcovers : ∀ x, Covers (scopeGaps s rs) x →
      Covers ((gapChunks e.config.mtu (scopeGaps s rs)).map Prod.fst) x :=
    fun x hx => (covers_gapChunks hmtu).mpr hx
  simp only [answerReport]
  generalize hst : (gapChunks e.config.mtu (scopeGaps s rs)).foldl (retransmitChunk dest rs now)
    (e, s) = st at hloop ⊢
  obtain ⟨e', s'⟩ := st
  simp only at hloop ⊢
  have hs' := hloop.sound _ hs
  split
  · obtain ⟨⟨push, hunstick⟩, hrecord⟩ := sends_unstick e' hs' dest rs now
    exact ⟨⟨_, _, hloop.trans hunstick, fun x hx => by
      rw [covers_append]
      exact .inl (hcovers x hx)⟩, fun _ => hrecord⟩
  · rename_i hstuck
    refine ⟨⟨_, _, hloop, hcovers⟩, fun hcov => ?_⟩
    by_cases hgaps : scopeGaps s rs = []
    · -- without a gap the session kept a checkpoint
      have hred : s'.redLen = s.redLen := congrArg Transfer.redLen hloop.session.transfer_eq
      rw [hgaps, hred, hloop.session.claims_eq, hcov] at hstuck
      simpa [Std.TreeMap.isEmpty_eq_false_iff_exists_mem] using hstuck
    · obtain ⟨span, hfinal⟩ := exists_final_gapChunk hmtu hsep hgaps
      have hrecord := Sends.foldl_record Prod.fst hchunk hs e hfinal fun e₁ s₁ hsame => by
        have hof := chunkOf_of_mem hmtu hsep hstop hfinal
        have hle := hof.le_stop
        have hblock := hs.red_le
        have hlen : s₁.block = s.block := congrArg Transfer.block hsame.transfer_eq
        simp only at hle
        simp only [retransmitChunk, if_true, hlen, show span.stop ≤ s.block.length by omega]
        exact ⟨_, mem_issueCheckpoint e₁ _ _ _⟩
      rwa [hst] at hrecord

end Loops

end Engine

end HdyUtils.Ltp
