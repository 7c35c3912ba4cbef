import HdyUtils.Ltp.Engine.Sending

/-! The first transmission of a block (`Engine::request_transmission`): into which segments the block
is cut, and what the request leaves in the engine. -/

namespace HdyUtils.Ltp

open Runs

namespace Engine

/-- `request_transmission` on the engine in place, which keeps its state where the call fails. -/
def requestTransmissionM (peer : EngineId) (clientService : UInt64) (block : Bytes)
    (redLen now : Nat) : ExceptT Error (StateM Engine) SessionId := do
  let blockLen := block.length
  let maxBlockSize := (← get).config.maxBlockSize.toNat
  if maxBlockSize < blockLen then
    throw (.blockTooLarge blockLen maxBlockSize)
  if blockLen < redLen then
    throw (.invalidRedLength redLen blockLen)
  let sessionId := (← get).nextSessionId
  modify numberSession
  let session := SendSession.new sessionId peer clientService block redLen 0 now
  modify fun e => e.openSession session now
  return sessionId

theorem requestTransmissionM_run (e : Engine) (peer : EngineId) (clientService : UInt64)
    (block : Bytes) (redLen now : Nat) :
    (requestTransmissionM peer clientService block redLen now).run.run e =
      match e.requestTransmission peer clientService block redLen now with
      | .ok (sid, e') => (.ok sid, e')
      | .error err => (.error err, e) := by
  unfold requestTransmission
  by_cases hsize : e.config.maxBlockSize.toNat < block.length
  · simp only [hsize, if_true]
    show (ite _ _ _ : ExceptT Error (StateM Engine) SessionId) e = _
    rw [if_pos hsize]
    rfl
  by_cases hred : block.length < redLen
  · simp only [hsize, hred, if_true, if_false]
    show (ite _ _ _ : ExceptT Error (StateM Engine) SessionId) e = _
    rw [if_neg hsize, if_pos hred]
    rfl
  · simp only [hsize, hred, if_false]
    show (ite _ _ _ : ExceptT Error (StateM Engine) SessionId) e = _
    rw [if_neg hsize, if_neg hred]
    rfl

end Engine

/-! ### The segments of a block -/

/-- The data segments carry the block from its first octet to its last, its red part first, with one
checkpoint at the end of the red part and one mark at the end of the block. -/
structure Transfer.Segments (t : Transfer) (mtu : Nat) (segs : List DataSegment) : Prop where
  clientService : ∀ ds ∈ segs, ds.clientService = t.clientService
  payload : (segs.map DataSegment.data).flatten = t.block
  length : ∀ ds ∈ segs, 0 < ds.data.length ∧ ds.data.length ≤ mtu
  offset : ∀ pre ds post, segs = pre ++ ds :: post →
    ds.offset = (pre.map fun p => p.data.length).sum
  red : ∀ ds ∈ segs, ds.kind.isRed ↔ ds.offset < t.redLen
  border : ∀ ds ∈ segs, ds.offset < t.redLen → ds.offset + ds.data.length ≤ t.redLen
  checkpoint : ∀ ds ∈ segs, ds.kind.checkpoint.isSome ↔
    ds.kind.isRed ∧ ds.offset + ds.data.length = t.redLen
  eorp : ∀ ds ∈ segs, ds.kind.isEorp = ds.kind.checkpoint.isSome
  eob : ∀ ds ∈ segs, ds.kind.isEob ↔ ds.offset + ds.data.length = t.block.length
  oneCheckpoint : segs.countP (fun ds => ds.kind.checkpoint.isSome) = if 0 < t.redLen then 1 else 0
  oneEob : segs.countP (fun ds => ds.kind.isEob) = if t.block = [] then 0 else 1

namespace SendSession

/-- The spans in which a session first transmits its block: those of the red part, then those of the
green part. -/
def firstSpans (s : SendSession) (mtu : Nat) : List Range :=
  chunkSpans mtu 0 s.redLen ++ chunkSpans mtu s.redLen s.block.length

/-- The segment of a span in the first transmission. -/
def firstSegment (s : SendSession) (span : Range) : DataSegment :=
  let kind :=
    if s.redLen ≤ span.start then
      if span.stop == s.block.length then .greenEob else .green
    else if span.stop == s.redLen then
      checkpointKind true (span.stop == s.block.length) ⟨nextNonzeroSerial s.lastCpSerial, 0⟩
    else .red
  s.dataSegment kind span

variable {s : SendSession} {mtu : Nat} {span : Range}

theorem tiles_firstSpans (hmtu : 0 < mtu) (hle : s.redLen ≤ s.block.length) :
    Tiles 0 s.block.length (s.firstSpans mtu) :=
  (tiles_chunkSpans hmtu (Nat.zero_le _)).append (tiles_chunkSpans hmtu hle)

/-- A span of the first transmission keeps to one colour. -/
theorem mem_firstSpans (hmtu : 0 < mtu) (h : span ∈ s.firstSpans mtu) :
    span.start < span.stop ∧ span.stop - span.start ≤ mtu ∧
      (span.stop ≤ s.redLen ∨ s.redLen ≤ span.start ∧ span.stop ≤ s.block.length) := by
  rcases List.mem_append.mp h with h | h
  · obtain ⟨-, hne, hstop⟩ := chunkSpans_bounds hmtu h
    exact ⟨hne, length_le_of_mem_chunkSpans h, .inl hstop⟩
  · obtain ⟨hstart, hne, hstop⟩ := chunkSpans_bounds hmtu h
    exact ⟨hne, length_le_of_mem_chunkSpans h, .inr ⟨hstart, hstop⟩⟩

/-- What the segment of a span says of the span. -/
structure Marks (s : SendSession) (span : Range) (ds : DataSegment) : Prop where
  length : ds.data.length = span.stop - span.start
  stop : ds.offset + ds.data.length = span.stop
  red : ds.kind.isRed ↔ span.start < s.redLen
  checkpoint : ds.kind.checkpoint.isSome ↔ span.stop = s.redLen
  eorp : ds.kind.isEorp = ds.kind.checkpoint.isSome
  eob : ds.kind.isEob ↔ span.stop = s.block.length

theorem marks_firstSegment (hmtu : 0 < mtu) (hle : s.redLen ≤ s.block.length)
    (h : span ∈ s.firstSpans mtu) : s.Marks span (s.firstSegment span) := by
  obtain ⟨start, stop⟩ := span
  obtain ⟨hne, -, hcolour⟩ := mem_firstSpans hmtu h
  simp only at hne hcolour
  have hlength : (s.firstSegment ⟨start, stop⟩).data.length = stop - start :=
    length_slice (show stop ≤ s.block.length by omega)
  have hstop : (s.firstSegment ⟨start, stop⟩).offset + (s.firstSegment ⟨start, stop⟩).data.length =
      stop := by
    rw [hlength, firstSegment, dataSegment]
    exact Nat.add_sub_cancel' hne.le
  by_cases hgreen : s.redLen ≤ start
  · have hkind : (s.firstSegment ⟨start, stop⟩).kind =
        if stop == s.block.length then .greenEob else .green := by
      simp only [firstSegment, dataSegment, hgreen, if_true]
    have hnot : ¬stop = s.redLen := by omega
    refine ⟨hlength, hstop, ?_, ?_, ?_, ?_⟩ <;> rw [hkind] <;>
      by_cases hend : stop = s.block.length <;>
        simp [hend, DataSegKind.isRed, DataSegKind.checkpoint, DataSegKind.isEorp,
          DataSegKind.isEob] <;> omega
  by_cases hlast : stop = s.redLen
  · have hkind : (s.firstSegment ⟨start, stop⟩).kind =
        checkpointKind true (stop == s.block.length) ⟨nextNonzeroSerial s.lastCpSerial, 0⟩ := by
      simp only [firstSegment, dataSegment, hgreen, if_false, hlast, beq_self_eq_true, if_true]
    refine ⟨hlength, hstop, ?_, ?_, ?_, ?_⟩ <;> rw [hkind]
    · simpa [checkpointKind_isRed] using hgreen
    · simp [checkpointKind_checkpoint, hlast]
    · simp [checkpointKind_checkpoint, checkpointKind_isEorp]
    · simp [checkpointKind_isEob]
  · have hkind : (s.firstSegment ⟨start, stop⟩).kind = .red := by
      simp only [firstSegment, dataSegment, hgreen, if_false, beq_iff_eq, hlast]
    refine ⟨hlength, hstop, ?_, ?_, ?_, ?_⟩ <;> rw [hkind]
    · simpa [DataSegKind.isRed] using hgreen
    · simpa [DataSegKind.checkpoint] using hlast
    · rfl
    · simp only [DataSegKind.isEob, Bool.false_eq_true, false_iff]
      omega

/-- The segments of the first transmission are those of the block. -/
theorem segments_firstSpans (hmtu : 0 < mtu) (hle : s.redLen ≤ s.block.length) :
    s.transfer.Segments mtu ((s.firstSpans mtu).map s.firstSegment) := by
  have htiles := tiles_firstSpans hmtu hle
  have hmarks : ∀ {span}, span ∈ s.firstSpans mtu → s.Marks span (s.firstSegment span) :=
    fun h => marks_firstSegment hmtu hle h
  have hspan : ∀ {P : DataSegment → Prop}, (∀ span ∈ s.firstSpans mtu, P (s.firstSegment span)) →
      ∀ ds ∈ (s.firstSpans mtu).map s.firstSegment, P ds := by
    simp
  constructor
  · exact hspan fun span _ => rfl
  · have hslices := htiles.flatten_slices s.block
    rw [List.map_map]
    refine hslices.trans ?_
    simp [Runs.slice]
  · refine hspan fun span h => ?_
    obtain ⟨hne, hlen, -⟩ := mem_firstSpans hmtu h
    rw [(hmarks h).length]
    omega
  · intro pre ds post hsplit
    obtain ⟨pre', rest, hspans, rfl, hrest⟩ := List.map_eq_append_iff.mp hsplit
    obtain ⟨span, post', rfl, rfl, rfl⟩ := List.map_eq_cons_iff.mp hrest
    rw [hspans] at htiles
    have hsum := htiles.start_eq_sum
    rw [Nat.zero_add] at hsum
    refine hsum.trans (congrArg List.sum ?_)
    rw [List.map_map]
    refine List.map_congr_left fun p hp => ?_
    exact (hmarks (by rw [hspans]; exact List.mem_append_left _ hp)).length.symm
  · exact hspan fun span h => (hmarks h).red
  · refine hspan fun span h hred => ?_
    obtain ⟨-, -, hcolour⟩ := mem_firstSpans hmtu h
    rw [(hmarks h).stop]
    have hred' : span.start < s.redLen := hred
    have hgoal : span.stop ≤ s.redLen := by omega
    exact hgoal
  · refine hspan fun span h => ?_
    obtain ⟨hne, -, -⟩ := mem_firstSpans hmtu h
    rw [(hmarks h).checkpoint, (hmarks h).red, (hmarks h).stop]
    simp only [transfer_redLen]
    omega
  · exact hspan fun span h => (hmarks h).eorp
  · refine hspan fun span h => ?_
    rw [(hmarks h).eob, (hmarks h).stop]
    rfl
  · rw [List.countP_map]
    have hcongr := List.countP_congr (p := (fun ds : DataSegment => ds.kind.checkpoint.isSome) ∘
      s.firstSegment) (q := fun span => span.stop == s.redLen) (l := s.firstSpans mtu)
      fun span h => by simpa using (hmarks h).checkpoint
    rw [hcongr, firstSpans, List.countP_append, (tiles_chunkSpans hmtu (Nat.zero_le _)).countP_stop,
      List.countP_eq_zero.mpr]
    · simp only [transfer_redLen]
      split <;> split <;> omega
    · intro span h
      have hbounds := chunkSpans_bounds hmtu h
      simp only [beq_iff_eq]
      omega
  · rw [List.countP_map]
    have hcongr := List.countP_congr (p := (fun ds : DataSegment => ds.kind.isEob) ∘
      s.firstSegment) (q := fun span => span.stop == s.block.length) (l := s.firstSpans mtu)
      fun span h => by simpa using (hmarks h).eob
    rw [hcongr, htiles.countP_stop]
    simp only [transfer_block, eq_comm (a := (0 : Nat)), List.length_eq_zero_iff]

end SendSession

namespace Engine

/-- The push that carries the segment of a span of the first transmission. -/
def firstPush (s : SendSession) (span : Range) : EngineId × Bytes :=
  Push.wire s.id (s.peer, .data (s.firstSegment span))

variable {s : SendSession}

/-- The spans of the red part before the last one leave the session as it is. -/
theorem foldl_sendRedSpan_init {spans : List Range} (now : Nat) (e : Engine)
    (h : ∀ span ∈ spans, span.start < span.stop ∧ span.stop < s.redLen) :
    spans.foldl (sendRedSpan now) (e, s) =
      ({ e with outbound := e.outbound ++ spans.map (firstPush s) }, s) := by
  induction spans generalizing e with
  | nil => simp
  | cons span spans ih =>
    obtain ⟨hne, hlt⟩ := h span (by simp)
    have hgreen : ¬s.redLen ≤ span.start := by omega
    have hstep : sendRedSpan now (e, s) span =
        ({ e with outbound := e.outbound ++ [firstPush s span] }, s) := by
      simp only [sendRedSpan, beq_iff_eq, hlt.ne, if_false, firstPush, SendSession.firstSegment,
        hgreen]
      rfl
    rw [List.foldl_cons, hstep, ih _ fun q hq => h q (by simp [hq])]
    simp

theorem foldl_sendGreenSpan_eq {s' : SendSession} {spans : List Range} (e : Engine)
    (h : ∀ span ∈ spans, s.redLen ≤ span.start)
    (hsame : s.UpToCheckpoints s') :
    spans.foldl (sendGreenSpan s') e =
      { e with outbound := e.outbound ++ spans.map (firstPush s) } := by
  have hstep : ∀ (e : Engine) (span : Range), s.redLen ≤ span.start →
      sendGreenSpan s' e span = { e with outbound := e.outbound ++ [firstPush s span] } := by
    intro e span hgreen
    obtain ⟨_, _, rfl⟩ := hsame
    simp only [sendGreenSpan, firstPush, SendSession.firstSegment, hgreen, if_true]
    rfl
  induction spans generalizing e with
  | nil => simp
  | cons span spans ih =>
    rw [List.foldl_cons, hstep e span (h span (by simp)), ih _ fun q hq => h q (by simp [hq])]
    simp

/-- The record of the checkpoint that ends the red part, whose last span is `last`. -/
def firstRecord (s : SendSession) (last : Range) (now : Nat) : CheckpointRecord where
  serial := nextNonzeroSerial s.lastCpSerial
  reportSerial := 0
  offset := last.start
  length := last.stop - last.start
  isEorp := true
  isEob := last.stop == s.block.length
  retries := 0
  transmittedAt := now

/-- The red part goes out along its spans, and its last segment is kept as a checkpoint. -/
theorem foldl_sendRedSpan_eq {mtu : Nat} (hmtu : 0 < mtu) (hpos : 0 < s.redLen) (now : Nat)
    (e : Engine) :
    ∃ last ∈ chunkSpans mtu 0 s.redLen, last.stop = s.redLen ∧
      (chunkSpans mtu 0 s.redLen).foldl (sendRedSpan now) (e, s) =
        (({ e with outbound := e.outbound ++ (chunkSpans mtu 0 s.redLen).map (firstPush s) } : Engine
          ).setTimer (.checkpoint s.id (firstRecord s last now).serial.val)
            (e.peerTimeoutDeadline s.peer now),
          { s with
            lastCpSerial := (firstRecord s last now).serial.val
            checkpoints := s.checkpoints.insert (firstRecord s last now).serial.val
              (firstRecord s last now) }) := by
  obtain ⟨init, last, hsplit, hstop, hinit, hlt⟩ :=
    (tiles_chunkSpans hmtu (Nat.zero_le _)).exists_last hpos
  have hne : last.start < last.stop := by omega
  have hinit' : ∀ span ∈ init, span.start < span.stop ∧ span.stop < s.redLen := fun span h => by
    have hbounds := hinit.bounds h
    omega
  have hpush : ({ e with outbound := e.outbound ++ init.map (firstPush s) } : Engine).push s.peer
      s.id (.data ((firstRecord s last now).segment s)) =
      { e with outbound := e.outbound ++ (init ++ [last]).map (firstPush s) } := by
    have hsegment : (firstRecord s last now).segment s = s.firstSegment last := by
      have hgreen : ¬s.redLen ≤ last.start := by omega
      simp only [SendSession.firstSegment, CheckpointRecord.segment, firstRecord,
        SendSession.dataSegment, hgreen, if_false, hstop, beq_self_eq_true, if_true,
        Nat.add_sub_cancel' hlt.le]
    simp [push, hsegment, firstPush, Push.wire]
  refine ⟨last, by rw [hsplit]; simp, hstop, ?_⟩
  rw [hsplit, List.foldl_append, foldl_sendRedSpan_init now e hinit', List.foldl_cons,
    List.foldl_nil]
  simp only [sendRedSpan, beq_iff_eq, hstop, if_true, issueCheckpoint]
  rw [← hpush]
  simp only [firstRecord, hstop]
  rfl

/-- The session of a request once its segments are queued. -/
def firstSession (s : SendSession) (record : CheckpointRecord) : SendSession :=
  { s with
    lastCpSerial := record.serial.val
    checkpoints := s.checkpoints.insert record.serial.val record
    eobSent := true }

/-- Opening a session with a red part stores it with the one checkpoint that ends the red part. -/
theorem openSession_eq_putSend (e : Engine) (hpos : 0 < s.redLen) (hclaims : s.claimsReceived = .new)
    (now : Nat) :
    ∃ last ∈ chunkSpans e.config.mtu 0 s.redLen, last.stop = s.redLen ∧
      e.openSession s now =
        ((({ e with
            outbound := e.outbound ++ (s.firstSpans e.config.mtu).map (firstPush s) } : Engine
          ).setTimer (.checkpoint s.id (firstRecord s last now).serial.val)
            (e.peerTimeoutDeadline s.peer now)).touchInactivity s.id true now).putSend s.id
          (firstSession s (firstRecord s last now)) := by
  have hmtu := e.config.mtu_pos
  have hgreen : ∀ span ∈ chunkSpans e.config.mtu s.redLen s.block.length, s.redLen ≤ span.start :=
    fun span h => (chunkSpans_bounds hmtu h).1
  have hincomplete : s.claimsReceived.covers ⟨0, s.redLen⟩ = false := by
    rw [RangeSet.not_covers_iff, hclaims]
    exact ⟨0, le_rfl, hpos, RangeSet.not_mem_new 0⟩
  obtain ⟨last, hlast, hstop, hred⟩ := foldl_sendRedSpan_eq hmtu hpos now e
  refine ⟨last, hlast, hstop, ?_⟩
  rw [openSession, hred]
  show (((chunkSpans e.config.mtu s.redLen s.block.length).foldl (sendGreenSpan _) _).storeSend _
    now) = _
  rw [foldl_sendGreenSpan_eq _ hgreen ⟨_, _, rfl⟩, storeSend, if_neg (by
    simp [SendSession.isComplete, hincomplete])]
  simp only [SendSession.firstSpans, List.map_append, ← List.append_assoc]
  rfl

/-- What a request for a block leaves behind: its segments in the output, and the session with the
checkpoint that ends the red part, or the notice that nothing is left to do. -/
structure Sent (t : Transfer) (peer : EngineId) (sid : SessionId) (now : Nat)
    (segs : List DataSegment) (e e' : Engine) : Prop where
  segments : t.Segments e.config.mtu segs
  outbound : e'.outbound = e.outbound ++ segs.map fun ds => Push.wire sid (peer, .data ds)
  live : 0 < t.redLen → ∃ s record, e'.sendSessions = e.sendSessions.insert sid s ∧
    s.id = sid ∧ s.peer = peer ∧ s.transfer = t ∧ s.cancelReason = none ∧ s.isComplete = false ∧
    (∀ serial : UInt64, s.checkpoints[serial]? =
      if record.serial.val = serial then some record else none) ∧
    record.segment s ∈ segs ∧ e'.notices = e.notices ∧
    e'.timerTable.deadline? (.checkpoint sid record.serial.val) =
      some (e.peerTimeoutDeadline peer now) ∧
    ∀ key, key ≠ .checkpoint sid record.serial.val → key ≠ .inactivity sid true →
      e'.timerTable.deadline? key = e.timerTable.deadline? key
  completed : t.redLen = 0 → e'.sendSessions = e.sendSessions ∧ e'.timerTable = e.timerTable ∧
    e'.notices = e.notices ++ [.transmissionSessionCompleted sid]

theorem sent_openSession (e : Engine) (hle : s.redLen ≤ s.block.length)
    (hcps : s.checkpoints = ∅) (hclaims : s.claimsReceived = .new) (hopen : s.cancelReason = none)
    (now : Nat) :
    Sent s.transfer s.peer s.id now ((s.firstSpans e.config.mtu).map s.firstSegment) e
      (e.openSession s now) := by
  have hmtu := e.config.mtu_pos
  have hgreen : ∀ span ∈ chunkSpans e.config.mtu s.redLen s.block.length, s.redLen ≤ span.start :=
    fun span h => (chunkSpans_bounds hmtu h).1
  have hpushes : ((s.firstSpans e.config.mtu).map s.firstSegment).map
      (fun ds => Push.wire s.id (s.peer, .data ds)) = (s.firstSpans e.config.mtu).map (firstPush s) := by
    rw [List.map_map]
    rfl
  rcases Nat.eq_zero_or_pos s.redLen with hzero | hpos
  · have hred : chunkSpans e.config.mtu 0 s.redLen = [] := chunkSpans_eq_nil hzero.le
    have hspans : s.firstSpans e.config.mtu = chunkSpans e.config.mtu s.redLen s.block.length := by
      rw [SendSession.firstSpans, hred, List.nil_append]
    have hcomplete : ({ s with eobSent := true } : SendSession).isComplete = true := by
      simp [SendSession.isComplete, hzero, RangeSet.covers_iff]
    have heq : e.openSession s now =
        ({ e with outbound := e.outbound ++ (s.firstSpans e.config.mtu).map (firstPush s) } : Engine
          ).notify (.transmissionSessionCompleted s.id) := by
      rw [openSession, hred, List.foldl_nil, hspans]
      simp only [foldl_sendGreenSpan_eq e hgreen (.refl s), storeSend, hcomplete, if_true]
    rw [heq]
    exact ⟨SendSession.segments_firstSpans hmtu hle, by rw [hpushes]; rfl,
      fun hred => absurd hzero hred.ne', fun _ => ⟨rfl, rfl, rfl⟩⟩
  · obtain ⟨last, hlast, hstop, heq⟩ := openSession_eq_putSend e hpos hclaims now
    have hmem : last ∈ s.firstSpans e.config.mtu := List.mem_append_left _ hlast
    have hsegment : s.firstSegment last ∈ (s.firstSpans e.config.mtu).map s.firstSegment :=
      List.mem_map_of_mem hmem
    have hbounds := chunkSpans_bounds hmtu hlast
    have hgreen : ¬s.redLen ≤ last.start := by omega
    have hrecord : (firstRecord s last now).segment (firstSession s (firstRecord s last now)) =
        s.firstSegment last := by
      simp only [SendSession.firstSegment, CheckpointRecord.segment, firstRecord, firstSession,
        SendSession.dataSegment, SendSession.slice, hgreen, if_false, hstop, beq_self_eq_true,
        if_true, Nat.add_sub_cancel' (show last.start ≤ s.redLen by omega)]
    have hincomplete : (firstSession s (firstRecord s last now)).isComplete = false := by
      have hnot : s.claimsReceived.covers ⟨0, s.redLen⟩ = false := by
        rw [RangeSet.not_covers_iff, hclaims]
        exact ⟨0, le_rfl, hpos, RangeSet.not_mem_new 0⟩
      simp [SendSession.isComplete, firstSession, hnot]
    have hcheckpoint : ∀ k, TimerKey.checkpoint s.id k ≠ .inactivity s.id true := by
      simp [TimerKey.checkpoint, TimerKey.inactivity]
    refine ⟨SendSession.segments_firstSpans hmtu hle, by rw [hpushes, heq]; simp, fun _ => ?_,
      fun hzero => absurd hzero hpos.ne'⟩
    refine ⟨firstSession s (firstRecord s last now), firstRecord s last now, by rw [heq]; simp, rfl,
      rfl, rfl, hopen, hincomplete, by simp [firstSession, hcps], by rw [hrecord]; exact hsegment, by rw [heq]; simp, ?_, fun key hkey hinact => ?_⟩
    · rw [heq, putSend_timerTable, deadline?_touchInactivity _ _ _ _ (hcheckpoint _)]
      simp
    · rw [heq, putSend_timerTable, deadline?_touchInactivity _ _ _ _ hinact]
      simp [Ne.symm hkey]

end Engine

open Engine in
/-- A request cuts its block into segments, red ones first, and leaves a session that waits for a
report on the end of the red part, or none if there is no red part.  A request that is refused
leaves the engine as it was. -/
theorem request_segments_block (e : Engine) (peer : EngineId) (clientService : UInt64)
    (block : Bytes) (redLen now : Nat) :
    let out := (requestTransmissionM peer clientService block redLen now).run.run e
    (∀ err, out.1 = .error err → out.2 = e) ∧
    ∀ sid, out.1 = .ok sid → ∃ segs, Sent ⟨clientService, block, redLen⟩ peer sid now segs e out.2 := by
  intro out
  have hout : out = _ := requestTransmissionM_run e peer clientService block redLen now
  cases hreq : e.requestTransmission peer clientService block redLen now with
  | error err =>
    rw [hreq] at hout
    rw [hout]
    exact ⟨fun _ _ => rfl, fun sid h => by cases h⟩
  | ok result =>
    obtain ⟨sid, e'⟩ := result
    rw [hreq] at hout
    rw [hout]
    refine ⟨fun err h => (by cases h), fun sid' h => ?_⟩
    cases h
    simp only [requestTransmission] at hreq
    split at hreq
    · cases hreq
    split at hreq
    · cases hreq
    rename_i hred
    cases hreq
    -- the number that the session takes is all that sets `numberSession` apart
    have hsent := sent_openSession e.numberSession
      (s := .new e.nextSessionId peer clientService block redLen 0 now) (not_lt.mp hred) rfl rfl rfl
      now
    exact ⟨_, hsent.segments, hsent.outbound, hsent.live, hsent.completed⟩

/-- Three octets, of which two are red, in segments of one octet. -/
theorem request_segments_block_smallest :
    ∃ segs, Engine.Sent ⟨1, [7, 8, 9], 2⟩ ⟨2⟩ ⟨⟨1⟩, 1⟩ 0 segs
      (.new { EngineConfig.default with maxSegmentPayloadLen := 0 })
      ((Engine.requestTransmissionM ⟨2⟩ 1 [7, 8, 9] 2 0).run.run
        (.new { EngineConfig.default with maxSegmentPayloadLen := 0 })).2 :=
  (request_segments_block _ ⟨2⟩ 1 [7, 8, 9] 2 0).2 _ rfl

end HdyUtils.Ltp
