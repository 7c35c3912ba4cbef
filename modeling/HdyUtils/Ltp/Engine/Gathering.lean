import HdyUtils.Ltp.Engine.Layout
import HdyUtils.Ltp.Engine.RecvMove

/-! The red part that a receive session gathers.  Whatever order the segments of a transfer come in,
`redBuf` is a prefix of its red part and the sparse segments are later pieces of it, so that what a
session delivers is the red part. -/

namespace HdyUtils.Ltp

/-- A transfer that a request can hand over. -/
structure Transfer.Valid (t : Transfer) : Prop where
  red_le : t.redLen ≤ t.block.length
  lt : t.block.length < 2 ^ 64

/-- `data` is the piece of the red part of `t` at `offset`. -/
structure Transfer.RedPiece (t : Transfer) (offset : Nat) (data : Bytes) : Prop where
  eq : data = (t.block.drop offset).take data.length
  le_red : offset + data.length ≤ t.redLen

/-- Writing a piece of `block` over a prefix that it touches gives the longer prefix. -/
theorem writeAt_take {block buf data : Bytes} {start : Nat}
    (hbuf : buf = block.take buf.length) (hdata : data = (block.drop start).take data.length)
    (hstart : start ≤ buf.length) :
    writeAt buf start data = block.take (max buf.length (start + data.length)) := by
  have hpiece : block.take start ++ data = block.take (start + data.length) := by
    rw [List.take_add, ← hdata]
  have hfirst : buf.take start = block.take start := by
    rw [hbuf, List.take_take, Nat.min_eq_left hstart]
  simp only [writeAt]
  split
  · next hlt =>
    have hdrop : (buf ++ List.replicate (start + data.length - buf.length) (0 : UInt8)).drop
        (start + data.length) = [] := by
      rw [List.drop_eq_nil_iff, List.length_append, List.length_replicate]
      omega
    rw [hdrop, List.append_nil, List.take_append_of_le_length hstart, hfirst, hpiece,
      Nat.max_eq_right hlt.le]
  · next hle =>
    have htail : block.take (start + data.length) ++ buf.drop (start + data.length) = buf := by
      have htake : buf.take (start + data.length) = block.take (start + data.length) := by
        rw [hbuf, List.take_take, Nat.min_eq_left (not_lt.mp hle)]
      rw [← htake, List.take_append_drop]
    rw [hfirst, hpiece, htail, Nat.max_eq_left (not_lt.mp hle), ← hbuf]

namespace RecvSession

/-- The red data that the session has received is in `redBuf`, a prefix of the red part of `t`, or
in the sparse segments, which are pieces of it. -/
structure Buffers (t : Transfer) (s : RecvSession) : Prop where
  buffer : s.redBuf = t.block.take s.redBuf.length
  buffer_le : s.redBuf.length ≤ t.redLen
  sparse : ∀ (offset : Nat) (data : Bytes), s.sparseRed[offset]? = some data →
    t.RedPiece offset data
  stored : ∀ (offset : Nat) (data : Bytes), s.sparseRed[offset]? = some data →
    ∀ x, offset ≤ x → x < offset + data.length → x ∈ s.redReceived
  received : ∀ x ∈ s.redReceived, x < s.redBuf.length ∨ ∃ (offset : Nat) (data : Bytes),
    s.sparseRed[offset]? = some data ∧ offset ≤ x ∧ x < offset + data.length

variable {s s' : RecvSession} {t : Transfer}

theorem Buffers.laid (h : s.Buffers t) : s.Laid := ⟨h.stored, h.received⟩

/-- A piece that `redBuf` has reached joins it. -/
theorem Buffers.join (h : s.Buffers t) {offset : Nat} {data : Bytes} (hpiece : t.RedPiece offset data)
    (hreached : offset ≤ s.redBuf.length) (hbuf : s'.redBuf = writeAt s.redBuf offset data)
    (hsparse : ∀ (o : Nat) (d : Bytes), s'.sparseRed[o]? = some d → s.sparseRed[o]? = some d)
    (hlaid : s'.Laid) : s'.Buffers t := by
  have hle := hpiece.le_red
  have hbufferLe := h.buffer_le
  have hlen : s'.redBuf.length = max s.redBuf.length (offset + data.length) := by
    rw [hbuf, length_writeAt]
  refine ⟨?_, ?_, fun o d hd => h.sparse o d (hsparse o d hd), hlaid.stored, hlaid.received⟩
  · rw [hlen, hbuf]
    exact writeAt_take h.buffer hpiece.eq hreached
  · omega

theorem Buffers.joined (h : s.Buffers t) {offset : Nat} {data : Bytes}
    (hentry : s.sparseRed[offset]? = some data) (hreached : offset ≤ s.redBuf.length) :
    (s.joined offset data).Buffers t :=
  h.join (h.sparse offset data hentry) hreached rfl (sparse_joined hentry).1 (h.laid.joined hentry)

/-! ### Storing a segment -/

section Insert

variable {offset maxBlockSize : Nat} {data : Bytes}

theorem Buffers.insertRed (h : s.Buffers t) (hapart : s.Apart) (hpiece : t.RedPiece offset data) :
    (s.insertRed offset data maxBlockSize).1.Buffers t ∧
      (s.insertRed offset data maxBlockSize).1.Apart := by
  obtain ⟨hlaid, hapart'⟩ := h.laid.insertRed hapart offset data maxBlockSize
  refine ⟨?_, hapart'⟩
  simp only [RecvSession.insertRed] at hlaid ⊢
  split
  · exact h
  split
  · exact h
  split
  · exact h
  split
  · next hreached =>
    refine connectSparse_keeps (fun _ _ _ hbuffers hentry hle => hbuffers.joined hentry hle) _ ?_
    exact h.join hpiece hreached rfl (fun _ _ hd => hd) <| h.laid.join rfl (fun _ _ hd => hd)
      (fun _ _ hd => .inl hd) fun x => RangeSet.mem_insert
  next hcap hsize hfresh hbeyond =>
  simp only [hcap, hsize, hfresh, hbeyond, if_false] at hlaid
  split
  · exact { h with }
  next hquota =>
  rw [if_neg hquota] at hlaid
  refine ⟨h.buffer, h.buffer_le, fun o d hd => ?_, hlaid.stored, hlaid.received⟩
  simp only [Maps.getElem?_insert] at hd
  split at hd
  · next heq =>
    cases hd
    exact heq ▸ hpiece
  · exact h.sparse o d hd

end Insert

/-- What the session has gathered is of the transfer `t`. -/
structure Holds (t : Transfer) (s : RecvSession) : Prop where
  clientService : s.clientService = t.clientService
  redPartLen : ∀ len, s.redPartLen = some len → len = t.redLen ∧ 0 < t.redLen
  redEndsBlock : s.redEndsBlock = true ↔ s.redPartLen.isSome ∧ t.redLen = t.block.length
  received_lt : ∀ x ∈ s.redReceived, x < t.redLen
  /-- The last octet of the red part does not come without the mark that it is the last. -/
  last : t.redLen - 1 ∈ s.redReceived → s.redPartLen = some t.redLen
  buffers : s.redDelivered = false → s.Buffers t ∧ s.Apart

namespace Holds

theorem new {id : SessionId} {peer : EngineId} {clientService : UInt64}
    (hclient : clientService = t.clientService) (initialRsSerial : UInt64) (now : Nat) :
    (RecvSession.new id peer clientService initialRsSerial now).Holds t where
  clientService := hclient
  redPartLen := by simp [RecvSession.new]
  redEndsBlock := by simp [RecvSession.new]
  received_lt := by simp [RecvSession.new]
  last := by simp [RecvSession.new]
  buffers := fun _ => ⟨⟨by simp [RecvSession.new], Nat.zero_le _, by simp [RecvSession.new],
    by simp [RecvSession.new], by simp [RecvSession.new]⟩, by simp [Apart, RecvSession.new]⟩

theorem congr (h : s.Holds t) (hclient : s'.clientService = s.clientService)
    (hlen : s'.redPartLen = s.redPartLen) (hends : s'.redEndsBlock = s.redEndsBlock)
    (hreceived : s'.redReceived = s.redReceived) (hdelivered : s'.redDelivered = s.redDelivered)
    (hbuf : s'.redBuf = s.redBuf) (hsparse : s'.sparseRed = s.sparseRed) : s'.Holds t where
  clientService := hclient.trans h.clientService
  redPartLen := by rw [hlen]; exact h.redPartLen
  redEndsBlock := by rw [hends, hlen]; exact h.redEndsBlock
  received_lt := by rw [hreceived]; exact h.received_lt
  last := by rw [hreceived, hlen]; exact h.last
  buffers := fun hd => by
    obtain ⟨hb, hapart⟩ := h.buffers (hdelivered ▸ hd)
    refine ⟨⟨?_, ?_, ?_, ?_, ?_⟩, ?_⟩
    · rw [hbuf]; exact hb.buffer
    · rw [hbuf]; exact hb.buffer_le
    · rw [hsparse]; exact hb.sparse
    · rw [hsparse, hreceived]; exact hb.stored
    · rw [hsparse, hreceived, hbuf]; exact hb.received
    · rw [Apart, hsparse, hbuf]; exact hapart

theorem delivered (h : s.Holds t) : s.delivered.Holds t := by
  unfold RecvSession.delivered
  split
  · exact { h with buffers := fun hd => nomatch hd }
  · exact h

theorem ackReport (h : s.Holds t) (serial : UInt64) : (s.ackReport serial).Holds t := by
  unfold RecvSession.ackReport
  split
  · exact h.congr rfl rfl rfl rfl rfl rfl rfl
  · exact h

end Holds

/-- The ends that a segment of `t` reveals are those of `t`. -/
theorem markEnds_eq (s : RecvSession) {ds : DataSegment} (hcut : ds.Cuts t) (ht : t.Valid)
    (hred : ds.kind.isRed = true) : ∃ blockLen, s.markEnds ds = { s with
      redPartLen := if ds.kind.isEorp then some t.redLen else s.redPartLen
      blockLen
      redEndsBlock := s.redEndsBlock || ds.kind.isEob } := by
  have hle := hcut.le_block
  have hredLe := (hcut.red hred).2
  have hvalid := ht.red_le
  have hlt := ht.lt
  have heorp := hcut.eorp hred
  have heob := hcut.eob
  have hfits : ¬u64Max < ds.offset + ds.data.length := by
    simp only [u64Max]
    omega
  simp only [markEnds, hfits, if_false]
  by_cases hend : ds.kind.isEorp = true
  · have hstop := heorp.mp hend
    by_cases hblock : ds.kind.isEob = true
    · exact ⟨_, by simp [hend, hblock, hstop]; rfl⟩
    · exact ⟨_, by simp [hend, hblock, hstop]; rfl⟩
  · have hblock : ¬ds.kind.isEob = true := by
      intro hblock
      refine hend (heorp.mpr ?_)
      have hstop := heob.mp hblock
      omega
    exact ⟨_, by simp [hend, hblock]; rfl⟩

end RecvSession

section Moves

variable {config : EngineConfig} {sid : SessionId} {t : Transfer} {ds : DataSegment}
  {s s' : RecvSession} {reports : List ReportSegment}

/-- A stored segment of `t` adds its extent to what the session has of `t`. -/
theorem Stores.holds (h : Stores config ds s s' reports) (hcut : ds.Cuts t) (ht : t.Valid)
    (hs : s.Holds t) : s'.Holds t ∧ ∀ x, x ∈ s'.redReceived ↔
      x ∈ s.redReceived ∨ ds.offset ≤ x ∧ x < ds.offset + ds.data.length := by
  obtain ⟨s₁, hinsert, ⟨lastReportSerial, records, answered, rfl⟩, -, -⟩ := h.stored
  have hpiece : t.RedPiece ds.offset ds.data := ⟨hcut.data, (hcut.red h.red).2⟩
  have hreceived := RecvSession.insertRed_received hinsert
  have hdata := s.insertRed_upToData ds.offset ds.data config.maxBlockSize.toNat
  have hbuffers : s.redDelivered = false → s₁.Buffers t ∧ s₁.Apart := fun hd => by
    have hb : (s.insertRed ds.offset ds.data config.maxBlockSize.toNat).1.Buffers t ∧
        (s.insertRed ds.offset ds.data config.maxBlockSize.toNat).1.Apart :=
      (hs.buffers hd).1.insertRed (hs.buffers hd).2 hpiece
    rwa [hinsert] at hb
  rw [hinsert] at hdata
  obtain ⟨redBuf, redReceived, sparseRed, totalReceivedBytes, maxRedEnd, rfl⟩ := hdata
  obtain ⟨blockLen, hends⟩ := RecvSession.markEnds_eq _ hcut ht h.red
  rw [hends]
  obtain ⟨hpos, hle⟩ := hcut.red h.red
  have heorp := hcut.eorp h.red
  have heob := hcut.eob
  have hredLe := ht.red_le
  refine ⟨⟨hs.clientService, fun len hlen => ?_, ?_, fun x hx => ?_, fun hx => ?_, fun hd => ?_⟩,
    hreceived⟩
  · simp only at hlen
    split at hlen
    · cases hlen
      exact ⟨rfl, by omega⟩
    · exact hs.redPartLen len hlen
  · simp only [Bool.or_eq_true, hs.redEndsBlock]
    by_cases hend : ds.kind.isEorp = true
    · rw [if_pos hend, heob, heorp.mp hend]
      simp
    · have hblock : ¬ds.kind.isEob = true := by
        intro hblock
        refine hend (heorp.mpr ?_)
        have hstop := heob.mp hblock
        omega
      rw [if_neg hend, or_iff_left hblock]
  · rcases (hreceived x).mp hx with hold | hnew
    · exact hs.received_lt x hold
    · omega
  · simp only
    split
    · rfl
    · next hend =>
      rcases (hreceived _).mp hx with hold | hnew
      · exact hs.last hold
      · refine absurd (heorp.mpr ?_) hend
        omega
  · obtain ⟨hb, hapart⟩ := hbuffers hd
    exact ⟨{ hb with }, hapart⟩

/-- A notice of data tells of the transfer `t`. -/
def Notice.TellsOf (t : Transfer) : Notice → Prop
  | .redPartReceived _ _ clientService data eob => 0 < t.redLen ∧ clientService = t.clientService ∧
      data = t.redPart ∧ (eob = true ↔ t.redLen = t.block.length)
  | .greenSegmentArrived _ _ offset data eob => t.redLen ≤ offset ∧
      data = (t.block.drop offset).take data.length ∧ offset + data.length ≤ t.block.length ∧
      (eob = true ↔ offset + data.length = t.block.length)
  | .transmissionSessionCompleted _ | .transmissionSessionCancelled .. => True

/-- A session that has all of the red part has it in `redBuf`, until it is delivered. -/
theorem RecvSession.Holds.redPart (h : s.Holds t) (hred : s.isRedComplete = true)
    (hdelivered : s.redDelivered = false) : s.redPartLen = some t.redLen ∧ 0 < t.redLen ∧
      s.redBuf.take t.redLen = t.redPart := by
  unfold RecvSession.isRedComplete at hred
  cases hlen : s.redPartLen with
  | none => simp [hlen] at hred
  | some len =>
    obtain ⟨rfl, hpos⟩ := h.redPartLen len hlen
    simp only [hlen] at hred
    obtain ⟨hb, hapart⟩ := h.buffers hdelivered
    refine ⟨rfl, hpos, ?_⟩
    have hfull : t.redLen ≤ s.redBuf.length := by
      apply hb.laid.le_length hapart
      intro x hx
      exact RangeSet.covers_iff.mp hred x (Nat.zero_le x) hx
    rw [hb.buffer, List.take_take, Nat.min_eq_left hfull, Transfer.redPart]

theorem RecvSession.Holds.tells (h : s.Holds t) (source : EngineId) :
    ∀ x ∈ s.deliveryNotices sid source, x.TellsOf t := by
  intro x hx
  unfold RecvSession.deliveryNotices at hx
  split at hx
  · next hdeliverable =>
    simp only [RecvSession.deliverable, Bool.and_eq_true, Bool.not_eq_true'] at hdeliverable
    obtain ⟨hlen, hpos, hdata⟩ := h.redPart hdeliverable.1 hdeliverable.2
    rw [List.mem_singleton.mp hx, hlen, Option.getD_some]
    refine ⟨hpos, h.clientService, hdata, ?_⟩
    rw [h.redEndsBlock, hlen]
    simp
  · cases hx

/-- Data is admitted to a session that holds data of `t`. -/
theorem Admits.holds {source : EngineId} {now : Nat} {v : RecvView}
    (h : Admits sid source ds now v s) (hcut : ds.Cuts t)
    (hv : ∀ s, v.session = some s → s.Holds t) : (s.touched now).Holds t := by
  obtain ⟨-, -, ⟨hs, -⟩ | ⟨-, rfl⟩⟩ := h
  · exact (hv s hs).congr rfl rfl rfl rfl rfl rfl rfl
  · exact (RecvSession.Holds.new hcut.clientService 0 now).congr rfl rfl rfl rfl rfl rfl rfl

theorem Spoils.holds (h : Spoils config ds s s' reports) (hcut : ds.Cuts t) (ht : t.Valid)
    (hs : s.Holds t) : s'.Holds t := by
  cases h with
  | untouched => exact hs
  | green => exact hs.congr rfl rfl rfl rfl rfl rfl rfl
  | stored hstores => exact (hstores.holds hcut ht hs).1

/-- Given data of `t` only, a session holds data of `t` and tells of it. -/
theorem RecvMove.holds {trigger : RecvTrigger} {v v' : RecvView} {p : List Push} {n : List Notice}
    (h : RecvMove config sid trigger v p n v') (ht : t.Valid)
    (hcut : ∀ source ds now, trigger = .data source ds now → ds.Cuts t)
    (hv : ∀ s, v.session = some s → s.Holds t) :
    (∀ s, v'.session = some s → s.Holds t) ∧ ∀ x ∈ n, x.TellsOf t := by
  cases h with
  | dataIgnored | dataReported | ackIgnored | expiredIdle => exact ⟨hv, by simp⟩
  | @dataCancelled source ds now v s s' reports reason armed hadmits hspoils =>
    have hds := hcut source ds now rfl
    refine ⟨?_, by simp [Notice.TellsOf]⟩
    rintro s₂ ⟨⟩
    exact (hspoils.holds hds ht (hadmits.holds hds hv)).congr rfl rfl rfl rfl rfl rfl rfl
  | @dataRefused source ds now v s s' armed hadmits _ hrefused =>
    refine ⟨?_, by simp⟩
    rintro s₂ ⟨⟩
    obtain ⟨maxRedEnd, rfl⟩ := RecvSession.insertRed_refused hrefused
    exact (hadmits.holds (hcut source ds now rfl) hv).congr rfl rfl rfl rfl rfl rfl rfl
  | @dataStored source ds now v s s' reports armed hadmits hstores =>
    have hds := hcut source ds now rfl
    have hs' := (hstores.holds hds ht (hadmits.holds hds hv)).1
    refine ⟨?_, hs'.tells source⟩
    rintro s₂ ⟨⟩
    exact hs'.delivered
  | @dataGreen source ds now v s armed hadmits hgreen =>
    have hds := hcut source ds now rfl
    have hs : ((s.touched now).markGreen ds).Holds t :=
      (hadmits.holds hds hv).congr rfl rfl rfl rfl rfl rfl rfl
    refine ⟨?_, fun x hx => ?_⟩
    · rintro s₂ ⟨⟩
      exact hs.delivered
    · rcases List.mem_cons.mp hx with rfl | hx
      · exact ⟨hds.green hgreen, hds.data, hds.le_block, hds.eob⟩
      · exact hs.tells source x hx
  | @ackKept serial now s =>
    refine ⟨?_, by simp⟩
    rintro s₂ ⟨⟩
    have htouched : (s.touched now).Holds t := (hv s rfl).congr rfl rfl rfl rfl rfl rfl rfl
    exact htouched.ackReport serial
  | @reportResent serial now s | @cancelResent now s =>
    refine ⟨?_, by simp⟩
    rintro s₂ ⟨⟩
    exact (hv s rfl).congr rfl rfl rfl rfl rfl rfl rfl
  | @reportExhausted serial now s =>
    refine ⟨?_, by simp [Notice.TellsOf]⟩
    rintro s₂ ⟨⟩
    exact (hv s rfl).congr rfl rfl rfl rfl rfl rfl rfl
  | inactivityRearmed => exact ⟨hv, by simp⟩
  | inactivityExpired | peerCancelled => exact ⟨by simp, by simp [Notice.TellsOf]⟩
  | ackClosed | cancelAbandoned | peerCancelledAgain | cancelAcked => exact ⟨by simp, by simp⟩

end Moves

end HdyUtils.Ltp
