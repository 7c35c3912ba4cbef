import HdyUtils.Lib.Complements
import HdyUtils.Ltp.Engine.Answering
import HdyUtils.Ltp.Engine.Gathering
import HdyUtils.Ltp.Engine.Segmentation

/-! The segments of a block at a receiver that they all reach.  They may come in any order and more
than once, the checkpoint after the rest of the red part: none of them is refused, and when the
checkpoint comes the session has all of the red part, delivers it and reports it in one claim. -/

namespace HdyUtils.Ltp

/-! ### The segments of a block -/

namespace Transfer.Segments

variable {t : Transfer} {mtu : Nat} {segs : List DataSegment}

/-- A segment lies in the block where the segments before it end. -/
theorem split (h : t.Segments mtu segs) {pre post : List DataSegment} {ds : DataSegment}
    (hsplit : segs = pre ++ ds :: post) :
    ds.offset = ((pre.map DataSegment.data).flatten).length ∧
      t.block = (pre.map DataSegment.data).flatten ++ ds.data ++
        (post.map DataSegment.data).flatten := by
  constructor
  · rw [h.offset pre ds post hsplit, List.length_flatten, List.map_map]
    rfl
  · rw [← h.payload, hsplit]
    simp

theorem cuts (h : t.Segments mtu segs) {ds : DataSegment} (hds : ds ∈ segs) : ds.Cuts t := by
  obtain ⟨pre, post, hsplit⟩ := List.append_of_mem hds
  obtain ⟨hoffset, hblock⟩ := h.split hsplit
  have hred := h.red ds hds
  have hcp := h.checkpoint ds hds
  refine ⟨h.clientService ds hds, ?_, ?_, fun hisRed => ?_, fun hgreen => ?_, fun hisRed => ?_,
    h.eob ds hds⟩
  · rw [hoffset, hblock]
    simp
  · rw [hoffset, hblock]
    simp
  · exact ⟨(h.length ds hds).1, h.border ds hds (hred.mp hisRed)⟩
  · rw [← Bool.not_eq_true, hred] at hgreen
    exact not_lt.mp hgreen
  · rw [h.eorp ds hds, hcp]
    simp [hisRed]

/-- Two segments are the same, or one of them ends before the other starts. -/
theorem eq_or_apart (h : t.Segments mtu segs) {a b : DataSegment} (ha : a ∈ segs) (hb : b ∈ segs) :
    a = b ∨ a.offset + a.data.length ≤ b.offset ∨ b.offset + b.data.length ≤ a.offset := by
  obtain ⟨i, hi, rfl⟩ := List.getElem_of_mem ha
  obtain ⟨j, hj, rfl⟩ := List.getElem_of_mem hb
  have hat : ∀ k (hk : k < segs.length), segs[k].offset =
      ((segs.take k).map fun p => p.data.length).sum := fun k hk =>
    h.offset (segs.take k) segs[k] (segs.drop (k + 1)) (by simp)
  have hle : ∀ k l (hk : k < segs.length) (hl : l < segs.length), k < l →
      segs[k].offset + segs[k].data.length ≤ segs[l].offset := by
    intro k l hk hl hkl
    have htake : segs.take l = segs.take k ++ segs[k] :: (segs.take l).drop (k + 1) := by
      have hsplit := (List.take_append_drop (k + 1) (segs.take l)).symm
      rwa [List.take_take, Nat.min_eq_left (by omega), List.take_succ_eq_append_getElem hk,
        List.append_assoc] at hsplit
    rw [hat k hk, hat l hl, htake]
    simp only [List.map_append, List.map_cons, List.sum_append, List.sum_cons]
    omega
  rcases lt_trichotomy i j with hij | rfl | hij
  · exact .inr (.inl (hle i j hi hj hij))
  · exact .inl rfl
  · exact .inr (.inr (hle j i hj hi hij))

/-- There is one checkpoint. -/
theorem eq_of_checkpoint (h : t.Segments mtu segs) {a b : DataSegment} (ha : a ∈ segs) (hb : b ∈ segs)
    (hcpA : a.kind.checkpoint.isSome) (hcpB : b.kind.checkpoint.isSome) : a = b := by
  have hposA := (h.length a ha).1
  have hposB := (h.length b hb).1
  have hendA := ((h.checkpoint a ha).mp hcpA).2
  have hendB := ((h.checkpoint b hb).mp hcpB).2
  refine (h.eq_or_apart ha hb).resolve_right ?_
  omega

theorem sum_lengths (h : t.Segments mtu segs) :
    (segs.map fun ds => ds.data.length).sum = t.block.length := by
  rw [← h.payload, List.length_flatten, List.map_map]
  rfl

/-- Every octet of the block is in a segment. -/
theorem exists_mem (h : t.Segments mtu segs) {x : Nat} (hx : x < t.block.length) :
    ∃ ds ∈ segs, ds.offset ≤ x ∧ x < ds.offset + ds.data.length := by
  have hupTo : ∀ k ≤ segs.length, x < ((segs.take k).map fun p => p.data.length).sum →
      ∃ ds ∈ segs, ds.offset ≤ x ∧ x < ds.offset + ds.data.length := by
    intro k
    induction k with
    | zero => simp
    | succ k ih =>
      intro hk hlt
      have hoffset := h.offset (segs.take k) segs[k] (segs.drop (k + 1)) (by simp)
      rw [List.take_succ_eq_append_getElem hk, List.map_append, List.sum_append, List.map_singleton,
        List.sum_singleton, ← hoffset] at hlt
      by_cases hbefore : x < segs[k].offset
      · exact ih (by omega) (hoffset ▸ hbefore)
      · exact ⟨segs[k], List.getElem_mem hk, not_lt.mp hbefore, hlt⟩
  refine hupTo segs.length le_rfl ?_
  rw [List.take_length, h.sum_lengths]
  exact hx

end Transfer.Segments

/-- Segments of a block, of which two red ones have the same data or are apart. -/
structure Transfer.Pieces (t : Transfer) (segs : List DataSegment) : Prop where
  cuts : ∀ ds ∈ segs, ds.Cuts t
  apart : ∀ a ∈ segs, ∀ b ∈ segs, a.kind.isRed = true → b.kind.isRed = true →
    (a.offset = b.offset ∧ a.data = b.data) ∨
      a.offset + a.data.length ≤ b.offset ∨ b.offset + b.data.length ≤ a.offset

namespace Transfer.Pieces

variable {t : Transfer} {segs : List DataSegment}

theorem eq_of_offset (h : t.Pieces segs) {a b : DataSegment} (ha : a ∈ segs) (hb : b ∈ segs)
    (hredA : a.kind.isRed = true) (hredB : b.kind.isRed = true) (hoffset : a.offset = b.offset) :
    a.data = b.data := by
  obtain ⟨hposA, -⟩ := (h.cuts a ha).red hredA
  obtain ⟨hposB, -⟩ := (h.cuts b hb).red hredB
  rcases h.apart a ha b hb hredA hredB with ⟨-, hdata⟩ | hapart
  · exact hdata
  · omega

end Transfer.Pieces

theorem Transfer.Segments.pieces {t : Transfer} {mtu : Nat} {segs : List DataSegment}
    (h : t.Segments mtu segs) : t.Pieces segs where
  cuts := fun _ => h.cuts
  apart := fun a ha b hb _ _ => by
    rcases h.eq_or_apart ha hb with rfl | hapart
    · exact .inl ⟨rfl, rfl⟩
    · exact .inr hapart

/-! ### The session -/

namespace RecvSession

/-- What an open session holds once the segments `arrived` of a block have reached it, all of which
are among `segs`. -/
structure Collects (t : Transfer) (segs arrived : List DataSegment) (s : RecvSession) : Prop where
  holds : s.Holds t
  received : ∀ x, x ∈ s.redReceived ↔
    ∃ ds ∈ arrived, ds.kind.isRed = true ∧ ds.offset ≤ x ∧ x < ds.offset + ds.data.length
  entries : ∀ (offset : Nat) (data : Bytes), s.sparseRed[offset]? = some data →
    ∃ ds ∈ segs, ds.kind.isRed = true ∧ ds.offset = offset ∧ ds.data = data
  counted : s.totalReceivedBytes = s.sparseBytes
  maxRed : s.maxRedEnd ≤ t.redLen
  minGreen : ∀ g, s.minGreenOffset = some g → t.redLen ≤ g
  complete : s.redDelivered = true → ∀ x < t.redLen, x ∈ s.redReceived
  isOpen : s.cancelReason = none

namespace Collects

variable {t : Transfer} {mtu : Nat} {segs arrived : List DataSegment} {s s' : RecvSession}
  {ds : DataSegment} {maxBlockSize : Nat}

theorem new {id : SessionId} {source : EngineId} {clientService : UInt64}
    (hclient : clientService = t.clientService) (now : Nat) :
    (RecvSession.new id source clientService 0 now).Collects t segs [] where
  holds := .new hclient 0 now
  received := by simp [RecvSession.new]
  entries := by simp [RecvSession.new]
  counted := by simp [RecvSession.new, sparseBytes]
  maxRed := Nat.zero_le _
  minGreen := by simp [RecvSession.new]
  complete := by simp [RecvSession.new]
  isOpen := rfl

/-- A change of what the collection is not about. -/
theorem congr (h : s.Collects t segs arrived) (hs' : s' = { s with
      lastActivity := s'.lastActivity, reports := s'.reports,
      lastReportSerial := s'.lastReportSerial, cpSerialsAnswered := s'.cpSerialsAnswered,
      reportedCoverage := s'.reportedCoverage }) : s'.Collects t segs arrived := by
  rw [hs']
  exact ⟨h.holds.congr rfl rfl rfl rfl rfl rfl rfl, h.received, h.entries, h.counted, h.maxRed,
    h.minGreen, h.complete, h.isOpen⟩

/-- A red segment of the block has the colour that the session expects. -/
theorem fits (h : s.Collects t segs arrived) (hcut : ds.Cuts t) (ht : t.Valid)
    (hred : ds.kind.isRed = true) : s.redMiscolored ds = false := by
  obtain ⟨hpos, hle⟩ := hcut.red hred
  have hredLe := ht.red_le
  have hlt := ht.lt
  have hend : ds.segEnd = ds.offset + ds.data.length := by
    simp only [DataSegment.segEnd, satAdd, u64Max]
    omega
  have heorp := hcut.eorp hred
  simp only [redMiscolored, hend, Bool.or_eq_false_iff]
  refine ⟨⟨?_, ?_⟩, ?_⟩
  · cases hlen : s.redPartLen with
    | none => rfl
    | some len =>
      rw [(h.holds.redPartLen len hlen).1]
      simpa using hle
  · cases hgreen : s.minGreenOffset with
    | none => rfl
    | some g =>
      have hmin := h.minGreen g hgreen
      simp only [decide_eq_false_iff_not, not_lt]
      omega
  · by_cases hlast : ds.kind.isEorp = true
    · have hstop := heorp.mp hlast
      cases hlen : s.redPartLen with
      | none => simp
      | some len =>
        rw [(h.holds.redPartLen len hlen).1]
        simp [hstop]
    · simp [hlast]

theorem greenFits (h : s.Collects t segs arrived) (hcut : ds.Cuts t)
    (hgreen : ds.kind.isRed = false) : s.greenMiscolored ds = false := by
  have hoffset := hcut.green hgreen
  have hmax := h.maxRed
  simp only [greenMiscolored, Bool.or_eq_false_iff, decide_eq_false_iff_not, not_lt]
  refine ⟨?_, by omega⟩
  cases hlen : s.redPartLen with
  | none => rfl
  | some len =>
    rw [(h.holds.redPartLen len hlen).1]
    simpa using hoffset

/-- A red segment that is not in the sparse ones has room beside them. -/
theorem room (h : s.Collects t segs arrived) (hsegs : t.Pieces segs) (hds : ds ∈ segs)
    (hred : ds.kind.isRed = true) (hfresh : s.sparseRed[ds.offset]? = none) :
    s.sparseBytes + ds.data.length ≤ t.block.length := by
  let extent (e : Nat × Bytes) : Range := ⟨e.1, e.1 + e.2.length⟩
  have hentry : ∀ e ∈ s.sparseRed.toList, ∃ p ∈ segs, p.kind.isRed = true ∧ p.offset = e.1 ∧
      p.data = e.2 := fun e he =>
    h.entries e.1 e.2 (Std.TreeMap.mem_toList_iff_getElem?_eq_some.mp he)
  have hdisjoint : (((ds.offset, ds.data) :: s.sparseRed.toList).map extent).Pairwise
      Runs.Run.Disjoint := by
    rw [List.pairwise_map, List.pairwise_cons]
    constructor
    · intro e he
      obtain ⟨p, hp, hredP, hoffset, hdata⟩ := hentry e he
      have hne : ds.offset ≠ e.1 := by
        intro heq
        have hsome := Std.TreeMap.mem_toList_iff_getElem?_eq_some.mp he
        rw [← heq, hfresh] at hsome
        cases hsome
      rcases hsegs.apart ds hds p hp hred hredP with ⟨heq, -⟩ | hapart
      · exact absurd (heq.trans hoffset) hne
      · rwa [hoffset, hdata] at hapart
    · refine Std.TreeMap.distinct_keys_toList.imp_of_mem fun {a b} ha hb hdistinct => ?_
      obtain ⟨p, hp, hredP, hoffsetP, hdataP⟩ := hentry a ha
      obtain ⟨q, hq, hredQ, hoffsetQ, hdataQ⟩ := hentry b hb
      rcases hsegs.apart p hp q hq hredP hredQ with ⟨heq, -⟩ | hapart
      · rw [hoffsetP, hoffsetQ] at heq
        exact absurd (compare_eq_iff_eq.mpr heq) hdistinct
      · rwa [hoffsetP, hdataP, hoffsetQ, hdataQ] at hapart
  have hstop : ∀ r ∈ ((ds.offset, ds.data) :: s.sparseRed.toList).map extent,
      r.stop ≤ t.block.length := by
    intro r hr
    obtain ⟨e, he, rfl⟩ := List.mem_map.mp hr
    rcases List.mem_cons.mp he with rfl | he
    · exact (hsegs.cuts ds hds).le_block
    · obtain ⟨p, hp, -, hoffset, hdata⟩ := hentry e he
      have hle := (hsegs.cuts p hp).le_block
      rwa [hoffset, hdata] at hle
  have hsum := Runs.sum_lengths_le hdisjoint hstop
  have hlengths : ∀ e : Nat × Bytes, (extent e).stop - (extent e).start = e.2.length := fun e =>
    Nat.add_sub_cancel_left _ _
  simp only [List.map_map, Function.comp_def, hlengths, List.map_cons, List.sum_cons] at hsum
  have hheld : s.sparseBytes = (s.sparseRed.toList.map fun e => e.2.length).sum := rfl
  rw [hheld]
  omega

/-- A red segment of the block is stored. -/
theorem insertRed (h : s.Collects t segs arrived) (hsegs : t.Pieces segs) (ht : t.Valid)
    (hds : ds ∈ segs) (hred : ds.kind.isRed = true) (hsize : t.block.length ≤ maxBlockSize) :
    ∃ s₁, s.insertRed ds.offset ds.data maxBlockSize = (s₁, true) ∧
      (∀ (offset : Nat) (data : Bytes), s₁.sparseRed[offset]? = some data →
        ∃ p ∈ segs, p.kind.isRed = true ∧ p.offset = offset ∧ p.data = data) ∧
      s₁.totalReceivedBytes = s₁.sparseBytes ∧ s₁.maxRedEnd ≤ t.redLen := by
  obtain ⟨hpos, hle⟩ := (hsegs.cuts ds hds).red hred
  have hredLe := ht.red_le
  have hlt := ht.lt
  have hcap : ¬u64Max < ds.offset + ds.data.length := by
    simp only [u64Max]
    omega
  have hblock : ¬maxBlockSize < ds.offset + ds.data.length := by omega
  have hmax := h.maxRed
  simp only [RecvSession.insertRed, hcap, hblock, if_false]
  split
  · exact ⟨s, rfl, h.entries, h.counted, h.maxRed⟩
  next hfresh =>
  split
  · -- the segment joins `redBuf`, and the sparse segments that it reaches follow
    refine ⟨_, rfl, ?_⟩
    refine connectSparse_keeps (P := fun s₁ => (∀ (offset : Nat) (data : Bytes),
        s₁.sparseRed[offset]? = some data →
          ∃ p ∈ segs, p.kind.isRed = true ∧ p.offset = offset ∧ p.data = data) ∧
        s₁.totalReceivedBytes = s₁.sparseBytes ∧ s₁.maxRedEnd ≤ t.redLen)
      (fun s₁ offset data hkept hentry _ => ⟨fun o d hd => ?_, ?_, hkept.2.2⟩) _
      ⟨h.entries, h.counted, by simp only; omega⟩
    · exact hkept.1 o d ((sparse_joined hentry).1 o d hd)
    · have herase := Maps.total_erase List.length hentry
      have hcounted := hkept.2.1
      simp only [sparseBytes, joined] at hcounted ⊢
      omega
  · -- it is kept aside, within the quota since the segments that are do not overlap
    have hnone : s.sparseRed[ds.offset]? = none := by
      by_contra hsome
      obtain ⟨data, hdata⟩ := Option.ne_none_iff_exists'.mp hsome
      obtain ⟨p, hp, hredP, hoffset, rfl⟩ := h.entries ds.offset data hdata
      rw [hsegs.eq_of_offset hp hds hredP hred hoffset] at hdata
      refine hfresh (RangeSet.covers_iff.mpr fun x hx hx' => ?_)
      cases hdelivered : s.redDelivered with
      | true => exact h.complete hdelivered x (by simp only at hx'; omega)
      | false => exact (h.holds.buffers hdelivered).1.stored ds.offset ds.data hdata x hx hx'
    have hroom := h.room hsegs hds hred hnone
    have hcounted := h.counted
    have hquota : ¬maxBlockSize < satAdd s.totalReceivedBytes ds.data.length := by
      simp only [satAdd]
      omega
    have hexact : (s.totalReceivedBytes + ds.data.length) % 2 ^ 64 =
        s.totalReceivedBytes + ds.data.length := Nat.mod_eq_of_lt (by omega)
    have hinsert := Maps.total_insert_of_none List.length hnone ds.data
    simp only [if_neg hquota, hexact]
    refine ⟨_, rfl, fun o d hd => ?_, ?_, by simp only; omega⟩
    · simp only [Maps.getElem?_insert] at hd
      split at hd
      · next heq =>
        cases hd
        exact ⟨ds, hds, hred, heq, rfl⟩
      · exact h.entries o d hd
    · simp only [sparseBytes] at hcounted ⊢
      omega

/-- A red segment of the block adds its extent to what the session holds. -/
theorem store {config : EngineConfig} (h : s.Collects t segs arrived) (hsegs : t.Pieces segs)
    (ht : t.Valid) (hds : ds ∈ segs) (hred : ds.kind.isRed = true)
    (hsize : t.block.length ≤ config.maxBlockSize.toNat)
    (hallowed : config.allows t.clientService = true) :
    ∃ s₁, s.insertRed ds.offset ds.data config.maxBlockSize.toNat = (s₁, true) ∧
      (s₁.markEnds ds).Collects t segs (arrived ++ [ds]) ∧
      (s₁.markEnds ds).redDelivered = s.redDelivered ∧
      (s₁.markEnds ds).redPartLen = (if ds.kind.isEorp then some t.redLen else s.redPartLen) ∧
      (s₁.markEnds ds).SameReports s ∧
      (s₁.markEnds ds).reportedCoverage = s.reportedCoverage := by
  obtain ⟨s₁, hinsert, hentries, hcounted, hmax⟩ := h.insertRed hsegs ht hds hred hsize
  have hcut := hsegs.cuts ds hds
  have hroom : (s₁.markEnds ds).reports.size ≤ max s.reports.size config.maxReportsPerSession := by
    have hdata := s.insertRed_upToData ds.offset ds.data config.maxBlockSize.toNat
    rw [hinsert] at hdata
    rw [Engine.markEnds_reports, hdata.reports_eq]
    exact le_max_left _ _
  have hstored : ∀ (serial : UInt64) (rec : ReportRecord),
      (s₁.markEnds ds).reports[serial]? = some rec → s₁.reports[serial]? = some rec ∨ rec.report ∈ [] := by
    intro serial rec hrec
    rw [Engine.markEnds_reports] at hrec
    exact .inl hrec
  have hstores : Stores config ds s (s₁.markEnds ds) [] :=
    ⟨hred, h.fits hcut ht hred, ⟨s₁, hinsert, .refl _, by simp, hstored⟩, hroom,
      by rw [hcut.clientService]; exact hallowed, .inl rfl⟩
  obtain ⟨hholds, hreceived⟩ := hstores.holds hcut ht h.holds
  have hdata := s.insertRed_upToData ds.offset ds.data config.maxBlockSize.toNat
  rw [hinsert] at hdata
  obtain ⟨redBuf, redReceived, sparseRed, totalReceivedBytes, maxRedEnd, rfl⟩ := hdata
  obtain ⟨blockLen, hends⟩ := markEnds_eq { s with
    redBuf, redReceived, sparseRed, totalReceivedBytes, maxRedEnd } hcut ht hred
  refine ⟨_, hinsert, ?_, by rw [hends], by rw [hends], by rw [hends]; exact ⟨rfl, rfl, rfl⟩,
    by rw [hends]⟩
  rw [hends] at hholds hreceived ⊢
  refine ⟨hholds, fun x => ?_, hentries, hcounted, hmax, h.minGreen, fun hd x hx => ?_, h.isOpen⟩
  · rw [hreceived, h.received]
    simp only [List.mem_append, List.mem_singleton]
    constructor
    · rintro (⟨p, hp, hin⟩ | hin)
      · exact ⟨p, .inl hp, hin⟩
      · exact ⟨ds, .inr rfl, hred, hin⟩
    · rintro ⟨p, hp | rfl, hin⟩
      · exact .inl ⟨p, hp, hin⟩
      · exact .inr hin.2
  · exact (hreceived x).mpr (.inl (h.complete hd x hx))

/-- A green segment of the block marks its offset. -/
theorem mark (h : s.Collects t segs arrived) (hcut : ds.Cuts t) (hgreen : ds.kind.isRed = false) :
    (s.markGreen ds).Collects t segs (arrived ++ [ds]) where
  holds := h.holds.congr rfl rfl rfl rfl rfl rfl rfl
  received := fun x => by
    have hsame : x ∈ (s.markGreen ds).redReceived ↔ x ∈ s.redReceived := Iff.rfl
    rw [hsame, h.received]
    simp only [List.mem_append, List.mem_singleton]
    constructor
    · rintro ⟨p, hp, hin⟩
      exact ⟨p, .inl hp, hin⟩
    · rintro ⟨p, hp | rfl, hred, hin⟩
      · exact ⟨p, hp, hred, hin⟩
      · rw [hgreen] at hred
        cases hred
  entries := h.entries
  counted := h.counted
  maxRed := h.maxRed
  minGreen := fun g hg => by
    have hoffset := hcut.green hgreen
    simp only [markGreen, Option.some.injEq] at hg
    cases hold : s.minGreenOffset with
    | none =>
      simp only [hold] at hg
      omega
    | some m =>
      have hmin := h.minGreen m hold
      simp only [hold] at hg
      omega
  complete := h.complete
  isOpen := h.isOpen

/-- A session that has all of the red part has it to deliver. -/
theorem delivers (h : s.Collects t segs arrived) (hundelivered : s.redDelivered = false)
    (hlen : s.redPartLen = some t.redLen) (hall : ∀ x < t.redLen, x ∈ s.redReceived)
    (sid : SessionId) (source : EngineId) :
    s.deliveryNotices sid source = [.redPartReceived sid source t.clientService t.redPart
        (decide (t.redLen = t.block.length))] ∧
      s.delivered = { s with redBuf := [], redDelivered := true } := by
  have hcomplete : s.isRedComplete = true := by
    rw [isRedComplete, hlen]
    exact RangeSet.covers_iff.mpr fun x _ hx => hall x hx
  have hdeliverable : s.deliverable = true := by simp [deliverable, hcomplete, hundelivered]
  obtain ⟨-, -, hdata⟩ := h.holds.redPart hcomplete hundelivered
  have hends : s.redEndsBlock = decide (t.redLen = t.block.length) := by
    have hiff := h.holds.redEndsBlock
    rw [hlen] at hiff
    exact Bool.eq_iff_iff.mpr (by simpa using hiff)
  constructor
  · rw [deliveryNotices, if_pos hdeliverable, hends, h.holds.clientService, hlen, Option.getD_some,
      ← hdata]
  · rw [delivered, if_pos hdeliverable]

/-- The delivery leaves what was collected. -/
theorem deliver (h : s.Collects t segs arrived) (hall : ∀ x < t.redLen, x ∈ s.redReceived) :
    { s with redBuf := [], redDelivered := true }.Collects t segs arrived where
  holds := { h.holds with buffers := fun hd => nomatch hd }
  received := h.received
  entries := h.entries
  counted := h.counted
  maxRed := h.maxRed
  minGreen := h.minGreen
  complete := fun _ => hall
  isOpen := h.isOpen

end Collects

end RecvSession

/-! ### The engine -/

namespace Engine

/-- The engine would take the data of a transfer in a session. -/
structure Accepts (e : Engine) (sid : SessionId) (t : Transfer) : Prop where
  notClosed : e.closedRecvSessions.contains sid = false
  notCancelled : e.cancelledSessions.contains sid = false
  allowed : e.config.allows t.clientService = true
  size : t.block.length ≤ e.config.maxBlockSize.toNat
  reports : 0 < e.config.maxReportsPerSession

/-- From `e` to `e'` the engine puts out `out` and gives the notices `ns`. -/
structure Yields (out : List (EngineId × Bytes)) (ns : List Notice) (e e' : Engine) : Prop where
  config : e'.config = e.config
  closed : e'.closedRecvSessions = e.closedRecvSessions
  cancelled : e'.cancelledSessions = e.cancelledSessions
  outbound : e'.outbound = e.outbound ++ out
  notices : e'.notices = e.notices ++ ns

namespace Yields

variable {out out' : List (EngineId × Bytes)} {ns ns' : List Notice} {e e' e'' : Engine}

theorem refl (e : Engine) : Yields [] [] e e := ⟨rfl, rfl, rfl, by simp, by simp⟩

theorem trans (h : Yields out ns e e') (h' : Yields out' ns' e' e'') :
    Yields (out ++ out') (ns ++ ns') e e'' where
  config := h'.config.trans h.config
  closed := h'.closed.trans h.closed
  cancelled := h'.cancelled.trans h.cancelled
  outbound := by rw [h'.outbound, h.outbound, List.append_assoc]
  notices := by rw [h'.notices, h.notices, List.append_assoc]

theorem touchInactivity (e : Engine) (sid : SessionId) (isSender : Bool) (now : Nat) :
    Yields [] [] e (e.touchInactivity sid isSender now) := by
  unfold Engine.touchInactivity
  simp only
  split
  · exact ⟨rfl, rfl, rfl, by simp, by simp⟩
  · exact .refl e

theorem accepts {sid : SessionId} {t : Transfer} (h : Yields out ns e e') (ha : e.Accepts sid t) :
    e'.Accepts sid t where
  notClosed := by rw [h.closed]; exact ha.notClosed
  notCancelled := by rw [h.cancelled]; exact ha.notCancelled
  allowed := by rw [h.config]; exact ha.allowed
  size := by rw [h.config]; exact ha.size
  reports := by rw [h.config]; exact ha.reports

end Yields

/-- The session to which the engine admits the data of a transfer. -/
def Admitting (e : Engine) (source : EngineId) (sid : SessionId) (t : Transfer)
    (P : RecvSession → Prop) : Prop :=
  ∀ (ds : DataSegment) (now : Nat), ds.clientService = t.clientService →
    ∃ s, e.admitted source sid ds now = some s ∧ P s

theorem admitting_of_some {e : Engine} {source : EngineId} {sid : SessionId} {t : Transfer}
    {P : RecvSession → Prop} {s : RecvSession} (ha : e.Accepts sid t)
    (hs : e.recvSessions[sid]? = some s) (hopen : s.cancelReason = none) (hP : P s) :
    e.Admitting source sid t P := by
  intro ds now _
  refine ⟨s, ?_, hP⟩
  simp [admitted, ha.notClosed, ha.notCancelled, hs, hopen]

section Arrivals

variable {e : Engine} {source : EngineId} {sid : SessionId} {t : Transfer} {mtu : Nat}
  {segs arrived : List DataSegment} {ds : DataSegment} {now : Nat}

/-- The session before the checkpoint has come. -/
structure Fresh (t : Transfer) (segs arrived : List DataSegment) (s : RecvSession) : Prop where
  collects : s.Collects t segs arrived
  reports : s.reports = ∅
  answered : s.cpSerialsAnswered = ∅
  lastSerial : s.lastReportSerial = 0
  undelivered : s.redDelivered = false
  endless : s.redPartLen = none

theorem admitting_new (ha : e.Accepts sid t) (hnone : e.recvSessions[sid]? = none)
    (hroom : e.recvSessions.size < e.config.maxRecvSessions) :
    e.Admitting source sid t (Fresh t segs []) := by
  intro ds now hclient
  refine ⟨.new sid source ds.clientService 0 now, ?_, .new hclient now, rfl, rfl, rfl, rfl, rfl⟩
  simp [admitted, ha.notClosed, ha.notCancelled, hnone, not_le.mpr hroom]

/-- The notices of green data. -/
def greenNotices (source : EngineId) (sid : SessionId) (ds : DataSegment) : List Notice :=
  if ds.kind.isRed then []
  else [.greenSegmentArrived sid source ds.offset ds.data ds.kind.isEob]

theorem takes_of_collects {t' : Transfer} {s : RecvSession} (ha : e.Accepts sid t')
    (hadmitted : e.admitted source sid ds now = some s) (hs : s.Collects t' segs arrived)
    (hsegs : t'.Pieces segs) (ht : t'.Valid) (hds : ds ∈ segs) (hred : ds.kind.isRed = true) :
    ∃ s', e.Takes source sid ds now s s' ∧ s'.Collects t' segs (arrived ++ [ds]) ∧
      s'.redDelivered = s.redDelivered ∧
      s'.redPartLen = (if ds.kind.isEorp then some t'.redLen else s.redPartLen) ∧
      s'.SameReports s ∧ s'.reportedCoverage = s.reportedCoverage := by
  have htouched : (s.touched now).Collects t' segs arrived := hs.congr rfl
  obtain ⟨s₁, hinsert, hcollects, hdelivered, hlen, hsame, hcoverage⟩ :=
    htouched.store hsegs ht hds hred ha.size ha.allowed
  have hcut := hsegs.cuts ds hds
  exact ⟨s₁.markEnds ds, ⟨hadmitted, by rw [hcut.clientService]; exact ha.allowed, hred,
    htouched.fits hcut ht hred, s₁, hinsert, rfl⟩, hcollects, hdelivered, hlen,
    ⟨hsame.last, hsame.reports, hsame.answered⟩, hcoverage⟩

/-- A green segment of the block is told of at once. -/
theorem handleIncomingData_green {s : RecvSession} (ha : e.Accepts sid t)
    (hadmitted : e.admitted source sid ds now = some s) (hs : s.Collects t segs arrived)
    (hcut : ds.Cuts t) (hgreen : ds.kind.isRed = false)
    (hnot : s.isRedComplete = true → s.redDelivered = true) :
    Yields [] (greenNotices source sid ds) e (e.handleIncomingData source sid ds now) ∧
      (e.handleIncomingData source sid ds now).recvSessions[sid]? =
        some ((s.touched now).markGreen ds) := by
  have htouched : (s.touched now).Collects t segs arrived := hs.congr rfl
  have hfits : ((s.touched now).markGreen ds).greenMiscolored ds = false :=
    (htouched.mark hcut hgreen).greenFits hcut hgreen
  have hundeliverable : ((s.touched now).markGreen ds).deliverable = false := by
    rw [RecvSession.deliverable, Bool.and_eq_false_iff, Bool.not_eq_false']
    rcases Bool.eq_false_or_eq_true s.isRedComplete with hcomplete | hincomplete
    · exact .inr (hnot hcomplete)
    · exact .inl hincomplete
  have heq : e.handleIncomingData source sid ds now =
      (((e.touchInactivity sid false now).notify
        (.greenSegmentArrived sid source ds.offset ds.data ds.kind.isEob)).putRecv sid
        ((s.touched now).markGreen ds)) := by
    rw [(handleIncomingData_admitted hadmitted).1, acceptData_eq]
    simp only [hcut.clientService, ha.allowed, hgreen, Bool.not_true, Bool.false_eq_true, if_false,
      acceptGreen, hfits, deliverRed_eq, RecvSession.deliveryNotices, RecvSession.delivered,
      hundeliverable, List.append_nil]
  have htouch := Yields.touchInactivity e sid false now
  rw [heq]
  exact ⟨⟨htouch.config, htouch.closed, htouch.cancelled, htouch.outbound,
    by simp [greenNotices, hgreen]⟩, by simp⟩

/-- A stored segment that completes nothing and is no checkpoint is kept in silence. -/
theorem handleIncomingData_kept {s s' : RecvSession} (htakes : e.Takes source sid ds now s s')
    (hcp : ds.kind.checkpoint = none) (hnot : s'.isRedComplete = true → s'.redDelivered = true) :
    Yields [] [] e (e.handleIncomingData source sid ds now) ∧
      (e.handleIncomingData source sid ds now).recvSessions[sid]? = some s' := by
  have hundeliverable : s'.deliverable = false := by
    rw [RecvSession.deliverable, Bool.and_eq_false_iff, Bool.not_eq_false']
    rcases Bool.eq_false_or_eq_true s'.isRedComplete with hcomplete | hincomplete
    · exact .inr (hnot hcomplete)
    · exact .inl hincomplete
  have heq : e.handleIncomingData source sid ds now =
      (e.touchInactivity sid false now).putRecv sid s' := by
    rw [handleIncomingData_takes htakes, hcp]
    simp only [deliverRed_eq, RecvSession.deliveryNotices, RecvSession.delivered, hundeliverable,
      Bool.false_eq_true, if_false, List.append_nil]
  have htouch := Yields.touchInactivity e sid false now
  rw [heq]
  exact ⟨⟨htouch.config, htouch.closed, htouch.cancelled, htouch.outbound, htouch.notices⟩, by simp⟩

/-- The report that claims all of a red part. -/
def fullReport (cpSerial : UInt64) (redLen : Nat) : ReportSegment where
  reportSerial := .one
  checkpointSerial := cpSerial
  upperBound := redLen
  lowerBound := 0
  claims := [{ offset := 0, length := redLen }]

/-- The session once the checkpoint `cpSerial` has come after the rest of the red part. -/
structure Complete (t : Transfer) (segs arrived : List DataSegment) (cpSerial : UInt64)
    (s : RecvSession) : Prop where
  collects : s.Collects t segs arrived
  delivered : s.redDelivered = true
  redPartLen : s.redPartLen = some t.redLen
  report : ∃ transmittedAt, s.reports[(1 : UInt64)]? =
    some ⟨fullReport cpSerial t.redLen, 0, false, transmittedAt⟩
  answered : s.cpSerialsAnswered[cpSerial]? = some [1]

theorem runsWithin_of_covers {received : RangeSet} {n : Nat} (hpos : 0 < n)
    (hall : ∀ x < n, x ∈ received) : received.runsWithin ⟨0, n⟩ = [⟨0, n⟩] := by
  have hone : Runs.Separated [(⟨0, n⟩ : Range)] := .cons hpos .nil (by simp)
  refine (Runs.separated_within received.separated hpos).eq_of_covers_iff hone fun x => ?_
  rw [Runs.covers_within received.separated]
  simp only [Runs.covers_cons, Runs.not_covers_nil, or_false, Runs.Run.Contains, and_iff_left_iff_imp]
  exact fun hx => hall x hx.2

/-- The session that has reported all of its red part. -/
def reported (s : RecvSession) (cpSerial : UInt64) (redLen now : Nat) : RecvSession :=
  { s with
    lastReportSerial := 1
    reports := s.reports.insert 1 ⟨fullReport cpSerial redLen, 0, false, now⟩
    cpSerialsAnswered := s.cpSerialsAnswered.insert cpSerial [1] }

/-- A checkpoint over all of the red part is answered with one report. -/
theorem answerCheckpoint_full {s : RecvSession} {cpSerial : UInt64} {redLen : Nat}
    (hpos : 0 < redLen) (hmax : 0 < e.config.maxReportsPerSession) (hreports : s.reports = ∅)
    (hanswered : s.cpSerialsAnswered = ∅) (hlast : s.lastReportSerial = 0)
    (hall : ∀ x < redLen, x ∈ s.redReceived) :
    e.answerCheckpoint source sid s cpSerial redLen now =
      .ok ((e.push source sid (.report (fullReport cpSerial redLen))).setTimer (.report sid 1)
        (e.peerTimeoutDeadline source now), reported s cpSerial redLen now) := by
  have hroom : ¬e.config.maxReportsPerSession ≤ s.reports.size := by
    rw [hreports]
    exact not_le.mpr hmax
  have hone : ∀ n (r : Range), chunks (max n 1) [r] = [[r]] := by
    intro n r
    have htake : [r].take (max n 1) = [r] := List.take_of_length_le (le_max_right _ _)
    simp [chunks, chunksFrom, htake]
  have hserial : nextNonzeroSerial s.lastReportSerial = .one := by
    rw [hlast]
    rfl
  have hfresh : s.cpSerialsAnswered[cpSerial]? = none := by
    rw [hanswered]
    simp
  simp only [answerCheckpoint, hfresh, answerFreshCheckpoint, hroom, if_false,
    runsWithin_of_covers hpos hall, List.isEmpty_cons, Bool.false_eq_true, hone, List.length_singleton,
    List.zipIdx_singleton, issueChunkReports, hserial]
  rfl

/-- The checkpoint that comes last is answered with one report, and completes the red part. -/
theorem handleIncomingData_last {s : RecvSession} {cp : Checkpoint} (ha : e.Accepts sid t)
    (hadmitted : e.admitted source sid ds now = some s) (hs : Fresh t segs arrived s)
    (hsegs : t.Segments mtu segs) (ht : t.Valid) (hds : ds ∈ segs)
    (hcp : ds.kind.checkpoint = some cp)
    (hall : ∀ x < t.redLen, ∃ p ∈ arrived ++ [ds], p.kind.isRed = true ∧ p.offset ≤ x ∧
      x < p.offset + p.data.length) :
    ∃ s', Yields [Push.wire sid (source, .report (fullReport cp.serial.val t.redLen))]
        [.redPartReceived sid source t.clientService t.redPart
          (decide (t.redLen = t.block.length))] e (e.handleIncomingData source sid ds now) ∧
      (e.handleIncomingData source sid ds now).recvSessions[sid]? = some s' ∧
      Complete t segs (arrived ++ [ds]) cp.serial.val s' := by
  have hisCp := (hsegs.checkpoint ds hds).mp (by rw [hcp]; rfl)
  have heorp : ds.kind.isEorp = true := by
    rw [hsegs.eorp ds hds, hcp]
    rfl
  have hpos : 0 < t.redLen := by
    have hlen := (hsegs.length ds hds).1
    omega
  obtain ⟨s₁, htakes, hcollects, hdelivered, hlen, hsame, -⟩ :=
    takes_of_collects ha hadmitted hs.collects hsegs.pieces ht hds hisCp.1
  rw [heorp, if_pos rfl] at hlen
  have hreceived : ∀ x < t.redLen, x ∈ s₁.redReceived := fun x hx =>
    (hcollects.received x).mpr (hall x hx)
  have hend : ds.segEnd = t.redLen := by
    have hle := ht.red_le
    have hlt := ht.lt
    simp only [DataSegment.segEnd, satAdd, u64Max]
    omega
  have htouch := Yields.touchInactivity e sid false now
  have hanswer := @answerCheckpoint_full (e.touchInactivity sid false now) source sid now s₁
    cp.serial.val t.redLen hpos (by rw [htouch.config]; exact ha.reports)
    (hsame.reports.symm.trans hs.reports) (hsame.answered.symm.trans hs.answered)
    (hsame.last.symm.trans hs.lastSerial) hreceived
  have hreported : (reported s₁ cp.serial.val t.redLen now).Collects t segs (arrived ++ [ds]) :=
    hcollects.congr rfl
  obtain ⟨hnotices, hsession⟩ := hreported.delivers (hdelivered.trans hs.undelivered) hlen hreceived
    sid source
  have heq : e.handleIncomingData source sid ds now =
      (((e.touchInactivity sid false now).push source sid
        (.report (fullReport cp.serial.val t.redLen))).setTimer (.report sid 1)
          ((e.touchInactivity sid false now).peerTimeoutDeadline source now)).deliverRed source sid
            (reported s₁ cp.serial.val t.redLen now) := by
    simp only [handleIncomingData_takes htakes, hcp, hend, hanswer]
  rw [heq, deliverRed_eq, hnotices, hsession]
  refine ⟨_, ⟨htouch.config, htouch.closed, htouch.cancelled, by simp [Push.wire], by simp⟩,
    by simp, hreported.deliver hreceived, rfl, hlen, ⟨now, ?_⟩, ?_⟩
  · simp [reported]
  · simp [reported]

/-- Once the red part is complete a segment of the block changes it no more; the checkpoint is answered
with the same report again. -/
theorem handleIncomingData_complete {s : RecvSession} {last : DataSegment} {cp : Checkpoint}
    (ha : e.Accepts sid t) (hadmitted : e.admitted source sid ds now = some s)
    (hs : Complete t segs arrived cp.serial.val s) (hsegs : t.Segments mtu segs) (ht : t.Valid)
    (hlast : last ∈ segs) (hcp : last.kind.checkpoint = some cp) (hds : ds ∈ segs) :
    ∃ s', Yields (if ds.kind.checkpoint.isSome then
          [Push.wire sid (source, .report (fullReport cp.serial.val t.redLen))] else [])
        (greenNotices source sid ds) e (e.handleIncomingData source sid ds now) ∧
      (e.handleIncomingData source sid ds now).recvSessions[sid]? = some s' ∧
      Complete t segs (arrived ++ [ds]) cp.serial.val s' := by
  obtain ⟨transmittedAt, hreport⟩ := hs.report
  cases hred : ds.kind.isRed with
  | false =>
    have hnone : ds.kind.checkpoint.isSome = false := by
      rw [← Bool.not_eq_true, hsegs.checkpoint ds hds, hred]
      simp
    obtain ⟨hyields, hsession⟩ := handleIncomingData_green ha hadmitted hs.collects (hsegs.cuts hds) hred
      fun _ => hs.delivered
    have htouched : (s.touched now).Collects t segs arrived := hs.collects.congr rfl
    rw [hnone]
    exact ⟨_, hyields, hsession, htouched.mark (hsegs.cuts hds) hred, hs.delivered, hs.redPartLen,
      hs.report, hs.answered⟩
  | true =>
    obtain ⟨s', htakes, hcollects, hdelivered, hlen, hsame, -⟩ :=
      takes_of_collects ha hadmitted hs.collects hsegs.pieces ht hds hred
    have hgreen : greenNotices source sid ds = [] := by simp [greenNotices, hred]
    have hcomplete : Complete t segs (arrived ++ [ds]) cp.serial.val s' := by
      refine ⟨hcollects, hdelivered.trans hs.delivered, ?_, ⟨transmittedAt, ?_⟩, ?_⟩
      · rw [hlen, hs.redPartLen]
        split <;> rfl
      · rw [← hsame.reports, hreport]
      · rw [← hsame.answered, hs.answered]
    rw [hgreen]
    cases hkind : ds.kind.checkpoint with
    | none =>
      obtain ⟨hyields, hsession⟩ := handleIncomingData_kept htakes hkind fun _ =>
        hcomplete.delivered
      exact ⟨s', hyields, hsession, hcomplete⟩
    | some cp' =>
      have hsameCp : ds = last := hsegs.eq_of_checkpoint hds hlast (by rw [hkind]; rfl) (by rw [hcp]; rfl)
      have hserial : cp' = cp := by
        rw [hsameCp, hcp] at hkind
        exact (Option.some.inj hkind).symm
      obtain ⟨transmittedAt', hreport'⟩ := hcomplete.report
      have hundeliverable : s'.deliverable = false := by
        simp [RecvSession.deliverable, hcomplete.delivered]
      have heq : e.handleIncomingData source sid ds now =
          (((e.touchInactivity sid false now).push source sid
            (.report (fullReport cp.serial.val t.redLen))).setTimer (.report sid 1)
              (((e.touchInactivity sid false now).push source sid
                (.report (fullReport cp.serial.val t.redLen))).peerTimeoutDeadline source now)
            ).putRecv sid s' := by
        rw [handleIncomingData_takes htakes, hkind, hserial]
        simp only [answerCheckpoint, hcomplete.answered, List.foldl_cons, List.foldl_nil,
          reemitReport, hreport', Bool.false_eq_true, if_false, deliverRed_eq,
          RecvSession.deliveryNotices, RecvSession.delivered, hundeliverable, List.append_nil]
      have htouch := Yields.touchInactivity e sid false now
      rw [heq]
      exact ⟨s', ⟨htouch.config, htouch.closed, htouch.cancelled, by simp [Push.wire],
        by simp⟩, by simp, hcomplete⟩

end Arrivals

/-! ### Arrivals -/

/-- The engine after the data of an arrival, which comes at a time. -/
def arrive (source : EngineId) (sid : SessionId) (e : Engine) (arrival : DataSegment × Nat) :
    Engine :=
  e.handleIncomingData source sid arrival.1 arrival.2

section Runs

variable {e : Engine} {source : EngineId} {sid : SessionId} {t : Transfer} {mtu : Nat}
  {segs arrived : List DataSegment}

/-- Segments before the checkpoint. -/
theorem arrive_before {pre : List (DataSegment × Nat)} (ha : e.Accepts sid t)
    (hs : e.Admitting source sid t (Fresh t segs arrived)) (hsegs : t.Segments mtu segs)
    (ht : t.Valid)
    (hpre : ∀ x ∈ pre, x.1 ∈ segs ∧ x.1.kind.checkpoint = none) :
    Yields [] (pre.flatMap fun x => greenNotices source sid x.1) e
        (pre.foldl (arrive source sid) e) ∧
      (pre.foldl (arrive source sid) e).Admitting source sid t
        (Fresh t segs (arrived ++ pre.map Prod.fst)) := by
  induction pre generalizing e arrived with
  | nil => exact ⟨.refl e, by simpa using hs⟩
  | cons x pre ih =>
    obtain ⟨ds, now⟩ := x
    obtain ⟨⟨hds, hcp⟩, hrest⟩ := List.forall_mem_cons.mp hpre
    have hcut := hsegs.cuts hds
    obtain ⟨s, hadmitted, hfresh⟩ := hs ds now hcut.clientService
    have hendless : s.isRedComplete = true → s.redDelivered = true := fun hcomplete => by
      simp [RecvSession.isRedComplete, hfresh.endless] at hcomplete
    have hstep : Yields [] (greenNotices source sid ds) e (e.arrive source sid (ds, now)) ∧
        (e.arrive source sid (ds, now)).Admitting source sid t
          (Fresh t segs (arrived ++ [ds])) := by
      cases hred : ds.kind.isRed with
      | false =>
        obtain ⟨hyields, hsession⟩ :=
          handleIncomingData_green ha hadmitted hfresh.collects hcut hred hendless
        have htouched : (s.touched now).Collects t segs arrived := hfresh.collects.congr rfl
        have hmark := htouched.mark hcut hred
        exact ⟨hyields, admitting_of_some (hyields.accepts ha) hsession hmark.isOpen
          ⟨hmark, hfresh.reports, hfresh.answered, hfresh.lastSerial, hfresh.undelivered,
            hfresh.endless⟩⟩
      | true =>
        obtain ⟨s', htakes, hcollects, hdelivered, hlen, hsame, -⟩ :=
          takes_of_collects ha hadmitted hfresh.collects hsegs.pieces ht hds hred
        have heorp : ds.kind.isEorp = false := by
          rw [hsegs.eorp ds hds, hcp]
          rfl
        rw [heorp, if_neg (by simp), hfresh.endless] at hlen
        obtain ⟨hyields, hsession⟩ := handleIncomingData_kept htakes hcp fun hcomplete => by
          simp [RecvSession.isRedComplete, hlen] at hcomplete
        rw [greenNotices, hred, if_pos rfl]
        exact ⟨hyields, admitting_of_some (hyields.accepts ha) hsession hcollects.isOpen
          ⟨hcollects, hsame.reports.symm.trans hfresh.reports,
            hsame.answered.symm.trans hfresh.answered, hsame.last.symm.trans hfresh.lastSerial,
            hdelivered.trans hfresh.undelivered, hlen⟩⟩
    obtain ⟨hyields, hadmitting⟩ := hstep
    obtain ⟨hyields', hadmitting'⟩ := ih (hyields.accepts ha) hadmitting hrest
    refine ⟨?_, by simpa using hadmitting'⟩
    simpa using hyields.trans hyields'

/-- Segments after the checkpoint. -/
theorem arrive_after {post : List (DataSegment × Nat)} {last : DataSegment} {cp : Checkpoint}
    {s : RecvSession} (ha : e.Accepts sid t) (hsession : e.recvSessions[sid]? = some s)
    (hs : Complete t segs arrived cp.serial.val s) (hsegs : t.Segments mtu segs) (ht : t.Valid)
    (hlast : last ∈ segs) (hcp : last.kind.checkpoint = some cp)
    (hpost : ∀ x ∈ post, x.1 ∈ segs) :
    ∃ s', Yields (List.replicate (post.countP fun x => x.1.kind.checkpoint.isSome)
          (Push.wire sid (source, .report (fullReport cp.serial.val t.redLen))))
        (post.flatMap fun x => greenNotices source sid x.1) e (post.foldl (arrive source sid) e) ∧
      (post.foldl (arrive source sid) e).recvSessions[sid]? = some s' ∧
      Complete t segs (arrived ++ post.map Prod.fst) cp.serial.val s' := by
  induction post generalizing e arrived s with
  | nil => exact ⟨s, .refl e, hsession, by simpa using hs⟩
  | cons x post ih =>
    obtain ⟨ds, now⟩ := x
    obtain ⟨hds, hrest⟩ := List.forall_mem_cons.mp hpost
    obtain ⟨s₀, hadmitted, hs₀⟩ := (admitting_of_some ha hsession hs.collects.isOpen hs) ds now
      (hsegs.cuts hds).clientService
    obtain ⟨s₁, hyields, hsession₁, hs₁⟩ :=
      handleIncomingData_complete ha hadmitted hs₀ hsegs ht hlast hcp hds
    obtain ⟨s', hyields', hsession', hs'⟩ := ih (hyields.accepts ha) hsession₁ hs₁ hrest
    refine ⟨s', ?_, hsession', by simpa using hs'⟩
    have hall := hyields.trans hyields'
    simp only [List.flatMap_cons, List.countP_cons, List.foldl_cons]
    cases hisCp : ds.kind.checkpoint.isSome with
    | true =>
      rw [hisCp, if_pos rfl, List.singleton_append, ← List.replicate_succ] at hall
      exact hall
    | false =>
      rw [hisCp, if_neg (by simp), List.nil_append] at hall
      exact hall

/-- All segments of a block reach the receiver, the checkpoint after the other red ones.  They may be
repeated, and come in any order besides. -/
structure Arrives (segs : List DataSegment) (pre : List (DataSegment × Nat))
    (last : DataSegment × Nat) (post : List (DataSegment × Nat)) : Prop where
  before : ∀ x ∈ pre, x.1 ∈ segs ∧ x.1.kind.checkpoint = none
  mem : last.1 ∈ segs
  checkpoint : last.1.kind.checkpoint.isSome = true
  after : ∀ x ∈ post, x.1 ∈ segs
  red : ∀ ds ∈ segs, ds.kind.isRed = true → ds.kind.checkpoint = none → ds ∈ pre.map Prod.fst

theorem Arrives.of_mem {pre post : List (DataSegment × Nat)} {last x : DataSegment × Nat}
    (h : Arrives segs pre last post) (hx : x ∈ pre ++ last :: post) : x.1 ∈ segs := by
  rcases List.mem_append.mp hx with hpre | hrest
  · exact (h.before x hpre).1
  rcases List.mem_cons.mp hrest with rfl | hpost
  · exact h.mem
  · exact h.after x hpost

/-- Segments that come in the order in which they were sent arrive. -/
theorem Arrives.inOrder (h : t.Segments mtu segs) (hpos : 0 < t.redLen)
    (hle : t.redLen ≤ t.block.length) (now : Nat) :
    ∃ pre last post, Arrives segs pre last post ∧ pre ++ last :: post = segs.map (·, now) := by
  obtain ⟨last, hlast, hstart, hend⟩ := h.exists_mem (show t.redLen - 1 < t.block.length by omega)
  have hlastRed : last.kind.isRed = true := (h.red last hlast).mpr (by omega)
  have hborder := (h.cuts hlast).red hlastRed
  have hstop : last.offset + last.data.length = t.redLen := by omega
  have hcp := (h.checkpoint last hlast).mpr ⟨hlastRed, hstop⟩
  obtain ⟨pre, post, hsplit, hnotin⟩ := List.eq_append_cons_of_mem hlast
  refine ⟨pre.map (·, now), (last, now), post.map (·, now), ⟨?_, hlast, hcp, ?_, ?_⟩, by simp [hsplit]⟩
  · intro x hx
    obtain ⟨ds, hds, rfl⟩ := List.mem_map.mp hx
    have hmem : ds ∈ segs := by
      rw [hsplit]
      exact List.mem_append_left _ hds
    refine ⟨hmem, ?_⟩
    cases hkind : ds.kind.checkpoint with
    | none => rfl
    | some cp =>
      have hsame := h.eq_of_checkpoint hmem hlast (by rw [hkind]; rfl) hcp
      exact absurd (hsame ▸ hds) hnotin
  · intro x hx
    obtain ⟨ds, hds, rfl⟩ := List.mem_map.mp hx
    rw [hsplit]
    exact List.mem_append_right _ (List.mem_cons_of_mem _ hds)
  · intro ds hds hred hnone
    have hkept : (pre.map (·, now)).map Prod.fst = pre := by simp [Function.comp_def]
    rw [hkept]
    rw [hsplit] at hds
    rcases List.mem_append.mp hds with hpre | hrest
    · exact hpre
    rcases List.mem_cons.mp hrest with rfl | hpost
    · rw [hnone] at hcp
      cases hcp
    · -- what follows the checkpoint is green
      obtain ⟨mid, rest, hpostSplit⟩ := List.append_of_mem hpost
      have hafter : segs = (pre ++ last :: mid) ++ ds :: rest := by rw [hsplit, hpostSplit]; simp
      have hlastOffset := h.offset pre last post hsplit
      have hoffset := h.offset _ ds rest hafter
      have hbefore := (h.red ds (by rw [hafter]; simp)).mp hred
      simp only [List.map_append, List.map_cons, List.sum_append, List.sum_cons] at hoffset
      omega

/-- A receiver that all segments of a block reach tells of the red part once, when the checkpoint comes,
of green data as it comes, and answers each copy of the checkpoint with one report that claims the
red part as a whole. -/
theorem arrive_all (source : EngineId) {pre post : List (DataSegment × Nat)} {last : DataSegment × Nat} {cp : Checkpoint}
    (ha : e.Accepts sid t) (hnone : e.recvSessions[sid]? = none)
    (hroom : e.recvSessions.size < e.config.maxRecvSessions) (hsegs : t.Segments mtu segs)
    (ht : t.Valid) (harrives : Arrives segs pre last post)
    (hcp : last.1.kind.checkpoint = some cp) :
    ∃ s', Yields (List.replicate ((last :: post).countP fun x => x.1.kind.checkpoint.isSome)
          (Push.wire sid (source, .report (fullReport cp.serial.val t.redLen))))
        ((pre.flatMap fun x => greenNotices source sid x.1) ++
          .redPartReceived sid source t.clientService t.redPart
            (decide (t.redLen = t.block.length)) ::
          post.flatMap fun x => greenNotices source sid x.1)
        e ((pre ++ last :: post).foldl (arrive source sid) e) ∧
      ((pre ++ last :: post).foldl (arrive source sid) e).recvSessions[sid]? = some s' ∧
      Complete t segs ((pre ++ last :: post).map Prod.fst) cp.serial.val s' := by
  obtain ⟨hyields, hadmitting⟩ :=
    arrive_before ha (admitting_new ha hnone hroom) hsegs ht harrives.before
  have ha₁ := hyields.accepts ha
  obtain ⟨s, hadmitted, hfresh⟩ := hadmitting last.1 last.2 (hsegs.cuts harrives.mem).clientService
  -- an octet of the red part lies in one of the segments, and all red ones have come
  have hall : ∀ x < t.redLen, ∃ p ∈ ([] ++ pre.map Prod.fst) ++ [last.1], p.kind.isRed = true ∧
      p.offset ≤ x ∧ x < p.offset + p.data.length := by
    intro x hx
    obtain ⟨p, hp, hle, hlt⟩ := hsegs.exists_mem (hx.trans_le ht.red_le)
    have hred : p.kind.isRed = true := (hsegs.red p hp).mpr (by omega)
    refine ⟨p, ?_, hred, hle, hlt⟩
    cases hkind : p.kind.checkpoint with
    | none =>
      have hmem := harrives.red p hp hred hkind
      exact List.mem_append_left _ (by simpa using hmem)
    | some cp' =>
      have hsame := hsegs.eq_of_checkpoint hp harrives.mem (by rw [hkind]; rfl) harrives.checkpoint
      rw [hsame]
      exact List.mem_append_right _ (List.mem_singleton_self _)
  obtain ⟨s₁, hyields₁, hsession₁, hs₁⟩ :=
    handleIncomingData_last ha₁ hadmitted hfresh hsegs ht harrives.mem hcp hall
  obtain ⟨s', hyields₂, hsession₂, hs₂⟩ :=
    arrive_after (hyields₁.accepts ha₁) hsession₁ hs₁ hsegs ht harrives.mem hcp harrives.after
  refine ⟨s', ?_, ?_, ?_⟩
  · have htotal := (hyields.trans hyields₁).trans hyields₂
    rw [List.foldl_append, List.foldl_cons, List.countP_cons, harrives.checkpoint, if_pos rfl,
      List.replicate_succ]
    simpa [arrive] using htotal
  · rw [List.foldl_append, List.foldl_cons]
    exact hsession₂
  · simpa using hs₂

end Runs

end Engine

end HdyUtils.Ltp
