import HdyUtils.Lib.Trace
import HdyUtils.Ltp.Engine.Reassembly
import HdyUtils.Cla.Driver

/-! Reassembly of green blocks in the driver (`ltp-cla/src/driver.rs`).  The driver adds up the lengths
of the segments of a session and takes the block for complete when they reach its length.  A segment
that comes twice counts twice, so a hole can remain, which is then filled with zeros. -/

namespace HdyUtils.Cla

open Ltp Trace

/-! ### Slices of a block -/

/-- The octets of a block from `start` up to `stop`. -/
structure Slice (block : Bytes) where
  start : Nat
  stop : Nat
  ordered : start ≤ stop
  inside : stop ≤ block.length
  fits : stop ≤ u64Max

namespace Slice

variable {block : Bytes}

def data (s : Slice block) : Bytes := (block.drop s.start).take (s.stop - s.start)

/-- The slice is the last of the block, which its segment says. -/
def isEnd (s : Slice block) : Bool := decide (s.stop = block.length)

def Contains (s : Slice block) (p : Nat) : Prop := s.start ≤ p ∧ p < s.stop

@[simp] theorem length_data (s : Slice block) : s.data.length = s.stop - s.start := by
  have hordered := s.ordered
  have hinside := s.inside
  rw [data, List.length_take, List.length_drop]
  omega

theorem start_add_length (s : Slice block) : s.start + s.data.length = s.stop := by
  have hordered := s.ordered
  rw [length_data]
  omega

theorem getD_data (s : Slice block) {p : Nat} (h : s.Contains p) :
    s.data.getD (p - s.start) 0 = block.getD p 0 := by
  obtain ⟨hstart, hstop⟩ := h
  simp only [data, List.getD_eq_getElem?_getD]
  rw [List.getElem?_take_of_lt (by omega), List.getElem?_drop, Nat.add_sub_cancel' hstart]

end Slice

/-- Some slice of the list contains the position. -/
def Covered {block : Bytes} (l : List (Slice block)) (p : Nat) : Prop := ∃ s ∈ l, s.Contains p

/-- The slices of the list add up to the length of the block, and its end is among them. -/
def Completes {block : Bytes} (l : List (Slice block)) : Prop :=
  l.any Slice.isEnd = true ∧ block.length ≤ (l.map fun s => s.stop - s.start).sum

theorem covered_append_iff {block : Bytes} {l : List (Slice block)} {s : Slice block} {p : Nat} :
    Covered (l ++ [s]) p ↔ Covered l p ∨ s.Contains p := by
  simp [Covered, or_and_right, exists_or]

/-! ### Writing into the buffer -/

theorem getD_append_zeros (buf : Bytes) (n p : Nat) :
    (buf ++ List.replicate n 0).getD p 0 = buf.getD p 0 := by
  rcases Nat.lt_or_ge p buf.length with hlt | hge
  · rw [List.getD_append _ _ _ _ hlt]
  · rw [List.getD_append_right _ _ _ _ hge, List.getD_eq_default _ _ hge,
      List.getD_eq_getElem?_getD, List.getElem?_replicate]
    split <;> rfl

/-- Outside of what is written the buffer is as before, and zero past its end. -/
theorem getD_writeAt (buf data : Bytes) (start p : Nat) :
    (writeAt buf start data).getD p 0 =
      if start ≤ p ∧ p < start + data.length then data.getD (p - start) 0 else buf.getD p 0 := by
  have hgrown : ∃ grown : Bytes, writeAt buf start data =
      grown.take start ++ data ++ grown.drop (start + data.length) ∧
        start + data.length ≤ grown.length ∧ ∀ q, grown.getD q 0 = buf.getD q 0 := by
    unfold writeAt
    by_cases hshort : buf.length < start + data.length
    · refine ⟨buf ++ List.replicate (start + data.length - buf.length) 0, ?_, ?_, ?_⟩
      · simp only [hshort, if_true]
      · simp only [List.length_append, List.length_replicate]
        omega
      · exact getD_append_zeros buf _
    · exact ⟨buf, by simp only [hshort, if_false], by omega, fun _ => rfl⟩
  obtain ⟨grown, heq, hlength, hsame⟩ := hgrown
  have htake : (grown.take start).length = start := by
    rw [List.length_take]
    omega
  rw [heq, ← hsame p]
  simp only [List.getD_eq_getElem?_getD]
  split
  · next hin =>
    rw [List.append_assoc, List.getElem?_append_right (by omega), htake,
      List.getElem?_append_left (by omega)]
  · next hout =>
    rcases Nat.lt_or_ge p start with hlt | hge
    · rw [List.append_assoc, List.getElem?_append_left (by omega), List.getElem?_take_of_lt hlt]
    · rw [List.getElem?_append_right (by rw [List.length_append]; omega), List.length_append, htake,
        List.getElem?_drop]
      congr 2
      omega

/-! ### What a reassembly holds -/

/-- The reassembly holds the slices of the list: their octets, zeros elsewhere, and the sum of their
lengths. -/
structure Holds {block : Bytes} (l : List (Slice block)) (r : GreenReassembly) : Prop where
  bounded : r.data.length ≤ block.length
  ended : l.any Slice.isEnd = true → r.data.length = block.length
  held : ∀ p, Covered l p → r.data.getD p 0 = block.getD p 0
  hole : ∀ p, ¬Covered l p → r.data.getD p 0 = 0
  counted : r.receivedBytes = (l.map fun s => s.stop - s.start).sum
  total : r.totalLen = if l.any Slice.isEnd then some block.length else none

namespace Holds

variable {block : Bytes} {l : List (Slice block)} {r : GreenReassembly}

theorem nil (now : Nat) : Holds ([] : List (Slice block)) ⟨[], 0, none, now⟩ where
  bounded := Nat.zero_le _
  ended := by simp
  held := fun p ⟨_, hs, _⟩ => absurd hs List.not_mem_nil
  hole := fun p _ => rfl
  counted := rfl
  total := rfl

theorem add (h : Holds l r) (s : Slice block) (now : Nat) :
    Holds (l ++ [s]) (r.add s.start s.data s.isEnd now) := by
  have hlength : (writeAt r.data s.start s.data).length = max r.data.length s.stop := by
    rw [RecvSession.length_writeAt, s.start_add_length]
  have hbounded := h.bounded
  have hinside := s.inside
  refine ⟨?_, fun hend => ?_, fun p hp => ?_, fun p hp => ?_, ?_, ?_⟩
  · simp only [GreenReassembly.add, hlength]
    omega
  · simp only [GreenReassembly.add, hlength]
    rw [List.any_append, Bool.or_eq_true] at hend
    rcases hend with hend | hend
    · have hended := h.ended hend
      omega
    · have hstop : s.stop = block.length := by simpa [Slice.isEnd] using hend
      omega
  · simp only [GreenReassembly.add]
    rw [getD_writeAt, s.start_add_length]
    split
    · next hin => exact s.getD_data hin
    · next hout => exact h.held p ((covered_append_iff.mp hp).resolve_right hout)
  · simp only [GreenReassembly.add]
    rw [covered_append_iff, not_or] at hp
    have hout : ¬(s.start ≤ p ∧ p < s.stop) := hp.2
    rw [getD_writeAt, s.start_add_length, if_neg hout]
    exact h.hole p hp.1
  · simp only [GreenReassembly.add, h.counted, List.map_append, List.sum_append, List.map_cons,
      List.map_nil, List.sum_singleton, Slice.length_data]
  · simp only [GreenReassembly.add, h.total, s.start_add_length, List.any_append, List.any_cons,
      List.any_nil, Bool.or_false]
    by_cases hend : s.isEnd = true
    · have hstop : s.stop = block.length := by simpa [Slice.isEnd] using hend
      simp [hend, hstop]
    · simp [hend]

theorem isComplete_iff (h : Holds l r) : r.isComplete = true ↔ Completes l := by
  unfold GreenReassembly.isComplete Completes
  rw [h.total, ← h.counted]
  by_cases hend : l.any Slice.isEnd = true
  · simp [hend, h.ended hend]
  · simp [hend]

/-- The octets held are the block exactly if every hole in them is a zero of the block. -/
theorem data_eq_iff (h : Holds l r) (hlength : r.data.length = block.length) :
    r.data = block ↔ ∀ p < block.length, Covered l p ∨ block.getD p 0 = 0 := by
  constructor
  · intro heq p _
    by_cases hp : Covered l p
    · exact .inl hp
    · have hzero := h.hole p hp
      rw [heq] at hzero
      exact .inr hzero
  · intro hall
    refine List.ext_getElem hlength fun p hp hp' => ?_
    rw [← List.getD_eq_getElem _ 0 hp, ← List.getD_eq_getElem _ 0 hp']
    by_cases hcovered : Covered l p
    · exact h.held p hcovered
    · rw [h.hole p hcovered, (hall p hp').resolve_left hcovered]

end Holds

/-! ### One segment -/

namespace Driver

variable {β ν α : Type} [Ord α]

/-- The segment is not too far out, and its session has a reassembly or finds room for one. -/
def AdmitsGreen (d : Driver β ν α) (session : SessionId) (endOffset now : Nat) : Prop :=
  endOffset ≤ maxGreenBundleSize ∧
    (d.greenReassemblies.contains session = true ∨
      d.greenReassemblies.size < maxGreenReassemblies ∨
      (recentReassemblies d.greenReassemblies now 60).size < maxGreenReassemblies)

instance (d : Driver β ν α) (session : SessionId) (endOffset now : Nat) :
    Decidable (d.AdmitsGreen session endOffset now) := inferInstanceAs (Decidable (_ ∧ _))

/-- The reassembly of a session, a new one if there is none. -/
def reassembly (d : Driver β ν α) (session : SessionId) (now : Nat) : GreenReassembly :=
  (d.greenReassemblies[session]?).getD ⟨[], 0, none, now⟩

/-- What a segment does to the reassembly of its session, which is `entry` with the segment. -/
inductive Reassembles (d : Driver β ν α) (session : SessionId) (endOffset now : Nat)
    (entry : GreenReassembly) (d' : Driver β ν α) : Prop
  | dropped (hrefused : ¬d.AdmitsGreen session endOffset now)
      (hnone : d'.greenReassemblies[session]? = none) (hsame : d'.dispatched = d.dispatched)
  | completed (hadmits : d.AdmitsGreen session endOffset now) (hcomplete : entry.isComplete = true)
      (hnone : d'.greenReassemblies[session]? = none)
      (hdispatch : ∃ x, d'.dispatched = d.dispatched ++ [x] ∧ x.data = entry.data)
  | kept (hadmits : d.AdmitsGreen session endOffset now) (hcomplete : entry.isComplete = false)
      (hentry : d'.greenReassemblies[session]? = some entry ∨ d'.greenReassemblies[session]? = none)
      (hsame : d'.dispatched = d.dispatched)

/-- A sweep removes the reassembly of a session or leaves it as it is. -/
theorem recentReassemblies_getElem? (m : Std.TreeMap SessionId GreenReassembly)
    (session : SessionId) (now seconds : Nat) :
    (recentReassemblies m now seconds)[session]? = m[session]? ∨
      (recentReassemblies m now seconds)[session]? = none := by
  rw [recentReassemblies, Std.TreeMap.getElem?_filter']
  cases m[session]? with
  | none => exact .inl rfl
  | some r =>
    by_cases hrecent : decide (now - r.lastUpdate < seconds * 1000000) = true
    · exact .inl (Option.filter_some_pos hrecent)
    · exact .inr (Option.filter_some_neg (Bool.not_eq_true _ ▸ hrecent))

/-- The driver once a reassembly has taken in its segment. -/
def storeGreen (d : Driver β ν α) (session : SessionId) (source : EngineId)
    (entry : GreenReassembly) : Driver β ν α :=
  if entry.isComplete then
    { d with greenReassemblies := d.greenReassemblies.erase session }.dispatch source entry.data
  else { d with greenReassemblies := d.greenReassemblies.insert session entry }

/-- The last sweep. -/
def sweepGreen (d : Driver β ν α) (now : Nat) : Driver β ν α :=
  if 128 < d.greenReassemblies.size then
    { d with greenReassemblies := recentReassemblies d.greenReassemblies now 30 }
  else d

theorem sweepGreen_dispatched (d : Driver β ν α) (now : Nat) :
    (d.sweepGreen now).dispatched = d.dispatched := by
  unfold sweepGreen
  split <;> rfl

theorem sweepGreen_getElem? (d : Driver β ν α) (session : SessionId) (now : Nat) :
    (d.sweepGreen now).greenReassemblies[session]? = d.greenReassemblies[session]? ∨
      (d.sweepGreen now).greenReassemblies[session]? = none := by
  unfold sweepGreen
  split
  · exact recentReassemblies_getElem? _ _ _ _
  · exact .inl rfl

theorem reassembles_storeGreen {d d₁ : Driver β ν α} {session : SessionId} {endOffset now : Nat}
    (hadmits : d.AdmitsGreen session endOffset now) (hsame : d₁.dispatched = d.dispatched)
    (source : EngineId) (entry : GreenReassembly) :
    d.Reassembles session endOffset now entry
      ((d₁.storeGreen session source entry).sweepGreen now) := by
  have hsweep := (d₁.storeGreen session source entry).sweepGreen_getElem? session now
  have hdispatched := (d₁.storeGreen session source entry).sweepGreen_dispatched now
  cases hcomplete : entry.isComplete with
  | true =>
    have hnone : (d₁.storeGreen session source entry).greenReassemblies[session]? = none := by
      simp [storeGreen, hcomplete, dispatch]
    rw [hnone] at hsweep
    refine .completed hadmits hcomplete (hsweep.elim id id) ⟨⟨d₁.engineToNode[source]?, source, entry.data⟩, ?_, rfl⟩
    rw [hdispatched, ← hsame]
    simp [storeGreen, hcomplete, dispatch]
  | false =>
    have hsome : (d₁.storeGreen session source entry).greenReassemblies[session]? = some entry := by
      simp [storeGreen, hcomplete]
    rw [hsome] at hsweep
    refine .kept hadmits hcomplete hsweep ?_
    rw [hdispatched, ← hsame]
    simp [storeGreen, hcomplete]

theorem reassembles_reassembleGreen (d : Driver β ν α) (session : SessionId) (source : EngineId)
    (offset : Nat) (data : Bytes) (eob : Bool) (now : Nat)
    (hfits : offset + data.length ≤ u64Max) :
    d.Reassembles session (offset + data.length) now
      ((d.reassembly session now).add offset data eob now)
      (d.reassembleGreen session source offset data eob now) := by
  unfold reassembleGreen
  simp only [show ¬u64Max < offset + data.length by omega, if_false]
  split
  · next hlong => exact .dropped (fun h => by have hle := h.1; omega) (by simp) rfl
  next hlong =>
  by_cases hcrowded : (!d.greenReassemblies.contains session &&
      decide (maxGreenReassemblies ≤ d.greenReassemblies.size)) = true
  · simp only [hcrowded, if_true, Bool.true_and, decide_eq_true_eq]
    obtain ⟨habsent, hfull⟩ := Bool.and_eq_true_iff.mp hcrowded
    simp only [Bool.not_eq_true', decide_eq_true_eq] at habsent hfull
    have hnone : d.greenReassemblies[session]? = none :=
      Std.TreeMap.getElem?_eq_none_of_contains_eq_false habsent
    have hswept : (recentReassemblies d.greenReassemblies now 60)[session]? = none := by
      have hsweep := recentReassemblies_getElem? d.greenReassemblies session now 60
      rw [hnone] at hsweep
      exact hsweep.elim id id
    split
    · next hstill =>
      refine .dropped (fun h => ?_) hswept rfl
      rcases h.2 with hcontains | hroom | hroom
      · rw [habsent] at hcontains
        cases hcontains
      · omega
      · omega
    · next hroom =>
      have hadmits : d.AdmitsGreen session (offset + data.length) now :=
        ⟨by omega, .inr (.inr (by omega))⟩
      rw [hswept]
      have hentry : d.reassembly session now = ⟨[], 0, none, now⟩ := by
        rw [reassembly, hnone]
        rfl
      rw [hentry]
      have hsame : ({ d with greenReassemblies := recentReassemblies d.greenReassemblies now 60 } :
        Driver β ν α).dispatched = d.dispatched := rfl
      exact reassembles_storeGreen hadmits hsame source _
  · simp only [hcrowded, Bool.false_eq_true, if_false, Bool.false_and]
    have hadmits : d.AdmitsGreen session (offset + data.length) now := by
      refine ⟨by omega, ?_⟩
      simp only [Bool.and_eq_true, Bool.not_eq_true', decide_eq_true_eq, not_and]
        at hcrowded
      by_cases habsent : d.greenReassemblies.contains session = true
      · exact .inl habsent
      · exact .inr (.inl (by have hfull := hcrowded (Bool.not_eq_true _ ▸ habsent); omega))
    exact reassembles_storeGreen hadmits rfl source _

/-- The reassembly of the session is as before, or was swept away. -/
def Fades (session : SessionId) (d d' : Driver β ν α) : Prop :=
  d'.greenReassemblies[session]? = d.greenReassemblies[session]? ∨
    d'.greenReassemblies[session]? = none

theorem Fades.trans {session : SessionId} {d d' d'' : Driver β ν α} (h : Fades session d d')
    (h' : Fades session d' d'') : Fades session d d'' := by
  rcases h' with heq | hnone
  · rcases h with heq' | hnone
    · exact .inl (heq.trans heq')
    · exact .inr (heq.trans hnone)
  · exact .inr hnone

theorem fades_reassembleGreen (d : Driver β ν α) {session other : SessionId} (hne : other ≠ session)
    (source : EngineId) (offset : Nat) (data : Bytes) (eob : Bool) (now : Nat) :
    Fades session d (d.reassembleGreen other source offset data eob now) := by
  have hstore : ∀ (d : Driver β ν α) (entry : GreenReassembly),
      Fades session d ((d.storeGreen other source entry).sweepGreen now) := by
    intro d entry
    have hsame : (d.storeGreen other source entry).greenReassemblies[session]? =
        d.greenReassemblies[session]? := by
      unfold storeGreen
      split <;> simp [dispatch, Maps.getElem?_erase, Maps.getElem?_insert, hne]
    have hsweep := (d.storeGreen other source entry).sweepGreen_getElem? session now
    rwa [hsame] at hsweep
  have hswept : Fades session d
      { d with greenReassemblies := recentReassemblies d.greenReassemblies now 60 } :=
    recentReassemblies_getElem? _ _ _ _
  unfold reassembleGreen
  simp only
  split
  · exact .inl rfl
  split
  · exact .inl (by simp [Maps.getElem?_erase, hne])
  cases hcrowded : (!d.greenReassemblies.contains other &&
      decide (maxGreenReassemblies ≤ d.greenReassemblies.size)) with
  | true =>
    simp only [if_true, Bool.true_and]
    split
    · exact hswept
    · exact hswept.trans (hstore _ _)
  | false =>
    simp only [Bool.false_eq_true, if_false, Bool.false_and]
    exact hstore d _

/-- A notice of another kind or session leaves the reassembly of the session or sweeps it away. -/
theorem fades_handleNotice (d : Driver β ν α) {session : SessionId} (now : Nat) {notice : Notice}
    (h : ∀ source offset data eob, notice ≠ .greenSegmentArrived session source offset data eob) :
    Fades session d (d.handleNotice now notice) := by
  have hsettle : ∀ other outcome, Fades session d (d.settle other outcome) := by
    intro other outcome
    unfold settle
    split <;> exact .inl rfl
  cases notice with
  | redPartReceived =>
    simp only [handleNotice]
    split <;> exact .inl rfl
  | transmissionSessionCompleted other => exact hsettle _ _
  | transmissionSessionCancelled other => exact hsettle _ _
  | greenSegmentArrived other source offset data eob =>
    have hne : other ≠ session := by
      rintro rfl
      exact h source offset data eob rfl
    simp only [handleNotice]
    split
    · exact .inl rfl
    · exact fades_reassembleGreen d hne source offset data eob now

end Driver

/-! ### Runs -/

section Run

variable {β ν α : Type} [Ord α] {block : Bytes}

/-- A notice for the driver: a slice of the block for the session, or anything about another one. -/
inductive GreenEvent (block : Bytes) (session : SessionId)
  | slice (s : Slice block) (source : EngineId) (now : Nat)
  | other (notice : Notice) (now : Nat)
      (helsewhere : ∀ source offset data eob,
        notice ≠ .greenSegmentArrived session source offset data eob)

/-- A driver, the slices that went into the session's reassembly since it was made, and all that
arrived. -/
structure Watched (β ν α : Type) [Ord α] (block : Bytes) where
  driver : Driver β ν α
  held : List (Slice block)
  seen : List (Slice block)

namespace Watched

variable {session : SessionId}

/-- The slice is the whole block, which is dispatched at once. -/
def Whole (s : Slice block) : Prop := s.start = 0 ∧ s.isEnd = true

instance (s : Slice block) : Decidable (Whole s) := inferInstanceAs (Decidable (_ ∧ _))

def step (w : Watched β ν α block) : GreenEvent block session → Watched β ν α block
  | .slice s source now =>
    let d := w.driver.handleNotice now (.greenSegmentArrived session source s.start s.data s.isEnd)
    { driver := d
      held :=
        if Whole s then w.held
        else if d.greenReassemblies.contains session then w.held ++ [s] else []
      seen := w.seen ++ [s] }
  | .other notice now _ =>
    let d := w.driver.handleNotice now notice
    { w with
      driver := d
      held := if d.greenReassemblies.contains session then w.held else [] }

/-- A bundle dispatched for the slice is the block, every octet of which has arrived. -/
def Intact (w : Watched β ν α block) : GreenEvent block session → Prop
  | .slice s source now =>
    ∀ x, (w.step (.slice s source now : GreenEvent block session)).driver.dispatched =
        w.driver.dispatched ++ [x] →
      x.data = block ∧ ∀ p < block.length, Covered (w.seen ++ [s]) p
  | .other _ _ _ => True

/-- Where the slice completes the reassembly, its slices leave no hole but where the block is zero,
and those octets arrived before. -/
def Filled (w : Watched β ν α block) : GreenEvent block session → Prop
  | .slice s _ now =>
    ¬Whole s → w.driver.AdmitsGreen session s.stop now → Completes (w.held ++ [s]) →
      ∀ p < block.length, Covered (w.held ++ [s]) p ∨
        Covered (w.seen ++ [s]) p ∧ block.getD p 0 = 0
  | .other _ _ _ => True

/-- What the driver holds for the session is the slices held. -/
structure Tracks (session : SessionId) (w : Watched β ν α block) : Prop where
  entry : ∀ r, w.driver.greenReassemblies[session]? = some r → Holds w.held r
  absent : w.driver.greenReassemblies[session]? = none → w.held = []
  arrived : ∀ s ∈ w.held, s ∈ w.seen

theorem Tracks.holds {w : Watched β ν α block} (h : Tracks session w) (now : Nat) :
    Holds w.held (w.driver.reassembly session now) := by
  unfold Driver.reassembly
  cases hr : w.driver.greenReassemblies[session]? with
  | some r => exact h.entry r hr
  | none =>
    rw [h.absent hr]
    exact .nil now

variable (session) in
/-- The whole block is dispatched past the reassemblies. -/
theorem driver_step_whole (w : Watched β ν α block) {s : Slice block} (hwhole : Whole s)
    (source : EngineId) (now : Nat) :
    (w.step (.slice s source now : GreenEvent block session)).driver =
      w.driver.dispatch source s.data := by
  simp only [step, Driver.handleNotice]
  exact if_pos hwhole

variable (session) in
/-- What a slice that is not the whole block does to the reassembly. -/
theorem reassembles_slice (w : Watched β ν α block) {s : Slice block} (hpart : ¬Whole s)
    (source : EngineId) (now : Nat) :
    w.driver.Reassembles session s.stop now
      ((w.driver.reassembly session now).add s.start s.data s.isEnd now)
      (w.step (.slice s source now : GreenEvent block session)).driver := by
  have hstop := s.start_add_length
  have hreassembles := w.driver.reassembles_reassembleGreen session source s.start s.data s.isEnd now
    (by rw [hstop]; exact s.fits)
  rw [hstop] at hreassembles
  have hdriver : (w.step (.slice s source now : GreenEvent block session)).driver =
      w.driver.reassembleGreen session source s.start s.data s.isEnd now := by
    simp only [step, Driver.handleNotice]
    exact if_neg hpart
  rw [hdriver]
  exact hreassembles

theorem tracks_of_none {w : Watched β ν α block}
    (hnone : w.driver.greenReassemblies[session]? = none) (hheld : w.held = []) :
    Tracks session w where
  entry := fun r hr => by
    rw [hnone] at hr
    cases hr
  absent := fun _ => hheld
  arrived := fun s hs => by
    rw [hheld] at hs
    cases hs

theorem contains_iff (d : Driver β ν α) :
    d.greenReassemblies.contains session = d.greenReassemblies[session]?.isSome :=
  Std.TreeMap.contains_eq_isSome_getElem?

theorem Tracks.step {w : Watched β ν α block} (h : Tracks session w)
    (e : GreenEvent block session) : Tracks session (w.step e) := by
  cases e with
  | slice s source now =>
    by_cases hwhole : Whole s
    · have hstep : (w.step (.slice s source now : GreenEvent block session)).driver.greenReassemblies =
          w.driver.greenReassemblies := by
        rw [driver_step_whole session w hwhole]
        rfl
      have hheld : (w.step (.slice s source now : GreenEvent block session)).held = w.held := by
        simp only [Watched.step]
        exact if_pos hwhole
      refine ⟨fun r hr => ?_, fun hnone => ?_, fun x hx => ?_⟩
      · rw [hheld]
        exact h.entry r (hstep ▸ hr)
      · rw [hheld]
        exact h.absent (hstep ▸ hnone)
      · rw [hheld] at hx
        exact List.mem_append_left _ (h.arrived x hx)
    · have hheld : (w.step (.slice s source now : GreenEvent block session)).held =
          if (w.step (.slice s source now : GreenEvent block session)).driver.greenReassemblies.contains
            session then w.held ++ [s] else [] := by
        simp only [Watched.step]
        exact if_neg hwhole
      have hreassembles := reassembles_slice session w hwhole source now
      have hnone_of : ∀ hnone : (w.step (.slice s source now : GreenEvent block session)).driver
          |>.greenReassemblies[session]? = none,
          Tracks session (w.step (.slice s source now : GreenEvent block session)) := by
        intro hnone
        apply tracks_of_none hnone
        rw [hheld, contains_iff, hnone]
        rfl
      cases hreassembles with
      | dropped _ hnone => exact hnone_of hnone
      | completed _ _ hnone => exact hnone_of hnone
      | kept _ _ hentry =>
        rcases hentry with hsome | hnone
        · have hsome' : (w.step (.slice s source now : GreenEvent block session)).held = w.held ++ [s] := by
            rw [hheld, contains_iff, hsome]
            rfl
          refine ⟨fun r hr => ?_, fun hnone => ?_, fun x hx => ?_⟩
          · rw [hsome] at hr
            cases hr
            rw [hsome']
            exact (h.holds now).add s now
          · rw [hsome] at hnone
            cases hnone
          · rw [hsome'] at hx
            rcases List.mem_append.mp hx with hx | hx
            · exact List.mem_append_left _ (h.arrived x hx)
            · exact List.mem_append_right _ hx
        · exact hnone_of hnone
  | other notice now helsewhere =>
    have hfades := w.driver.fades_handleNotice now helsewhere
    have hheld : (w.step (.other notice now helsewhere)).held =
        if (w.driver.handleNotice now notice).greenReassemblies.contains session then w.held
        else [] := rfl
    rcases hfades with heq | hnone
    · cases hold : w.driver.greenReassemblies[session]? with
      | some r =>
        have hsome := heq.trans hold
        have hsame : (w.step (.other notice now helsewhere)).held = w.held := by
          rw [hheld, contains_iff, hsome]
          rfl
        refine ⟨fun r' hr' => ?_, fun hnone => ?_, fun x hx => ?_⟩
        · rw [hsame]
          exact h.entry r' (heq ▸ hr')
        · exact absurd (hsome.symm.trans hnone) (by simp)
        · rw [hsame] at hx
          exact h.arrived x hx
      | none =>
        apply tracks_of_none (heq.trans hold)
        rw [hheld, contains_iff, heq.trans hold]
        rfl
    · apply tracks_of_none hnone
      rw [hheld, contains_iff, hnone]
      rfl

/-- What is dispatched for a slice is intact exactly if it leaves no hole that shows. -/
theorem intact_iff_filled {w : Watched β ν α block} (h : Tracks session w)
    (e : GreenEvent block session) : w.Intact e ↔ w.Filled e := by
  cases e with
  | other => exact Iff.rfl
  | slice s source now =>
    unfold Intact Filled
    by_cases hwhole : Whole s
    · -- the slice is the block
      refine ⟨fun _ hpart => absurd hwhole hpart, fun _ x hx => ?_⟩
      have hstop : s.stop = block.length := by simpa [Slice.isEnd] using hwhole.2
      have hdata : s.data = block := by
        rw [Slice.data, hwhole.1, hstop, List.drop_zero, Nat.sub_zero, List.take_length]
      have hstep : (w.step (.slice s source now : GreenEvent block session)).driver.dispatched =
          w.driver.dispatched ++ [⟨w.driver.engineToNode[source]?, source, s.data⟩] := by
        rw [driver_step_whole session w hwhole]
        rfl
      rw [hstep, List.append_cancel_left_eq, List.singleton_inj] at hx
      rw [← hx]
      refine ⟨hdata, fun p hp => covered_append_iff.mpr (.inr ⟨?_, ?_⟩)⟩
      · rw [hwhole.1]
        exact Nat.zero_le p
      · rwa [hstop]
    · have hholds := (h.holds now).add s now
      have hcomplete := hholds.isComplete_iff
      have hseen : ∀ p, Covered (w.held ++ [s]) p → Covered (w.seen ++ [s]) p := by
        rintro p ⟨x, hx, hp⟩
        refine ⟨x, ?_, hp⟩
        rcases List.mem_append.mp hx with hx | hx
        · exact List.mem_append_left _ (h.arrived x hx)
        · exact List.mem_append_right _ hx
      have hnothing : ∀ {d' : Driver β ν α} {x : Dispatch ν}, d'.dispatched = w.driver.dispatched →
          d'.dispatched ≠ w.driver.dispatched ++ [x] := by
        intro d' x hsame heq
        rw [hsame] at heq
        have hlength := congrArg List.length heq
        simp at hlength
      have hreassembles := reassembles_slice session w hwhole source now
      cases hreassembles with
      | dropped hrefused _ hsame =>
        exact ⟨fun _ _ hadmits => absurd hadmits hrefused, fun _ x hx => absurd hx (hnothing hsame)⟩
      | kept _ hopen _ hsame =>
        refine ⟨fun _ _ _ hcompletes => ?_, fun _ x hx => absurd hx (hnothing hsame)⟩
        rw [hcomplete.mpr hcompletes] at hopen
        cases hopen
      | completed hadmits hdone _ hdispatch =>
        obtain ⟨x, hx, hdata⟩ := hdispatch
        have hcompletes := hcomplete.mp hdone
        have hblock := hholds.data_eq_iff (hholds.ended hcompletes.1)
        constructor
        · intro hintact _ _ _ p hp
          obtain ⟨heq, hall⟩ := hintact x hx
          rcases hblock.mp (hdata.symm.trans heq) p hp with hcovered | hzero
          · exact .inl hcovered
          · exact .inr ⟨hall p hp, hzero⟩
        · intro hfilled y hy
          have hholes := hfilled hwhole hadmits hcompletes
          rw [hx, List.append_cancel_left_eq, List.singleton_inj] at hy
          rw [← hy, hdata]
          refine ⟨hblock.mpr fun p hp => (hholes p hp).imp_right And.right, fun p hp => ?_⟩
          exact (hholes p hp).elim (hseen p) And.left

end Watched

/-- Along every run of notices, a driver that has no reassembly for the session yet dispatches only
the block for it, and only once all of it has arrived, exactly if no reassembly completes with a hole
that shows. -/
theorem green_intact_iff (session : SessionId) (d : Driver β ν α)
    (hnone : d.greenReassemblies[session]? = none) (events : List (GreenEvent block session)) :
    Along Watched.step Watched.Intact ⟨d, [], []⟩ events ↔
      Along Watched.step Watched.Filled ⟨d, [], []⟩ events := by
  have htracks : Watched.Tracks session (⟨d, [], []⟩ : Watched β ν α block) :=
    Watched.tracks_of_none hnone rfl
  have hintact : ∀ (w : Watched β ν α block) (e : GreenEvent block session),
      Watched.Tracks session w → w.Intact e → w.Filled e :=
    fun w e hw => (Watched.intact_iff_filled hw e).mp
  have hfilled : ∀ (w : Watched β ν α block) (e : GreenEvent block session),
      Watched.Tracks session w → w.Filled e → w.Intact e :=
    fun w e hw => (Watched.intact_iff_filled hw e).mpr
  exact ⟨fun h => h.strengthen (fun w e hw _ => hw.step e) hintact htracks,
    fun h => h.strengthen (fun w e hw _ => hw.step e) hfilled htracks⟩

end Run

section Example

def greenStation : Config where
  engineId := ⟨1⟩
  transport := .kissTcp 0
  maxSegmentPayloadLen := 1
  rttMicros := 500000
  ackMarginMicros := 250000
  checkpointRtxLimit := 10
  reportRtxLimit := 10
  peers := []

/-- One octet of the block `[1, 2, 3]`. -/
def octet (i : Nat) (h : i < 3) : Slice [1, 2, 3] :=
  ⟨i, i + 1, Nat.le_succ i, h, Nat.le_trans h (by decide)⟩

/-- The arrival of an octet. -/
def arrival (i now : Nat) (h : i < 3) : GreenEvent [1, 2, 3] ⟨⟨2⟩, 1⟩ :=
  .slice (octet i h) ⟨2⟩ now

/-- A driver that watches the session from the start. -/
def watch : Watched Nat Nat Nat [1, 2, 3] := ⟨Driver.new greenStation, [], []⟩

theorem green_intact_iff_in_order :
    Along Watched.step Watched.Intact watch
        [arrival 0 0 (by decide), arrival 1 1 (by decide), arrival 2 2 (by decide)] ↔
      Along Watched.step Watched.Filled watch
        [arrival 0 0 (by decide), arrival 1 1 (by decide), arrival 2 2 (by decide)] :=
  green_intact_iff ⟨⟨2⟩, 1⟩ (Driver.new greenStation : Driver Nat Nat Nat) rfl _

/-- The first octet arrives twice, the second is lost, and the block is dispatched with a zero in its
place. -/
theorem green_hole_dispatched :
    ((watch.step (arrival 0 0 (by decide))).step (arrival 0 1 (by decide)) |>.step
        (arrival 2 2 (by decide))).driver.dispatched = [⟨none, ⟨2⟩, [1, 0, 3]⟩] ∧
      ¬Along Watched.step Watched.Intact watch
        [arrival 0 0 (by decide), arrival 0 1 (by decide), arrival 2 2 (by decide)] := by
  have hdispatched : ((watch.step (arrival 0 0 (by decide))).step (arrival 0 1 (by decide)) |>.step
      (arrival 2 2 (by decide))).driver.dispatched = [⟨none, ⟨2⟩, [1, 0, 3]⟩] := rfl
  refine ⟨hdispatched, fun h => ?_⟩
  have hdata := (h.2.2.1 ⟨none, ⟨2⟩, [1, 0, 3]⟩ hdispatched).1
  revert hdata
  decide

end Example

end HdyUtils.Cla
