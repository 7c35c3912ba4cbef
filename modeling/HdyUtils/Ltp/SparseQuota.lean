import HdyUtils.Lib.Trace
import HdyUtils.Ltp.Engine.Reassembly

/-! What a run of `insert_red` calls leaves in a receive session (`engine/session.rs`).  A call that
the sparse quota refuses has raised `max_red_end` by then, and a segment stored under an offset that
is taken replaces the entry there while the counter adds its length. -/

namespace HdyUtils.Ltp

open Trace

/-- The arguments of a call of `insert_red`. -/
structure RedInsert where
  offset : UInt64
  data : Bytes
  maxBlockSize : UInt64

namespace RedInsert

/-- Where the data of the call ends. -/
def stop (c : RedInsert) : Nat := c.offset.toNat + c.data.length

end RedInsert

namespace RecvSession

/-- The session after a call of `insert_red`. -/
def inserted (s : RecvSession) (c : RedInsert) : RecvSession :=
  (s.insertRed c.offset.toNat c.data c.maxBlockSize.toNat).1

/-- What the call returns. -/
def accepts (s : RecvSession) (c : RedInsert) : Bool :=
  (s.insertRed c.offset.toNat c.data c.maxBlockSize.toNat).2

/-- The call is within the bounds, brings something new and leaves a gap before it. -/
def OutOfOrder (s : RecvSession) (c : RedInsert) : Prop :=
  c.stop ≤ u64Max ∧ c.stop ≤ c.maxBlockSize.toNat ∧
    s.redReceived.covers ⟨c.offset.toNat, c.stop⟩ = false ∧ s.redBuf.length < c.offset.toNat

/-- The counter and the new octets together exceed the quota. -/
def OverQuota (s : RecvSession) (c : RedInsert) : Prop :=
  c.maxBlockSize.toNat < satAdd s.totalReceivedBytes c.data.length

instance (s : RecvSession) (c : RedInsert) : Decidable (s.OutOfOrder c) :=
  inferInstanceAs (Decidable (_ ∧ _))

instance (s : RecvSession) (c : RedInsert) : Decidable (s.OverQuota c) :=
  inferInstanceAs (Decidable (_ < _))

/-- What a call of `insert_red` can do, and what it returns then. -/
inductive Inserts (s : RecvSession) (c : RedInsert) : RecvSession → Bool → Prop
  | outOfBounds (hbounds : u64Max < c.stop ∨ c.maxBlockSize.toNat < c.stop) : Inserts s c s false
  | covered (hcovered : s.redReceived.covers ⟨c.offset.toNat, c.stop⟩ = true) : Inserts s c s true
  | joined (hbounds : c.stop ≤ u64Max)
      (hnew : s.redReceived.covers ⟨c.offset.toNat, c.stop⟩ = false)
      (hreached : c.offset.toNat ≤ s.redBuf.length) :
      Inserts s c
        (connectSparse s.sparseRed.size
          { s with
            maxRedEnd := max s.maxRedEnd c.stop
            redBuf := writeAt s.redBuf c.offset.toNat c.data
            redReceived := s.redReceived.insert ⟨c.offset.toNat, c.stop⟩ })
        true
  | overQuota (horder : s.OutOfOrder c) (hquota : s.OverQuota c) :
      Inserts s c { s with maxRedEnd := max s.maxRedEnd c.stop } false
  | stored (horder : s.OutOfOrder c) (hquota : ¬s.OverQuota c) :
      Inserts s c
        { s with
          maxRedEnd := max s.maxRedEnd c.stop
          sparseRed := s.sparseRed.insert c.offset.toNat c.data
          totalReceivedBytes := (s.totalReceivedBytes + c.data.length) % 2 ^ 64
          redReceived := s.redReceived.insert ⟨c.offset.toNat, c.stop⟩ }
        true

theorem inserts_inserted (s : RecvSession) (c : RedInsert) :
    s.Inserts c (s.inserted c) (s.accepts c) := by
  unfold inserted accepts
  simp only [insertRed]
  split
  · rename_i hmax
    exact .outOfBounds (.inl hmax)
  rename_i hmax
  split
  · rename_i hblock
    exact .outOfBounds (.inr hblock)
  rename_i hblock
  split
  · rename_i hcovered
    exact .covered hcovered
  rename_i hnew
  have hnew : s.redReceived.covers ⟨c.offset.toNat, c.stop⟩ = false := Bool.not_eq_true _ ▸ hnew
  split
  · rename_i hreached
    exact .joined (Nat.not_lt.mp hmax) hnew hreached
  rename_i hgap
  have horder : s.OutOfOrder c :=
    ⟨Nat.not_lt.mp hmax, Nat.not_lt.mp hblock, hnew, Nat.not_le.mp hgap⟩
  split
  · rename_i hquota
    exact .overQuota horder hquota
  · rename_i hquota
    exact .stored horder hquota

/-! ### Refused segments -/

/-- The reassembly state of the sessions is the same. -/
structure SameData (s s' : RecvSession) : Prop where
  redBuf : s'.redBuf = s.redBuf
  redReceived : s'.redReceived = s.redReceived
  sparseRed : s'.sparseRed = s.sparseRed
  totalReceivedBytes : s'.totalReceivedBytes = s.totalReceivedBytes
  maxRedEnd : s'.maxRedEnd = s.maxRedEnd

/-- If the call is refused, it leaves no trace. -/
def Traceless (s : RecvSession) (c : RedInsert) : Prop :=
  s.accepts c = false → s.SameData (s.inserted c)

/-- The quota does not refuse data that ends past all red data so far. -/
def EndsKnown (s : RecvSession) (c : RedInsert) : Prop :=
  s.OutOfOrder c → s.OverQuota c → c.stop ≤ s.maxRedEnd

theorem traceless_iff (s : RecvSession) (c : RedInsert) : s.Traceless c ↔ s.EndsKnown c := by
  have h := s.inserts_inserted c
  unfold Traceless EndsKnown
  generalize s.inserted c = s' at h ⊢
  generalize s.accepts c = accepted at h ⊢
  cases h with
  | outOfBounds hbounds =>
    refine ⟨fun _ horder => ?_, fun _ _ => ⟨rfl, rfl, rfl, rfl, rfl⟩⟩
    have hstop := horder.1
    have hblock := horder.2.1
    omega
  | covered hcovered =>
    refine ⟨fun _ horder => ?_, fun _ hfalse => (by cases hfalse)⟩
    have hnew := horder.2.2.1
    rw [hcovered] at hnew
    cases hnew
  | joined _ _ hreached =>
    refine ⟨fun _ horder => ?_, fun _ hfalse => (by cases hfalse)⟩
    have hgap := horder.2.2.2
    omega
  | overQuota horder hquota =>
    constructor
    · intro hsame _ _
      have hend := (hsame rfl).maxRedEnd
      exact (le_max_right _ _).trans hend.le
    · intro hknown _
      have hend := hknown horder hquota
      exact ⟨rfl, rfl, rfl, rfl, max_eq_left hend⟩
  | stored _ hquota =>
    exact ⟨fun _ _ hover => absurd hover hquota, fun _ hfalse => (by cases hfalse)⟩

/-- Along a run of calls, refused segments leave no trace exactly if none of them is refused by the
quota after it has raised `max_red_end`. -/
theorem refusals_traceless_iff (s : RecvSession) (calls : List RedInsert) :
    Along inserted Traceless s calls ↔ Along inserted EndsKnown s calls :=
  ⟨fun h => h.mono fun s c => (traceless_iff s c).mp,
    fun h => h.mono fun s c => (traceless_iff s c).mpr⟩

/-- With six octets held from offset 2 on and a quota of ten, the quota refuses nine octets from
offset 1 on, and `max_red_end` is then ten. -/
theorem refusal_leaves_trace :
    ∃ s : RecvSession, s = run inserted (new ⟨⟨1⟩, 1⟩ ⟨1⟩ 1 1 0) [⟨2, List.replicate 6 7, 10⟩] ∧
      s.accepts ⟨1, List.replicate 9 7, 10⟩ = false ∧ s.maxRedEnd = 8 ∧
      (s.inserted ⟨1, List.replicate 9 7, 10⟩).maxRedEnd = 10 ∧
      ¬s.Traceless ⟨1, List.replicate 9 7, 10⟩ := by
  refine ⟨_, rfl, by decide, by decide, by decide, fun h => ?_⟩
  have hsame := (h (by decide)).maxRedEnd
  revert hsame
  decide

/-! ### The counter of the sparse quota -/

/-- The counter is the number of octets held in sparse segments. -/
def Counted (s : RecvSession) : Prop := s.totalReceivedBytes = s.sparseBytes

/-- Every sparse segment holds some octets, and fewer than a counter can count. -/
def EntriesFit (s : RecvSession) : Prop :=
  ∀ (offset : Nat) (data : Bytes), s.sparseRed[offset]? = some data →
    0 < data.length ∧ data.length ≤ u64Max

/-- A segment to be stored out of order has its offset to itself, and the counter can hold it. -/
def OffsetFree (s : RecvSession) (c : RedInsert) : Prop :=
  s.OutOfOrder c → ¬s.OverQuota c →
    s.sparseRed[c.offset.toNat]? = none ∧ s.totalReceivedBytes + c.data.length ≤ u64Max

/-- The counter is right after the call, and the call is refused for the quota only if the octets
held and its own exceed it. -/
structure CountsBytes (s : RecvSession) (c : RedInsert) : Prop where
  counted : (s.inserted c).totalReceivedBytes = (s.inserted c).sparseBytes
  refused : s.OutOfOrder c → s.accepts c = false →
    c.maxBlockSize.toNat < s.sparseBytes + c.data.length

section Counter

variable {s : RecvSession} {c : RedInsert}

theorem OutOfOrder.length_pos (h : s.OutOfOrder c) : 0 < c.data.length := by
  obtain ⟨x, hstart, hstop, _⟩ := RangeSet.not_covers_iff.mp h.2.2.1
  simp only [RedInsert.stop] at hstart hstop
  omega

theorem Counted.connectSparse (fuel : Nat) (h : s.Counted) : (connectSparse fuel s).Counted := by
  refine connectSparse_keeps (fun s offset data hs hentry _ => ?_) fuel h
  have herase := Maps.total_erase List.length hentry
  simp only [Counted, RecvSession.joined, sparseBytes] at hs ⊢
  omega

theorem EntriesFit.connectSparse (fuel : Nat) (h : s.EntriesFit) :
    (connectSparse fuel s).EntriesFit := by
  refine connectSparse_keeps (fun s offset data hs _ _ => ?_) fuel h
  intro o d ho
  simp only [RecvSession.joined, Maps.getElem?_erase] at ho
  split at ho
  · cases ho
  · exact hs o d ho

theorem EntriesFit.inserted (h : s.EntriesFit) (c : RedInsert) : (s.inserted c).EntriesFit := by
  have hinserts := s.inserts_inserted c
  generalize s.inserted c = s' at hinserts ⊢
  generalize s.accepts c = accepted at hinserts
  cases hinserts with
  | outOfBounds => exact h
  | covered => exact h
  | joined => exact EntriesFit.connectSparse _ h
  | overQuota => exact h
  | stored horder =>
    intro o d ho
    simp only [Maps.getElem?_insert] at ho
    split at ho
    · cases ho
      have hstop := horder.1
      simp only [RedInsert.stop] at hstop
      exact ⟨horder.length_pos, by omega⟩
    · exact h o d ho

/-- What replaces an entry adds to the counter without taking the entry off it. -/
theorem counted_inserted_iff (hcounted : s.Counted) (hentries : s.EntriesFit) :
    (s.inserted c).Counted ↔ s.OffsetFree c := by
  have h := s.inserts_inserted c
  unfold OffsetFree
  generalize s.inserted c = s' at h ⊢
  generalize s.accepts c = accepted at h
  cases h with
  | outOfBounds hbounds =>
    refine ⟨fun _ horder => ?_, fun _ => hcounted⟩
    have hstop := horder.1
    have hblock := horder.2.1
    omega
  | covered hcovered =>
    refine ⟨fun _ horder => ?_, fun _ => hcounted⟩
    have hnew := horder.2.2.1
    rw [hcovered] at hnew
    cases hnew
  | joined _ _ hreached =>
    refine ⟨fun _ horder => ?_, fun _ => Counted.connectSparse _ hcounted⟩
    have hgap := horder.2.2.2
    omega
  | overQuota _ hquota => exact ⟨fun _ _ hunder => absurd hquota hunder, fun _ => hcounted⟩
  | stored horder hquota =>
    have hinsert := Maps.total_insert_add List.length s.sparseRed c.offset.toNat c.data
    simp only [Counted, sparseBytes] at hcounted ⊢
    simp only [horder, hquota, not_false_eq_true, true_implies]
    cases hold : s.sparseRed[c.offset.toNat]? with
    | none =>
      rw [hold] at hinsert
      simp only [Option.map_none, Option.getD_none, u64Max, true_and] at hinsert ⊢
      omega
    | some old =>
      obtain ⟨hpos, hle⟩ := hentries _ old hold
      rw [hold] at hinsert
      simp only [Option.map_some, Option.getD_some, u64Max, reduceCtorEq, false_and, iff_false]
        at hinsert hle ⊢
      omega

/-- A counter that is right refuses for the octets that are held. -/
theorem Counted.refused (h : s.Counted) (horder : s.OutOfOrder c) (hfalse : s.accepts c = false) :
    c.maxBlockSize.toNat < s.sparseBytes + c.data.length := by
  have hinserts := s.inserts_inserted c
  rw [hfalse] at hinserts
  generalize s.inserted c = s' at hinserts
  cases hinserts with
  | outOfBounds hbounds =>
    have hstop := horder.1
    have hblock := horder.2.1
    omega
  | overQuota _ hquota =>
    simp only [OverQuota, satAdd, Counted] at hquota h
    omega

end Counter

/-- Along a run of calls on a new session, the counter of the quota is the number of octets held
exactly if no segment is stored out of order under an offset that is taken (nor overflows the
counter). -/
theorem counts_bytes_iff (id : SessionId) (peer : EngineId) (clientService initialRsSerial : UInt64)
    (now : Nat) (calls : List RedInsert) :
    Along inserted CountsBytes (new id peer clientService initialRsSerial now) calls ↔
      Along inserted OffsetFree (new id peer clientService initialRsSerial now) calls := by
  have hentries : (new id peer clientService initialRsSerial now).EntriesFit := by
    simp [EntriesFit, new]
  have hcounted : (new id peer clientService initialRsSerial now).Counted := rfl
  have hruns : Along inserted OffsetFree (new id peer clientService initialRsSerial now) calls ↔
      Along inserted (fun s c => (s.inserted c).Counted ∧ (s.inserted c).EntriesFit)
        (new id peer clientService initialRsSerial now) calls := by
    refine along_iff_invariant (fun s : RecvSession => s.Counted ∧ s.EntriesFit) ?_
      ⟨hcounted, hentries⟩
    rintro s c ⟨hs, hfit⟩
    rw [← counted_inserted_iff hs hfit, iff_self_and]
    exact fun _ => hfit.inserted c
  have hkept : ∀ (s : RecvSession) (c : RedInsert), s.EntriesFit → s.CountsBytes c →
      (s.inserted c).EntriesFit := fun s c hs _ => hs.inserted c
  have hcounts : ∀ (s : RecvSession) (c : RedInsert), s.Counted ∧ s.EntriesFit →
      (s.inserted c).Counted ∧ (s.inserted c).EntriesFit → s.CountsBytes c :=
    fun s c hs hs' => ⟨hs'.1, fun horder => hs.1.refused horder⟩
  rw [hruns]
  constructor
  · intro h
    exact h.strengthen hkept (fun s c hs hc => ⟨hc.counted, hs.inserted c⟩) hentries
  · intro h
    have hnext : ∀ (s : RecvSession) (c : RedInsert), s.Counted ∧ s.EntriesFit →
        (s.inserted c).Counted ∧ (s.inserted c).EntriesFit →
        (s.inserted c).Counted ∧ (s.inserted c).EntriesFit := fun _ _ _ hs' => hs'
    exact h.strengthen hnext hcounts ⟨hcounted, hentries⟩

/-- The calls store an octet at offset 4, then six octets there, then two at offset 2. -/
def replacing : List RedInsert :=
  [⟨4, [7], 10⟩, ⟨4, List.replicate 6 7, 10⟩, ⟨2, [7, 7], 10⟩]

/-- The counter is then nine with eight octets held, and a quota of ten refuses two more. -/
theorem replaced_octets_counted :
    ∃ s : RecvSession, s = run inserted (new ⟨⟨1⟩, 1⟩ ⟨1⟩ 1 1 0) replacing ∧
      s.totalReceivedBytes = 9 ∧ s.sparseBytes = 8 ∧ s.OutOfOrder ⟨1, [7, 7], 10⟩ ∧
      s.accepts ⟨1, [7, 7], 10⟩ = false ∧
      ¬Along inserted CountsBytes (new ⟨⟨1⟩, 1⟩ ⟨1⟩ 1 1 0) replacing := by
  refine ⟨_, rfl, by decide, by decide, by decide, by decide, fun h => ?_⟩
  have hcounted := h.2.1.counted
  revert hcounted
  decide

end RecvSession

end HdyUtils.Ltp
