import HdyUtils.Lib.Trace
import HdyUtils.Ltp.Engine.Gathering

/-! Slices of one block, inserted in a fresh receive session in any order.  `Gathered` is what the
buffer, the sparse segments and the received ranges say of the block after any of them. -/

namespace HdyUtils.Ltp

open Trace

/-- A slice of `block`, by its bounds. -/
structure RedSlice (block : Bytes) where
  start : Nat
  stop : Nat
  start_le : start ≤ stop
  stop_le : stop ≤ block.length

namespace RedSlice

variable {block : Bytes}

def data (slice : RedSlice block) : Bytes := (block.drop slice.start).take (slice.stop - slice.start)

theorem length_data (slice : RedSlice block) : slice.data.length = slice.stop - slice.start := by
  have hstop := slice.stop_le
  simp only [data, List.length_take, List.length_drop]
  omega

end RedSlice

/-- The block as a transfer that is red throughout. -/
@[simps] def Transfer.allRed (block : Bytes) : Transfer where
  clientService := 0
  block := block
  redLen := block.length

theorem RedSlice.redPiece {block : Bytes} (slice : RedSlice block) :
    (Transfer.allRed block).RedPiece slice.start slice.data := by
  have hstart := slice.start_le
  have hstop := slice.stop_le
  have hlen := slice.length_data
  refine ⟨?_, ?_⟩
  · rw [hlen]
    rfl
  · rw [Transfer.allRed_redLen]
    omega

namespace RecvSession

variable {s : RecvSession} {block : Bytes}

/-- Inserts a slice of a block as red data, whether it is stored or refused. -/
def insertSlice (maxBlockSize : UInt64) (s : RecvSession) (slice : RedSlice block) : RecvSession :=
  (s.insertRed slice.start slice.data maxBlockSize.toNat).1

/-- All of `redBuf` was received. -/
def Solid (s : RecvSession) : Prop := ∀ x < s.redBuf.length, x ∈ s.redReceived

theorem Solid.joined (h : s.Solid) (hlaid : s.Laid) {offset : Nat} {data : Bytes}
    (hentry : s.sparseRed[offset]? = some data) (hreached : offset ≤ s.redBuf.length) :
    (s.joined offset data).Solid := by
  intro x hx
  have hlen : (s.joined offset data).redBuf.length = max s.redBuf.length (offset + data.length) :=
    length_writeAt s.redBuf offset data
  rw [hlen] at hx
  rcases lt_or_ge x s.redBuf.length with hold | hnew
  · exact h x hold
  · exact hlaid.stored offset data hentry x (by omega) (by omega)

theorem Solid.insertRed (h : s.Solid) (hlaid : s.Laid) (offset : Nat) (data : Bytes)
    (maxBlockSize : Nat) : (s.insertRed offset data maxBlockSize).1.Solid := by
  simp only [RecvSession.insertRed]
  split
  · exact h
  split
  · exact h
  split
  · exact h
  split
  · next hreached =>
    -- what is moved after the segment was received before, which is why `Laid` is carried along
    refine (connectSparse_keeps (P := fun s => s.Solid ∧ s.Laid) (fun _ _ _ hkept hentry hle =>
      ⟨hkept.1.joined hkept.2 hentry hle, hkept.2.joined hentry⟩) _ ⟨fun x hx => ?_, ?_⟩).1
    · simp only [length_writeAt] at hx
      refine RangeSet.mem_insert.mpr ?_
      rcases lt_or_ge x s.redBuf.length with hold | hnew
      · exact .inl (h x hold)
      · exact .inr (by simp only; omega)
    · exact hlaid.join rfl (fun _ _ hd => hd) (fun _ _ hd => .inl hd) fun x => RangeSet.mem_insert
  split
  · exact h
  · intro x hx
    exact RangeSet.mem_insert.mpr (.inl (h x hx))

/-- `redBuf` is a prefix of the block, the sparse segments are slices of it beyond that prefix, and
what was received is these. -/
structure Gathered (block : Bytes) (s : RecvSession) : Prop where
  buffer : s.redBuf = block.take s.redBuf.length
  sparse : ∀ (offset : Nat) (data : Bytes), s.sparseRed[offset]? = some data →
    s.redBuf.length < offset ∧ data = (block.drop offset).take data.length
  received : ∀ x, x ∈ s.redReceived ↔ x < s.redBuf.length ∨ ∃ (offset : Nat) (data : Bytes),
    s.sparseRed[offset]? = some data ∧ offset ≤ x ∧ x < offset + data.length

/-- The invariant of the insertions: the session buffers the block, and its buffer was received. -/
structure Gathers (block : Bytes) (s : RecvSession) : Prop where
  buffers : s.Buffers (.allRed block)
  apart : s.Apart
  solid : s.Solid

theorem gathers_new (block : Bytes) (id : SessionId) (peer : EngineId) (clientService : UInt64)
    (initialRsSerial : UInt64) (now : Nat) :
    (RecvSession.new id peer clientService initialRsSerial now).Gathers block where
  buffers := ⟨by simp [RecvSession.new], Nat.zero_le _, by simp [RecvSession.new],
    by simp [RecvSession.new], by simp [RecvSession.new]⟩
  apart := by simp [Apart, RecvSession.new]
  solid := by simp [Solid, RecvSession.new]

theorem Gathers.insertSlice (h : s.Gathers block) (maxBlockSize : UInt64) (slice : RedSlice block) :
    (s.insertSlice maxBlockSize slice).Gathers block := by
  obtain ⟨hbuffers, hapart⟩ :
      (s.insertSlice maxBlockSize slice).Buffers (.allRed block) ∧
        (s.insertSlice maxBlockSize slice).Apart :=
    h.buffers.insertRed h.apart slice.redPiece
  exact ⟨hbuffers, hapart, h.solid.insertRed h.buffers.laid _ _ _⟩

theorem Gathers.gathered (h : s.Gathers block) : s.Gathered block where
  buffer := h.buffers.buffer
  sparse := fun offset data hentry =>
    ⟨h.apart offset data hentry, (h.buffers.sparse offset data hentry).eq⟩
  received := by
    intro x
    refine ⟨h.buffers.received x, ?_⟩
    rintro (hbuf | ⟨offset, data, hentry, hle, hlt⟩)
    · exact h.solid x hbuf
    · exact h.buffers.stored offset data hentry x hle hlt

theorem Gathers.start_eq (h : s.Gathers block) {n : Nat} (hn : s.redReceived.covers ⟨0, n⟩ = true) :
    n ≤ s.redBuf.length ∧ s.redBuf.take n = block.take n := by
  have hreceived : ∀ x < n, x ∈ s.redReceived := fun x hx =>
    RangeSet.covers_iff.mp hn x (Nat.zero_le x) hx
  have hle := h.buffers.laid.le_length h.apart hreceived
  refine ⟨hle, ?_⟩
  rw [h.buffers.buffer, List.take_take, Transfer.allRed_block, Nat.min_eq_left hle]

/-- A fresh session that is given slices of one block gathers that block, whatever their order, their
overlaps and which of them are refused; what covers the start of the block has the start of the block
in `redBuf`. -/
theorem insertSlice_gathers (block : Bytes) (maxBlockSize : UInt64) (slices : List (RedSlice block))
    (id : SessionId) (peer : EngineId) (clientService : UInt64) (initialRsSerial : UInt64)
    (now : Nat) :
    let s := run (insertSlice maxBlockSize)
      (RecvSession.new id peer clientService initialRsSerial now) slices
    s.Gathered block ∧ ∀ n, s.redReceived.covers ⟨0, n⟩ = true →
      n ≤ s.redBuf.length ∧ s.redBuf.take n = block.take n := by
  have hgathers : (run (insertSlice maxBlockSize)
      (RecvSession.new id peer clientService initialRsSerial now) slices).Gathers block :=
    run_invariant (fun _ slice h => h.insertSlice maxBlockSize slice) slices
      (gathers_new block id peer clientService initialRsSerial now)
  exact ⟨hgathers.gathered, fun n => hgathers.start_eq⟩

end RecvSession

end HdyUtils.Ltp
