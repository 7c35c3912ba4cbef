import HdyUtils.Ltp.KissStream
import HdyUtils.Lib.Trace

/-! The receive loop of the driver on a KISS link (`ltp-cla/src/driver.rs`): what a read returns is
appended to an accumulator, the complete frames are taken off its front, and the rest waits for the
next read. -/

namespace HdyUtils.Cla

open Ltp Kiss

/-- `MAX_KISS_ACCUMULATOR`, 2 MiB. -/
def maxKissAccumulator : Nat := 2 * 1024 * 1024

/-- The accumulator, and a log of the frames taken from it. -/
structure KissReader where
  accumulator : Bytes
  frames : List Frame

namespace KissReader

/-- The reader of a new connection. -/
def new : KissReader := ⟨[], []⟩

/-- One read of `raw`. -/
def read (r : KissReader) (raw : Bytes) : KissReader :=
  let accumulator :=
    if maxKissAccumulator < r.accumulator.length + raw.length then [] else r.accumulator
  let accumulator := accumulator ++ raw
  let (frames, offset) := decodeAll 0 accumulator
  { accumulator := if 0 < offset then accumulator.drop offset else accumulator
    frames := r.frames ++ frames }

/-- The read fits in the accumulator. -/
def Fits (r : KissReader) (raw : Bytes) : Prop :=
  r.accumulator.length + raw.length ≤ maxKissAccumulator

instance (r : KissReader) (raw : Bytes) : Decidable (r.Fits raw) :=
  inferInstanceAs (Decidable (_ ≤ _))

theorem read_of_fits {r : KissReader} {raw : Bytes} (h : r.Fits raw) :
    r.read raw =
      { accumulator := (r.accumulator ++ raw).drop (decodeAll 0 (r.accumulator ++ raw)).2
        frames := r.frames ++ Kiss.frames (r.accumulator ++ raw) } := by
  have hfits : ¬ maxKissAccumulator < r.accumulator.length + raw.length := Nat.not_lt.mpr h
  simp only [read, if_neg hfits, Kiss.frames, mk.injEq, and_true]
  split
  · rfl
  · next hzero =>
    have hoffset : (decodeAll 0 (r.accumulator ++ raw)).2 = 0 := by omega
    rw [hoffset, List.drop_zero]

/-- What is left after the complete frames of `buf`, with `more` behind it, has the frames of `more`
that `buf` did not complete. -/
theorem frames_append (buf more : Bytes) :
    Kiss.frames (buf ++ more) =
      Kiss.frames buf ++ Kiss.frames (buf.drop (decodeAll 0 buf).2 ++ more) := by
  generalize hn : buf.length = n
  induction n using Nat.strong_induction_on generalizing buf with
  | _ n ih =>
    obtain ⟨found, hfound⟩ := decodeFrame_ok buf
    cases found with
    | none =>
      rw [decodeAll_none hfound, frames_none hfound]
      rfl
    | some found =>
      obtain ⟨hpos, hle⟩ := decodeFrame_consumed hfound
      have hlt : (buf.drop found.2).length < n := by
        rw [List.length_drop]
        omega
      have hoffset : (decodeAll 0 buf).2 = found.2 + (decodeAll 0 (buf.drop found.2)).2 := by
        rw [decodeAll_some hfound, Nat.zero_add, decodeAll_offset]
      rw [frames_some (decodeFrame_append hfound more), frames_some hfound, hoffset,
        ← List.drop_drop, List.drop_append_of_le_length hle, ih _ hlt _ rfl]
      rfl

/-- No complete frame is left in what waits for the next read. -/
theorem frames_rest (buf : Bytes) : Kiss.frames (buf.drop (decodeAll 0 buf).2) = [] := by
  have h := frames_append buf []
  simp only [List.append_nil] at h
  exact List.self_eq_append_right.mp h

/-- The frames taken so far, and those that the accumulator still holds in front of `more`, are the
frames of the reads so far in front of `more`. -/
theorem run_read (r : KissReader) (reads : List Bytes) (h : Trace.Along read Fits r reads)
    (more : Bytes) :
    (Trace.run read r reads).frames ++
        Kiss.frames ((Trace.run read r reads).accumulator ++ more) =
      r.frames ++ Kiss.frames (r.accumulator ++ reads.flatten ++ more) := by
  induction reads generalizing r with
  | nil => simp
  | cons raw reads ih =>
    rw [Trace.run_cons, ih _ h.2, read_of_fits h.1]
    simp only [List.flatten_cons]
    rw [List.append_assoc, ← List.append_assoc r.accumulator,
      List.append_assoc (r.accumulator ++ raw), frames_append (r.accumulator ++ raw)]
    simp only [List.append_assoc]

theorem frames_accumulator (reads : List Bytes) (h : Trace.Along read Fits new reads) :
    Kiss.frames (Trace.run read new reads).accumulator = [] := by
  have hstep : ∀ (r : KissReader) (raw : Bytes), Kiss.frames r.accumulator = [] → r.Fits raw →
      Kiss.frames (r.read raw).accumulator = [] := by
    intro r raw _ hfits
    rw [read_of_fits hfits]
    exact frames_rest _
  exact h.invariant hstep (frames_none (decodeFrame_of_not_mem (by simp [new])))

/-- A stream no longer than the limit fits, however it is cut. -/
theorem along_fits_of_length (r : KissReader) (reads : List Bytes)
    (h : r.accumulator.length + reads.flatten.length ≤ maxKissAccumulator) :
    Trace.Along read Fits r reads := by
  induction reads generalizing r with
  | nil => trivial
  | cons raw reads ih =>
    rw [List.flatten_cons, List.length_append] at h
    have hfits : r.Fits raw := by
      show r.accumulator.length + raw.length ≤ maxKissAccumulator
      omega
    refine ⟨hfits, ih _ ?_⟩
    rw [read_of_fits hfits]
    simp only [List.length_drop, List.length_append]
    omega

end KissReader

/-- However a stream is cut into reads that fit in the accumulator, the reader takes the frames of
the whole stream from it: a complete frame stays the first frame whatever comes behind it, and
decoding never fails. -/
theorem reads_yield_frames_of_stream (reads : List Bytes)
    (hfits : Trace.Along KissReader.read KissReader.Fits KissReader.new reads) :
    (Trace.run KissReader.read KissReader.new reads).frames = (decodeAll 0 reads.flatten).1 ∧
    (∀ buf frame consumed, decodeFrame buf = .ok (some (frame, consumed)) →
      ∀ more, decodeFrame (buf ++ more) = .ok (some (frame, consumed))) ∧
    ∀ buf e, decodeFrame buf ≠ .error e := by
  refine ⟨?_, fun _ _ _ => decodeFrame_append, ?_⟩
  · have hrun := KissReader.run_read KissReader.new reads hfits []
    rw [List.append_nil, List.append_nil, KissReader.frames_accumulator reads hfits,
      List.append_nil] at hrun
    exact hrun
  · intro buf e he
    obtain ⟨found, hfound⟩ := decodeFrame_ok buf
    rw [hfound] at he
    cases he

/-- A frame that is cut inside an escape, behind a broken one that is cut too. -/
theorem reads_yield_frames_of_stream_cut :
    (Trace.run KissReader.read KissReader.new
      [[FEND, 0x00, FESC], [0x01, FEND, FEND, 0x00, FESC], [TFEND, FEND]]).frames =
      (decodeAll 0 ([[FEND, 0x00, FESC], [0x01, FEND, FEND, 0x00, FESC], [TFEND, FEND]] :
        List Bytes).flatten).1 ∧
    (∀ buf frame consumed, decodeFrame buf = .ok (some (frame, consumed)) →
      ∀ more, decodeFrame (buf ++ more) = .ok (some (frame, consumed))) ∧
    ∀ buf e, decodeFrame buf ≠ .error e := by
  apply reads_yield_frames_of_stream
  apply KissReader.along_fits_of_length
  decide

end HdyUtils.Cla
