import HdyUtils.Ltp.Kiss

/-! KISS frames in a byte stream: which frames repeated decoding finds, whatever stands between
them. -/

namespace HdyUtils.Ltp.Kiss

/-! ### The content of one frame -/

/-- The content of the frame that `encodeFrame` puts between two delimiters. -/
def content (port : UInt8) (command : Command) (payload : Bytes) : Bytes :=
  escapeByte (((port &&& 0x0F) <<< 4) ||| (command.toByte &&& 0x0F)) ++ escape payload

theorem encodeFrame_eq (port : UInt8) (command : Command) (payload : Bytes) :
    encodeFrame port command payload = FEND :: (content port command payload ++ [FEND]) := by
  simp only [encodeFrame, content, escapeByte, List.append_assoc, List.singleton_append]
  rfl

theorem not_mem_content (port : UInt8) (command : Command) (payload : Bytes) :
    FEND ∉ content port command payload := by
  have h := not_mem_escape
    ((((port &&& 0x0F) <<< 4) ||| (command.toByte &&& 0x0F)) :: payload)
  rwa [escape, List.flatMap_cons] at h

theorem commandByte_escapeByte (b : UInt8) (rest : Bytes) :
    commandByte (escapeByte b ++ rest) = some (b, rest) := by
  unfold escapeByte
  split
  · next h => subst h; rfl
  · next hend =>
    split
    · next h => subst h; rfl
    · next hesc =>
      show commandByte (b :: rest) = _
      simp only [commandByte, if_neg hesc]

/-- The two halves of a command byte. -/
theorem nibbles : ∀ p < 16, ∀ c < 16,
    (((UInt8.ofNat p &&& 0x0F) <<< 4 ||| (UInt8.ofNat c &&& 0x0F)) >>> 4) &&& 0x0F = UInt8.ofNat p ∧
    ((UInt8.ofNat p &&& 0x0F) <<< 4 ||| (UInt8.ofNat c &&& 0x0F)) &&& 0x0F = UInt8.ofNat c := by
  decide +kernel

theorem Command.toByte_lt (command : Command) : command.toByte.toNat < 16 := by
  cases command
  case unknown code =>
    show (code &&& 0x0F).toNat < 16
    rw [UInt8.toNat_and]
    exact Nat.lt_of_le_of_lt Nat.and_le_right (by decide)
  all_goals decide

/-- The command that a frame with `command` is decoded to: an unknown code is cut to four bits, and
may then be a known one. -/
def Command.normalised (command : Command) : Command := Command.ofByte command.toByte

theorem decodeSlice_content {port : UInt8} (hport : port < 16) (command : Command)
    (payload : Bytes) :
    decodeSlice (content port command payload) = some ⟨port, command.normalised, payload⟩ := by
  obtain ⟨hhigh, hlow⟩ := nibbles port.toNat hport command.toByte.toNat command.toByte_lt
  rw [UInt8.ofNat_toNat, UInt8.ofNat_toNat] at hhigh hlow
  rw [decodeSlice, content, commandByte_escapeByte]
  simp only [unescape_escape, hhigh, hlow, Command.normalised]

theorem decodeSlice_nil : decodeSlice [] = none := rfl

theorem decodeSlice_of_broken {x : Bytes} (h : BrokenEscape x) : decodeSlice x = none := by
  -- The command byte is not broken itself, so the broken escape is in the payload.
  have key : ∀ b rest, commandByte x = some (b, rest) → BrokenEscape rest := by
    intro b rest hcmd
    unfold commandByte at hcmd
    split at hcmd
    · cases hcmd
    · next c cs =>
      split at hcmd
      · next hc =>
        subst hc
        split at hcmd
        · cases hcmd
        · next e payloadSlice =>
          split at hcmd
          · next he =>
            cases hcmd
            subst he
            exact h.tail_pair rfl
          · split at hcmd
            · next he =>
              cases hcmd
              subst he
              exact h.tail_pair rfl
            · cases hcmd
      · next hc =>
        cases hcmd
        exact h.tail hc
  rw [decodeSlice]
  split
  · rfl
  · next b rest hcmd =>
    obtain ⟨e, he⟩ := unescape_of_broken rest (key b rest hcmd)
    rw [he]

/-! ### One frame of a stream -/

theorem decodeLoop_of_not_mem {cur : Bytes} (h : FEND ∉ cur) (base : Nat) :
    decodeLoop base cur = .ok none := by
  rw [decodeLoop]
  split
  · rfl
  · have hnone : (cur.drop (cur.takeWhile (· = FEND)).length).idxOf? FEND = none := by
      rw [List.idxOf?_eq_none_iff]
      intro hmem
      exact h (List.mem_of_mem_drop hmem)
    simp only [hnone]

/-- A delimiter at the start is skipped. -/
theorem decodeLoop_fend (base : Nat) (cur : Bytes) :
    decodeLoop base (FEND :: cur) = decodeLoop (base + 1) cur := by
  rw [decodeLoop, decodeLoop.eq_def (base + 1)]
  have hstart : ((FEND :: cur).takeWhile (· = FEND)).length =
      (cur.takeWhile (· = FEND)).length + 1 := by simp
  have htotal : ∀ k, base + (cur.takeWhile (· = FEND)).length.succ + k =
      base + 1 + (cur.takeWhile (· = FEND)).length + k := by
    intro k
    omega
  simp only [hstart, List.length_cons, Nat.add_le_add_iff_right, List.drop_succ_cons, htotal]

/-- A piece up to the next delimiter is a frame, or is skipped with it. -/
theorem decodeLoop_piece {x : Bytes} (hx : FEND ∉ x) (base : Nat) (rest : Bytes) :
    decodeLoop base (x ++ FEND :: rest) =
      match decodeSlice x with
      | some frame => .ok (some (frame, base + x.length + 1))
      | none => decodeLoop (base + x.length + 1) rest := by
  cases x with
  | nil =>
    rw [decodeSlice_nil]
    exact decodeLoop_fend base rest
  | cons b x =>
    have hb : b ≠ FEND := fun h => hx (by simp [h])
    have hidx : (b :: x ++ FEND :: rest).idxOf? FEND = some (b :: x).length := by
      have hnone : (b :: x).findIdx? (· == FEND) = none := List.idxOf?_eq_none_iff.mpr hx
      rw [List.idxOf?, List.findIdx?_append, hnone]
      simp [List.findIdx?_cons]
    rw [decodeLoop]
    have hstart : ((b :: x ++ FEND :: rest).takeWhile (· = FEND)).length = 0 := by simp [hb]
    simp only [hstart, List.drop_zero, hidx, List.take_left, Nat.add_zero]
    rw [if_neg (by simp)]
    have hdrop : (b :: x ++ FEND :: rest).drop ((b :: x).length + 1) = rest := by
      simp
    cases decodeSlice (b :: x) with
    | none => exact congrArg (decodeLoop _) hdrop
    | some frame => rfl

/-- A later start of the buffer only shifts what is consumed. -/
theorem decodeLoop_base (base : Nat) (cur : Bytes) :
    decodeLoop base cur =
      (decodeFrame cur).map (Option.map fun found => (found.1, base + found.2)) := by
  induction cur using Lists.delimited_induction FEND generalizing base with
  | rest cur h =>
    rw [decodeFrame, decodeLoop_of_not_mem h, decodeLoop_of_not_mem h]
    rfl
  | piece x rest hx ih =>
    rw [decodeFrame, decodeLoop_piece hx, decodeLoop_piece hx]
    cases decodeSlice x with
    | some frame => simp [Except.map, Nat.add_assoc]
    | none =>
      show decodeLoop (base + x.length + 1) rest = (decodeLoop (0 + x.length + 1) rest).map _
      rw [ih (base + x.length + 1), ih (0 + x.length + 1)]
      cases decodeFrame rest with
      | error => rfl
      | ok found => cases found <;> simp [Except.map, Nat.add_assoc]

theorem decodeFrame_of_not_mem {buf : Bytes} (h : FEND ∉ buf) : decodeFrame buf = .ok none :=
  decodeLoop_of_not_mem h 0

theorem decodeFrame_piece {x : Bytes} (hx : FEND ∉ x) (rest : Bytes) :
    decodeFrame (x ++ FEND :: rest) =
      match decodeSlice x with
      | some frame => .ok (some (frame, x.length + 1))
      | none => (decodeFrame rest).map (Option.map fun found => (found.1, x.length + 1 + found.2)) := by
  rw [decodeFrame, decodeLoop_piece hx]
  cases decodeSlice x with
  | some frame => simp
  | none => simp [decodeLoop_base (x.length + 1) rest]

/-- `decode_frame` never fails. -/
theorem decodeFrame_ok (buf : Bytes) : ∃ found, decodeFrame buf = .ok found := by
  induction buf using Lists.delimited_induction FEND with
  | rest buf h => exact ⟨none, decodeFrame_of_not_mem h⟩
  | piece x rest hx ih =>
    rw [decodeFrame_piece hx]
    cases decodeSlice x with
    | some frame => exact ⟨_, rfl⟩
    | none =>
      obtain ⟨found, hfound⟩ := ih
      exact ⟨_, by rw [hfound]; rfl⟩

/-- A decoded frame is a piece of the buffer, up to its closing delimiter. -/
theorem decodeFrame_consumed {buf : Bytes} {frame : Frame} {consumed : Nat}
    (h : decodeFrame buf = .ok (some (frame, consumed))) :
    0 < consumed ∧ consumed ≤ buf.length := by
  induction buf using Lists.delimited_induction FEND generalizing consumed with
  | rest buf hnot =>
    rw [decodeFrame_of_not_mem hnot] at h
    cases h
  | piece x rest hx ih =>
    rw [decodeFrame_piece hx] at h
    simp only [List.length_append, List.length_cons]
    cases hslice : decodeSlice x with
    | some f =>
      rw [hslice] at h
      cases h
      omega
    | none =>
      rw [hslice] at h
      obtain ⟨found, hfound⟩ := decodeFrame_ok rest
      rw [hfound] at h
      cases found with
      | none => cases h
      | some found =>
        cases h
        have := ih hfound
        omega

/-- More bytes do not change a frame that is already complete. -/
theorem decodeFrame_append {buf : Bytes} {frame : Frame} {consumed : Nat}
    (h : decodeFrame buf = .ok (some (frame, consumed))) (more : Bytes) :
    decodeFrame (buf ++ more) = .ok (some (frame, consumed)) := by
  induction buf using Lists.delimited_induction FEND generalizing consumed with
  | rest buf hnot =>
    rw [decodeFrame_of_not_mem hnot] at h
    cases h
  | piece x rest hx ih =>
    rw [decodeFrame_piece hx] at h
    rw [List.append_assoc, List.cons_append, decodeFrame_piece hx]
    cases hslice : decodeSlice x with
    | some f =>
      rw [hslice] at h
      exact h
    | none =>
      rw [hslice] at h
      obtain ⟨found, hfound⟩ := decodeFrame_ok rest
      rw [hfound] at h
      cases found with
      | none => cases h
      | some found =>
        cases h
        rw [ih hfound]
        rfl

/-! ### A whole stream -/

/-- Decodes frame after frame from `offset` on, where `rest` is the buffer from there: the frames,
and the offset after the last one. -/
def decodeAll (offset : Nat) (rest : Bytes) : List Frame × Nat :=
  match _h : decodeFrame rest with
  | .ok (some (frame, consumed)) =>
    let (frames, offset) := decodeAll (offset + consumed) (rest.drop consumed)
    (frame :: frames, offset)
  | _ => ([], offset)
termination_by rest.length
decreasing_by
  have hconsumed := decodeFrame_consumed ‹_›
  simp only [List.length_drop]
  omega

theorem decodeAll_none {rest : Bytes} (h : decodeFrame rest = .ok none) (offset : Nat) :
    decodeAll offset rest = ([], offset) := by
  rw [decodeAll]
  split
  · next hsome => simp [h] at hsome
  · rfl

theorem decodeAll_some {rest : Bytes} {frame : Frame} {consumed : Nat}
    (h : decodeFrame rest = .ok (some (frame, consumed))) (offset : Nat) :
    decodeAll offset rest =
      (frame :: (decodeAll (offset + consumed) (rest.drop consumed)).1,
        (decodeAll (offset + consumed) (rest.drop consumed)).2) := by
  rw [decodeAll]
  split
  · next hsome =>
    rw [h] at hsome
    cases hsome
    rfl
  · next hnot => exact absurd h (hnot frame consumed)

/-- The frames do not depend on the offset. -/
theorem decodeAll_offset (offset : Nat) (rest : Bytes) :
    decodeAll offset rest = ((decodeAll 0 rest).1, offset + (decodeAll 0 rest).2) := by
  generalize hn : rest.length = n
  induction n using Nat.strong_induction_on generalizing offset rest with
  | _ n ih =>
    obtain ⟨found, hfound⟩ := decodeFrame_ok rest
    cases found with
    | none => rw [decodeAll_none hfound, decodeAll_none hfound, Nat.add_zero]
    | some found =>
      obtain ⟨hpos, hle⟩ := decodeFrame_consumed hfound
      have hlt : (rest.drop found.2).length < n := by
        rw [List.length_drop]
        omega
      rw [decodeAll_some hfound, decodeAll_some hfound, ih _ hlt (offset + found.2) _ rfl,
        ih _ hlt (0 + found.2) _ rfl]
      simp only [Nat.zero_add, Nat.add_assoc]

/-- The frames of a whole stream. -/
def frames (stream : Bytes) : List Frame := (decodeAll 0 stream).1

theorem frames_none {stream : Bytes} (h : decodeFrame stream = .ok none) : frames stream = [] := by
  rw [frames, decodeAll_none h]

theorem frames_some {stream : Bytes} {frame : Frame} {consumed : Nat}
    (h : decodeFrame stream = .ok (some (frame, consumed))) :
    frames stream = frame :: frames (stream.drop consumed) := by
  rw [frames, decodeAll_some h, decodeAll_offset]
  rfl

theorem frames_piece {x : Bytes} (hx : FEND ∉ x) (rest : Bytes) :
    frames (x ++ FEND :: rest) = (decodeSlice x).toList ++ frames rest := by
  have hpiece := decodeFrame_piece hx rest
  have hdrop : ∀ k, (x ++ FEND :: rest).drop (x.length + 1 + k) = rest.drop k := by
    intro k
    rw [Nat.add_assoc, Nat.add_comm 1 k, ← List.drop_drop, List.drop_left]
    rfl
  cases hslice : decodeSlice x with
  | some frame =>
    rw [hslice] at hpiece
    rw [frames_some hpiece, hdrop 0]
    rfl
  | none =>
    rw [hslice] at hpiece
    obtain ⟨found, hfound⟩ := decodeFrame_ok rest
    rw [hfound] at hpiece
    cases found with
    | none =>
      rw [frames_none hpiece, frames_none hfound]
      rfl
    | some found =>
      rw [frames_some hpiece, frames_some hfound, hdrop]
      rfl

/-- The framing in one line: a stream is cut at its delimiters, and every closed piece that decodes
is a frame. -/
theorem frames_eq (stream : Bytes) :
    frames stream = (stream.splitOn FEND).dropLast.filterMap decodeSlice := by
  induction stream using Lists.delimited_induction FEND with
  | rest stream h =>
    rw [frames_none (decodeFrame_of_not_mem h), List.splitOn_eq_singleton h]
    rfl
  | piece x rest hx ih =>
    rw [frames_piece hx, List.splitOn_append_cons_self_of_not_mem hx,
      List.dropLast_cons_of_ne_nil (List.splitOn_ne_nil _ _), ih]
    cases hslice : decodeSlice x <;> simp [hslice]

/-! ### Streams with junk between the frames -/

/-- A part of a stream. -/
inductive Chunk
  | frame (port : UInt8) (command : Command) (payload : Bytes)
  | delimiter
  | corrupted (x : Bytes)

namespace Chunk

def bytes : Chunk → Bytes
  | .frame port command payload => encodeFrame port command payload
  | .delimiter => [FEND]
  | .corrupted x => FEND :: (x ++ [FEND])

def WellFormed : Chunk → Prop
  | .frame port _ _ => port < 16
  | .delimiter => True
  | .corrupted x => FEND ∉ x ∧ BrokenEscape x

/-- The frame that a part of a stream stands for. -/
def decoded : Chunk → Option Frame
  | .frame port command payload => some ⟨port, command.normalised, payload⟩
  | .delimiter => none
  | .corrupted _ => none

end Chunk

theorem frames_fend (stream : Bytes) : frames (FEND :: stream) = frames stream :=
  frames_piece (x := []) (by simp) stream

theorem frames_delimited {x : Bytes} (hx : FEND ∉ x) (rest : Bytes) :
    frames (FEND :: (x ++ [FEND]) ++ rest) = (decodeSlice x).toList ++ frames rest := by
  have hassoc : FEND :: (x ++ [FEND]) ++ rest = FEND :: (x ++ FEND :: rest) := by simp
  rw [hassoc, frames_fend, frames_piece hx]

theorem frames_chunk {chunk : Chunk} (h : chunk.WellFormed) (rest : Bytes) :
    frames (chunk.bytes ++ rest) = chunk.decoded.toList ++ frames rest := by
  cases chunk with
  | frame port command payload =>
    rw [Chunk.bytes, encodeFrame_eq, frames_delimited (not_mem_content port command payload),
      decodeSlice_content h]
    rfl
  | delimiter => exact frames_fend rest
  | corrupted x =>
    rw [Chunk.bytes, frames_delimited h.1, decodeSlice_of_broken h.2]
    rfl

/-- Repeated decoding of a stream finds exactly the frames in it, in order, whatever delimiters and
broken frames stand between them, and no delimiter occurs inside an encoded frame. -/
theorem stream_decodes_to_its_frames (stream : List Chunk)
    (h : ∀ chunk ∈ stream, chunk.WellFormed) :
    (decodeAll 0 (stream.flatMap Chunk.bytes)).1 = stream.filterMap Chunk.decoded ∧
    ∀ port command payload, ∃ inner, encodeFrame port command payload = FEND :: (inner ++ [FEND]) ∧
      FEND ∉ inner := by
  refine ⟨?_, fun port command payload =>
    ⟨content port command payload, encodeFrame_eq port command payload,
      not_mem_content port command payload⟩⟩
  show frames (stream.flatMap Chunk.bytes) = _
  induction stream with
  | nil => exact frames_none (decodeFrame_of_not_mem (by simp))
  | cons chunk stream ih =>
    have hrest := ih fun c hc => h c (List.mem_cons_of_mem chunk hc)
    rw [List.flatMap_cons, frames_chunk (h chunk List.mem_cons_self), hrest]
    cases hdecoded : chunk.decoded <;> simp [hdecoded]

/-- Two frames whose command bytes are `FEND` and `FESC`, after a truncated escape and a stray
delimiter. -/
theorem stream_decodes_to_its_frames_escaped :
    (decodeAll 0 ([Chunk.corrupted [0x00, FESC], .frame 12 .data [FESC, TFEND], .delimiter,
        .frame 13 (.unknown 0x3B) []].flatMap Chunk.bytes)).1 =
      [⟨12, .data, [FESC, TFEND]⟩, ⟨13, .unknown 0x0B, []⟩] ∧
    ∀ port command payload, ∃ inner, encodeFrame port command payload = FEND :: (inner ++ [FEND]) ∧
      FEND ∉ inner := by
  apply stream_decodes_to_its_frames
  simp only [List.forall_mem_cons]
  refine ⟨⟨by decide, [0x00], [], rfl, by decide⟩, ?_, trivial, ?_, by simp⟩
  · show (12 : UInt8) < 16
    decide
  · show (13 : UInt8) < 16
    decide

end HdyUtils.Ltp.Kiss
