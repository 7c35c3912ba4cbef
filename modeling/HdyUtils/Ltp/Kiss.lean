import HdyUtils.Ltp.Types
import HdyUtils.Lib.Lists

/-! The KISS framing codec (`kiss.rs`): a frame is a command byte and a payload between two `FEND`
delimiters, with `FEND` and `FESC` escaped inside.  The decoder skips extra delimiters and frames
with a broken escape. -/

namespace HdyUtils.Ltp.Kiss

/-- Frame end delimiter. -/
def FEND : UInt8 := 0xC0

/-- Frame escape marker. -/
def FESC : UInt8 := 0xDB

/-- Transposed frame end: it follows `FESC` for `FEND`. -/
def TFEND : UInt8 := 0xDC

/-- Transposed frame escape: it follows `FESC` for `FESC`. -/
def TFESC : UInt8 := 0xDD

inductive Error
  | invalidEscape (byte : UInt8)
  | truncatedEscape
  | emptyFrame
deriving DecidableEq, Repr

inductive Command
  | data
  | txDelay
  | persistence
  | slotTime
  | txTail
  | fullDuplex
  | setHardware
  | return
  | unknown (code : UInt8)
deriving DecidableEq, Repr

namespace Command

/-- `From<u8> for Command`. -/
def ofByte (code : UInt8) : Command :=
  match (code &&& 0x0F).toNat with
  | 0x00 => .data
  | 0x01 => .txDelay
  | 0x02 => .persistence
  | 0x03 => .slotTime
  | 0x04 => .txTail
  | 0x05 => .fullDuplex
  | 0x06 => .setHardware
  | 0x0F => .return
  | _ => .unknown (code &&& 0x0F)

/-- `From<Command> for u8`. -/
def toByte : Command → UInt8
  | .data => 0x00
  | .txDelay => 0x01
  | .persistence => 0x02
  | .slotTime => 0x03
  | .txTail => 0x04
  | .fullDuplex => 0x05
  | .setHardware => 0x06
  | .return => 0x0F
  | .unknown code => code &&& 0x0F

end Command

/-- A parsed frame. -/
structure Frame where
  port : UInt8
  command : Command
  payload : Bytes
deriving DecidableEq, Repr

/-- What one byte becomes inside a frame. -/
def escapeByte (b : UInt8) : Bytes :=
  if b = FEND then [FESC, TFEND] else if b = FESC then [FESC, TFESC] else [b]

/-- The bytes that `escape` appends to its output. -/
def escape (input : Bytes) : Bytes := input.flatMap escapeByte

/-- The byte that `e` stands for after `FESC`. -/
def unescapeByte (e : UInt8) : Except Error UInt8 :=
  if e = TFEND then .ok FEND else if e = TFESC then .ok FESC else .error (.invalidEscape e)

/-- Takes the escapes out of `input`.  The source copies the bytes between two escapes in one go. -/
def unescape : Bytes → Except Error Bytes
  | [] => .ok []
  | b :: rest =>
    if b = FESC then
      match rest with
      | [] => .error .truncatedEscape
      | e :: rest => do
        let byte ← unescapeByte e
        let out ← unescape rest
        return byte :: out
    else do
      let out ← unescape rest
      return b :: out

/-- A complete frame with its delimiters, as `encode_frame` appends it to its output. -/
def encodeFrame (port : UInt8) (command : Command) (payload : Bytes) : Bytes :=
  let cmdByte := ((port &&& 0x0F) <<< 4) ||| (command.toByte &&& 0x0F)
  let cmd :=
    if cmdByte = FEND then [FESC, TFEND]
    else if cmdByte = FESC then [FESC, TFESC]
    else [cmdByte]
  [FEND] ++ cmd ++ escape payload ++ [FEND]

/-- The command byte at the start of a frame's content and the escaped payload after it. -/
def commandByte : Bytes → Option (UInt8 × Bytes)
  | [] => none
  | b :: rest =>
    if b = FESC then
      match rest with
      | [] => none
      | e :: payloadSlice =>
        if e = TFEND then some (FEND, payloadSlice)
        else if e = TFESC then some (FESC, payloadSlice)
        else none
    else some (b, rest)

/-- The frame with the content `frameSlice`; `none` where `decode_frame` discards it. -/
def decodeSlice (frameSlice : Bytes) : Option Frame :=
  match commandByte frameSlice with
  | none => none
  | some (cmdByte, payloadSlice) =>
    match unescape payloadSlice with
    | .error _ => none
    | .ok payload =>
      some {
        port := (cmdByte >>> 4) &&& 0x0F
        command := Command.ofByte (cmdByte &&& 0x0F)
        payload := payload }

/-- The loop of `decode_frame` at `base`, with the rest `cur` of the buffer from there on. -/
def decodeLoop (base : Nat) (cur : Bytes) : Except Error (Option (Frame × Nat)) :=
  let startIdx := (cur.takeWhile (· = FEND)).length
  if cur.length ≤ startIdx then .ok none
  else
    let remaining := cur.drop startIdx
    match remaining.idxOf? FEND with
    | none => .ok none
    | some endOffset =>
      let totalConsumed := base + startIdx + endOffset + 1
      match decodeSlice (remaining.take endOffset) with
      | some frame => .ok (some (frame, totalConsumed))
      | none => decodeLoop totalConsumed (remaining.drop (endOffset + 1))
termination_by cur.length
decreasing_by
  simp only [List.length_drop]
  omega

/-- Decodes one frame from the start of `buf`: the frame and the number of bytes consumed, or
`none` when more bytes are needed. -/
def decodeFrame (buf : Bytes) : Except Error (Option (Frame × Nat)) := decodeLoop 0 buf

/-! ### Escapes -/

theorem not_mem_escape (input : Bytes) : FEND ∉ escape input := by
  simp only [escape, List.mem_flatMap, not_exists, not_and]
  intro b _ hb
  unfold escapeByte at hb
  split at hb
  · revert hb
    decide
  · split at hb
    · revert hb
      decide
    · simp_all

theorem unescape_cons {b : UInt8} (hb : b ≠ FESC) (rest : Bytes) :
    unescape (b :: rest) = (unescape rest).map (b :: ·) := by
  rw [unescape.eq_def]
  simp only [if_neg hb]
  cases unescape rest <;> rfl

theorem unescape_pair (e : UInt8) (rest : Bytes) :
    unescape (FESC :: e :: rest) =
      (unescapeByte e).bind fun byte => (unescape rest).map (byte :: ·) := by
  rw [unescape.eq_def]
  simp only [if_pos]
  cases unescapeByte e with
  | error => rfl
  | ok byte => cases unescape rest <;> rfl

theorem unescape_escape (input : Bytes) : unescape (escape input) = .ok input := by
  induction input with
  | nil => rfl
  | cons b rest ih =>
    have hcons : escape (b :: rest) = escapeByte b ++ escape rest := rfl
    rw [hcons, escapeByte]
    by_cases hend : b = FEND
    · subst hend
      rw [if_pos rfl]
      show unescape (FESC :: TFEND :: escape rest) = _
      rw [unescape_pair, ih]
      rfl
    · by_cases hesc : b = FESC
      · subst hesc
        rw [if_neg hend, if_pos rfl]
        show unescape (FESC :: TFESC :: escape rest) = _
        rw [unescape_pair, ih]
        rfl
      · rw [if_neg hend, if_neg hesc]
        show unescape (b :: escape rest) = _
        rw [unescape_cons hesc, ih]
        rfl

/-- Some `FESC` of `x` is its last byte or is followed by a byte that no escape has. -/
def BrokenEscape (x : Bytes) : Prop :=
  ∃ before after, x = before ++ FESC :: after ∧
    after.head? ≠ some TFEND ∧ after.head? ≠ some TFESC

theorem BrokenEscape.tail {b : UInt8} {rest : Bytes} (h : BrokenEscape (b :: rest))
    (hb : b ≠ FESC) : BrokenEscape rest := by
  obtain ⟨before, after, heq, hafter⟩ := h
  cases before with
  | nil => exact absurd (List.cons.inj heq).1 hb
  | cons c before => exact ⟨before, after, (List.cons.inj heq).2, hafter⟩

/-- A whole escape hides no broken one: its second byte is not `FESC`. -/
theorem BrokenEscape.tail_pair {e byte : UInt8} {rest : Bytes}
    (h : BrokenEscape (FESC :: e :: rest)) (he : unescapeByte e = .ok byte) :
    BrokenEscape rest := by
  have hcase : e = TFEND ∨ e = TFESC := by
    unfold unescapeByte at he
    grind
  obtain ⟨before, after, heq, hend, hesc⟩ := h
  cases before with
  | nil =>
    obtain ⟨-, rfl⟩ := List.cons.inj heq
    rcases hcase with rfl | rfl <;> simp at hend hesc
  | cons c before =>
    refine BrokenEscape.tail ⟨before, after, (List.cons.inj heq).2, hend, hesc⟩ ?_
    rcases hcase with rfl | rfl <;> decide

theorem unescape_of_broken (x : Bytes) (h : BrokenEscape x) : ∃ e, unescape x = .error e := by
  fun_induction unescape x with
  | case1 =>
    obtain ⟨before, after, heq, -⟩ := h
    simp at heq
  | case2 => exact ⟨_, rfl⟩
  | case3 e rest ih =>
    cases he : unescapeByte e with
    | error err => exact ⟨err, rfl⟩
    | ok byte =>
      obtain ⟨err, herr⟩ := ih (h.tail_pair he)
      exact ⟨err, by rw [herr]; rfl⟩
  | case4 b rest hb ih =>
    obtain ⟨err, herr⟩ := ih (h.tail hb)
    exact ⟨err, by rw [herr]; rfl⟩

end HdyUtils.Ltp.Kiss
