import HdyUtils.Lib.Lines
import HdyUtils.Lib.Trace
import HdyUtils.Ltp.Types

/-! How `hdy-stats` tails a log file (`tail_file` in `bin/hdy-stats.rs`).  A poll takes the length of the
file, reads lines from its offset to the end of the file and then goes on from that length, so that
what it has read is not what it takes for read if the file has grown, and the start of a line is
taken for a line. -/

namespace HdyUtils.Stats

open Trace Lines

abbrev Bytes := Ltp.Bytes

/-! ### Lines of text -/

def newline : UInt8 := 10

/-- The line without its newline, and without a carriage return before that. -/
def popNewline (line : String) : String :=
  match line.toList.reverse with
  | '\n' :: '\r' :: rest => String.ofList rest.reverse
  | '\n' :: rest => String.ofList rest.reverse
  | _ => line

/-- The text of a line, if it is UTF-8. -/
def lineText (line : Bytes) : Option String := (String.fromUTF8? ⟨line.toArray⟩).map popNewline

/-- The texts of the lines up to the first that is not UTF-8. -/
def readUntilInvalid : List Bytes → List String
  | [] => []
  | line :: lines =>
    match lineText line with
    | some text => text :: readUntilInvalid lines
    | none => []

/-- What `BufRead::lines` yields up to its first error or the end of the file.  The file has grown by
`later` between the times at which its end was met: the end of the file ends a line, and the lines only
where no line was started. -/
def readLines (avail : Bytes) (later : List Bytes) : List String :=
  let texts := readUntilInvalid (complete newline avail)
  if texts.length < (complete newline avail).length then texts
  else if rest newline avail = [] then texts
  else
    match lineText (rest newline avail) with
    | none => texts
    | some text =>
      match later with
      | [] => texts ++ [text]
      | avail :: later => texts ++ text :: readLines avail later

/-! ### The polls -/

structure LogFile where
  inode : Nat
  content : Bytes

/-- `tail_file` with the file that it tails and the lines that it has handed to
`parse_bundle_log_line`. -/
structure Tail where
  file : LogFile
  offset : Nat
  lastInode : Nat
  handed : List String

/-- What a poll meets. -/
structure Poll where
  /-- `metadata` finds the file. -/
  found : Bool
  /-- The file can be opened. -/
  opened : Bool
  /-- What is appended after the length was taken and before the reader meets the end of the file. -/
  before : Bytes
  /-- What is appended then, up to each time that the reader meets the end again. -/
  later : List Bytes

inductive Event
  | append (piece : Bytes)
  | poll (p : Poll)

namespace Tail

def start (file : LogFile) : Tail where
  file := file
  offset := 0
  lastInode := 0
  handed := []

def poll (t : Tail) (p : Poll) : Tail :=
  let file := { t.file with content := t.file.content ++ p.before ++ p.later.flatten }
  if !p.found then { t with file := file }
  else
    let len := t.file.content.length
    let inode := t.file.inode
    let rotated := len < t.offset ∨ t.lastInode ≠ 0 ∧ inode ≠ t.lastInode
    let newOffset := if rotated then 0 else t.offset
    if newOffset < len ∧ p.opened = true then
      let lines := readLines ((t.file.content ++ p.before).drop newOffset) p.later
      { file := file, offset := len, lastInode := inode, handed := t.handed ++ lines }
    else { t with file := file, offset := newOffset, lastInode := inode }

def step (t : Tail) : Event → Tail
  | .append piece => { t with file := { t.file with content := t.file.content ++ piece } }
  | .poll p => t.poll p

/-- The file up to the offset is whole lines, and these are the lines that were handed over. -/
structure Tails (t : Tail) : Prop where
  offset_le : t.offset ≤ t.file.content.length
  whole : rest newline (t.file.content.take t.offset) = []
  handed : t.handed.map some = (complete newline (t.file.content.take t.offset)).map lineText

/-- A poll that reads finds whole lines of text at the length that it took, and reads nothing that was
appended after that. -/
def Clean (t : Tail) : Event → Prop
  | .append _ => True
  | .poll p => p.found = true → p.opened = true → t.offset < t.file.content.length →
    rest newline (t.file.content.drop t.offset) = [] ∧
    (∀ line ∈ complete newline (t.file.content.drop t.offset), (lineText line).isSome) ∧
    readLines p.before p.later = []

end Tail

/-! ### Reading -/

/-- All lines are read exactly if all are text. -/
theorem readUntilInvalid_all_iff (lines : List Bytes) :
    (readUntilInvalid lines).map some = lines.map lineText ↔
      ∀ line ∈ lines, (lineText line).isSome := by
  induction lines with
  | nil => simp [readUntilInvalid]
  | cons line lines ih =>
    rw [readUntilInvalid]
    cases htext : lineText line with
    | none => simp [htext]
    | some text => simp [htext, ih]

theorem readUntilInvalid_append {lines more : List Bytes}
    (h : ∀ line ∈ lines, (lineText line).isSome) :
    readUntilInvalid (lines ++ more) = readUntilInvalid lines ++ readUntilInvalid more := by
  induction lines with
  | nil => rfl
  | cons line lines ih =>
    obtain ⟨text, htext⟩ := Option.isSome_iff_exists.mp (h line List.mem_cons_self)
    simp only [List.cons_append, readUntilInvalid, htext]
    rw [ih fun l hl => h l (List.mem_cons_of_mem line hl)]

theorem length_readUntilInvalid {lines : List Bytes} (h : ∀ line ∈ lines, (lineText line).isSome) :
    (readUntilInvalid lines).length = lines.length := by
  have hall := congrArg List.length ((readUntilInvalid_all_iff lines).mpr h)
  simpa using hall

/-- Reading goes on past whole lines of text. -/
theorem readLines_append {avail : Bytes} (hwhole : rest newline avail = [])
    (htext : ∀ line ∈ complete newline avail, (lineText line).isSome) (more : Bytes)
    (later : List Bytes) :
    readLines (avail ++ more) later =
      readUntilInvalid (complete newline avail) ++ readLines more later := by
  have hcomplete : complete newline (avail ++ more) =
      complete newline avail ++ complete newline more := by
    rw [complete_append, hwhole, List.nil_append]
  have hrest : rest newline (avail ++ more) = rest newline more := by
    rw [rest_append, hwhole, List.nil_append]
  have hlength := length_readUntilInvalid htext
  unfold readLines
  simp only [hcomplete, hrest, readUntilInvalid_append htext, List.length_append, hlength,
    Nat.add_lt_add_iff_left]
  split
  · rfl
  split
  · rfl
  split
  · rfl
  split <;> rw [List.append_assoc]

namespace Tail

/-! ### What one step does -/

/-- The polls have seen the file that there is, or none yet. -/
def Placed (t : Tail) : Prop := t.lastInode = 0 ∨ t.lastInode = t.file.inode

variable {t : Tail}

/-- Once the offset is the end of the file, its lines are handed over, each once. -/
theorem Tails.handed_all (h : t.Tails) (hend : t.offset = t.file.content.length) :
    t.handed.map some = (complete newline t.file.content).map lineText := by
  rw [h.handed, hend, List.take_length]

theorem Tails.grow (h : t.Tails) (more : Bytes) (lastInode : Nat) :
    Tails { t with file := { t.file with content := t.file.content ++ more }, lastInode } where
  offset_le := h.offset_le.trans (by simp)
  whole := by
    simp only [List.take_append_of_le_length h.offset_le]
    exact h.whole
  handed := by
    simp only [List.take_append_of_le_length h.offset_le]
    exact h.handed

theorem Placed.step (h : t.Placed) (e : Event) : (t.step e).Placed := by
  cases e with
  | append piece => exact h
  | poll p =>
    simp only [Tail.step, poll]
    split
    · exact h
    · by_cases hread : (if t.file.content.length < t.offset ∨
          t.lastInode ≠ 0 ∧ t.file.inode ≠ t.lastInode then 0 else t.offset) <
            t.file.content.length ∧ p.opened = true
      · rw [if_pos hread]
        exact .inr rfl
      · rw [if_neg hread]
        exact .inr rfl

/-- A poll without rotation: it finds nothing to read, or reads from the offset on. -/
theorem poll_cases (h : t.offset ≤ t.file.content.length) (hplaced : t.Placed) (p : Poll) :
    (p.found = true ∧ p.opened = true ∧ t.offset < t.file.content.length ∧ t.poll p =
      { file := { t.file with content := t.file.content ++ (p.before ++ p.later.flatten) }
        offset := t.file.content.length
        lastInode := t.file.inode
        handed := t.handed ++
          readLines (t.file.content.drop t.offset ++ p.before) p.later }) ∨
    ¬(p.found = true ∧ p.opened = true ∧ t.offset < t.file.content.length) ∧
      ∃ lastInode, t.poll p = { t with
        file := { t.file with content := t.file.content ++ (p.before ++ p.later.flatten) }
        lastInode } := by
  have hrotated : ¬(t.file.content.length < t.offset ∨
      t.lastInode ≠ 0 ∧ t.file.inode ≠ t.lastInode) := by
    rintro (hshort | ⟨hseen, hother⟩)
    · exact absurd h (not_le.mpr hshort)
    · exact hother (hplaced.resolve_left hseen).symm
  simp only [poll, hrotated, if_false, List.append_assoc, List.drop_append_of_le_length h]
  cases hfound : p.found with
  | false => exact .inr ⟨fun hread => (nomatch hread.1), t.lastInode, rfl⟩
  | true =>
    by_cases hread : t.offset < t.file.content.length ∧ p.opened = true
    · refine .inl ⟨rfl, hread.2, hread.1, ?_⟩
      rw [if_pos hread]
      rfl
    · refine .inr ⟨fun hall => hread ⟨hall.2.2, hall.2.1⟩, t.file.inode, ?_⟩
      rw [if_neg hread]
      rfl

/-- A poll that reads keeps the file tailed exactly if it is clean. -/
theorem Tails.read_iff (h : t.Tails) {before : Bytes} {later : List Bytes} {file : LogFile}
    {lastInode : Nat} (hfile : file.content.take t.file.content.length = t.file.content) :
    Tails { file, offset := t.file.content.length, lastInode,
            handed := t.handed ++ readLines (t.file.content.drop t.offset ++ before) later } ↔
      rest newline (t.file.content.drop t.offset) = [] ∧
      (∀ line ∈ complete newline (t.file.content.drop t.offset), (lineText line).isSome) ∧
      readLines before later = [] := by
  have hsplit := List.take_append_drop t.offset t.file.content
  have hrest : rest newline t.file.content = rest newline (t.file.content.drop t.offset) := by
    rw [← hsplit, rest_append, h.whole, List.nil_append, hsplit]
  have hcomplete : complete newline t.file.content = complete newline (t.file.content.take t.offset) ++
      complete newline (t.file.content.drop t.offset) := by
    rw [← hsplit, complete_append, h.whole, List.nil_append, hsplit]
  have hhanded : (t.handed ++ readLines (t.file.content.drop t.offset ++ before) later).map some =
        (complete newline t.file.content).map lineText ↔
      (readLines (t.file.content.drop t.offset ++ before) later).map some =
        (complete newline (t.file.content.drop t.offset)).map lineText := by
    rw [hcomplete, List.map_append, List.map_append, h.handed, List.append_cancel_left_eq]
  constructor
  · rintro ⟨-, hwhole, hread⟩
    simp only [hfile] at hwhole hread
    rw [hhanded] at hread
    rw [hrest] at hwhole
    have htext : ∀ line ∈ complete newline (t.file.content.drop t.offset),
        (lineText line).isSome := by
      intro line hline
      have hmem : lineText line ∈ (readLines (t.file.content.drop t.offset ++ before) later).map some :=
        hread ▸ List.mem_map_of_mem hline
      obtain ⟨text, -, htext⟩ := List.mem_map.mp hmem
      rw [← htext]
      rfl
    refine ⟨hwhole, htext, ?_⟩
    -- the lines of the file are read, so nothing more is
    rw [readLines_append hwhole htext, List.map_append, (readUntilInvalid_all_iff _).mpr htext,
      List.append_right_eq_self, List.map_eq_nil_iff] at hread
    exact hread
  · rintro ⟨hwhole, htext, hnone⟩
    refine ⟨?_, ?_, ?_⟩
    · have hlen := congrArg List.length hfile
      rw [List.length_take] at hlen
      exact min_eq_left_iff.mp hlen
    · simp only [hfile, hrest, hwhole]
    · simp only [hfile]
      rw [hhanded, readLines_append hwhole htext, hnone, List.append_nil]
      exact (readUntilInvalid_all_iff _).mpr htext

theorem Tails.step_iff (h : t.Tails) (hplaced : t.Placed) (e : Event) :
    t.Clean e ↔ (t.step e).Tails := by
  cases e with
  | append piece => exact iff_of_true trivial (h.grow piece t.lastInode)
  | poll p =>
    rw [step]
    rcases poll_cases h.offset_le hplaced p with
      ⟨hfound, hopened, hlt, heq⟩ | ⟨hidle, lastInode, heq⟩
    · rw [heq, h.read_iff (by simp)]
      exact ⟨fun hclean => hclean hfound hopened hlt, fun hclean _ _ _ => hclean⟩
    · rw [heq]
      exact iff_of_true (fun hfound hopened hlt => absurd ⟨hfound, hopened, hlt⟩ hidle)
        (h.grow _ lastInode)

end Tail

end HdyUtils.Stats
