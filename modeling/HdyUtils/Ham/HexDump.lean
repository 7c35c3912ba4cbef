import HdyUtils.Lib.Lines
import HdyUtils.Lib.Numerals
import HdyUtils.Ltp.Types

/-! The hex dump of a payload (`bundle_inspector.rs`): a line for each sixteen octets, with the offset, the
octets in two groups of eight, and their characters. -/

namespace HdyUtils.Ham

open Lines
open Ltp (Bytes)

/-! ### The dump -/

/-- The space between the groups, in front of the column of an octet. -/
def gap (column : Nat) : List Char := if column = 8 then [' '] else []

/-- `{:08x}`. -/
def offsetText (offset : Nat) : List Char := (Nat.toDigits 16 offset).leftpad 8 '0'

def hexColumns (chunk : Bytes) : List Char :=
  chunk.zipIdx.flatMap fun (octet, j) => gap j ++ (Numerals.hexPair octet ++ [' '])

/-- The room of the octets that a last line does not have. -/
def padding (chunk : Bytes) : List Char :=
  if chunk.length < 16 then
    (List.range (16 - chunk.length)).flatMap fun j => gap (chunk.length + j) ++ [' ', ' ', ' ']
  else []

/-- The character of an octet, if it is printable. -/
def printed (octet : UInt8) : Char :=
  if 0x20 ≤ octet.toNat ∧ octet.toNat < 0x7F then Char.ofNat octet.toNat else '.'

def dumpLine (i : Nat) (chunk : Bytes) : List Char :=
  offsetText (i * 16) ++ [' ', ' '] ++ hexColumns chunk ++ padding chunk ++ [' ', '|'] ++
    chunk.map printed ++ ['|'] ++ ['\n']

/-- The octets of a line. -/
def chunk (data : Bytes) (i : Nat) : Bytes := (data.drop (16 * i)).take 16

def dumpLines (data : Bytes) : List (List Char) :=
  (List.range ((data.length + 15) / 16)).map fun i => dumpLine i (chunk data i)

/-- Generates a standard formatted hex dump string from binary data. -/
def formatHexDump (data : Bytes) : String := String.ofList (dumpLines data).flatten

/-! ### Reading it back -/

/-- The octets in the columns up to the bar. -/
def readColumns : List Char → Bytes
  | ' ' :: rest => readColumns rest
  | '|' :: _ => []
  | high :: low :: rest => Numerals.hexOctet high low :: readColumns rest
  | _ => []

/-- The octets of a line: what is after the offset. -/
def readLine (line : List Char) : Bytes := readColumns (line.dropWhile (· ≠ ' '))

def readDump (dump : String) : Bytes := (complete '\n' dump.toList).flatMap readLine

theorem readColumns_gap (column : Nat) (rest : List Char) :
    readColumns (gap column ++ rest) = readColumns rest := by
  unfold gap
  split <;> simp [readColumns]

theorem readColumns_hexPair (octet : UInt8) (rest : List Char) :
    readColumns (Numerals.hexPair octet ++ rest) = octet :: readColumns rest := by
  have hlt := octet.toNat_lt
  have hhigh := Numerals.digitChar_ne (d := octet.toNat / 16) (by omega)
  unfold Numerals.hexPair
  rw [List.cons_append, List.singleton_append, readColumns, Numerals.hexOctet_hexPair]
  · exact hhigh.1
  · exact hhigh.2

theorem readColumns_hexColumns (octets : Bytes) (k : Nat) (rest : List Char) :
    readColumns (((octets.zipIdx k).flatMap fun (octet, j) =>
      gap j ++ (Numerals.hexPair octet ++ [' '])) ++ rest) = octets ++ readColumns rest := by
  induction octets generalizing k with
  | nil => rfl
  | cons octet octets ih =>
    rw [List.zipIdx_cons, List.flatMap_cons]
    simp only [List.append_assoc]
    rw [readColumns_gap, readColumns_hexPair, List.singleton_append, readColumns, ih,
      List.cons_append]

theorem readColumns_padding (octets : Bytes) (rest : List Char) :
    readColumns (padding octets ++ rest) = readColumns rest := by
  unfold padding
  split
  · induction List.range (16 - octets.length) with
    | nil => rfl
    | cons j columns ih =>
      rw [List.flatMap_cons]
      simp only [List.append_assoc, readColumns_gap, List.cons_append, List.nil_append, readColumns, ih]
  · rfl

/-- The digits of the dump. -/
def hexDigits : List Char :=
  ['0', '1', '2', '3', '4', '5', '6', '7', '8', '9', 'a', 'b', 'c', 'd', 'e', 'f']

theorem digitChar_mem_hexDigits {d : Nat} (h : d < 16) : Nat.digitChar d ∈ hexDigits := by
  interval_cases d <;> decide

theorem mem_hexDigits_of_mem_toDigits {n : Nat} {c : Char} (h : c ∈ Nat.toDigits 16 n) :
    c ∈ hexDigits := by
  induction n using Nat.strong_induction_on with
  | _ n ih =>
    rcases Nat.lt_or_ge n 16 with hlt | hge
    · rw [Nat.toDigits_of_lt_base hlt, List.mem_singleton] at h
      exact h ▸ digitChar_mem_hexDigits hlt
    · rw [Nat.toDigits_of_base_le (by decide) hge, List.mem_append, List.mem_singleton] at h
      rcases h with hinit | rfl
      · exact ih (n / 16) (by omega) hinit
      · exact digitChar_mem_hexDigits (Nat.mod_lt _ (by decide))

theorem mem_hexDigits_of_mem_offsetText {offset : Nat} {c : Char} (h : c ∈ offsetText offset) :
    c ∈ hexDigits := by
  rcases List.mem_append.mp h with hzero | hdigit
  · rw [List.eq_of_mem_replicate hzero]
    decide
  · exact mem_hexDigits_of_mem_toDigits hdigit

theorem ne_space_of_mem_hexDigits {c : Char} (h : c ∈ hexDigits) : c ≠ ' ' := by
  have hall : hexDigits.all (fun c => decide (c ≠ ' ')) = true := by decide
  exact of_decide_eq_true (List.all_eq_true.mp hall c h)

theorem readLine_dumpLine (i : Nat) (octets : Bytes) : readLine (dumpLine i octets) = octets := by
  have hoffset : ∀ c ∈ offsetText (i * 16), decide (c ≠ ' ') = true := fun c hc =>
    decide_eq_true (ne_space_of_mem_hexDigits (mem_hexDigits_of_mem_offsetText hc))
  have hdrop : (dumpLine i octets).dropWhile (· ≠ ' ') = [' ', ' '] ++ (hexColumns octets ++
      (padding octets ++ ([' ', '|'] ++ (octets.map printed ++ ['|', '\n'])))) := by
    unfold dumpLine
    simp only [List.append_assoc]
    rw [List.dropWhile_append_of_pos hoffset]
    rfl
  unfold readLine
  rw [hdrop, List.cons_append, List.singleton_append, readColumns, readColumns, hexColumns,
    readColumns_hexColumns, readColumns_padding, List.cons_append, readColumns]
  simp [readColumns]

/-! ### The lines -/

/-- A character that is printed as it is. -/
def Plain (c : Char) : Prop := 0x20 ≤ c.toNat ∧ c.toNat < 0x7F

theorem plain_of_mem_hexDigits {c : Char} (h : c ∈ hexDigits) : Plain c := by
  have hall : hexDigits.all (fun c => decide (0x20 ≤ c.toNat ∧ c.toNat < 0x7F)) = true := by decide
  have hc := List.all_eq_true.mp hall c h
  rwa [decide_eq_true_eq] at hc

theorem plain_space : Plain ' ' := by
  unfold Plain
  decide

theorem plain_printed (octet : UInt8) : Plain (printed octet) := by
  have hlt := octet.toNat_lt
  unfold printed Plain
  split
  · next hplain =>
    have hvalid : octet.toNat.isValidChar := Or.inl (by omega)
    rw [Char.ofNat, dif_pos hvalid]
    exact hplain
  · decide

theorem plain_gap {column : Nat} {c : Char} (h : c ∈ gap column) : Plain c := by
  unfold gap at h
  split at h
  · rw [List.mem_singleton.mp h]
    exact plain_space
  · cases h

theorem plain_hexColumns {octets : Bytes} {c : Char} (h : c ∈ hexColumns octets) : Plain c := by
  obtain ⟨⟨octet, j⟩, -, h⟩ := List.mem_flatMap.mp h
  have hlt := octet.toNat_lt
  simp only [Numerals.hexPair, List.mem_append, List.mem_cons, List.not_mem_nil, or_false] at h
  rcases h with hgap | (rfl | rfl) | rfl
  · exact plain_gap hgap
  · exact plain_of_mem_hexDigits (digitChar_mem_hexDigits (by omega))
  · exact plain_of_mem_hexDigits (digitChar_mem_hexDigits (by omega))
  · exact plain_space

theorem plain_padding {octets : Bytes} {c : Char} (h : c ∈ padding octets) : Plain c := by
  unfold padding at h
  split at h
  · obtain ⟨j, -, h⟩ := List.mem_flatMap.mp h
    simp only [List.mem_append, List.mem_cons, List.not_mem_nil, or_false, or_self] at h
    rcases h with hgap | rfl
    · exact plain_gap hgap
    · exact plain_space
  · cases h

theorem length_gap (column : Nat) : (gap column).length = if column = 8 then 1 else 0 := by
  unfold gap
  split <;> rfl

theorem length_hexColumns_from (octets : Bytes) (k : Nat) :
    ((octets.zipIdx k).flatMap fun (octet, j) =>
      gap j ++ (Numerals.hexPair octet ++ [' '])).length =
      3 * octets.length + if k ≤ 8 ∧ 8 < k + octets.length then 1 else 0 := by
  induction octets generalizing k with
  | nil =>
    simp only [List.zipIdx_nil, List.flatMap_nil, List.length_nil]
    split <;> omega
  | cons octet octets ih =>
    rw [List.zipIdx_cons, List.flatMap_cons, List.length_append, ih]
    simp only [List.length_append, length_gap, Numerals.hexPair, List.length_cons, List.length_nil]
    split <;> split <;> split <;> omega

theorem length_padding_from (n m : Nat) :
    ((List.range m).flatMap fun j => gap (n + j) ++ [' ', ' ', ' ']).length =
      3 * m + if n ≤ 8 ∧ 8 < n + m then 1 else 0 := by
  induction m with
  | zero =>
    simp only [List.range_zero, List.flatMap_nil, List.length_nil]
    split <;> omega
  | succ m ih =>
    rw [List.range_succ, List.flatMap_append, List.length_append, ih]
    simp only [List.flatMap_cons, List.flatMap_nil, List.append_nil, List.length_append, length_gap,
      List.length_cons, List.length_nil]
    split <;> split <;> split <;> omega

/-- The columns of a line and its padding are as wide as those of a full line. -/
theorem length_columns {octets : Bytes} (h : octets.length ≤ 16) :
    (hexColumns octets).length + (padding octets).length = 49 := by
  unfold hexColumns padding
  rw [length_hexColumns_from]
  rcases Nat.lt_or_ge octets.length 16 with hlt | hge
  · rw [if_pos hlt, length_padding_from]
    split <;> split <;> omega
  · rw [if_neg (c := octets.length < 16) (by omega), List.length_nil]
    split <;> omega

/-- The columns in front of the text of a line. -/
def leftColumns (i : Nat) (octets : Bytes) : List Char :=
  offsetText (i * 16) ++ [' ', ' '] ++ hexColumns octets ++ padding octets ++ [' ']

theorem length_leftColumns {i : Nat} {octets : Bytes} (hi : i * 16 < 16 ^ 8)
    (h : octets.length ≤ 16) : (leftColumns i octets).length = 60 := by
  have hdigits : (Nat.toDigits 16 (i * 16)).length ≤ 8 := Nat.toDigits_length _ _ _ (by decide) hi
  have hcolumns := length_columns h
  unfold leftColumns offsetText
  simp only [List.length_append, List.length_leftpad, List.length_cons, List.length_nil]
  omega

theorem plain_leftColumns {i : Nat} {octets : Bytes} {c : Char} (h : c ∈ leftColumns i octets) :
    Plain c := by
  unfold leftColumns at h
  simp only [List.mem_append, List.mem_cons, List.not_mem_nil, or_false] at h
  rcases h with (((hoffset | rfl | rfl) | hcolumn) | hpadding) | rfl
  · exact plain_of_mem_hexDigits (mem_hexDigits_of_mem_offsetText hoffset)
  · exact plain_space
  · exact plain_space
  · exact plain_hexColumns hcolumn
  · exact plain_padding hpadding
  · exact plain_space

theorem dumpLine_eq (i : Nat) (octets : Bytes) : dumpLine i octets =
    (leftColumns i octets ++ ('|' :: (octets.map printed ++ ['|']))) ++ ['\n'] := by
  simp only [dumpLine, leftColumns, List.append_assoc, List.cons_append, List.nil_append]

theorem notMem_newline (i : Nat) (octets : Bytes) :
    '\n' ∉ leftColumns i octets ++ ('|' :: (octets.map printed ++ ['|'])) := by
  have hplain : ∀ c, Plain c → c ≠ '\n' := by
    rintro c ⟨hlo, -⟩ rfl
    revert hlo
    decide
  intro hmem
  simp only [List.mem_append, List.mem_cons, List.mem_map, List.not_mem_nil, or_false] at hmem
  rcases hmem with hleft | hbar | ⟨octet, -, htext⟩ | hbar
  · exact hplain _ (plain_leftColumns hleft) rfl
  · exact absurd hbar (by decide)
  · exact hplain _ (htext ▸ plain_printed octet) rfl
  · exact absurd hbar (by decide)

theorem complete_dumpLines (data : Bytes) :
    complete '\n' (formatHexDump data).toList = dumpLines data := by
  unfold formatHexDump
  rw [String.toList_ofList]
  refine complete_flatten fun line hline => ?_
  obtain ⟨i, -, rfl⟩ := List.mem_map.mp hline
  exact ⟨_, dumpLine_eq i _, notMem_newline i _⟩

/-- The chunks up to one are the octets up to there. -/
theorem flatten_chunks (data : Bytes) (n : Nat) :
    (List.range n).flatMap (chunk data) = data.take (16 * n) := by
  induction n with
  | zero => rfl
  | succ n ih =>
    rw [List.range_succ, List.flatMap_append, ih, List.flatMap_singleton, chunk, Nat.mul_succ,
      List.take_add]

/-- A dump says what was dumped, in lines of which each has its octets at the same columns and its
characters after the same bar. -/
theorem formatHexDump_reads_back (data : Bytes) :
    readDump (formatHexDump data) = data ∧
      (data.length ≤ 16 ^ 8 → ∀ line ∈ complete '\n' (formatHexDump data).toList,
        ∃ left text, line = left ++ '|' :: (text ++ ['|', '\n']) ∧ left.length = 60 ∧
          text.length = (readLine line).length ∧ ∀ c ∈ left ++ text, Plain c) := by
  constructor
  · have hlines : (dumpLines data).flatMap readLine =
        (List.range ((data.length + 15) / 16)).flatMap (chunk data) := by
      unfold dumpLines
      rw [List.flatMap_map]
      exact List.flatMap_congr fun i _ => readLine_dumpLine i _
    rw [readDump, complete_dumpLines, hlines, flatten_chunks, List.take_of_length_le (by omega)]
  · intro hlen line hline
    rw [complete_dumpLines] at hline
    obtain ⟨i, hi, rfl⟩ := List.mem_map.mp hline
    have hlt := List.mem_range.mp hi
    refine ⟨leftColumns i (chunk data i), (chunk data i).map printed, ?_, ?_, ?_, ?_⟩
    · rw [dumpLine_eq]
      simp only [List.append_assoc, List.cons_append, List.nil_append]
    · exact length_leftColumns (by omega) (List.length_take_le _ _)
    · rw [readLine_dumpLine, List.length_map]
    · intro c hc
      rcases List.mem_append.mp hc with hleft | htext
      · exact plain_leftColumns hleft
      · obtain ⟨octet, -, rfl⟩ := List.mem_map.mp htext
        exact plain_printed octet

/-- A line of one octet. -/
theorem formatHexDump_reads_back_octet :
    ∀ line ∈ complete '\n' (formatHexDump [0x48]).toList,
      ∃ left text, line = left ++ '|' :: (text ++ ['|', '\n']) ∧ left.length = 60 ∧
        text.length = (readLine line).length ∧ ∀ c ∈ left ++ text, Plain c :=
  (formatHexDump_reads_back [0x48]).2 (by decide)

end HdyUtils.Ham
