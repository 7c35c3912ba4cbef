import HdyUtils.Lib.Results
import HdyUtils.Lib.Text
import HdyUtils.Ham.Cron

/-! The fields of a cron expression (`coordinator/cron.rs`): the parser of a field and the grammar that it
accepts, with the values that an item of the grammar denotes. -/

namespace HdyUtils.Ham

/-! ### The parser -/

/-- The failures of the parser: a message, or the panic of an addition that passes `u32`. -/
inductive CronError
  | message (text : String)
  | overflow
deriving DecidableEq

/-- The bounds, the name and the named values of a field.  The first name is that of `min`. -/
structure FieldBounds where
  min : Nat
  max : Nat
  name : String
  names : List String
  min_le : min ≤ max
  max_lt : max < 64
  nodup : names.Nodup
  letters : ∀ n ∈ names, n ≠ "" ∧ n.toList.all Char.isUpper = true

/-- The characters after a plus sign, or all of them. -/
def withoutSign (chars : List Char) : List Char :=
  match chars with
  | '+' :: rest => rest
  | all => all

/-- Parses a `u32`. -/
def parseU32 (s : String) : Option Nat :=
  let digits := withoutSign s.toList
  if digits ≠ [] ∧ digits.all Char.isDigit = true then
    let n := Nat.ofDigitChars 10 digits 0
    if n < 2 ^ 32 then some n else none
  else none

/-- The loop that sets a bit for each value from `v` up to `stop`. -/
def generate (step : ℕ+) (stop v bits : Nat) : Except CronError Nat :=
  if v ≤ stop then
    if v + step < 2 ^ 32 then generate step stop (v + step) (bits ||| 1 <<< v)
    else .error .overflow
  else .ok bits
termination_by stop + 1 - v
decreasing_by
  have := step.pos
  omega

namespace FieldBounds

variable (b : FieldBounds)

/-- Parses a value as a named alias, or as a number. -/
def parseValue (s : String) : Except CronError Nat :=
  match b.names.idxOf? (Text.map Char.toUpper s) with
  | some pos => .ok (b.min + pos)
  | none =>
    match parseU32 s with
    | some n => .ok n
    | none => .error (.message (b.name ++ ": invalid value '" ++ s ++ "'"))

def checkRange (v : Nat) : Except CronError Unit :=
  if v < b.min ∨ b.max < v then
    .error (.message (b.name ++ ": " ++ v.repr ++ " out of range " ++ b.min.repr ++ "-" ++ b.max.repr))
  else .ok ()

/-- Splits the step off an item. -/
def parseStep (item : String) : Except CronError (String × Option ℕ+) :=
  match Text.after '/' item with
  | none => .ok (item, none)
  | some s =>
    match parseU32 s with
    | none => .error (.message (b.name ++ ": invalid step '" ++ s ++ "'"))
    | some n =>
      if h : n = 0 then .error (.message (b.name ++ ": step must be > 0"))
      else .ok (Text.before '/' item, some (n.toPNat (Nat.pos_of_ne_zero h)))

/-- The bits of the range part of an item, with its step. -/
def parseRange (rangePart : String) (step : Option ℕ+) : Except CronError Nat :=
  if rangePart = "*" then generate (step.getD 1) b.max b.min 0
  else
    match Text.after '-' rangePart with
    | some last => do
      let first ← b.parseValue (Text.before '-' rangePart)
      let last ← b.parseValue last
      b.checkRange first
      b.checkRange last
      if first > last then
        .error (.message (b.name ++ ": range " ++ first.repr ++ "-" ++ last.repr ++ " is empty"))
      else generate (step.getD 1) last first 0
    | none => do
      let v ← b.parseValue rangePart
      b.checkRange v
      match step with
      | some step => generate step b.max v 0
      | none => .ok (1 <<< v)

def parseItem (item : String) : Except CronError Nat := do
  let (rangePart, step) ← b.parseStep item
  b.parseRange rangePart step

/-- Adds the bits of an item of the list. -/
def addItem (bits : Nat) (item : String) : Except CronError Nat :=
  if item = "" then .error (.message (b.name ++ ": empty item in list"))
  else do
    let more ← b.parseItem item
    return bits ||| more

/-- Parses a field into a bitset. -/
def parseField (field : String) : Except CronError Nat := do
  let bits ← (Text.split ',' field).foldlM b.addItem 0
  if bits = 0 then .error (.message (b.name ++ ": field matches nothing")) else return bits

end FieldBounds

def dowNames : List String := ["SUN", "MON", "TUE", "WED", "THU", "FRI", "SAT"]

def monthNames : List String :=
  ["JAN", "FEB", "MAR", "APR", "MAY", "JUN", "JUL", "AUG", "SEP", "OCT", "NOV", "DEC"]

theorem dowNames_nodup : dowNames.Nodup := by decide

theorem monthNames_nodup : monthNames.Nodup := by decide

theorem dowNames_letters : ∀ n ∈ dowNames, n ≠ "" ∧ n.toList.all Char.isUpper = true := by decide

theorem monthNames_letters : ∀ n ∈ monthNames, n ≠ "" ∧ n.toList.all Char.isUpper = true := by decide

/-- The fields of an expression. -/
inductive CronField
  | second
  | minute
  | hour
  | dom
  | month
  | dow
deriving DecidableEq

/-- The bounds of a field without names. -/
def FieldBounds.plain (min max : Nat) (name : String) (hmin : min.ble max = true)
    (hmax : max.blt 64 = true) : FieldBounds where
  min := min
  max := max
  name := name
  names := []
  min_le := Nat.le_of_ble_eq_true hmin
  max_lt := Nat.le_of_ble_eq_true hmax
  nodup := List.nodup_nil
  letters := nofun

def CronField.bounds (kind : CronField) : FieldBounds :=
  match kind with
  | second => .plain 0 59 "second" rfl rfl
  | minute => .plain 0 59 "minute" rfl rfl
  | hour => .plain 0 23 "hour" rfl rfl
  | dom => .plain 1 31 "dom" rfl rfl
  | month => {
      min := 1
      max := 12
      name := "month"
      names := monthNames
      min_le := Nat.le_of_ble_eq_true rfl
      max_lt := Nat.le_of_ble_eq_true rfl
      nodup := monthNames_nodup
      letters := monthNames_letters }
  | dow => {
      min := 0
      max := 7
      name := "dow"
      names := dowNames
      min_le := Nat.le_of_ble_eq_true rfl
      max_lt := Nat.le_of_ble_eq_true rfl
      nodup := dowNames_nodup
      letters := dowNames_letters }

/-- Parses the weekdays, of which 0 and 7 are both Sunday. -/
def parseDow (field : String) : Except CronError Nat := do
  let bits ← CronField.dow.bounds.parseField field
  return ((bits &&& 0x7F) ||| ((bits >>> 7) &&& 1)) % 2 ^ 8

/-! ### The grammar -/

/-- The text is digits, with a plus sign or not, that read as `n`. -/
def Numeral (s : String) (n : Nat) : Prop :=
  ∃ digits, digits ≠ [] ∧ (∀ c ∈ digits, c.isDigit = true) ∧
    (s.toList = digits ∨ s.toList = '+' :: digits) ∧ n = Nat.ofDigitChars 10 digits 0

/-- The values of an item before its step: all, those from one on, or those of a range. -/
inductive Scope
  | all
  | one (n : Nat)
  | range (n m : Nat)

structure Item where
  scope : Scope
  step : Option ℕ+

/-- The text names `n`, or is a numeral of it. -/
def FieldBounds.Value (b : FieldBounds) (s : String) (n : Nat) : Prop :=
  (∃ pos, b.names[pos]? = some (Text.map Char.toUpper s) ∧ n = b.min + pos) ∨
    Numeral s n ∧ n < 2 ^ 32

inductive ScopeText (b : FieldBounds) : String → Scope → Prop
  | all : ScopeText b "*" .all
  | one {s n} (value : b.Value s n) (low : b.min ≤ n) (high : n ≤ b.max) : ScopeText b s (.one n)
  | range {s t n m} (first : b.Value s n) (last : b.Value t m) (low : b.min ≤ n) (le : n ≤ m)
      (high : m ≤ b.max) : ScopeText b (s ++ "-" ++ t) (.range n m)

inductive ItemText (b : FieldBounds) : String → Item → Prop
  | plain {s scope} (scopeText : ScopeText b s scope) : ItemText b s ⟨scope, none⟩
  | stepped {s t scope} {step : ℕ+} (scopeText : ScopeText b s scope) (numeral : Numeral t step)
      (lt : (step : Nat) < 2 ^ 32) : ItemText b (s ++ "/" ++ t) ⟨scope, some step⟩

/-- The field is the list of the items, between commas. -/
def FieldText (b : FieldBounds) (field : String) (items : List Item) : Prop :=
  ∃ texts, texts ≠ [] ∧ field = ",".intercalate texts ∧ List.Forall₂ (ItemText b) texts items

namespace Item

variable (b : FieldBounds) (item : Item)

def start : Nat :=
  match item.scope with
  | .all => b.min
  | .one n => n
  | .range n _ => n

/-- The last value an item may denote. -/
def stop : Nat :=
  match item.scope, item.step with
  | .all, _ => b.max
  | .one n, none => n
  | .one _, some _ => b.max
  | .range _ m, _ => m

def Denotes (v : Nat) : Prop := ∃ k, v = item.start b + k * (item.step.getD 1 : ℕ+) ∧ v ≤ item.stop b

/-- The first step of an item does not pass `u32`. -/
def Fits : Prop := ∀ step ∈ item.step, item.start b + (step : Nat) < 2 ^ 32

end Item

/-- Each item of the list, up to the first text that is not an item, fits. -/
def FitAll (b : FieldBounds) (texts : List String) : Prop :=
  match texts with
  | [] => True
  | text :: rest =>
    (∀ item, ItemText b text item → item.Fits b) ∧ ((∃ item, ItemText b text item) → FitAll b rest)

/-- What a parser makes of a field: it accepts the lists of items, sets the bit of each value that an
item denotes, and adds no numbers that pass `u32`. -/
structure Denoted (parse : String → Except CronError Nat) (b : FieldBounds) (value : Nat → Nat)
    (field : String) : Prop where
  accepts : (∃ bits, parse field = .ok bits) ↔ ∃ items, FieldText b field items
  denotes : ∀ bits items, parse field = .ok bits → FieldText b field items →
    ∀ v, bits.testBit v = true ↔ ∃ item ∈ items, ∃ u, item.Denotes b u ∧ value u = v
  no_overflow : parse field ≠ .error .overflow

/-- The weekday of a value, for which 7 is Sunday as well. -/
def foldSunday (v : Nat) : Nat := if v = 7 then 0 else v

/-! ### Values -/

theorem eq_withoutSign (chars : List Char) :
    chars = withoutSign chars ∨ chars = '+' :: withoutSign chars := by
  unfold withoutSign
  split
  · exact .inr rfl
  · exact .inl rfl

theorem withoutSign_eq {digits : List Char} (h : ∀ c ∈ digits, c.isDigit = true) :
    withoutSign digits = digits := by
  unfold withoutSign
  split
  · have hsign := h '+' List.mem_cons_self
    cases hsign
  · rfl

theorem parseU32_eq_some_iff {s : String} {n : Nat} :
    parseU32 s = some n ↔ Numeral s n ∧ n < 2 ^ 32 := by
  unfold parseU32
  simp only
  constructor
  · intro h
    split at h
    · next hdigits =>
      split at h
      · next hlt =>
        cases h
        exact ⟨⟨_, hdigits.1, List.all_eq_true.mp hdigits.2, eq_withoutSign s.toList, rfl⟩, hlt⟩
      · cases h
    · cases h
  · rintro ⟨⟨digits, hne, hdigits, hs, rfl⟩, hlt⟩
    have hwithout : withoutSign s.toList = digits := by
      rcases hs with hs | hs
      · rw [hs, withoutSign_eq hdigits]
      · rw [hs]
        rfl
    rw [hwithout, if_pos ⟨hne, List.all_eq_true.mpr hdigits⟩, if_pos hlt]

section Values

variable {b : FieldBounds} {s t : String} {n : Nat}

/-- The text is letters, digits and plus signs. -/
structure ValueText (s : String) : Prop where
  ne : s ≠ ""
  chars : ∀ c ∈ s.toList, c.isAlphanum = true ∨ c = '+'

theorem ValueText.notMem {c : Char} (h : ValueText s) (hc : c.isAlphanum = false) (hne : c ≠ '+') :
    c ∉ s.toList := by
  intro hmem
  rcases h.chars c hmem with halpha | rfl
  · rw [hc] at halpha
    cases halpha
  · exact hne rfl

theorem Numeral.exists_char (h : Numeral s n) : ∃ c ∈ s.toList, c.isDigit = true := by
  obtain ⟨digits, hne, hdigits, hs, -⟩ := h
  obtain ⟨d, rest, rfl⟩ := List.exists_cons_of_ne_nil hne
  refine ⟨d, ?_, hdigits d List.mem_cons_self⟩
  rcases hs with hs | hs
  · exact hs ▸ List.mem_cons_self
  · exact hs ▸ List.mem_cons_of_mem _ List.mem_cons_self

theorem Numeral.valueText (h : Numeral s n) : ValueText s := by
  constructor
  · rintro rfl
    obtain ⟨c, hc, -⟩ := h.exists_char
    cases hc
  · obtain ⟨digits, -, hdigits, hs, -⟩ := h
    have halphanum : ∀ c ∈ digits, c.isAlphanum = true := by
      intro c hc
      rw [Char.isAlphanum, hdigits c hc, Bool.or_true]
    intro c hc
    rcases hs with hs | hs
    · exact .inl (halphanum c (hs ▸ hc))
    · rw [hs] at hc
      rcases List.mem_cons.mp hc with rfl | hc
      · exact .inr rfl
      · exact .inl (halphanum c hc)

theorem alpha_of_name (h : Text.map Char.toUpper s ∈ b.names) :
    s ≠ "" ∧ ∀ c ∈ s.toList, c.isAlpha = true := by
  obtain ⟨hne, hletters⟩ := b.letters _ h
  constructor
  · rintro rfl
    exact hne rfl
  · intro c hc
    have hupper : c.toUpper.isUpper = true := by
      apply List.all_eq_true.mp hletters
      rw [Text.map, String.toList_ofList]
      exact List.mem_map_of_mem hc
    rwa [Char.isUpper_toUpper_eq_isAlpha] at hupper

theorem Numeral.not_name (h : Numeral s n) : Text.map Char.toUpper s ∉ b.names := by
  intro hname
  obtain ⟨c, hc, hdigit⟩ := h.exists_char
  have halpha := (alpha_of_name hname).2 c hc
  simp only [Char.isAlpha, Char.isUpper, Char.isLower, Char.isDigit, Bool.or_eq_true,
    Bool.and_eq_true, decide_eq_true_eq, UInt32.le_iff_toNat_le, ge_iff_le] at halpha hdigit
  have hhigh : c.val.toNat ≤ 57 := hdigit.2
  rcases halpha with ⟨hlow, -⟩ | ⟨hlow, -⟩
  · exact absurd (hlow.trans hhigh) (by decide)
  · exact absurd (hlow.trans hhigh) (by decide)

theorem valueText_of_value (h : b.Value s n) : ValueText s := by
  rcases h with ⟨pos, hname, -⟩ | ⟨hnumeral, -⟩
  · obtain ⟨hne, halpha⟩ := alpha_of_name (List.mem_of_getElem? hname)
    refine ⟨hne, fun c hc => .inl ?_⟩
    rw [Char.isAlphanum, halpha c hc, Bool.true_or]
  · exact hnumeral.valueText

theorem parseValue_eq_ok_iff : b.parseValue s = .ok n ↔ b.Value s n := by
  unfold FieldBounds.parseValue FieldBounds.Value
  cases hidx : b.names.idxOf? (Text.map Char.toUpper s) with
  | some pos =>
    have hpos := (Lists.idxOf?_eq_some_iff_of_nodup b.nodup).mp hidx
    constructor
    · intro h
      cases h
      exact .inl ⟨pos, hpos, rfl⟩
    · rintro (⟨pos', hpos', rfl⟩ | ⟨hnumeral, -⟩)
      · rw [← Lists.idxOf?_eq_some_iff_of_nodup b.nodup, hidx] at hpos'
        cases hpos'
        rfl
      · exact absurd (List.mem_of_getElem? hpos) hnumeral.not_name
  | none =>
    have hname : ∀ pos : Nat, b.names[pos]? ≠ some (Text.map Char.toUpper s) := by
      intro pos hpos
      exact List.idxOf?_eq_none_iff.mp hidx (List.mem_of_getElem? hpos)
    simp only [hname, false_and, exists_false, false_or, ← parseU32_eq_some_iff]
    cases parseU32 s with
    | some m => exact ⟨fun h => congrArg some (Except.ok.inj h), fun h => congrArg _ (Option.some.inj h)⟩
    | none => exact ⟨nofun, nofun⟩

theorem parseValue_cases (b : FieldBounds) (s : String) :
    (∃ n, b.parseValue s = .ok n) ∨ ∃ m, b.parseValue s = .error (.message m) := by
  unfold FieldBounds.parseValue
  split
  · exact .inl ⟨_, rfl⟩
  · split
    · exact .inl ⟨_, rfl⟩
    · exact .inr ⟨_, rfl⟩

end Values

/-! ### The loop -/

section Loop

variable {step : ℕ+} {stop v : Nat}

theorem generate_overflow (bits : Nat) (hv : v ≤ stop) (hstep : 2 ^ 32 ≤ v + (step : Nat)) :
    generate step stop v bits = .error .overflow := by
  rw [generate, if_pos hv, if_neg (Nat.not_lt.mpr hstep)]

/-- The loop ends, with the bits of the values that it passes. -/
theorem generate_eq_ok (bits : Nat) (hstop : stop < 2 ^ 31) (hstep : v ≤ stop → v + (step : Nat) < 2 ^ 32) :
    ∃ bits', generate step stop v bits = .ok bits' ∧ ∀ x, bits'.testBit x = true ↔
      bits.testBit x = true ∨ ∃ k, x = v + k * (step : Nat) ∧ x ≤ stop := by
  induction hleft : stop + 1 - v using Nat.strong_induction_on generalizing v bits with
  | _ left ih =>
    rw [generate]
    by_cases hv : v ≤ stop
    · have hpos := step.pos
      obtain ⟨bits', hgenerate, hbits⟩ := ih (stop + 1 - (v + step)) (by omega)
        (v := v + step) (bits ||| 1 <<< v) (fun hnext => by omega) rfl
      refine ⟨bits', ?_, fun x => ?_⟩
      · rw [if_pos hv, if_pos (hstep hv), hgenerate]
      · rw [hbits, Nat.testBit_or, Bool.or_eq_true, Nat.one_shiftLeft, Nat.testBit_two_pow,
          decide_eq_true_eq, or_assoc]
        refine or_congr_right ⟨?_, ?_⟩
        · rintro (rfl | ⟨k, rfl, hx⟩)
          · exact ⟨0, by rw [Nat.zero_mul, Nat.add_zero], hv⟩
          · exact ⟨k + 1, by rw [Nat.succ_mul]; omega, hx⟩
        · rintro ⟨k, rfl, hx⟩
          cases k with
          | zero => exact .inl (by rw [Nat.zero_mul, Nat.add_zero])
          | succ k => exact .inr ⟨k, by rw [Nat.succ_mul]; omega, hx⟩
    · rw [if_neg hv]
      refine ⟨bits, rfl, fun x => ⟨.inl, ?_⟩⟩
      rintro (hx | ⟨k, rfl, hx⟩)
      · exact hx
      · have hle := Nat.le_add_right v (k * step)
        omega

end Loop

/-! ### Items -/

section Items

variable {b : FieldBounds} {s : String} {scope : Scope} {item : Item} {step : Option ℕ+} {n : Nat}

theorem checkRange_eq_ok_iff : b.checkRange n = .ok () ↔ b.min ≤ n ∧ n ≤ b.max := by
  unfold FieldBounds.checkRange
  split
  · refine iff_of_false nofun ?_
    omega
  · refine iff_of_true rfl ?_
    omega

theorem checkRange_cases (b : FieldBounds) (n : Nat) :
    b.checkRange n = .ok () ∨ ∃ m, b.checkRange n = .error (.message m) := by
  unfold FieldBounds.checkRange
  split
  · exact .inr ⟨_, rfl⟩
  · exact .inl rfl

/-- The result of an item: the bits of its values, or a panic when it does not fit. -/
structure Sets (b : FieldBounds) (item : Item) (result : Except CronError Nat) : Prop where
  fits : item.Fits b → ∃ bits, result = .ok bits ∧ ∀ v, bits.testBit v = true ↔ item.Denotes b v
  overflows : ¬item.Fits b → result = .error .overflow

theorem sets_generate (item : Item) (hle : item.start b ≤ item.stop b) (hstop : item.stop b < 64) :
    Sets b item (generate (item.step.getD 1) (item.stop b) (item.start b) 0) where
  fits hfits := by
    have hstep : item.start b + (item.step.getD 1 : ℕ+) < 2 ^ 32 := by
      cases hitem : item.step with
      | none =>
        show item.start b + 1 < 2 ^ 32
        omega
      | some step => exact hfits step hitem
    obtain ⟨bits, hgenerate, hbits⟩ :=
      generate_eq_ok 0 (by omega : item.stop b < 2 ^ 31) fun _ => hstep
    refine ⟨bits, hgenerate, fun v => ?_⟩
    rw [hbits, Nat.zero_testBit, iff_false_intro Bool.false_ne_true, false_or]
    rfl
  overflows hnot := by
    unfold Item.Fits at hnot
    simp only [not_forall, Nat.not_lt] at hnot
    obtain ⟨step, hitem, hstep⟩ := hnot
    rw [hitem]
    exact generate_overflow 0 hle hstep

/-- A single value sets its bit. -/
theorem sets_one (hstep : item.step = none) (hstart : item.start b = n) (hstop : item.stop b = n) :
    Sets b item (.ok (1 <<< n)) where
  fits _ := by
    refine ⟨_, rfl, fun v => ?_⟩
    rw [Nat.one_shiftLeft, Nat.testBit_two_pow, decide_eq_true_eq]
    unfold Item.Denotes
    rw [hstart, hstop]
    constructor
    · rintro rfl
      exact ⟨0, by rw [Nat.zero_mul, Nat.add_zero], le_rfl⟩
    · rintro ⟨k, rfl, hle⟩
      omega
  overflows hnot := by
    refine absurd (fun step hitem => ?_) hnot
    rw [hstep] at hitem
    cases hitem

theorem parseRange_of_text (h : ScopeText b s scope) (step : Option ℕ+) :
    Sets b ⟨scope, step⟩ (b.parseRange s step) := by
  have hmin := b.min_le
  have hmax := b.max_lt
  have hstar : ∀ {c : Char} {l : String}, c ∈ l.toList → c ≠ '*' → l ≠ "*" := by
    rintro c l hmem hc rfl
    exact hc (List.mem_singleton.mp hmem)
  cases h with
  | all =>
    unfold FieldBounds.parseRange
    rw [if_pos rfl]
    exact sets_generate ⟨.all, step⟩ hmin hmax
  | @one s n value low high =>
    have htext := valueText_of_value value
    have hne : s ≠ "*" := by
      rintro rfl
      exact htext.notMem (c := '*') (by decide) (by decide) (List.mem_singleton_self _)
    have hafter : Text.after '-' s = none :=
      Text.after_eq_none_iff.mpr (htext.notMem (by decide) (by decide))
    unfold FieldBounds.parseRange
    simp only [hne, hafter, if_false, parseValue_eq_ok_iff.mpr value,
      checkRange_eq_ok_iff.mpr ⟨low, high⟩, Results.ok_bind]
    cases step with
    | none => exact sets_one (n := n) rfl rfl rfl
    | some step => exact sets_generate ⟨.one n, some step⟩ high hmax
  | @range s t n m first last low le high =>
    have htext := valueText_of_value first
    have hsep : "-".toList = ['-'] := rfl
    have hdash : '-' ∉ s.toList := htext.notMem (by decide) (by decide)
    have hne : s ++ "-" ++ t ≠ "*" := by
      apply hstar (c := '-')
      · rw [String.toList_append, String.toList_append, hsep]
        exact List.mem_append_left _ (List.mem_append_right _ (List.mem_singleton_self _))
      · decide
    have hbefore : Text.before '-' (s ++ "-" ++ t) = s := by
      rw [String.append_assoc, Text.before_append hdash]
      rw [String.toList_append]
      rfl
    unfold FieldBounds.parseRange
    simp only [hne, if_false, Text.after_append hsep hdash, hbefore, parseValue_eq_ok_iff.mpr first,
      parseValue_eq_ok_iff.mpr last, checkRange_eq_ok_iff.mpr ⟨low, le.trans high⟩,
      checkRange_eq_ok_iff.mpr ⟨low.trans le, high⟩, Results.ok_bind, Nat.not_lt.mpr le]
    exact sets_generate ⟨.range n m, step⟩ le (lt_of_le_of_lt high hmax)

/-- A range part that is not in the grammar is refused with a message. -/
theorem parseRange_cases (b : FieldBounds) (s : String) (step : Option ℕ+) :
    (∃ scope, ScopeText b s scope) ∨ ∃ m, b.parseRange s step = .error (.message m) := by
  by_cases hstar : s = "*"
  · exact .inl ⟨.all, hstar ▸ .all⟩
  unfold FieldBounds.parseRange
  rw [if_neg hstar]
  cases hafter : Text.after '-' s with
  | none =>
    rcases parseValue_cases b s with ⟨v, hv⟩ | ⟨m, hm⟩
    · rcases checkRange_cases b v with hrange | ⟨m, hm⟩
      · obtain ⟨low, high⟩ := checkRange_eq_ok_iff.mp hrange
        exact .inl ⟨.one v, .one (parseValue_eq_ok_iff.mp hv) low high⟩
      · refine .inr ⟨m, ?_⟩
        simp only [hv, Results.ok_bind, hm, Results.error_bind]
    · refine .inr ⟨m, ?_⟩
      simp only [hm, Results.error_bind]
  | some t =>
    have hs : s = Text.before '-' s ++ "-" ++ t := Text.eq_of_after rfl hafter
    rcases parseValue_cases b (Text.before '-' s) with ⟨first, hfirst⟩ | ⟨m, hm⟩
    · rcases parseValue_cases b t with ⟨last, hlast⟩ | ⟨m, hm⟩
      · rcases checkRange_cases b first with hrange | ⟨m, hm⟩
        · rcases checkRange_cases b last with hrange' | ⟨m, hm⟩
          · by_cases hle : first ≤ last
            · rw [hs]
              exact .inl ⟨.range first last, .range (parseValue_eq_ok_iff.mp hfirst)
                (parseValue_eq_ok_iff.mp hlast) (checkRange_eq_ok_iff.mp hrange).1 hle
                (checkRange_eq_ok_iff.mp hrange').2⟩
            · right
              simp only [hfirst, hlast, hrange, hrange', Results.ok_bind, Nat.lt_of_not_le hle,
                gt_iff_lt, if_true]
              exact ⟨_, rfl⟩
          · refine .inr ⟨m, ?_⟩
            simp only [hfirst, hlast, hrange, hm, Results.ok_bind, Results.error_bind]
        · refine .inr ⟨m, ?_⟩
          simp only [hfirst, hlast, hm, Results.ok_bind, Results.error_bind]
      · refine .inr ⟨m, ?_⟩
        simp only [hfirst, hm, Results.ok_bind, Results.error_bind]
    · refine .inr ⟨m, ?_⟩
      simp only [hm, Results.error_bind]

theorem notMem_scopeText {c : Char} (h : ScopeText b s scope) (hc : c.isAlphanum = false)
    (hother : c ∉ ['+', '-', '*']) : c ∉ s.toList := by
  simp only [List.mem_cons, List.not_mem_nil, or_false, not_or] at hother
  cases h with
  | all => exact fun hmem => hother.2.2 (List.mem_singleton.mp hmem)
  | one value => exact (valueText_of_value value).notMem hc hother.1
  | range first last =>
    rw [String.toList_append, String.toList_append]
    intro hmem
    rcases List.mem_append.mp hmem with hmem | hmem
    · rcases List.mem_append.mp hmem with hmem | hmem
      · exact (valueText_of_value first).notMem hc hother.1 hmem
      · exact hother.2.1 (List.mem_singleton.mp hmem)
    · exact (valueText_of_value last).notMem hc hother.1 hmem

theorem ne_empty_of_scopeText (h : ScopeText b s scope) : s ≠ "" := by
  cases h with
  | all => exact nofun
  | one value => exact (valueText_of_value value).ne
  | range first last =>
    intro hnil
    exact (valueText_of_value first).ne
      (String.append_eq_empty_iff.mp (String.append_eq_empty_iff.mp hnil).1).1

theorem parseItem_of_text (h : ItemText b s item) : Sets b item (b.parseItem s) := by
  cases h with
  | plain scopeText =>
    have hafter : Text.after '/' s = none :=
      Text.after_eq_none_iff.mpr (notMem_scopeText scopeText (by decide) (by decide))
    unfold FieldBounds.parseItem FieldBounds.parseStep
    simp only [hafter, Results.ok_bind]
    exact parseRange_of_text scopeText none
  | @stepped s t scope step scopeText numeral lt =>
    have hslash : '/' ∉ s.toList := notMem_scopeText scopeText (by decide) (by decide)
    have hbefore : Text.before '/' (s ++ "/" ++ t) = s := by
      rw [String.append_assoc, Text.before_append hslash]
      rw [String.toList_append]
      rfl
    have hafter : Text.after '/' (s ++ "/" ++ t) = some t := Text.after_append rfl hslash
    unfold FieldBounds.parseItem FieldBounds.parseStep
    simp only [hafter, hbefore, parseU32_eq_some_iff.mpr ⟨numeral, lt⟩, step.ne_zero, dite_false,
      Results.ok_bind]
    exact parseRange_of_text scopeText (some step)

theorem parseItem_cases (b : FieldBounds) (s : String) :
    (∃ item, ItemText b s item) ∨ ∃ m, b.parseItem s = .error (.message m) := by
  unfold FieldBounds.parseItem FieldBounds.parseStep
  cases hafter : Text.after '/' s with
  | none =>
    rcases parseRange_cases b s none with ⟨scope, hscope⟩ | ⟨m, hm⟩
    · exact .inl ⟨_, .plain hscope⟩
    · refine .inr ⟨m, ?_⟩
      simp only [Results.ok_bind, hm]
  | some t =>
    have hs : s = Text.before '/' s ++ "/" ++ t := Text.eq_of_after rfl hafter
    cases hstep : parseU32 t with
    | none =>
      right
      simp only [hstep, Results.error_bind]
      exact ⟨_, rfl⟩
    | some n =>
      obtain ⟨hnumeral, hlt⟩ := parseU32_eq_some_iff.mp hstep
      by_cases hzero : n = 0
      · right
        simp only [hstep, hzero, dite_true, Results.error_bind]
        exact ⟨_, rfl⟩
      · rcases parseRange_cases b (Text.before '/' s) (some (n.toPNat (Nat.pos_of_ne_zero hzero))) with
          ⟨scope, hscope⟩ | ⟨m, hm⟩
        · rw [hs]
          exact .inl ⟨⟨scope, some (n.toPNat (Nat.pos_of_ne_zero hzero))⟩,
            .stepped hscope hnumeral hlt⟩
        · refine .inr ⟨m, ?_⟩
          simp only [hstep, hzero, dite_false, Results.ok_bind, hm]

theorem itemText_text (h : ItemText b s item) : s ≠ "" ∧ ',' ∉ s.toList := by
  cases h with
  | plain scopeText =>
    exact ⟨ne_empty_of_scopeText scopeText, notMem_scopeText scopeText (by decide) (by decide)⟩
  | stepped scopeText numeral =>
    constructor
    · intro hnil
      exact ne_empty_of_scopeText scopeText
        (String.append_eq_empty_iff.mp (String.append_eq_empty_iff.mp hnil).1).1
    · rw [String.toList_append, String.toList_append]
      intro hmem
      rcases List.mem_append.mp hmem with hmem | hmem
      · rcases List.mem_append.mp hmem with hmem | hmem
        · exact notMem_scopeText scopeText (by decide) (by decide) hmem
        · exact absurd (List.mem_singleton.mp hmem) (by decide)
      · exact numeral.valueText.notMem (by decide) (by decide) hmem

end Items

/-! ### The list -/

section Fields

variable {b : FieldBounds} {texts : List String} {items : List Item} {bits : Nat} {field : String}

theorem addItem_eq {text : String} (h : text ≠ "") (bits : Nat) :
    b.addItem bits text = (b.parseItem text >>= fun more => .ok (bits ||| more)) := by
  unfold FieldBounds.addItem
  rw [if_neg h]
  rfl

/-- A text that is not an item is refused with a message. -/
theorem addItem_cases (b : FieldBounds) (bits : Nat) (text : String) :
    (∃ item, ItemText b text item) ∨ ∃ m, b.addItem bits text = .error (.message m) := by
  by_cases hempty : text = ""
  · right
    unfold FieldBounds.addItem
    rw [if_pos hempty]
    exact ⟨_, rfl⟩
  rw [addItem_eq hempty]
  rcases parseItem_cases b text with hitem | ⟨m, hm⟩
  · exact .inl hitem
  · refine .inr ⟨m, ?_⟩
    rw [hm, Results.error_bind]

/-- What the list adds to the bits, when it fits. -/
theorem foldlM_of_texts (bits : Nat) (h : List.Forall₂ (ItemText b) texts items) (hfit : FitAll b texts) :
    ∃ bits', texts.foldlM b.addItem bits = .ok bits' ∧ ∀ v, bits'.testBit v = true ↔
      bits.testBit v = true ∨ ∃ item ∈ items, item.Denotes b v := by
  induction h generalizing bits with
  | nil => exact ⟨bits, rfl, fun v => by simp⟩
  | @cons text item texts items hitem _ ih =>
    obtain ⟨more, hmore, hsets⟩ := (parseItem_of_text hitem).fits (hfit.1 item hitem)
    obtain ⟨bits', hfold, hbits⟩ := ih (bits ||| more) (hfit.2 ⟨item, hitem⟩)
    refine ⟨bits', ?_, fun v => ?_⟩
    · rw [List.foldlM_cons, addItem_eq (itemText_text hitem).1, hmore, Results.ok_bind,
        Results.ok_bind, hfold]
    · rw [hbits, Nat.testBit_or, Bool.or_eq_true, hsets, or_assoc, List.exists_mem_cons_iff]

theorem texts_of_foldlM {bits' : Nat} (h : texts.foldlM b.addItem bits = .ok bits') :
    ∃ items, List.Forall₂ (ItemText b) texts items := by
  induction texts generalizing bits with
  | nil => exact ⟨[], .nil⟩
  | cons text texts ih =>
    rw [List.foldlM_cons] at h
    obtain ⟨bits₁, hadd, hfold⟩ := Results.bind_eq_ok_iff.mp h
    obtain ⟨items, hitems⟩ := ih hfold
    rcases addItem_cases b bits text with ⟨item, hitem⟩ | ⟨m, hm⟩
    · exact ⟨item :: items, .cons hitem hitems⟩
    · rw [hm] at hadd
      cases hadd

/-- The list passes `u32` in none of its items exactly when its items fit, up to the first text that is
not an item. -/
theorem foldlM_ne_overflow_iff (bits : Nat) :
    texts.foldlM b.addItem bits ≠ .error .overflow ↔ FitAll b texts := by
  induction texts generalizing bits with
  | nil => exact iff_of_true nofun trivial
  | cons text texts ih =>
    rw [List.foldlM_cons]
    rcases addItem_cases b bits text with hitem | ⟨m, hm⟩
    · obtain ⟨item, hitem⟩ := hitem
      have hne := (itemText_text hitem).1
      have hsets := parseItem_of_text hitem
      by_cases hfit : item.Fits b
      · obtain ⟨more, hmore, -⟩ := hsets.fits hfit
        rw [addItem_eq hne, hmore, Results.ok_bind, Results.ok_bind, ih]
        constructor
        · intro hall
          refine ⟨fun item' hitem' => ?_, fun _ => hall⟩
          by_contra hnot
          rw [(parseItem_of_text hitem').overflows hnot] at hmore
          cases hmore
        · exact fun hall => hall.2 ⟨item, hitem⟩
      · rw [addItem_eq hne, hsets.overflows hfit, Results.error_bind, Results.error_bind]
        exact iff_of_false (fun hneq => hneq rfl) fun hall => hfit (hall.1 item hitem)
    · rw [hm, Results.error_bind]
      have hnone : ∀ item, ¬ItemText b text item := by
        intro item hitem
        rw [addItem_eq (itemText_text hitem).1] at hm
        have hsets := parseItem_of_text hitem
        by_cases hfit : item.Fits b
        · obtain ⟨more, hmore, -⟩ := hsets.fits hfit
          rw [hmore] at hm
          cases hm
        · rw [hsets.overflows hfit] at hm
          cases hm
      exact iff_of_true (by simp) ⟨fun item hitem => absurd hitem (hnone item),
        fun hitem => absurd hitem.choose_spec (hnone _)⟩

theorem start_le_stop {text : String} {item : Item} (h : ItemText b text item) :
    item.start b ≤ item.stop b ∧ item.stop b ≤ b.max := by
  have hmin := b.min_le
  cases h with
  | plain scopeText =>
    cases scopeText with
    | all => exact ⟨hmin, le_rfl⟩
    | one value low high => exact ⟨le_rfl, high⟩
    | range first last low le high => exact ⟨le, high⟩
  | stepped scopeText numeral lt =>
    cases scopeText with
    | all => exact ⟨hmin, le_rfl⟩
    | one value low high => exact ⟨high, le_rfl⟩
    | range first last low le high => exact ⟨le, high⟩

theorem fieldText_iff : FieldText b field items ↔
    List.Forall₂ (ItemText b) (Text.split ',' field) items := by
  have hsep : ",".toList = [','] := rfl
  constructor
  · rintro ⟨texts, hne, rfl, hitems⟩
    rwa [Text.split_intercalate hsep _ hne]
    intro text htext
    obtain ⟨item, -, hitem⟩ := Lists.exists_right_of_mem hitems htext
    exact (itemText_text hitem).2
  · intro hitems
    exact ⟨_, Text.split_ne_nil ',' field, (Text.intercalate_split hsep field).symm, hitems⟩

theorem parseField_eq_ok_iff : b.parseField field = .ok bits ↔
    (Text.split ',' field).foldlM b.addItem 0 = .ok bits ∧ bits ≠ 0 := by
  unfold FieldBounds.parseField
  rw [Results.bind_eq_ok_iff]
  constructor
  · rintro ⟨bits', hfold, h⟩
    split at h
    · cases h
    · next hne =>
      cases h
      exact ⟨hfold, hne⟩
  · rintro ⟨hfold, hne⟩
    exact ⟨bits, hfold, if_neg hne⟩

theorem parseField_eq_overflow_iff : b.parseField field = .error .overflow ↔
    (Text.split ',' field).foldlM b.addItem 0 = .error .overflow := by
  unfold FieldBounds.parseField
  cases (Text.split ',' field).foldlM b.addItem 0 with
  | error e => exact Iff.rfl
  | ok bits =>
    refine iff_of_false ?_ nofun
    rw [Results.ok_bind]
    split
    · simp
    · exact nofun

/-- A field is read right exactly when its items fit, up to the first text that is not an item. -/
theorem denoted_parseField_iff (b : FieldBounds) (field : String) :
    Denoted b.parseField b id field ↔ FitAll b (Text.split ',' field) := by
  constructor
  · intro hdenoted
    rw [← foldlM_ne_overflow_iff 0]
    exact fun hfold => hdenoted.no_overflow (parseField_eq_overflow_iff.mpr hfold)
  intro hfit
  refine {
    accepts := ⟨?_, ?_⟩
    denotes := ?_
    no_overflow := ?_ }
  · rintro ⟨bits, hbits⟩
    obtain ⟨items, hitems⟩ := texts_of_foldlM (parseField_eq_ok_iff.mp hbits).1
    exact ⟨items, fieldText_iff.mpr hitems⟩
  · rintro ⟨items, hitems⟩
    obtain ⟨bits, hfold, hbits⟩ := foldlM_of_texts 0 (fieldText_iff.mp hitems) hfit
    refine ⟨bits, parseField_eq_ok_iff.mpr ⟨hfold, ?_⟩⟩
    rintro rfl
    -- the first item denotes its first value
    cases items with
    | nil => exact Text.split_ne_nil ',' field (List.forall₂_nil_right_iff.mp (fieldText_iff.mp hitems))
    | cons item items =>
      obtain ⟨text, -, hitem⟩ :=
        Lists.exists_right_of_mem (fieldText_iff.mp hitems).flip List.mem_cons_self
      have hfirst := (hbits (item.start b)).mpr (.inr ⟨item, List.mem_cons_self, 0,
        by rw [Nat.zero_mul, Nat.add_zero], (start_le_stop hitem).1⟩)
      rw [Nat.zero_testBit] at hfirst
      cases hfirst
  · intro bits items hparse hitems v
    obtain ⟨bits', hfold, hbits⟩ := foldlM_of_texts 0 (fieldText_iff.mp hitems) hfit
    rw [(parseField_eq_ok_iff.mp hparse).1] at hfold
    cases hfold
    rw [hbits, Nat.zero_testBit, iff_false_intro Bool.false_ne_true, false_or]
    simp only [id_eq, exists_eq_right]
  · rw [ne_eq, parseField_eq_overflow_iff]
    exact (foldlM_ne_overflow_iff 0).mpr hfit

/-- The values that are set are in bounds. -/
theorem le_max_of_testBit (h : b.parseField field = .ok bits) (hfit : FitAll b (Text.split ',' field))
    {v : Nat} (hv : bits.testBit v = true) : v ≤ b.max := by
  have hdenoted := (denoted_parseField_iff b field).mpr hfit
  obtain ⟨items, hitems⟩ := hdenoted.accepts.mp ⟨bits, h⟩
  obtain ⟨item, hmem, u, ⟨k, -, hle⟩, rfl⟩ := (hdenoted.denotes bits items h hitems v).mp hv
  obtain ⟨text, -, hitem⟩ := Lists.exists_right_of_mem (fieldText_iff.mp hitems).flip hmem
  exact hle.trans (start_le_stop hitem).2

end Fields

/-! ### Weekdays -/

/-- Bit 7 is folded into bit 0. -/
theorem testBit_fold {bits : Nat} (hle : ∀ v, bits.testBit v = true → v ≤ 7) (v : Nat) :
    (((bits &&& 0x7F) ||| ((bits >>> 7) &&& 1)) % 2 ^ 8).testBit v = true ↔
      ∃ u, bits.testBit u = true ∧ foldSunday u = v := by
  have hlow : (0x7F : Nat).testBit v = decide (v < 7) := Nat.testBit_two_pow_sub_one 7 v
  have hone : (1 : Nat).testBit v = decide (v < 1) := Nat.testBit_two_pow_sub_one 1 v
  simp only [Nat.testBit_mod_two_pow, Nat.testBit_or, Nat.testBit_and, hlow, hone,
    Nat.testBit_shiftRight, Bool.and_eq_true, Bool.or_eq_true, decide_eq_true_eq]
  unfold foldSunday
  constructor
  · rintro ⟨-, ⟨hbit, hv⟩ | ⟨hbit, hv⟩⟩
    · exact ⟨v, hbit, if_neg (by omega)⟩
    · obtain rfl : v = 0 := by omega
      exact ⟨7, hbit, if_pos rfl⟩
  · rintro ⟨u, hbit, rfl⟩
    have hu := hle u hbit
    split
    · next heq =>
      subst heq
      exact ⟨by omega, .inr ⟨hbit, by omega⟩⟩
    · exact ⟨by omega, .inl ⟨hbit, by omega⟩⟩

theorem parseDow_eq_ok_iff {field : String} {bits : Nat} : parseDow field = .ok bits ↔
    ∃ bits', CronField.dow.bounds.parseField field = .ok bits' ∧
      bits = ((bits' &&& 0x7F) ||| ((bits' >>> 7) &&& 1)) % 2 ^ 8 := by
  unfold parseDow
  rw [Results.bind_eq_ok_iff]
  refine exists_congr fun bits' => and_congr_right fun _ => ?_
  exact ⟨fun h => (Except.ok.inj h).symm, fun h => congrArg _ h.symm⟩

/-- What the parser of a field says of the weekdays. -/
theorem denoted_parseDow {field : String}
    (hfit : FitAll CronField.dow.bounds (Text.split ',' field)) :
    Denoted parseDow CronField.dow.bounds foldSunday field := by
  have hdenoted := (denoted_parseField_iff CronField.dow.bounds field).mpr hfit
  refine {
    accepts := ?_
    denotes := ?_
    no_overflow := ?_ }
  · rw [← hdenoted.accepts]
    simp only [parseDow_eq_ok_iff]
    constructor
    · rintro ⟨-, bits', hparse, -⟩
      exact ⟨bits', hparse⟩
    · rintro ⟨bits', hparse⟩
      exact ⟨_, bits', hparse, rfl⟩
  · intro bits items hparse hitems v
    obtain ⟨bits', hbits, rfl⟩ := parseDow_eq_ok_iff.mp hparse
    rw [testBit_fold (fun v hv => le_max_of_testBit hbits hfit hv)]
    simp only [hdenoted.denotes bits' items hbits hitems, id_eq, exists_eq_right]
    constructor
    · rintro ⟨u, ⟨item, hmem, hu⟩, hv⟩
      exact ⟨item, hmem, u, hu, hv⟩
    · rintro ⟨item, hmem, u, hu, hv⟩
      exact ⟨u, ⟨item, hmem, hu⟩, hv⟩
  · unfold parseDow
    intro hoverflow
    cases hparse : CronField.dow.bounds.parseField field with
    | error e =>
      rw [hparse, Results.error_bind] at hoverflow
      cases hoverflow
      exact hdenoted.no_overflow hparse
    | ok bits =>
      rw [hparse, Results.ok_bind] at hoverflow
      cases hoverflow

/-- The field is read right, by the parser of its kind as well. -/
structure ParsesRight (kind : CronField) (field : String) : Prop where
  bitset : Denoted kind.bounds.parseField kind.bounds id field
  weekdays : kind = .dow → Denoted parseDow kind.bounds foldSunday field

/-- A field is read right exactly when no item that is reached has a step that passes `u32` from its
first value on. -/
theorem parsesRight_iff (kind : CronField) (field : String) :
    ParsesRight kind field ↔ FitAll kind.bounds (Text.split ',' field) := by
  constructor
  · exact fun h => (denoted_parseField_iff kind.bounds field).mp h.bitset
  · intro hfit
    refine ⟨(denoted_parseField_iff kind.bounds field).mpr hfit, ?_⟩
    rintro rfl
    exact denoted_parseDow hfit

/-- The step of `5/4294967295` takes the loop of the minutes past `u32`. -/
theorem minute_step_overflows : ¬ParsesRight .minute "5/4294967295" := by
  intro h
  apply h.bitset.no_overflow
  have hsplit : Text.split ',' "5/4294967295" = ["5/4294967295"] :=
    Text.split_of_notMem (by decide)
  rw [parseField_eq_overflow_iff, hsplit]
  have hne : "5/4294967295" ≠ "" := by decide
  have hstep : CronField.minute.bounds.parseItem "5/4294967295" =
      generate (Nat.toPNat 4294967295 (Nat.succ_pos _)) 59 5 0 := rfl
  show (CronField.minute.bounds.addItem 0 "5/4294967295" >>= _) = _
  rw [addItem_eq hne, hstep, generate_overflow 0 (by decide) (by decide)]
  rfl

/-! ### Expressions -/

namespace CronExpr

/-- Parses the five fields of an expression that fires at second 0. -/
def parse5 (minute hour dom month dow : String) : Except CronError CronExpr := do
  let minute ← CronField.minute.bounds.parseField minute
  let hour ← CronField.hour.bounds.parseField hour
  let dom ← CronField.dom.bounds.parseField dom
  let month ← CronField.month.bounds.parseField month
  let dow ← parseDow dow
  return {
    second := 1
    minute := minute
    hour := hour % 2 ^ 32
    dom := dom % 2 ^ 32
    month := month % 2 ^ 16
    dow := dow }

def parse6 (second minute hour dom month dow : String) : Except CronError CronExpr := do
  let second ← CronField.second.bounds.parseField second
  let minute ← CronField.minute.bounds.parseField minute
  let hour ← CronField.hour.bounds.parseField hour
  let dom ← CronField.dom.bounds.parseField dom
  let month ← CronField.month.bounds.parseField month
  let dow ← parseDow dow
  return {
    second := second
    minute := minute
    hour := hour % 2 ^ 32
    dom := dom % 2 ^ 32
    month := month % 2 ^ 16
    dow := dow }

end CronExpr

/-- An item of the field denotes the value, with 7 as Sunday in the weekdays. -/
def CronField.Denotes (kind : CronField) (field : String) (v : Nat) : Prop :=
  ∃ items, FieldText kind.bounds field items ∧ ∃ item ∈ items, ∃ u,
    item.Denotes kind.bounds u ∧ (if kind = .dow then foldSunday u else u) = v

section Expressions

variable {kind : CronField} {field : String} {bits : Nat}

theorem fitAll_of_parseField (h : kind.bounds.parseField field = .ok bits) :
    FitAll kind.bounds (Text.split ',' field) := by
  rw [← foldlM_ne_overflow_iff 0, (parseField_eq_ok_iff.mp h).1]
  exact nofun

theorem testBit_iff_of_denoted {parse : String → Except CronError Nat} {value : Nat → Nat}
    (hdenoted : Denoted parse kind.bounds value field) (h : parse field = .ok bits)
    (hvalue : ∀ u, value u = if kind = .dow then foldSunday u else u) (v : Nat) :
    bits.testBit v = true ↔ kind.Denotes field v := by
  constructor
  · intro hv
    obtain ⟨items, hitems⟩ := hdenoted.accepts.mp ⟨bits, h⟩
    obtain ⟨item, hmem, u, hu, rfl⟩ := (hdenoted.denotes bits items h hitems v).mp hv
    exact ⟨items, hitems, item, hmem, u, hu, (hvalue u).symm⟩
  · rintro ⟨items, hitems, item, hmem, u, hu, rfl⟩
    exact (hdenoted.denotes bits items h hitems _).mpr ⟨item, hmem, u, hu, hvalue u⟩

theorem testBit_parseField (hkind : kind ≠ .dow) (h : kind.bounds.parseField field = .ok bits)
    (v : Nat) : bits.testBit v = true ↔ kind.Denotes field v := by
  refine testBit_iff_of_denoted ((denoted_parseField_iff _ _).mpr (fitAll_of_parseField h)) h ?_ v
  intro u
  rw [if_neg hkind]
  rfl

theorem testBit_parseDow (h : parseDow field = .ok bits) (v : Nat) :
    bits.testBit v = true ↔ CronField.dow.Denotes field v := by
  obtain ⟨bits', hbits, -⟩ := parseDow_eq_ok_iff.mp h
  exact testBit_iff_of_denoted (denoted_parseDow (fitAll_of_parseField hbits)) h (fun u => rfl) v

theorem testBit_cast {w v : Nat} (hv : v < w) : (bits % 2 ^ w).testBit v = bits.testBit v := by
  rw [Nat.testBit_mod_two_pow, decide_eq_true hv, Bool.true_and]

/-- The expression of five bitsets and a bitset of seconds fires when the seconds have the bit of the
time and the fields of the bitsets denote its other parts. -/
theorem firesAt_iff_of_fields {minute hour dom month dow : String}
    {minuteBits hourBits domBits monthBits dowBits : Nat}
    (hminute : CronField.minute.bounds.parseField minute = .ok minuteBits)
    (hhour : CronField.hour.bounds.parseField hour = .ok hourBits)
    (hdom : CronField.dom.bounds.parseField dom = .ok domBits)
    (hmonth : CronField.month.bounds.parseField month = .ok monthBits)
    (hdow : parseDow dow = .ok dowBits) (secondBits : Nat) (t : Calendar.DateTime) :
    CronExpr.firesAt ⟨secondBits, minuteBits, hourBits % 2 ^ 32, domBits % 2 ^ 32,
        monthBits % 2 ^ 16, dowBits⟩ t = true ↔
      secondBits.testBit t.second.val = true ∧ CronField.minute.Denotes minute t.minute.val ∧
        CronField.hour.Denotes hour t.hour.val ∧ CronField.dom.Denotes dom t.date.day ∧
        CronField.month.Denotes month t.date.month ∧
        CronField.dow.Denotes dow t.date.daysFromSunday := by
  have hday : t.date.day < 32 := by
    have hvalid := t.date.valid.2.2.2
    have hle := Calendar.daysInMonth_le t.date.year t.date.month
    omega
  have hmonthLt : t.date.month < 16 := by
    have hvalid := t.date.valid.2.1
    omega
  have hhourLt : t.hour.val < 32 := by omega
  have hminute' := testBit_parseField (nofun : CronField.minute ≠ .dow) hminute t.minute.val
  have hhour' := testBit_parseField (nofun : CronField.hour ≠ .dow) hhour t.hour.val
  have hdom' := testBit_parseField (nofun : CronField.dom ≠ .dow) hdom t.date.day
  have hmonth' := testBit_parseField (nofun : CronField.month ≠ .dow) hmonth t.date.month
  have hdow' := testBit_parseDow hdow t.date.daysFromSunday
  rw [← hminute', ← hhour', ← hdom', ← hmonth', ← hdow']
  simp only [CronExpr.firesAt, Bool.and_eq_true, testBit_cast hday, testBit_cast hmonthLt,
    testBit_cast hhourLt]
  constructor
  · rintro ⟨⟨⟨⟨⟨month, dom⟩, dow⟩, hour⟩, minute⟩, second⟩
    exact ⟨second, minute, hour, dom, month, dow⟩
  · rintro ⟨second, minute, hour, dom, month, dow⟩
    exact ⟨⟨⟨⟨⟨month, dom⟩, dow⟩, hour⟩, minute⟩, second⟩

/-- An expression of five fields fires at the times at second 0 whose other parts its fields denote. -/
theorem firesAt_of_parse5 {minute hour dom month dow : String} {c : CronExpr}
    (h : CronExpr.parse5 minute hour dom month dow = .ok c) (t : Calendar.DateTime) :
    c.firesAt t = true ↔ t.second = 0 ∧ CronField.minute.Denotes minute t.minute.val ∧
      CronField.hour.Denotes hour t.hour.val ∧ CronField.dom.Denotes dom t.date.day ∧
      CronField.month.Denotes month t.date.month ∧
      CronField.dow.Denotes dow t.date.daysFromSunday := by
  obtain ⟨minuteBits, hminute, h⟩ := Results.bind_eq_ok_iff.mp h
  obtain ⟨hourBits, hhour, h⟩ := Results.bind_eq_ok_iff.mp h
  obtain ⟨domBits, hdom, h⟩ := Results.bind_eq_ok_iff.mp h
  obtain ⟨monthBits, hmonth, h⟩ := Results.bind_eq_ok_iff.mp h
  obtain ⟨dowBits, hdow, h⟩ := Results.bind_eq_ok_iff.mp h
  cases h
  have hsecond : (1 : Nat).testBit t.second.val = true ↔ t.second = 0 := by
    rw [Nat.testBit_one_eq_true_iff_self_eq_zero]
    exact (Fin.ext_iff (b := 0)).symm
  rw [← hsecond]
  exact firesAt_iff_of_fields hminute hhour hdom hmonth hdow 1 t

/-- An expression of six fields fires at the times whose parts its fields denote. -/
theorem firesAt_of_parse6 {second minute hour dom month dow : String} {c : CronExpr}
    (h : CronExpr.parse6 second minute hour dom month dow = .ok c) (t : Calendar.DateTime) :
    c.firesAt t = true ↔ CronField.second.Denotes second t.second.val ∧
      CronField.minute.Denotes minute t.minute.val ∧ CronField.hour.Denotes hour t.hour.val ∧
      CronField.dom.Denotes dom t.date.day ∧ CronField.month.Denotes month t.date.month ∧
      CronField.dow.Denotes dow t.date.daysFromSunday := by
  obtain ⟨secondBits, hsecond, h⟩ := Results.bind_eq_ok_iff.mp h
  obtain ⟨minuteBits, hminute, h⟩ := Results.bind_eq_ok_iff.mp h
  obtain ⟨hourBits, hhour, h⟩ := Results.bind_eq_ok_iff.mp h
  obtain ⟨domBits, hdom, h⟩ := Results.bind_eq_ok_iff.mp h
  obtain ⟨monthBits, hmonth, h⟩ := Results.bind_eq_ok_iff.mp h
  obtain ⟨dowBits, hdow, h⟩ := Results.bind_eq_ok_iff.mp h
  cases h
  rw [← testBit_parseField (nofun : CronField.second ≠ .dow) hsecond t.second.val]
  exact firesAt_iff_of_fields hminute hhour hdom hmonth hdow secondBits t

end Expressions

end HdyUtils.Ham
