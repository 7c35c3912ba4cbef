import Mathlib

/-! Decimal numerals: the digits of a number, the number that digits read as, and parsing; and octets as
pairs of hexadecimal digits. -/

namespace Numerals

open Nat

theorem isDigit_of_mem {c : Char} {n : Nat} (h : c ∈ toDigits 10 n) : c.isDigit = true :=
  isDigit_of_mem_toDigits (by decide) (by decide) h

/-- The characters of a text, without a plus sign in front. -/
def unsigned (s : String) : List Char :=
  match s.toList with
  | '+' :: rest => rest
  | all => all

/-- The number below `bound` that a text reads as, with or without a plus sign. -/
def parse (bound : Nat) (s : String) : Option Nat :=
  let digits := unsigned s
  let n := ofDigitChars 10 digits 0
  if digits ≠ [] ∧ digits.all Char.isDigit = true ∧ n < bound then some n else none

theorem parse_repr (bound n : Nat) : parse bound n.repr = if n < bound then some n else none := by
  have hdigit : ∀ c ∈ toDigits 10 n, c.isDigit = true := fun c => isDigit_of_mem
  have hplain : unsigned n.repr = toDigits 10 n := by
    unfold unsigned
    rw [Nat.toList_repr]
    split
    · next hplus =>
      rw [hplus] at hdigit
      exact absurd (hdigit '+' List.mem_cons_self) (by decide)
    · rfl
  have hall : (toDigits 10 n).all Char.isDigit = true := List.all_eq_true.mpr hdigit
  simp only [parse, hplain, ofDigitChars_ten_toDigits, hall, ne_eq, toDigits_ne_nil, not_false_eq_true,
    true_and]

theorem lt_of_parse {bound n : Nat} {s : String} (h : parse bound s = some n) : n < bound := by
  rw [parse, Option.ite_none_right_eq_some] at h
  obtain ⟨⟨-, -, hlt⟩, hvalue⟩ := h
  exact Option.some.inj hvalue ▸ hlt

theorem isDigit_of_mem_repr {c : Char} {n : Nat} (h : c ∈ n.repr.toList) : c.isDigit = true :=
  isDigit_of_mem (Nat.toList_repr ▸ h)

theorem repr_ne_empty (n : Nat) : n.repr ≠ "" := by
  rw [ne_eq, ← String.toList_inj, Nat.toList_repr]
  exact toDigits_ne_nil

/-- A numeral has only digits. -/
theorem notMem_repr {c : Char} (h : c.isDigit = false) (n : Nat) : c ∉ n.repr.toList := by
  rw [Nat.toList_repr]
  intro hmem
  rw [isDigit_of_mem hmem] at h
  cases h

/-! ### Hexadecimal digits -/

/-- The two digits of an octet, in lower case. -/
def hexPair (octet : UInt8) : List Char := [digitChar (octet.toNat / 16), digitChar (octet.toNat % 16)]

def hexDigitValue (c : Char) : Nat := if c.isDigit then c.toNat - 48 else c.toNat - 87

/-- The octet of two digits. -/
def hexOctet (high low : Char) : UInt8 := UInt8.ofNat (16 * hexDigitValue high + hexDigitValue low)

theorem hexDigitValue_digitChar {d : Nat} (h : d < 16) : hexDigitValue (digitChar d) = d := by
  interval_cases d <;> rfl

theorem hexOctet_hexPair (octet : UInt8) :
    hexOctet (digitChar (octet.toNat / 16)) (digitChar (octet.toNat % 16)) = octet := by
  have hlt := octet.toNat_lt
  unfold hexOctet
  rw [hexDigitValue_digitChar (by omega), hexDigitValue_digitChar (by omega), Nat.div_add_mod,
    UInt8.ofNat_toNat]

theorem digitChar_ne {d : Nat} (h : d < 16) : digitChar d ≠ ' ' ∧ digitChar d ≠ '|' := by
  interval_cases d <;> decide

end Numerals
