import Mathlib

/-! Numbers as big-endian octets. -/

namespace BigEndian

/-- The big-endian octets of a number, of which there are `width`. -/
def toBytes : Nat → Nat → List UInt8
  | 0, _ => []
  | width + 1, n => toBytes width (n / 256) ++ [UInt8.ofNat n]

def fromBytes (octets : List UInt8) : Nat := octets.foldl (fun n octet => n * 256 + octet.toNat) 0

@[simp] theorem length_toBytes (width n : Nat) : (toBytes width n).length = width := by
  induction width generalizing n with
  | zero => rfl
  | succ width ih => rw [toBytes, List.length_append, ih, List.length_singleton]

theorem take_toBytes_append (width n : Nat) (rest : List UInt8) :
    (toBytes width n ++ rest).take width = toBytes width n :=
  List.take_left' (length_toBytes width n)

theorem fromBytes_toBytes (width n : Nat) : fromBytes (toBytes width n) = n % 256 ^ width := by
  induction width generalizing n with
  | zero => rw [pow_zero, Nat.mod_one]; rfl
  | succ width ih =>
    have hlow : (UInt8.ofNat n).toNat = n % 256 := UInt8.toNat_ofNat'
    have hstep : fromBytes (toBytes (width + 1) n) =
        fromBytes (toBytes width (n / 256)) * 256 + (UInt8.ofNat n).toNat := by
      simp only [fromBytes, toBytes, List.foldl_append, List.foldl_cons, List.foldl_nil]
    rw [hstep, ih, hlow, pow_succ', Nat.mod_mul]
    omega

end BigEndian
