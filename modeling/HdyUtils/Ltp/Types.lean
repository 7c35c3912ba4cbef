import Mathlib

/-! Identifiers of the protocol (`types.rs`): engines, sessions and cancellation reasons, and the
non-zero serial numbers of checkpoints and reports.  Values that only name something are `UInt64`;
lengths, offsets and times are naturals, with `satAdd` where the source saturates. -/

namespace HdyUtils.Ltp

/-- The raw octets of a segment or a block. -/
abbrev Bytes := List UInt8

/-- `u64::MAX`. -/
def u64Max : Nat := 2 ^ 64 - 1

/-- `u64::saturating_add`. -/
def satAdd (a b : Nat) : Nat := min (a + b) u64Max

theorem satAdd_lt (a b : Nat) : satAdd a b < 2 ^ 64 := by
  simp only [satAdd, u64Max]
  omega

structure EngineId where
  val : UInt64
deriving DecidableEq, Repr

instance : Ord EngineId := ⟨compareOn EngineId.val⟩

instance : Std.TransOrd EngineId := inferInstanceAs (Std.TransCmp (compareOn EngineId.val))

instance : Std.LawfulEqOrd EngineId where
  eq_of_compare {a b} h := by
    have hval : compare a.val b.val = .eq := h
    cases a
    cases b
    exact congrArg EngineId.mk (Std.LawfulEqCmp.eq_of_compare hval)

/-- The engine that opened a session and the number that it gave the session. -/
structure SessionId where
  originator : EngineId
  number : UInt64
deriving DecidableEq, Repr

instance : Ord SessionId :=
  ⟨compareLex (compareOn SessionId.originator) (compareOn SessionId.number)⟩

instance : Std.TransOrd SessionId :=
  inferInstanceAs (Std.TransCmp
    (compareLex (compareOn SessionId.originator) (compareOn SessionId.number)))

instance : Std.LawfulEqOrd SessionId where
  eq_of_compare {a b} h := by
    obtain ⟨ho, hn⟩ := Ordering.then_eq_eq.mp h
    have horig : compare a.originator b.originator = .eq := ho
    have hnum : compare a.number b.number = .eq := hn
    cases a
    cases b
    exact congrArg₂ SessionId.mk (Std.LawfulEqCmp.eq_of_compare horig)
      (Std.LawfulEqCmp.eq_of_compare hnum)

inductive CancelReason
  | usrCncld
  | unreach
  | rlexc
  | miscolored
  | sysCncld
  | rxmtCycExc
deriving DecidableEq, Repr

def CancelReason.fromCode (code : UInt8) : Option CancelReason :=
  match code.toNat with
  | 0 => some .usrCncld
  | 1 => some .unreach
  | 2 => some .rlexc
  | 3 => some .miscolored
  | 4 => some .sysCncld
  | 5 => some .rxmtCycExc
  | _ => none

def CancelReason.code : CancelReason → UInt8
  | .usrCncld => 0
  | .unreach => 1
  | .rlexc => 2
  | .miscolored => 3
  | .sysCncld => 4
  | .rxmtCycExc => 5

@[simp] theorem CancelReason.fromCode_code (r : CancelReason) : fromCode r.code = some r := by
  cases r <;> rfl

/-- A serial number that is not zero (`NonZeroU64`). -/
structure NonZeroU64 where
  val : UInt64
  ne_zero : val ≠ 0
deriving DecidableEq

namespace NonZeroU64

def one : NonZeroU64 := ⟨1, by decide⟩

/-- `NonZeroU64::new`. -/
def new (v : UInt64) : Option NonZeroU64 :=
  if h : v ≠ 0 then some ⟨v, h⟩ else none

@[simp] theorem new_val (s : NonZeroU64) : new s.val = some s := by
  simp [new, s.ne_zero]

end NonZeroU64

/-- The serial after `cur`: the next `u64`, skipping zero. -/
def nextNonzeroSerial (cur : UInt64) : NonZeroU64 :=
  if h : cur + 1 = 0 then .one else ⟨cur + 1, h⟩

end HdyUtils.Ltp
