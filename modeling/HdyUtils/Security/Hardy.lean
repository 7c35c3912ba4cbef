import HdyUtils.Lib.Cbor
import HdyUtils.Ltp.Types

/-! Bundles as the tools see them, and what the tools use of the `hardy` crates: the parser, the
builder, the signer and the verifiers of bundles, and the CBOR codec. -/

namespace HdyUtils.Security

abbrev Bytes := Ltp.Bytes

/-- A key: in the key stores of the tools every key is a sequence of octets. -/
abbrev Key := Bytes

/-- A length of time in nanoseconds. -/
abbrev Duration := Nat

def Duration.fromSecs (secs : Nat) : Duration := secs * 1000000000

structure CreationTimestamp where
  /-- The creation time in nanoseconds, where the source has a clock. -/
  datetime : Option Int
  sequence : Nat
deriving DecidableEq, Repr

/-- The offset and the length of the whole of a bundle that is a fragment. -/
structure FragmentInfo where
  offset : Nat
  totalLength : Nat
deriving DecidableEq, Repr

inductive BlockType
  | primary
  | payload
  | previousNode
  | bundleAge
  | hopCount
  | blockIntegrity
  | blockSecurity
  | unrecognised (code : Nat)
deriving DecidableEq, Repr

structure Block where
  blockType : BlockType
  /-- The content of the block, where there is one. -/
  payload : Option Bytes
deriving DecidableEq, Repr

/-- The block number of the payload. -/
def payloadBlock : Nat := 1

variable {E : Type}

structure PrimaryBlock (E : Type) where
  source : E
  timestamp : CreationTimestamp
  fragment : Option FragmentInfo
  flags : UInt64
  destination : E
  reportTo : E
  lifetime : Duration
deriving DecidableEq, Repr

structure Bundle (E : Type) where
  primary : PrimaryBlock E
  /-- The blocks after the primary block, by number. -/
  blocks : List (Nat × Block)
deriving DecidableEq, Repr

/-- The operations of a block integrity block: who signed, and which blocks. -/
structure OperationSet (E : Type) where
  source : E
  targets : List Nat
deriving DecidableEq, Repr

structure Parsed (E : Type) where
  data : Bytes
  bundle : Bundle E
  bibs : List (Nat × OperationSet E)
deriving DecidableEq, Repr

/-- The content of the payload block. -/
def Parsed.payload (parsed : Parsed E) : Option Bytes := do
  let block ← parsed.bundle.blocks.lookup payloadBlock
  block.payload

/-- What a `Builder` is given. -/
structure Outline (E : Type) where
  source : E
  destination : E
  lifetime : Duration
  flags : Option UInt64
  payload : Bytes
  timestamp : CreationTimestamp
deriving DecidableEq, Repr

/-- What the tools use of the `hardy` crates, with endpoint identifiers `E`. -/
structure Hardy (E : Type) where
  eidString : E → String
  parseEid : String → Except String E
  parse : Bytes → Except String (Parsed E)
  build : Outline E → Except String (Bundle E × Bytes)
  /-- Signs a block, and gives the signed bundle where it can be rebuilt. -/
  signBlock : Bundle E → Bytes → Nat → E → Key → Except String (Except String Bytes)
  verifyAllBibs : Parsed E → (E → Option Key) → Except String Unit
  /-- The checks that are left for the content of the payload block. -/
  beginPayloadVerification : Parsed E → (E → Option Key) →
    Except String (List (Bytes → Except String Unit))
  /-- The octets of a sequence of CBOR tokens. -/
  emit : List Cbor.Token → Bytes
  /-- The CBOR tokens at the front of the octets, as far as they can be read. -/
  tokens : Bytes → List Cbor.Token

end HdyUtils.Security
