import HdyUtils.Lib.Lists
import HdyUtils.Lib.Numerals
import HdyUtils.Lib.Text
import HdyUtils.Bibe.Decapsulate

/-! The aliases of `dtnbib` and what it takes for a local destination, against the nodes of the
endpoint identifiers.  `dtnbib` tells nodes by what the text of an EID starts with. -/

namespace HdyUtils.Bibe

open Security Results

/-- The name of a node in the `dtn` scheme, as it is written in an EID. -/
structure NodeName where
  name : String
  noSlash : '/' ∉ name.toList
deriving DecidableEq

inductive Node
  | dtn (name : NodeName)
  | ipn (number : UInt32)
deriving DecidableEq

/-- The endpoint identifiers of the two schemes. -/
inductive Eid
  | dtn (name : NodeName) (service : String)
  | ipn (number service : UInt32)
deriving DecidableEq

/-- The text of an EID of the node up to the service. -/
def Node.root : Node → String
  | .dtn n => "dtn://" ++ n.name ++ "/"
  | .ipn n => "ipn:" ++ n.toNat.repr ++ "."

/-- The EID of a node itself, as `main` makes it of the node id. -/
def Node.eid : Node → Eid
  | .dtn n => .dtn n ""
  | .ipn n => .ipn n 0

namespace Eid

def node : Eid → Node
  | dtn n _ => .dtn n
  | ipn n _ => .ipn n

def serviceText : Eid → String
  | dtn _ service => service
  | ipn _ service => service.toNat.repr

def text (eid : Eid) : String := eid.node.root ++ eid.serviceText

end Eid

variable {hardy : Hardy Eid} {service : BibService Eid} {aliases : List (Eid × Eid)} {dest : Eid}

/-- The aliases and replacements as texts. -/
def texts (aliases : List (Eid × Eid)) : List (String × String) :=
  aliases.map fun m => (m.1.text, m.2.text)

/-- The EID that a text would be of, cut at its delimiters. -/
def guessEid (s : String) : Eid :=
  if s.toList.head? = some 'd' then
    let rest := s.toList.drop 6
    .dtn ⟨String.ofList (rest.takeWhile (· ≠ '/')), noSlash rest⟩
      (String.ofList ((rest.dropWhile (· ≠ '/')).drop 1))
  else
    let rest := s.toList.drop 4
    .ipn (number (rest.takeWhile (· ≠ '.'))) (number ((rest.dropWhile (· ≠ '.')).drop 1))
where
  number (digits : List Char) : UInt32 := .ofNat (Nat.ofDigitChars 10 digits 0)
  noSlash (rest : List Char) : '/' ∉ (String.ofList (rest.takeWhile (· ≠ '/'))).toList := by
    rw [String.toList_ofList]
    intro hmem
    have hne := List.mem_takeWhile_imp hmem
    simp at hne

/-- EIDs as they are written, and nothing of bundles. -/
def plainEids : Hardy Eid where
  eidString := Eid.text
  parseEid s := if (guessEid s).text = s then .ok (guessEid s) else .error "no EID"
  parse _ := .error "expecting Array"
  build _ := .error "no builder"
  signBlock _ _ _ _ _ := .error "no signer"
  verifyAllBibs _ _ := .ok ()
  beginPayloadVerification _ _ := .ok []
  emit _ := []
  tokens _ := []

end HdyUtils.Bibe
