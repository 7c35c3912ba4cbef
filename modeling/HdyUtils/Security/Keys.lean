import HdyUtils.Mercury.Driver
import HdyUtils.Security.Hardy

/-! Key stores, and the signing and verification of bundles (`security.rs`). -/

namespace HdyUtils.Security

variable {E : Type}

def startsWith (s start : String) : Bool := start.toList.isPrefixOf s.toList

def containsText (s part : String) : Bool := decide (part.toList <:+: s.toList)

/-- The part of `s` after `start`. -/
def stripStart (s start : String) : Option String :=
  if startsWith s start then some (String.ofList (s.toList.drop start.toList.length)) else none

def normalizeEid (s : String) : String :=
  let s := Mercury.trim s
  match stripStart s "dtn://" with
  | some rest =>
    if rest ≠ "" ∧ '/' ∉ rest.toList then "dtn://" ++ rest ++ "/" else s
  | none => s

/-- An EID matches a pattern that is `*`, the EID itself, or what it starts with before a `*`. -/
def matchesEidPattern (pattern eid : String) : Bool :=
  if pattern = "*" ∨ pattern = eid then true
  else if pattern.toList.getLast? = some '*' then pattern.toList.dropLast.isPrefixOf eid.toList
  else false

/-- Keys under EID patterns, in the order in which they were added. -/
structure KeyStore where
  entries : List (String × Key)

namespace KeyStore

def empty : KeyStore := ⟨[]⟩

def addKey (store : KeyStore) (eidPattern : String) (key : Key) : KeyStore :=
  ⟨store.entries ++ [(eidPattern, key)]⟩

variable (hardy : Hardy E) (store : KeyStore)

def findKeys (source : E) : List Key :=
  (store.entries.filter fun entry => matchesEidPattern entry.1 (hardy.eidString source)).map
    Prod.snd

/-- The key that the verifiers are given for a security source. -/
def key (source : E) : Option Key :=
  (store.entries.find? fun entry => matchesEidPattern entry.1 (hardy.eidString source)).map
    Prod.snd

theorem head?_findKeys (source : E) : (store.findKeys hardy source).head? = store.key hardy source := by
  unfold findKeys key
  rw [List.head?_map, List.head?_filter]

end KeyStore

inductive VerifyPolicy
  | strict
  | warn
  | ignore
deriving DecidableEq, Repr

inductive VerifyResult
  | valid
  | invalid (reason : String)
  | unsigned
deriving DecidableEq, Repr

/-- Reads the key files, and tells key material apart. -/
structure KeyFiles where
  read : String → Except String Bytes
  parseKeyData : Bytes → Bool → Except String Key

def loadKey (files : KeyFiles) (key keyFile : Option String) : Except String Key :=
  match key, keyFile with
  | some inline, none => files.parseKeyData inline.toUTF8.toList false
  | none, some path => do
    let data ← files.read path
    files.parseKeyData data true
  | some _, some _ => .error "Cannot specify both inline key material and key file path"
  | none, none => .error "Neither inline key material nor key file path was provided"

variable (hardy : Hardy E)

def signBundle (binbundle : Bytes) (key : Key) (securitySource : Option E) :
    Except String (Bundle E × Bytes) := do
  let parsed ← (hardy.parse binbundle).mapError ("Failed to parse bundle for signing: " ++ ·)
  let secSource := securitySource.getD parsed.bundle.primary.source
  let signer ← (hardy.signBlock parsed.bundle binbundle payloadBlock secSource key).mapError
    ("BPSec BIB signing failed: " ++ ·)
  let signedBytes ← signer.mapError ("Failed to rebuild signed bundle: " ++ ·)
  let signed ← (hardy.parse signedBytes).mapError ("Failed to parse newly signed bundle: " ++ ·)
  return (signed.bundle, signedBytes)

/-- Runs the verifiers of `hardy_bpv7` over a parsed bundle. -/
def runChecks (parsed : Parsed E) (keys : E → Option Key) : Except String Unit := do
  hardy.verifyAllBibs parsed keys
  let verifiers ← hardy.beginPayloadVerification parsed keys
  verifiers.forM fun verifier => verifier (parsed.payload.getD [])

def Parsed.hasBib (parsed : Parsed E) : Bool :=
  !parsed.bibs.isEmpty || parsed.bundle.blocks.any fun b => b.2.blockType == .blockIntegrity

def verifyBundle (store : KeyStore) (binbundle : Bytes) : VerifyResult :=
  match hardy.parse binbundle with
  | .error message =>
    if containsText message "expecting Array" ||
        containsText message "violates RFC 9171 canonical CBOR" ||
        containsText message "NotCanonical" then
      .unsigned
    else .invalid message
  | .ok parsed =>
    if !parsed.hasBib then .unsigned
    else
      match parsed.bibs.find? fun bib => (store.findKeys hardy bib.2.source).isEmpty with
      | some bib =>
        .invalid ("Missing key for security source " ++ hardy.eidString bib.2.source)
      | none =>
        match runChecks hardy parsed (store.key hardy) with
        | .error message => .invalid message
        | .ok () => .valid

def maybeSignBundle (files : KeyFiles) (bundle : Bundle E) (binbundle : Bytes)
    (signKey signKeyFile securitySource : Option String) : Except String (Bundle E × Bytes) :=
  if signKey.isSome || signKeyFile.isSome then do
    let key ← loadKey files signKey signKeyFile
    let secSource ← securitySource.mapM fun sec =>
      (hardy.parseEid (normalizeEid sec)).mapError ("Invalid security source EID: " ++ ·)
    signBundle hardy binbundle key secSource
  else .ok (bundle, binbundle)

end HdyUtils.Security
