import HdyUtils.Bibe.Forward

/-! The decapsulator `dtnbib` (`dtnbib.rs`), which takes inner bundles out of outer ones, rewrites
their destinations, and signs again what it rewrote. -/

namespace HdyUtils.Bibe

open Security Results

variable {E : Type}

section Pdu

open Cbor

/-- Exactly `count` items of an array, which `body` reads. -/
def exactly {α : Type} (announced : Option Nat) (count : Nat) (body : Reader α) : Reader α := do
  match announced with
  | some n =>
    let out ← body
    if n = count then return out else throw .notEnoughData
  | none =>
    let out ← body
    match ← parseValue with
    | ([], .stop) => return out
    | _ => throw .notEnoughData

def arrayOf {α : Type} (count : Nat) (body : Reader α) : Reader α := do
  match ← parseValue with
  | (_, .array announced) => exactly announced count body
  | _ => throw (.incorrectType "Array")

/-- The bundle in a BIBE PDU. -/
def parseBibePdu : Reader Bytes :=
  arrayOf 2 do
    let recordType ← u64
    if recordType ≠ bibePduType then throw .unexpectedTag
    arrayOf 3 do
      let _transmissionId ← u64
      let _retransmissionTime ← u64
      match ← parseValue with
      | (_, .bytes data) => return data
      | (_, .byteStream chunks) => return chunks.flatten
      | _ => throw (.incorrectType "Byte String")

/-- The decapsulator takes out of a BIBE PDU what the forwarder put into it. -/
theorem decode_parseBibePdu (transmissionId : UInt64) (data : Bytes) :
    decode parseBibePdu (bibePdu transmissionId data) = .ok data := rfl

end Pdu

structure BibService (E : Type) where
  localNodeEid : E
  aliasMappings : List (String × String)
  noTransit : Bool
  keystore : KeyStore
  policy : VerifyPolicy
  signKey : Option String
  signKeyFile : Option String
  securitySource : Option String
  /-- The sink for inner bundles is there. -/
  sink : Bool
  files : KeyFiles

/-- A bundle that is handed back to the BPA, with the security source and the key of the signature
that `dtnbib` put on it. -/
structure Injection (E : Type) where
  binbundle : Bytes
  destination : E
  signature : Option (E × Key)
deriving DecidableEq, Repr

namespace BibService

variable (hardy : Hardy E) (service : BibService E)

/-- The EID with the first alias that it starts with replaced, and whether there is one. -/
def rewriteEid (eid : E) : Except String (E × Bool) :=
  let eidStr := hardy.eidString eid
  match service.aliasMappings.find? fun mapping => startsWith eidStr mapping.1 with
  | some mapping => do
    let rewritten ← hardy.parseEid
      (mapping.2 ++ String.ofList (eidStr.toList.drop mapping.1.toList.length))
    return (rewritten, true)
  | none => return (eid, false)

/-- The octets of the inner bundle: what a BIBE PDU holds, or else the outer payload itself. -/
def innerBundleBytes (data : Bytes) : Option Bytes := do
  let outer ← (hardy.parse data).toOption
  let payload ← outer.payload
  match Cbor.decode parseBibePdu (hardy.tokens payload) with
  | .ok bytes => return bytes
  | .error _ => return payload

/-- Whether the signature of an inner bundle is valid, unless the policy drops the bundle. -/
def checkSignature (innerBytes : Bytes) : Option Bool :=
  match service.policy with
  | .ignore => some false
  | policy =>
    match verifyBundle hardy service.keystore innerBytes with
    | .valid => some true
    | .invalid _ | .unsigned => if policy = .strict then none else some false

/-- The key to sign a rewritten bundle with, if any; `none` where the given key does not load. -/
def keyToUse (inner : Parsed E) (isSignatureValid : Bool) : Option (Option Key) :=
  if isSignatureValid then
    if service.signKey.isSome || service.signKeyFile.isSome then
      (loadKey service.files service.signKey service.signKeyFile).toOption.map some
    else some (service.keystore.findKeys hardy inner.bundle.primary.source).head?
  else some none

/-- The inner bundle under its new destination. -/
def outline (inner : Parsed E) (payload : Bytes) (rewrittenDest : E) : Outline E where
  source := inner.bundle.primary.source
  destination := rewrittenDest
  lifetime := inner.bundle.primary.lifetime
  flags := some inner.bundle.primary.flags
  payload := payload
  timestamp := inner.bundle.primary.timestamp

def resignSource (inner : Parsed E) : E :=
  (service.securitySource.bind fun s => (hardy.parseEid s).toOption).getD
    inner.bundle.primary.source

/-- Builds the inner bundle anew, and signs it where there is a key to use. -/
def rebuild (inner : Parsed E) (rewrittenDest : E) (isSignatureValid : Bool) :
    Option (Injection E) := do
  let payload ← inner.payload
  let (_, rebuilt) ← (hardy.build (outline inner payload rewrittenDest)).toOption
  match ← service.keyToUse hardy inner isSignatureValid with
  | some key =>
    let secSource := service.resignSource hardy inner
    let (_, signed) ← (signBundle hardy rebuilt key (some secSource)).toOption
    return ⟨signed, rewrittenDest, some (secSource, key)⟩
  | none => return ⟨rebuilt, rewrittenDest, none⟩

def isLocal (dest : E) : Bool :=
  startsWith (hardy.eidString dest) (hardy.eidString service.localNodeEid)

/-- The bundle to inject: the inner bundle as it came, or built anew under its new destination. -/
def finalBundle (innerBytes : Bytes) (inner : Parsed E) (rewritten : E × Bool)
    (isSignatureValid : Bool) : Option (Injection E) :=
  if rewritten.2 then service.rebuild hardy inner rewritten.1 isSignatureValid
  else some ⟨innerBytes, rewritten.1, none⟩

/-- The inner bundle that is injected for an outer one, unless it is dropped. -/
def onDeliver (data : Bytes) : Option (Injection E) := do
  let innerBytes ← innerBundleBytes hardy data
  let inner ← (hardy.parse innerBytes).toOption
  let isSignatureValid ← service.checkSignature hardy innerBytes
  let rewritten ← (service.rewriteEid hardy inner.bundle.primary.destination).toOption
  guard (service.isLocal hardy rewritten.1 || !service.noTransit)
  let final ← service.finalBundle hardy innerBytes inner rewritten isSignatureValid
  guard service.sink
  return final

end BibService

/-- The verifiers accept a bundle exactly when each of its BIBs verifies under the key that they are
given for its own security source. -/
def ChecksBibs (hardy : Hardy E) (verified : Parsed E → OperationSet E → Key → Prop) : Prop :=
  ∀ parsed keys, runChecks hardy parsed keys = .ok () ↔
    ∀ bib ∈ parsed.bibs, ∃ key, keys bib.2.source = some key ∧ verified parsed bib.2 key

section Signatures

variable {hardy : Hardy E} {verified : Parsed E → OperationSet E → Key → Prop}

theorem verified_of_valid (h : ChecksBibs hardy verified) {store : KeyStore} {data : Bytes}
    {parsed : Parsed E} (hparse : hardy.parse data = .ok parsed)
    (hvalid : verifyBundle hardy store data = .valid) {bib : Nat × OperationSet E}
    (hbib : bib ∈ parsed.bibs) :
    ∃ key ∈ store.findKeys hardy bib.2.source, verified parsed bib.2 key := by
  have hchecks : runChecks hardy parsed (store.key hardy) = .ok () := by
    unfold verifyBundle at hvalid
    simp only [hparse] at hvalid
    split at hvalid
    · cases hvalid
    · split at hvalid
      · cases hvalid
      · split at hvalid
        · cases hvalid
        · next hok => exact hok
  obtain ⟨key, hkey, hverified⟩ := (h parsed _).mp hchecks bib hbib
  rw [← store.head?_findKeys hardy] at hkey
  exact ⟨key, List.mem_of_head? hkey, hverified⟩

namespace BibService

variable {service : BibService E} {data innerBytes : Bytes} {inner : Parsed E}

/-- The bundle's own source signed its payload. -/
def SourceSigned (inner : Parsed E) : Prop :=
  ∃ bib ∈ inner.bibs, bib.2.source = inner.bundle.primary.source ∧ payloadBlock ∈ bib.2.targets

variable (hardy service) in
/-- The conditions under which an inner bundle is signed again with a key of the store: it is valid,
its destination is rewritten and not dropped as transit, the store has a key for its source, and the
bundle can be built and signed. -/
def ReSigns (innerBytes : Bytes) (inner : Parsed E) : Prop :=
  service.policy ≠ .ignore ∧ verifyBundle hardy service.keystore innerBytes = .valid ∧
    ∃ dest, service.rewriteEid hardy inner.bundle.primary.destination = .ok (dest, true) ∧
      (service.isLocal hardy dest || !service.noTransit) = true ∧
      ∃ key, (service.keystore.findKeys hardy inner.bundle.primary.source).head? = some key ∧
        ∃ payload, inner.payload = some payload ∧
          ∃ rebuilt, hardy.build (outline inner payload dest) = .ok rebuilt ∧
            (∃ signed, signBundle hardy rebuilt.2 key (some inner.bundle.primary.source) =
              .ok signed) ∧ service.sink = true

/-- Neither a key to sign with nor a security source is given. -/
def SignsFromStore (service : BibService E) : Prop :=
  service.signKey = none ∧ service.signKeyFile = none ∧ service.securitySource = none

theorem keyToUse_eq (h : service.SignsFromStore) (isSignatureValid : Bool) :
    service.keyToUse hardy inner isSignatureValid =
      some (if isSignatureValid then
        (service.keystore.findKeys hardy inner.bundle.primary.source).head? else none) := by
  obtain ⟨hkey, hfile, _⟩ := h
  unfold keyToUse
  rw [hkey, hfile]
  cases isSignatureValid <;> rfl

theorem resignSource_eq (h : service.SignsFromStore) :
    service.resignSource hardy inner = inner.bundle.primary.source := by
  unfold resignSource
  rw [h.2.2]
  rfl

theorem rebuild_signed_iff (h : service.SignsFromStore) {dest X : E} {isSignatureValid : Bool}
    {key : Key} :
    (∃ injection, service.rebuild hardy inner dest isSignatureValid = some injection ∧
        injection.signature = some (X, key)) ↔
      isSignatureValid = true ∧ inner.bundle.primary.source = X ∧
        (service.keystore.findKeys hardy inner.bundle.primary.source).head? = some key ∧
          ∃ payload, inner.payload = some payload ∧
            ∃ rebuilt, hardy.build (outline inner payload dest) = .ok rebuilt ∧
              ∃ signed, signBundle hardy rebuilt.2 key (some inner.bundle.primary.source) =
                .ok signed := by
  unfold rebuild
  simp only [keyToUse_eq h, resignSource_eq h, bind, Option.bind_eq_some_iff, toOption_eq_some_iff]
  constructor
  · rintro ⟨injection, ⟨payload, hpayload, rebuilt, hbuild, use, huse, hfinal⟩, hsignature⟩
    obtain rfl := Option.some.inj huse
    split at hfinal
    · next key' huse' =>
      obtain ⟨signed, hsign, hfinal⟩ := Option.bind_eq_some_iff.mp hfinal
      cases hfinal
      cases hsignature
      cases isSignatureValid with
      | false => cases huse'
      | true => exact ⟨rfl, rfl, huse', payload, hpayload, rebuilt, hbuild, signed,
          toOption_eq_some_iff.mp hsign⟩
    · cases hfinal
      cases hsignature
  · rintro ⟨rfl, rfl, hhead, payload, hpayload, rebuilt, hbuild, signed, hsign⟩
    refine ⟨⟨signed.2, dest, some (_, key)⟩, ⟨payload, hpayload, rebuilt, hbuild, some key, ?_, ?_⟩,
      rfl⟩
    · rw [if_pos rfl, hhead]
    · exact Option.bind_eq_some_iff.mpr ⟨signed, toOption_eq_some_iff.mpr hsign, rfl⟩

theorem checkSignature_eq_true :
    service.checkSignature hardy innerBytes = some true ↔
      service.policy ≠ .ignore ∧ verifyBundle hardy service.keystore innerBytes = .valid := by
  unfold checkSignature
  cases hpolicy : service.policy <;>
    cases verifyBundle hardy service.keystore innerBytes <;> simp

/-- The bundles that are signed again, and what they are signed with. -/
theorem onDeliver_signed_iff (h : service.SignsFromStore) {X : E} :
    (∃ injection key, service.onDeliver hardy data = some injection ∧
        injection.signature = some (X, key)) ↔
      ∃ innerBytes inner, innerBundleBytes hardy data = some innerBytes ∧
        hardy.parse innerBytes = .ok inner ∧ ReSigns hardy service innerBytes inner ∧
          inner.bundle.primary.source = X := by
  unfold onDeliver ReSigns
  simp only [bind, Option.bind_eq_some_iff, toOption_eq_some_iff, Option.guard_eq_some']
  constructor
  · rintro ⟨injection, key, ⟨innerBytes, hbytes, inner, hparse, valid, hvalid, ⟨dest, rewritten⟩,
      hrewrite, _, hlocal, final, hfinal, _, hsink, hout⟩, hsignature⟩
    cases hout
    cases rewritten with
    | false =>
      cases hfinal
      cases hsignature
    | true =>
      obtain ⟨rfl, hX, hhead, payload, hpayload, rebuilt, hbuild, hsign⟩ :=
        (rebuild_signed_iff h).mp ⟨injection, hfinal, hsignature⟩
      obtain ⟨hpolicy, hverify⟩ := checkSignature_eq_true.mp hvalid
      exact ⟨innerBytes, inner, hbytes, hparse, ⟨hpolicy, hverify, dest, hrewrite, hlocal, key, hhead,
        payload, hpayload, rebuilt, hbuild, hsign, hsink⟩, hX⟩
  · rintro ⟨innerBytes, inner, hbytes, hparse, ⟨hpolicy, hverify, dest, hrewrite, hlocal, key, hhead,
      payload, hpayload, rebuilt, hbuild, hsign, hsink⟩, hX⟩
    obtain ⟨injection, hfinal, hsignature⟩ := (rebuild_signed_iff h).mpr
      ⟨rfl, hX, hhead, payload, hpayload, rebuilt, hbuild, hsign⟩
    exact ⟨injection, key, ⟨innerBytes, hbytes, inner, hparse, true,
      checkSignature_eq_true.mpr ⟨hpolicy, hverify⟩, (dest, true), hrewrite, (), hlocal, injection,
      hfinal, (), hsink, rfl⟩, hsignature⟩

end BibService

open BibService

/-- Whoever a bundle is signed again for with a key of the store had signed the payload of the inner
bundle, with a key that the store has for that source. -/
def Authentic (hardy : Hardy E) (verified : Parsed E → OperationSet E → Key → Prop)
    (service : BibService E) (data : Bytes) : Prop :=
  ∀ injection X key, service.onDeliver hardy data = some injection →
    injection.signature = some (X, key) →
      ∃ innerBytes inner, innerBundleBytes hardy data = some innerBytes ∧
        hardy.parse innerBytes = .ok inner ∧ inner.bundle.primary.source = X ∧
          ∃ bib ∈ inner.bibs, bib.2.source = X ∧ payloadBlock ∈ bib.2.targets ∧
            ∃ key ∈ service.keystore.findKeys hardy X, verified inner bib.2 key

/-- `dtnbib` signs an inner bundle again only in the name of a source whose own signature over the
payload verified, exactly when the bundle that it signs again was signed by its own source. -/
theorem resigned_authentic_iff (h : ChecksBibs hardy verified) (service : BibService E)
    (hstore : service.SignsFromStore) (data : Bytes) :
    Authentic hardy verified service data ↔
      ∀ innerBytes inner, innerBundleBytes hardy data = some innerBytes →
        hardy.parse innerBytes = .ok inner → ReSigns hardy service innerBytes inner →
          SourceSigned inner := by
  constructor
  · intro hauthentic innerBytes inner hbytes hparse hsigns
    obtain ⟨injection, key, hout, hsignature⟩ := (onDeliver_signed_iff hstore).mpr
      ⟨innerBytes, inner, hbytes, hparse, hsigns, rfl⟩
    obtain ⟨innerBytes', inner', hbytes', hparse', _, bib, hbib, hsource, htarget, _⟩ :=
      hauthentic injection _ key hout hsignature
    rw [hbytes] at hbytes'
    cases hbytes'
    rw [hparse] at hparse'
    cases hparse'
    exact ⟨bib, hbib, hsource, htarget⟩
  · intro hsigned injection X key hout hsignature
    obtain ⟨innerBytes, inner, hbytes, hparse, hsigns, rfl⟩ := (onDeliver_signed_iff hstore).mp
      ⟨injection, key, hout, hsignature⟩
    obtain ⟨bib, hbib, hsource, htarget⟩ := hsigned innerBytes inner hbytes hparse hsigns
    refine ⟨innerBytes, inner, hbytes, hparse, rfl, bib, hbib, hsource, htarget, ?_⟩
    rw [← hsource]
    exact verified_of_valid h hparse hsigns.2.1 hbib

end Signatures

open BibService

/-- The keys that the members of a small network sign with. -/
def memberKey (member : String) : Key := if member = "dtn://y/out" then [2] else [1]

/-- Bundles named by an octet: 0 is the outer bundle, whose payload is the inner bundle 1; 2 is what
is built from bundle 1, and 3 is bundle 2 signed.  All but the outer one are from member `x`, and
`signer` signed bundle 1. -/
def memberHardy (signer : String) : Hardy String where
  eidString eid := eid
  parseEid s := .ok s
  parse
    | [0x9F, n] => .ok (memberBundle n)
    | _ => .error "expecting Array"
  build _ := .ok ((memberBundle 2).bundle, [0x9F, 2])
  signBlock _ _ _ _ _ := .ok (.ok [0x9F, 3])
  verifyAllBibs parsed keys :=
    if ∀ bib ∈ parsed.bibs, keys bib.2.source = some (memberKey bib.2.source) then .ok ()
    else .error "integrity check failed"
  beginPayloadVerification _ _ := .ok []
  emit _ := []
  tokens _ := []
where
  memberBundle (n : UInt8) : Parsed String :=
    { data := [0x9F, n]
      bundle :=
        { primary :=
            { source := if n = 0 then "dtn://gateway/" else "dtn://x/out", timestamp := ⟨none, 0⟩,
              fragment := none, flags := 0, destination := "dtn://club/in", reportTo := "dtn:none",
              lifetime := 3600 }
          blocks := [(1, ⟨.payload, some (if n = 0 then [0x9F, 1] else [7])⟩)] }
      bibs := if n = 1 then [(2, ⟨signer, [1]⟩)] else [] }

theorem memberHardy_checks (signer : String) :
    ChecksBibs (memberHardy signer) fun _ bib key => key = memberKey bib.source := by
  intro parsed keys
  have hrun : runChecks (memberHardy signer) parsed keys = .ok () ↔
      ∀ bib ∈ parsed.bibs, keys bib.2.source = some (memberKey bib.2.source) := by
    show ((if ∀ bib ∈ parsed.bibs, keys bib.2.source = some (memberKey bib.2.source) then .ok ()
      else .error "integrity check failed" : Except String Unit) >>= fun _ => .ok ()) = .ok () ↔ _
    split
    · next hall => exact iff_of_true rfl hall
    · next hsome => exact iff_of_false nofun hsome
  rw [hrun]
  simp

/-- The gateway of the club, with the keys of its members `x` and `y`. -/
def gateway : BibService String where
  localNodeEid := "dtn://club-2/"
  aliasMappings := [("dtn://club/", "dtn://club-2/")]
  noTransit := false
  keystore := ⟨[("dtn://x/*", [1]), ("dtn://y/*", [2])]⟩
  policy := .strict
  signKey := none
  signKeyFile := none
  securitySource := none
  sink := true
  files := { read := fun _ => .error "no file", parseKeyData := fun data _ => .ok data }

/-- A bundle of member `x` that `x` signed. -/
theorem resigned_authentic_iff_own :
    Authentic (memberHardy "dtn://x/out") (fun _ bib key => key = memberKey bib.source) gateway
        [0x9F, 0] ↔
      ∀ innerBytes inner, innerBundleBytes (memberHardy "dtn://x/out") [0x9F, 0] =
          some innerBytes →
        (memberHardy "dtn://x/out").parse innerBytes = .ok inner →
          ReSigns (memberHardy "dtn://x/out") gateway innerBytes inner → SourceSigned inner :=
  resigned_authentic_iff (memberHardy_checks "dtn://x/out") gateway ⟨rfl, rfl, rfl⟩ [0x9F, 0]

/-- A bundle in the name of member `x` that member `y` signed leaves the gateway signed with the key
of `x`. -/
theorem forged_source_is_resigned :
    ¬Authentic (memberHardy "dtn://y/out") (fun _ bib key => key = memberKey bib.source) gateway
      [0x9F, 0] := by
  intro h
  have hout : gateway.onDeliver (memberHardy "dtn://y/out") [0x9F, 0] =
      some ⟨[0x9F, 3], "dtn://club-2/in", some ("dtn://x/out", [1])⟩ := by decide +kernel
  obtain ⟨innerBytes, inner, hbytes, hparse, _, bib, hbib, hsource, _⟩ := h _ _ _ hout rfl
  obtain rfl : [0x9F, 1] = innerBytes := Option.some.inj hbytes
  obtain rfl : memberHardy.memberBundle "dtn://y/out" 1 = inner :=
    Except.ok.inj hparse
  obtain rfl := List.mem_singleton.mp hbib
  exact absurd hsource (by decide)

end HdyUtils.Bibe
