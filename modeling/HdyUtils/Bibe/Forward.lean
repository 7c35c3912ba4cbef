import HdyUtils.Lib.Results
import HdyUtils.Security.Keys

/-! The forwarder `dtnforward` (`dtnforward.rs`), which wraps each bundle that it receives in an outer
bundle, and the depth by which it tells a forwarding loop. -/

namespace HdyUtils.Bibe

open Security Results

variable {E : Type}

/-- The record type of an encapsulated bundle. -/
def bibePduType : UInt64 := 64443

/-- The CBOR of a BIBE PDU. -/
def bibePdu (transmissionId : UInt64) (data : Bytes) : List Cbor.Token :=
  Cbor.emitArray [[.uint bibePduType],
    Cbor.emitArray [[.uint transmissionId], [.uint 0], [.bytes data]]]

/-- What the forwarder relies on in the `hardy` crates. -/
structure LawfulBundles (hardy : Hardy E) : Prop where
  payload_lt : ∀ data parsed payload, hardy.parse data = .ok parsed →
    parsed.payload = some payload → payload.length < data.length
  parse_build : ∀ outline bundle data, hardy.build outline = .ok (bundle, data) →
    ∃ parsed, hardy.parse data = .ok parsed ∧ parsed.payload = some outline.payload
  parse_sign : ∀ data parsed source key signed parsed', hardy.parse data = .ok parsed →
    hardy.signBlock parsed.bundle data payloadBlock source key = .ok (.ok signed) →
    hardy.parse signed = .ok parsed' → parsed'.payload = parsed.payload
  parse_pdu : ∀ transmissionId data,
    ∃ message, hardy.parse (hardy.emit (bibePdu transmissionId data)) = .error message

section Depth

variable (hardy : Hardy E)

/-- The loop of `get_bundle_depth`. -/
def depthLoop : Nat → Bytes → Nat
  | 0, _ => 0
  | fuel + 1, data =>
    match hardy.parse data with
    | .error _ => 0
    | .ok parsed =>
      match parsed.payload with
      | some payload => 1 + depthLoop fuel payload
      | none => 1

/-- The nesting depth of a bundle.  A payload is shorter than its bundle, so that the loop ends before
the fuel does. -/
def getBundleDepth (data : Bytes) : Nat := depthLoop hardy (data.length + 1) data

variable {hardy}

theorem depthLoop_fuel (h : LawfulBundles hardy) {fuel fuel' : Nat} {data : Bytes}
    (hfuel : data.length < fuel) (hfuel' : data.length < fuel') :
    depthLoop hardy fuel data = depthLoop hardy fuel' data := by
  induction fuel generalizing fuel' data with
  | zero => omega
  | succ fuel ih =>
    obtain _ | fuel' := fuel'
    · omega
    · unfold depthLoop
      cases hparse : hardy.parse data with
      | error message => rfl
      | ok parsed =>
        cases hpayload : parsed.payload with
        | none => simp only [hpayload]
        | some payload =>
          have := h.payload_lt data parsed payload hparse hpayload
          simp only [hpayload]
          exact congrArg (1 + ·) (ih (by omega) (by omega))

theorem getBundleDepth_error {data : Bytes} {message : String}
    (hparse : hardy.parse data = .error message) : getBundleDepth hardy data = 0 := by
  unfold getBundleDepth depthLoop
  rw [hparse]

theorem getBundleDepth_pos {data : Bytes} {parsed : Parsed E}
    (hparse : hardy.parse data = .ok parsed) : 1 ≤ getBundleDepth hardy data := by
  unfold getBundleDepth depthLoop
  rw [hparse]
  show 1 ≤ match parsed.payload with
    | some payload => 1 + depthLoop hardy data.length payload
    | none => 1
  split <;> omega

theorem getBundleDepth_payload (h : LawfulBundles hardy) {data payload : Bytes} {parsed : Parsed E}
    (hparse : hardy.parse data = .ok parsed) (hpayload : parsed.payload = some payload) :
    getBundleDepth hardy data = 1 + getBundleDepth hardy payload := by
  have hlt := h.payload_lt data parsed payload hparse hpayload
  rw [getBundleDepth, depthLoop, hparse]
  simp only [hpayload]
  exact congrArg (1 + ·) (depthLoop_fuel h hlt (by omega))

end Depth

/-- The time of an action: the clock, and the creation timestamp that it gives. -/
structure Moment where
  now : Int
  timestamp : CreationTimestamp

/-- What is left of a bundle's lifetime, in whole seconds of its age. -/
def getRemainingLifetime (bundle : Bundle E) (now : Int) : Option Duration :=
  match bundle.primary.timestamp.datetime with
  | some createdAt =>
    let age := now - createdAt
    if age < 0 then some bundle.primary.lifetime
    else
      let ageDuration := Duration.fromSecs (age.toNat / Duration.fromSecs 1)
      if ageDuration ≤ bundle.primary.lifetime then some (bundle.primary.lifetime - ageDuration)
      else none
  | none => none

structure ForwardService (E : Type) where
  targetDestination : E
  senderEid : E
  keystore : KeyStore
  policy : VerifyPolicy
  /-- The lifetime of outer bundles in seconds, where one is given. -/
  lifetime : Option Nat
  lifetimeDefault : Nat
  maxDepth : Nat
  outerSignKey : Option String
  outerSignKeyFile : Option String
  outerSecuritySource : Option String
  raw : Bool
  /-- The sink for outer bundles is there. -/
  sink : Bool
  files : KeyFiles
  /-- The hash that a `DefaultHasher` makes of a bundle. -/
  hash : Bytes → UInt64

namespace ForwardService

variable (hardy : Hardy E) (service : ForwardService E)

/-- The verification policy lets the bundle through. -/
def admits (data : Bytes) : Bool :=
  match service.policy with
  | .ignore => true
  | policy =>
    match verifyBundle hardy service.keystore data with
    | .valid => true
    | .invalid _ | .unsigned => policy != .strict

/-- The bundle is nested too deep. -/
def tooDeep (data : Bytes) : Bool :=
  decide (0 < service.maxDepth) && decide (service.maxDepth ≤ getBundleDepth hardy data)

def outerLifetime (data : Bytes) (now : Int) : Duration :=
  match service.lifetime with
  | some lifetime => .fromSecs lifetime
  | none =>
    (((hardy.parse data).toOption.bind fun parsed =>
      getRemainingLifetime parsed.bundle now).filter (0 < ·)).getD
      (.fromSecs service.lifetimeDefault)

def transmissionId (data : Bytes) : UInt64 := service.hash data &&& 0x7FFFFFFF

def outerPayload (data : Bytes) : Bytes :=
  if service.raw then data else hardy.emit (bibePdu (service.transmissionId data) data)

/-- The outer bundle that is dispatched for a bundle, unless the bundle is dropped. -/
def onDeliver (moment : Moment) (data : Bytes) : Option Bytes := do
  guard (service.admits hardy data)
  guard (!service.tooDeep hardy data)
  let (outerBundle, outerBinbundle) ← (hardy.build
    { source := service.senderEid
      destination := service.targetDestination
      lifetime := service.outerLifetime hardy data moment.now
      flags := none
      payload := service.outerPayload hardy data
      timestamp := moment.timestamp }).toOption
  let (_, outerBinbundle) ← (maybeSignBundle hardy service.files outerBundle outerBinbundle
    service.outerSignKey service.outerSignKeyFile service.outerSecuritySource).toOption
  guard service.sink
  return outerBinbundle

end ForwardService

/-- A bundle passes a forwarder at a moment. -/
structure Hop (E : Type) where
  service : ForwardService E
  moment : Moment

/-- What comes of a bundle that goes through forwarders one after another, each encapsulating what
the one before dispatched. -/
def forwardAll (hardy : Hardy E) (hops : List (Hop E)) (data : Bytes) : Option Bytes :=
  hops.foldlM (fun data hop => hop.service.onDeliver hardy hop.moment data) data

variable {hardy : Hardy E}

theorem signBundle_payload (h : LawfulBundles hardy) {data signed : Bytes} {key : Key}
    {source : Option E} {bundle : Bundle E} {parsed : Parsed E}
    (hparse : hardy.parse data = .ok parsed)
    (hsign : signBundle hardy data key source = .ok (bundle, signed)) :
    ∃ parsed', hardy.parse signed = .ok parsed' ∧ parsed'.payload = parsed.payload := by
  unfold signBundle at hsign
  simp only [bind_eq_ok_iff, mapError_eq_ok_iff] at hsign
  obtain ⟨unsigned, hunsigned, signer, hsigner, signedBytes, hrebuilt, parsed', hparse', hout⟩ := hsign
  rw [hparse] at hunsigned
  cases hunsigned
  cases hrebuilt
  cases hout
  exact ⟨parsed', hparse', h.parse_sign data parsed _ key signed parsed' hparse hsigner hparse'⟩

theorem maybeSignBundle_payload (h : LawfulBundles hardy) {files : KeyFiles}
    {bundle bundle' : Bundle E} {data signed : Bytes}
    {signKey signKeyFile securitySource : Option String} {parsed : Parsed E}
    (hparse : hardy.parse data = .ok parsed)
    (hsign : maybeSignBundle hardy files bundle data signKey signKeyFile securitySource =
      .ok (bundle', signed)) :
    ∃ parsed', hardy.parse signed = .ok parsed' ∧ parsed'.payload = parsed.payload := by
  unfold maybeSignBundle at hsign
  split at hsign
  · simp only [bind_eq_ok_iff] at hsign
    obtain ⟨key, _, source, _, hsign⟩ := hsign
    exact signBundle_payload h hparse hsign
  · cases hsign
    exact ⟨parsed, hparse, rfl⟩

namespace ForwardService

variable {service : ForwardService E} {moment : Moment} {data out : Bytes}

/-- What is dispatched parses, with the outer payload as its payload. -/
theorem onDeliver_payload (h : LawfulBundles hardy)
    (hout : service.onDeliver hardy moment data = some out) :
    ∃ parsed, hardy.parse out = .ok parsed ∧
      parsed.payload = some (service.outerPayload hardy data) := by
  unfold onDeliver at hout
  simp only [bind, Option.bind_eq_some_iff, Option.guard_eq_some', toOption_eq_some_iff] at hout
  obtain ⟨_, _, _, _, ⟨bundle, built⟩, hbuild, ⟨bundle', signed⟩, hsign, _, _, hout⟩ := hout
  cases hout
  obtain ⟨parsed, hparse, hpayload⟩ := h.parse_build _ _ _ hbuild
  obtain ⟨parsed', hparse', hsame⟩ := maybeSignBundle_payload h hparse hsign
  exact ⟨parsed', hparse', hsame.trans hpayload⟩

theorem onDeliver_tooDeep (hdeep : service.tooDeep hardy data = true) :
    service.onDeliver hardy moment data = none := by
  unfold onDeliver
  rw [hdeep]
  cases service.admits hardy data <;> rfl

/-- Wrapping a bundle raw makes it deeper by one. -/
theorem depth_raw (h : LawfulBundles hardy) (hraw : service.raw = true)
    (hout : service.onDeliver hardy moment data = some out) :
    getBundleDepth hardy out = 1 + getBundleDepth hardy data := by
  obtain ⟨parsed, hparse, hpayload⟩ := onDeliver_payload h hout
  rw [outerPayload, if_pos hraw] at hpayload
  exact getBundleDepth_payload h hparse hpayload

/-- Wrapping a bundle in a BIBE PDU hides its depth. -/
theorem depth_pdu (h : LawfulBundles hardy) (hpdu : service.raw = false)
    (hout : service.onDeliver hardy moment data = some out) : getBundleDepth hardy out = 1 := by
  obtain ⟨parsed, hparse, hpayload⟩ := onDeliver_payload h hout
  rw [outerPayload, hpdu, if_neg Bool.false_ne_true] at hpayload
  obtain ⟨message, herror⟩ := h.parse_pdu (service.transmissionId data) data
  rw [getBundleDepth_payload h hparse hpayload, getBundleDepth_error herror]

end ForwardService

open ForwardService

variable {hops : List (Hop E)} {data out : Bytes}

theorem forwardAll_cons {hop : Hop E} : forwardAll hardy (hop :: hops) data = some out ↔
    ∃ mid, hop.service.onDeliver hardy hop.moment data = some mid ∧
      forwardAll hardy hops mid = some out := by
  unfold forwardAll
  rw [List.foldlM_cons]
  exact Option.bind_eq_some_iff

theorem depth_le (h : LawfulBundles hardy) (hout : forwardAll hardy hops data = some out)
    (hdata : 1 ≤ getBundleDepth hardy data) :
    getBundleDepth hardy out ≤ getBundleDepth hardy data + hops.length := by
  induction hops generalizing data with
  | nil =>
    cases hout
    exact le_rfl
  | cons hop hops ih =>
    obtain ⟨mid, hmid, hrest⟩ := forwardAll_cons.mp hout
    rw [List.length_cons]
    cases hraw : hop.service.raw with
    | true =>
      have hdepth := depth_raw h hraw hmid
      have := ih hrest (by omega)
      omega
    | false =>
      have hdepth := depth_pdu h hraw hmid
      have := ih hrest (by omega)
      omega

/-- Where every forwarder wraps raw, each makes the bundle deeper by one. -/
theorem depth_of_raw (h : LawfulBundles hardy) (hout : forwardAll hardy hops data = some out)
    (hraw : ∀ hop ∈ hops, hop.service.raw = true) :
    getBundleDepth hardy out = getBundleDepth hardy data + hops.length := by
  induction hops generalizing data with
  | nil =>
    cases hout
    rfl
  | cons hop hops ih =>
    obtain ⟨mid, hmid, hrest⟩ := forwardAll_cons.mp hout
    have hdepth := depth_raw h (hraw hop List.mem_cons_self) hmid
    have := ih hrest fun hop' hmem => hraw hop' (List.mem_cons_of_mem hop hmem)
    rw [List.length_cons]
    omega

/-- One forwarder that wraps in a BIBE PDU leaves the depth behind the number of hops for good. -/
theorem depth_of_pdu (h : LawfulBundles hardy) (hout : forwardAll hardy hops data = some out)
    {hop : Hop E} (hmem : hop ∈ hops) (hpdu : hop.service.raw = false) :
    getBundleDepth hardy out ≤ hops.length := by
  induction hops generalizing data with
  | nil => cases hmem
  | cons first hops ih =>
    obtain ⟨mid, hmid, hrest⟩ := forwardAll_cons.mp hout
    rw [List.length_cons]
    rcases List.mem_cons.mp hmem with rfl | hmem
    · have hdepth := depth_pdu h hpdu hmid
      have := depth_le h hrest (by omega)
      omega
    · have := ih hrest hmem
      omega

/-- A bundle that went through forwarders is as deep as the hops it made, and is dropped by every
forwarder whose limit those hops reach, exactly when every forwarder wrapped it raw. -/
theorem depth_counts_iff (h : LawfulBundles hardy) {parsed : Parsed E}
    (hdata : hardy.parse data = .ok parsed) (hout : forwardAll hardy hops data = some out) :
    (hops.length + 1 ≤ getBundleDepth hardy out ∧
      ∀ (service : ForwardService E) (moment : Moment), 0 < service.maxDepth →
        service.maxDepth ≤ hops.length → service.onDeliver hardy moment out = none) ↔
      ∀ hop ∈ hops, hop.service.raw = true := by
  constructor
  · rintro ⟨hdeep, _⟩ hop hmem
    cases hraw : hop.service.raw with
    | true => rfl
    | false =>
      have := depth_of_pdu h hout hmem hraw
      omega
  · intro hraw
    have hstart := getBundleDepth_pos hdata
    have hdepth := depth_of_raw h hout hraw
    refine ⟨by omega, fun service moment hpos hle => onDeliver_tooDeep ?_⟩
    unfold tooDeep
    rw [decide_eq_true hpos, Bool.true_and, decide_eq_true_iff]
    omega

/-- The head of a CBOR item: its major type and its argument in as few octets as hold it. -/
def cborHead (major : UInt8) (n : Nat) : Bytes :=
  let octets (len : Nat) := (List.range len).reverse.map fun i => UInt8.ofNat (n / 256 ^ i)
  if n < 24 then [major * 32 + UInt8.ofNat n]
  else if n < 256 then (major * 32 + 24) :: octets 1
  else if n < 65536 then (major * 32 + 25) :: octets 2
  else if n < 4294967296 then (major * 32 + 26) :: octets 4
  else (major * 32 + 27) :: octets 8

/-- The encoding of the tokens that a BIBE PDU is made of. -/
def cborToken : Cbor.Token → Bytes
  | .uint n => cborHead 0 n.toNat
  | .bytes data => cborHead 2 data.length ++ data
  | .array (some count) => cborHead 4 count
  | _ => [0xF6]

/-- Bundles that are the octet that opens an indefinite array, and the payload. -/
def plainHardy : Hardy String where
  eidString eid := eid
  parseEid s := .ok s
  parse
    | 0x9F :: payload => .ok (plainParsed payload)
    | _ => .error "expecting Array"
  build outline := .ok ((plainParsed outline.payload).bundle, 0x9F :: outline.payload)
  signBlock _ _ _ _ _ := .error "no signer"
  verifyAllBibs _ _ := .ok ()
  beginPayloadVerification _ _ := .ok []
  emit tokens := tokens.flatMap cborToken
  tokens _ := []
where
  plainParsed (payload : Bytes) : Parsed String :=
    { data := 0x9F :: payload
      bundle :=
        { primary :=
            { source := "dtn://node1/out", timestamp := ⟨none, 0⟩, fragment := none, flags := 0,
              destination := "dtn://node2/incoming", reportTo := "dtn:none", lifetime := 3600 }
          blocks := [(1, ⟨.payload, some payload⟩)] }
      bibs := [] }

theorem plainHardy_parse {data : Bytes} {parsed : Parsed String}
    (hparse : plainHardy.parse data = .ok parsed) :
    ∃ payload, data = 0x9F :: payload ∧ parsed = plainHardy.plainParsed payload := by
  unfold plainHardy at hparse
  simp only at hparse
  split at hparse
  · next payload =>
    cases hparse
    exact ⟨payload, rfl, rfl⟩
  · cases hparse

theorem plainHardy_lawful : LawfulBundles plainHardy where
  payload_lt data parsed payload hparse hpayload := by
    obtain ⟨payload', rfl, rfl⟩ := plainHardy_parse hparse
    cases hpayload
    exact Nat.lt_succ_self _
  parse_build outline bundle data hbuild := by
    cases hbuild
    exact ⟨_, rfl, rfl⟩
  parse_sign data parsed source key signed parsed' _ hsign := nomatch hsign
  parse_pdu transmissionId data := ⟨"expecting Array", rfl⟩

/-- A forwarder with a limit of `maxDepth`. -/
def plainForwarder (maxDepth : Nat) (raw : Bool) : ForwardService String where
  targetDestination := "dtn://node3/bibe"
  senderEid := "dtn://node2/"
  keystore := .empty
  policy := .warn
  lifetime := none
  lifetimeDefault := 3600
  maxDepth := maxDepth
  outerSignKey := none
  outerSignKeyFile := none
  outerSecuritySource := none
  raw := raw
  sink := true
  files := { read := fun _ => .error "no file", parseKeyData := fun data _ => .ok data }
  hash := fun data => UInt64.ofNat data.sum.toNat

def plainHop (maxDepth : Nat) (raw : Bool) : Hop String := ⟨plainForwarder maxDepth raw, 0, ⟨none, 0⟩⟩

/-- Two forwarders, of which the first wraps raw and the second in a BIBE PDU. -/
def mixedHops : List (Hop String) := [plainHop 10 true, plainHop 10 false]

theorem depth_counts_iff_mixed :
    ∃ out, forwardAll plainHardy mixedHops [0x9F, 7] = some out ∧
      ((mixedHops.length + 1 ≤ getBundleDepth plainHardy out ∧
        ∀ (service : ForwardService String) (moment : Moment), 0 < service.maxDepth →
          service.maxDepth ≤ mixedHops.length → service.onDeliver plainHardy moment out = none) ↔
        ∀ hop ∈ mixedHops, hop.service.raw = true) := by
  have hparse : plainHardy.parse [0x9F, 7] = .ok (plainHardy.plainParsed [7]) := rfl
  obtain ⟨out, hout⟩ : ∃ out, forwardAll plainHardy mixedHops [0x9F, 7] = some out := ⟨_, rfl⟩
  exact ⟨out, hout, depth_counts_iff plainHardy_lawful hparse hout⟩

/-- A bundle wrapped three times in BIBE PDUs has depth 1, and a forwarder with a limit of 2 wraps it
again. -/
theorem pdu_depth_stays_one :
    ∃ out, forwardAll plainHardy [plainHop 2 false, plainHop 2 false, plainHop 2 false] [0x9F, 7] =
        some out ∧ getBundleDepth plainHardy out = 1 ∧
      ((plainForwarder 2 false).onDeliver plainHardy ⟨0, ⟨none, 0⟩⟩ out).isSome = true :=
  ⟨_, rfl, rfl, rfl⟩

end HdyUtils.Bibe
