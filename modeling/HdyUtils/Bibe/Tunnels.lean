import HdyUtils.Bibe.Decapsulate
import HdyUtils.Lib.BigEndian

/-! Tunnels: a forwarder at one end and a decapsulator at the other.  What goes in comes out as it was,
through as many tunnels inside one another as there are, raw or in BIBE PDUs. -/

namespace HdyUtils.Bibe

open Security Results

variable {E : Type}

/-- What tunnels rely on in the CBOR codec: the tokens of a PDU that holds a bundle are read back, and a
bundle is an array without announced length, of arrays. -/
structure LawfulPdus (hardy : Hardy E) : Prop where
  tokens_pdu : ∀ transmissionId data parsed, hardy.parse data = .ok parsed →
    hardy.tokens (hardy.emit (bibePdu transmissionId data)) = bibePdu transmissionId data
  tokens_bundle : ∀ data parsed, hardy.parse data = .ok parsed →
    ∃ count rest, hardy.tokens data = .array none :: .array count :: rest

/-- A tunnel. -/
structure Tunnel (E : Type) where
  entry : Hop E
  exit : BibService E

/-- What comes of a bundle that goes through tunnels one inside another: the first forwarder's bundle goes
through the others, and what arrives there is decapsulated. -/
def through (hardy : Hardy E) : List (Tunnel E) → Bytes → Option Bytes
  | [], data => some data
  | tunnel :: tunnels, data => do
    let outer ← tunnel.entry.service.onDeliver hardy tunnel.entry.moment data
    let arrived ← through hardy tunnels outer
    let injection ← tunnel.exit.onDeliver hardy arrived
    return injection.binbundle

/-- The destination of a bundle has no alias at the decapsulator. -/
def NoAlias (hardy : Hardy E) (exit : BibService E) (data : Bytes) : Prop :=
  ∀ inner, hardy.parse data = .ok inner → ∀ mapping ∈ exit.aliasMappings,
    startsWith (hardy.eidString inner.bundle.primary.destination) mapping.1 = false

/-- Nothing is rewritten in the tunnels. -/
def Unrewritten (hardy : Hardy E) : List (Tunnel E) → Bytes → Prop
  | [], _ => True
  | tunnel :: tunnels, data => NoAlias hardy tunnel.exit data ∧
    ∀ outer, tunnel.entry.service.onDeliver hardy tunnel.entry.moment data = some outer →
      Unrewritten hardy tunnels outer

/-- The decapsulator lets an inner bundle through. -/
def Admits (hardy : Hardy E) (exit : BibService E) (data : Bytes) : Prop :=
  (exit.checkSignature hardy data).isSome = true ∧
    (∃ inner, hardy.parse data = .ok inner ∧
      (exit.isLocal hardy inner.bundle.primary.destination || !exit.noTransit) = true) ∧
    exit.sink = true

/-- Each forwarder dispatches, and each decapsulator lets through what went in. -/
def Carries (hardy : Hardy E) : List (Tunnel E) → Bytes → Prop
  | [], _ => True
  | tunnel :: tunnels, data => Admits hardy tunnel.exit data ∧
    ∃ outer, tunnel.entry.service.onDeliver hardy tunnel.entry.moment data = some outer ∧
      Carries hardy tunnels outer

variable {hardy : Hardy E}

/-- A bundle is not taken for a BIBE PDU. -/
theorem decode_bundle (count : Option Nat) (rest : List Cbor.Token) :
    ∃ e, Cbor.decode parseBibePdu (.array none :: .array count :: rest) = .error e := ⟨_, rfl⟩

/-- The decapsulator finds in what a forwarder dispatched the octets that it was given. -/
theorem innerBundleBytes_onDeliver (h : LawfulBundles hardy) (hpdus : LawfulPdus hardy)
    {service : ForwardService E} {moment : Moment} {data out : Bytes} {parsed : Parsed E}
    (hdata : hardy.parse data = .ok parsed)
    (hout : service.onDeliver hardy moment data = some out) :
    BibService.innerBundleBytes hardy out = some data := by
  obtain ⟨outer, houter, hpayload⟩ := ForwardService.onDeliver_payload h hout
  simp only [BibService.innerBundleBytes, bind, pure, houter, Except.toOption, hpayload,
    Option.bind_some, ForwardService.outerPayload]
  cases service.raw with
  | true =>
    obtain ⟨count, rest, htokens⟩ := hpdus.tokens_bundle data parsed hdata
    obtain ⟨e, hdecode⟩ := decode_bundle count rest
    rw [if_pos rfl, htokens, hdecode]
  | false =>
    rw [if_neg Bool.false_ne_true, hpdus.tokens_pdu _ data parsed hdata, decode_parseBibePdu]

theorem rewriteEid_noAlias {exit : BibService E} {data : Bytes} {inner : Parsed E}
    (hplain : NoAlias hardy exit data) (hparse : hardy.parse data = .ok inner) :
    exit.rewriteEid hardy inner.bundle.primary.destination =
      .ok (inner.bundle.primary.destination, false) := by
  have hnone : (exit.aliasMappings.find? fun mapping =>
      startsWith (hardy.eidString inner.bundle.primary.destination) mapping.1) = none := by
    rw [List.find?_eq_none]
    intro mapping hmapping
    rw [hplain inner hparse mapping hmapping]
    exact Bool.false_ne_true
  simp only [BibService.rewriteEid, hnone]
  rfl

/-- What is injected of a bundle without alias is the inner bundle as it came, if it is let through. -/
theorem onDeliver_eq_some_iff {exit : BibService E} {outer data : Bytes} {inner : Parsed E}
    (hbytes : BibService.innerBundleBytes hardy outer = some data)
    (hparse : hardy.parse data = .ok inner) (hplain : NoAlias hardy exit data) (out : Bytes) :
    (∃ injection, exit.onDeliver hardy outer = some injection ∧ injection.binbundle = out) ↔
      out = data ∧ Admits hardy exit data := by
  have hrewrite := rewriteEid_noAlias hplain hparse
  unfold BibService.onDeliver Admits
  simp only [bind, hbytes, hparse, Except.toOption, hrewrite, Option.bind_some,
    Option.bind_eq_some_iff, Option.guard_eq_some', BibService.finalBundle, Bool.false_eq_true, if_false]
  constructor
  · rintro ⟨injection, ⟨valid, hvalid, _, hlocal, _, hsink, hinjection⟩, rfl⟩
    cases hinjection
    exact ⟨rfl, Option.isSome_iff_exists.mpr ⟨valid, hvalid⟩, ⟨inner, rfl, hlocal⟩, hsink⟩
  · rintro ⟨rfl, hvalid, ⟨inner', hinner', hlocal⟩, hsink⟩
    obtain ⟨valid, hvalid⟩ := Option.isSome_iff_exists.mp hvalid
    cases hinner'
    exact ⟨⟨out, inner.bundle.primary.destination, none⟩, ⟨valid, hvalid, (), hlocal, (),
      hsink, rfl⟩, rfl⟩

/-- Tunnels are transparent.  Through any tunnels one inside another in which nothing is rewritten, a
bundle comes out octet for octet as it went in, exactly if each forwarder dispatches it and each
decapsulator lets it through. -/
theorem tunnels_transparent (h : LawfulBundles hardy) (hpdus : LawfulPdus hardy)
    (tunnels : List (Tunnel E)) {data : Bytes} {parsed : Parsed E}
    (hdata : hardy.parse data = .ok parsed) (hplain : Unrewritten hardy tunnels data)
    (out : Bytes) : through hardy tunnels data = some out ↔ out = data ∧ Carries hardy tunnels data := by
  induction tunnels generalizing data parsed out with
  | nil => simp [through, Carries, eq_comm]
  | cons tunnel tunnels ih =>
    obtain ⟨hhere, hinside⟩ := hplain
    unfold through Carries
    simp only [bind, Option.bind_eq_some_iff]
    cases hentry : tunnel.entry.service.onDeliver hardy tunnel.entry.moment data with
    | none => simp
    | some outer =>
      obtain ⟨outerParsed, houter, -⟩ := ForwardService.onDeliver_payload h hentry
      have hbytes := innerBundleBytes_onDeliver h hpdus hdata hentry
      have hexit := onDeliver_eq_some_iff hbytes hdata hhere out
      have hthrough := ih houter (hinside outer hentry)
      simp only [Option.some.injEq, exists_eq_left', hthrough]
      constructor
      · rintro ⟨arrived, ⟨rfl, hcarries⟩, injection, hinjection, hout⟩
        obtain ⟨hsame, hadmits⟩ := hexit.mp ⟨injection, hinjection, Option.some.inj hout⟩
        exact ⟨hsame, hadmits, hcarries⟩
      · rintro ⟨hsame, hadmits, hcarries⟩
        obtain ⟨injection, hinjection, hout⟩ := hexit.mpr ⟨hsame, hadmits⟩
        exact ⟨outer, ⟨rfl, hcarries⟩, injection, hinjection, congrArg some hout⟩

section Octets

open BigEndian

/-- The major type and the argument at the front of the octets, and the octets after them. -/
def readHead : Bytes → Option (UInt8 × Nat × Bytes)
  | [] => none
  | head :: rest =>
    let width :=
      match head.toNat % 32 with
      | 24 => 1
      | 25 => 2
      | 26 => 4
      | 27 => 8
      | _ => 0
    if head.toNat % 32 < 24 then some (head / 32, head.toNat % 32, rest)
    else some (head / 32, fromBytes (rest.take width), rest.drop width)

/-- The tokens of a PDU. -/
def readTokens : Nat → Bytes → List Cbor.Token
  | 0, _ => []
  | fuel + 1, data =>
    match readHead data with
    | some (0, n, rest) => .uint (UInt64.ofNat n) :: readTokens fuel rest
    | some (2, n, rest) => .bytes (rest.take n) :: readTokens fuel (rest.drop n)
    | some (4, n, rest) => .array (some n) :: readTokens fuel rest
    | _ => []

/-- The tokens that a PDU is made of. -/
def PduToken : Cbor.Token → Prop
  | .uint _ => True
  | .bytes data => data.length < 2 ^ 64
  | .array (some count) => count < 2 ^ 64
  | _ => False

theorem octets_eq (width n : Nat) :
    ((List.range width).reverse.map fun i => UInt8.ofNat (n / 256 ^ i)) = toBytes width n := by
  induction width generalizing n with
  | zero => rfl
  | succ width ih =>
    rw [List.range_succ_eq_map, List.reverse_cons, List.map_append, toBytes, ← ih, ← List.map_reverse,
      List.map_map]
    simp [Function.comp_def, Nat.pow_succ', Nat.div_div_eq_div_mul]

theorem readHead_wide {major : UInt8} (hmajor : major.toNat < 8) (info width : Nat) {n : Nat}
    (hinfo : (info, width) ∈ [(24, 1), (25, 2), (26, 4), (27, 8)]) (hn : n < 256 ^ width)
    (rest : Bytes) :
    readHead ((major * 32 + UInt8.ofNat info) :: (toBytes width n ++ rest)) =
      some (major, n, rest) := by
  have hle : info ≤ 27 := by
    simp at hinfo
    omega
  have hge : 24 ≤ info := by
    simp at hinfo
    omega
  have hhead : (major * 32 + UInt8.ofNat info).toNat = major.toNat * 32 + info := by
    rw [UInt8.toNat_add, UInt8.toNat_mul, UInt8.toNat_ofNat']
    show (major.toNat * 32 % 256 + info % 256) % 256 = _
    omega
  have hdiv : (major * 32 + UInt8.ofNat info) / 32 = major := by
    apply UInt8.toNat_inj.mp
    rw [UInt8.toNat_div, hhead]
    show (major.toNat * 32 + info) / 32 = _
    omega
  have hmod : (major.toNat * 32 + info) % 32 = info := by omega
  unfold readHead
  simp only [hhead, hdiv, hmod]
  rw [if_neg (by omega)]
  have hread : fromBytes (toBytes width n) = n := by
    rw [fromBytes_toBytes, Nat.mod_eq_of_lt hn]
  simp at hinfo
  obtain ⟨rfl, rfl⟩ | ⟨rfl, rfl⟩ | ⟨rfl, rfl⟩ | ⟨rfl, rfl⟩ := hinfo <;>
    simp [List.drop_left', hread]

/-- The head of a CBOR item is read back. -/
theorem readHead_cborHead {major : UInt8} (hmajor : major.toNat < 8) {n : Nat} (hn : n < 2 ^ 64)
    (rest : Bytes) : readHead (cborHead major n ++ rest) = some (major, n, rest) := by
  unfold cborHead
  simp only [octets_eq]
  split
  · next hshort =>
    have hhead : (major * 32 + UInt8.ofNat n).toNat = major.toNat * 32 + n := by
      rw [UInt8.toNat_add, UInt8.toNat_mul, UInt8.toNat_ofNat']
      show (major.toNat * 32 % 256 + n % 256) % 256 = _
      omega
    have hdiv : (major * 32 + UInt8.ofNat n) / 32 = major := by
      apply UInt8.toNat_inj.mp
      rw [UInt8.toNat_div, hhead]
      show (major.toNat * 32 + n) / 32 = _
      omega
    have hmod : (major.toNat * 32 + n) % 32 = n := by omega
    unfold readHead
    simp only [List.singleton_append, hhead, hdiv, hmod]
    rw [if_pos hshort]
  split
  · exact readHead_wide hmajor 24 1 (by simp) (by omega) rest
  split
  · exact readHead_wide hmajor 25 2 (by simp) (by omega) rest
  split
  · exact readHead_wide hmajor 26 4 (by simp) (by omega) rest
  · exact readHead_wide hmajor 27 8 (by simp) (by omega) rest

theorem readTokens_flatMap {tokens : List Cbor.Token} (htokens : ∀ t ∈ tokens, PduToken t)
    {fuel : Nat} (hfuel : tokens.length ≤ fuel) :
    readTokens fuel (tokens.flatMap cborToken) = tokens := by
  induction tokens generalizing fuel with
  | nil => cases fuel <;> rfl
  | cons token tokens ih =>
    obtain _ | fuel := fuel
    · cases hfuel
    have hrest := ih (fun t ht => htokens t (List.mem_cons_of_mem token ht))
      (Nat.le_of_succ_le_succ hfuel)
    have htoken := htokens token List.mem_cons_self
    rw [List.flatMap_cons, readTokens]
    cases token with
    | uint n =>
      rw [cborToken, readHead_cborHead (by decide) n.toNat_lt]
      simp [hrest]
    | bytes data =>
      rw [cborToken, List.append_assoc, readHead_cborHead (by decide) htoken]
      simp [hrest]
    | array count =>
      cases count with
      | none => exact htoken.elim
      | some count =>
        rw [cborToken, readHead_cborHead (by decide) htoken]
        simp [hrest]
    | _ => exact htoken.elim

end Octets

/-- The octets of a bundle or of a PDU fit into memory. -/
def Fits (data : Bytes) : Prop := data.length < 2 ^ 64

instance (data : Bytes) : Decidable (Fits data) := inferInstanceAs (Decidable (_ < _))

/-- `plainHardy` with the tokens of PDUs. -/
def pduHardy : Hardy String :=
  { plainHardy with
    parse := fun data => if Fits data then plainHardy.parse data else .error "out of memory"
    build := fun outline =>
      if Fits (0x9F :: outline.payload) then plainHardy.build outline else .error "out of memory"
    tokens := fun data =>
      match data with
      | 0x9F :: _ => [.array none, .array (some 8)]
      | _ => readTokens data.length data }

theorem pduHardy_parse {data : Bytes} {parsed : Parsed String}
    (hparse : pduHardy.parse data = .ok parsed) :
    Fits data ∧ plainHardy.parse data = .ok parsed := by
  change (if Fits data then plainHardy.parse data else .error "out of memory") = _ at hparse
  split at hparse
  · next hfits => exact ⟨hfits, hparse⟩
  · cases hparse

theorem pduHardy_lawful : LawfulBundles pduHardy where
  payload_lt data parsed payload hparse :=
    plainHardy_lawful.payload_lt data parsed payload (pduHardy_parse hparse).2
  parse_build outline bundle data hbuild := by
    change (if Fits (0x9F :: outline.payload) then plainHardy.build outline
      else .error "out of memory") = _ at hbuild
    split at hbuild
    · next hfits =>
      cases hbuild
      refine ⟨plainHardy.plainParsed outline.payload, ?_, rfl⟩
      exact if_pos hfits
    · cases hbuild
  parse_sign data parsed source key signed parsed' _ hsign := nomatch hsign
  parse_pdu transmissionId data := by
    show ∃ message, (if Fits (plainHardy.emit (bibePdu transmissionId data)) then
      plainHardy.parse (plainHardy.emit (bibePdu transmissionId data))
        else .error "out of memory") = .error message
    split
    · exact plainHardy_lawful.parse_pdu transmissionId data
    · exact ⟨_, rfl⟩

theorem pduToken_bibePdu (transmissionId : UInt64) {data : Bytes} (hfits : Fits data) :
    ∀ t ∈ bibePdu transmissionId data, PduToken t := by
  have htwo : 2 < 2 ^ 64 := by decide
  have hthree : 3 < 2 ^ 64 := by decide
  intro token htoken
  simp [bibePdu, Cbor.emitArray] at htoken
  rcases htoken with rfl | rfl | rfl | rfl | rfl | rfl
  · exact htwo
  · trivial
  · exact hthree
  · trivial
  · trivial
  · exact hfits

theorem length_cborHead_pos (major : UInt8) (n : Nat) : 0 < (cborHead major n).length := by
  unfold cborHead
  split_ifs <;> exact Nat.succ_pos _

theorem length_cborToken_pos (token : Cbor.Token) : 0 < (cborToken token).length := by
  unfold cborToken
  split
  · exact length_cborHead_pos 0 _
  · rw [List.length_append]
    exact Nat.add_pos_left (length_cborHead_pos 2 _) _
  · exact length_cborHead_pos 4 _
  · exact Nat.one_pos

theorem length_le_flatMap_cborToken (tokens : List Cbor.Token) :
    tokens.length ≤ (tokens.flatMap cborToken).length := by
  induction tokens with
  | nil => exact le_rfl
  | cons token tokens ih =>
    have := length_cborToken_pos token
    rw [List.flatMap_cons, List.length_append, List.length_cons]
    omega

theorem pduHardy_pdus : LawfulPdus pduHardy where
  tokens_pdu transmissionId data parsed hparse := by
    obtain ⟨hfits, _⟩ := pduHardy_parse hparse
    exact readTokens_flatMap (pduToken_bibePdu transmissionId hfits) (length_le_flatMap_cborToken _)
  tokens_bundle data parsed hparse := by
    obtain ⟨_, hplain⟩ := pduHardy_parse hparse
    obtain ⟨payload, rfl, _⟩ := plainHardy_parse hplain
    exact ⟨some 8, [], rfl⟩

/-- A decapsulator with an alias for another node. -/
def plainExit : BibService String where
  localNodeEid := "dtn://node2/"
  aliasMappings := [("dtn://club/", "dtn://club-2/")]
  noTransit := true
  keystore := .empty
  policy := .warn
  signKey := none
  signKeyFile := none
  securitySource := none
  sink := true
  files := { read := fun _ => .error "no file", parseKeyData := fun data _ => .ok data }

theorem plainExit_noAlias (data : Bytes) : NoAlias pduHardy plainExit data := by
  intro inner hparse mapping hmapping
  obtain ⟨payload, -, rfl⟩ := plainHardy_parse (pduHardy_parse hparse).2
  obtain rfl := List.mem_singleton.mp hmapping
  have hother : startsWith "dtn://node2/incoming" "dtn://club/" = false := by decide +kernel
  exact hother

/-- A tunnel of PDUs in a raw tunnel. -/
def nestedTunnels : List (Tunnel String) :=
  [⟨plainHop 10 false, plainExit⟩, ⟨plainHop 10 true, plainExit⟩]

/-- A bundle goes through a tunnel of PDUs in a raw tunnel. -/
theorem tunnels_transparent_nested : through pduHardy nestedTunnels [0x9F, 7] = some [0x9F, 7] := by
  have hplain : Unrewritten pduHardy nestedTunnels [0x9F, 7] :=
    ⟨plainExit_noAlias _, fun _ _ => ⟨plainExit_noAlias _, fun _ _ => trivial⟩⟩
  have hparse : pduHardy.parse [0x9F, 7] = .ok (plainHardy.plainParsed [7]) := rfl
  refine (tunnels_transparent pduHardy_lawful pduHardy_pdus nestedTunnels hparse hplain _).mpr
    ⟨rfl, ?_⟩
  exact ⟨⟨rfl, ⟨_, rfl, by decide +kernel⟩, rfl⟩, _, rfl,
    ⟨rfl, ⟨_, rfl, by decide +kernel⟩, rfl⟩, _, rfl, trivial⟩

end HdyUtils.Bibe
