import HdyUtils.Lib.Lists
import HdyUtils.Lib.Results
import HdyUtils.Security.Keys

/-! What the verdicts of `verify_bundle` (`security.rs`) say about the payload.  The checks of the
BIBs come in two passes, split by target, and neither pass asks whether there is a BIB for it. -/

namespace HdyUtils.Security

open Results

variable {E : Type}

/-- The BIBs that target the payload block. -/
def Parsed.payloadBibs (parsed : Parsed E) : List (Nat × OperationSet E) :=
  parsed.bibs.filter fun bib => decide (payloadBlock ∈ bib.2.targets)

/-- The key source has a key for the BIB under which the integrity of the target verifies. -/
def VerifiesUnder (verified : Parsed E → OperationSet E → Nat → Key → Prop) (parsed : Parsed E)
    (keys : E → Option Key) (ops : OperationSet E) (target : Nat) : Prop :=
  ∃ key, keys ops.source = some key ∧ verified parsed ops target key

/-- The checks of `hardy_bpv7`, where `verified` says which operations hold under which keys: the first
pass checks all targets but the payload, and there is one verifier for each BIB that targets the
payload, unless one of these fails from the start. -/
structure LawfulChecks (hardy : Hardy E)
    (verified : Parsed E → OperationSet E → Nat → Key → Prop) : Prop where
  all_bibs : ∀ parsed keys, hardy.verifyAllBibs parsed keys = .ok () ↔
    ∀ bib ∈ parsed.bibs, ∀ target ∈ bib.2.targets, target ≠ payloadBlock →
      VerifiesUnder verified parsed keys bib.2 target
  begin_ok : ∀ parsed keys verifiers, hardy.beginPayloadVerification parsed keys = .ok verifiers →
    List.Forall₂ (fun bib verifier => verifier (parsed.payload.getD []) = .ok () ↔
      VerifiesUnder verified parsed keys bib.2 payloadBlock) parsed.payloadBibs verifiers
  begin_error : ∀ parsed keys message, hardy.beginPayloadVerification parsed keys = .error message →
    ∃ bib ∈ parsed.payloadBibs, ¬VerifiesUnder verified parsed keys bib.2 payloadBlock

variable {hardy : Hardy E} {verified : Parsed E → OperationSet E → Nat → Key → Prop}
  {parsed : Parsed E} {keys : E → Option Key} {store : KeyStore} {data : Bytes}

theorem mem_payloadBibs {bib : Nat × OperationSet E} :
    bib ∈ parsed.payloadBibs ↔ bib ∈ parsed.bibs ∧ payloadBlock ∈ bib.2.targets := by
  unfold Parsed.payloadBibs
  rw [List.mem_filter, decide_eq_true_iff]

/-- The second pass. -/
theorem payload_checks_ok_iff (h : LawfulChecks hardy verified) :
    (∃ verifiers, hardy.beginPayloadVerification parsed keys = .ok verifiers ∧
        ∀ verifier ∈ verifiers, verifier (parsed.payload.getD []) = .ok ()) ↔
      ∀ bib ∈ parsed.payloadBibs, VerifiesUnder verified parsed keys bib.2 payloadBlock := by
  constructor
  · rintro ⟨verifiers, hbegin, hall⟩ bib hbib
    obtain ⟨verifier, hmem, hiff⟩ :=
      Lists.exists_right_of_mem (h.begin_ok parsed keys verifiers hbegin) hbib
    exact hiff.mp (hall verifier hmem)
  · intro hall
    cases hbegin : hardy.beginPayloadVerification parsed keys with
    | error message =>
      obtain ⟨bib, hbib, hnot⟩ := h.begin_error parsed keys message hbegin
      exact absurd (hall bib hbib) hnot
    | ok verifiers =>
      refine ⟨verifiers, rfl, fun verifier hmem => ?_⟩
      obtain ⟨bib, hbib, hiff⟩ :=
        Lists.exists_right_of_mem (h.begin_ok parsed keys verifiers hbegin).flip hmem
      exact hiff.mpr (hall bib hbib)

/-- Both passes together accept a bundle exactly when every target of every BIB verifies. -/
theorem runChecks_ok_iff (h : LawfulChecks hardy verified) :
    runChecks hardy parsed keys = .ok () ↔
      ∀ bib ∈ parsed.bibs, ∀ target ∈ bib.2.targets,
        VerifiesUnder verified parsed keys bib.2 target := by
  have hpasses : runChecks hardy parsed keys = .ok () ↔
      hardy.verifyAllBibs parsed keys = .ok () ∧
        ∃ verifiers, hardy.beginPayloadVerification parsed keys = .ok verifiers ∧
          ∀ verifier ∈ verifiers, verifier (parsed.payload.getD []) = .ok () := by
    unfold runChecks
    rw [bind_eq_ok_iff]
    constructor
    · rintro ⟨⟨⟩, hfirst, hrest⟩
      obtain ⟨verifiers, hbegin, hrun⟩ := bind_eq_ok_iff.mp hrest
      exact ⟨hfirst, verifiers, hbegin, forM_eq_ok_iff.mp hrun⟩
    · rintro ⟨hfirst, verifiers, hbegin, hall⟩
      exact ⟨(), hfirst, bind_eq_ok_iff.mpr ⟨verifiers, hbegin, forM_eq_ok_iff.mpr hall⟩⟩
  rw [hpasses, h.all_bibs, payload_checks_ok_iff h]
  constructor
  · rintro ⟨hfirst, hsecond⟩ bib hbib target htarget
    by_cases hpayload : target = payloadBlock
    · subst hpayload
      exact hsecond bib (mem_payloadBibs.mpr ⟨hbib, htarget⟩)
    · exact hfirst bib hbib target htarget hpayload
  · intro hall
    constructor
    · intro bib hbib target htarget _
      exact hall bib hbib target htarget
    · intro bib hbib
      obtain ⟨hmem, htarget⟩ := mem_payloadBibs.mp hbib
      exact hall bib hmem payloadBlock htarget

theorem KeyStore.key_eq_some {source : E} {key : Key} (hkey : store.key hardy source = some key) :
    ∃ entry ∈ store.entries,
      matchesEidPattern entry.1 (hardy.eidString source) = true ∧ entry.2 = key := by
  unfold KeyStore.key at hkey
  obtain ⟨entry, hfind, hentry⟩ := Option.map_eq_some_iff.mp hkey
  have hmatches := List.find?_some hfind
  exact ⟨entry, List.mem_of_find?_eq_some hfind, hmatches, hentry⟩

theorem KeyStore.isEmpty_findKeys {source : E} :
    (store.findKeys hardy source).isEmpty = true ↔ store.key hardy source = none := by
  rw [← store.head?_findKeys hardy, List.head?_eq_none_iff, List.isEmpty_iff]

/-! ### The verdicts -/

theorem hasBib_iff : parsed.hasBib = true ↔
    parsed.bibs ≠ [] ∨ ∃ block ∈ parsed.bundle.blocks, block.2.blockType = .blockIntegrity := by
  unfold Parsed.hasBib
  simp

theorem verifyBundle_unsigned_iff (hparse : hardy.parse data = .ok parsed) :
    verifyBundle hardy store data = .unsigned ↔ parsed.hasBib = false := by
  unfold verifyBundle
  simp only [hparse]
  cases hbib : parsed.hasBib with
  | false => simp
  | true =>
    simp only [Bool.not_true, Bool.false_eq_true, if_false, Bool.true_eq_false, iff_false]
    split
    · exact nofun
    · split
      · exact nofun
      · exact nofun

/-- The bundles that are found valid. -/
theorem verifyBundle_valid_iff (h : LawfulChecks hardy verified) :
    verifyBundle hardy store data = .valid ↔
      ∃ parsed, hardy.parse data = .ok parsed ∧ parsed.hasBib = true ∧
        ∀ bib ∈ parsed.bibs, store.key hardy bib.2.source ≠ none ∧
          ∀ target ∈ bib.2.targets,
            VerifiesUnder verified parsed (store.key hardy) bib.2 target := by
  unfold verifyBundle
  cases hparse : hardy.parse data with
  | error message =>
    refine iff_of_false ?_ (fun ⟨_, hok, _⟩ => nomatch hok)
    simp only
    split
    · exact nofun
    · exact nofun
  | ok parsed =>
    simp only [Except.ok.injEq, exists_eq_left']
    cases hbib : parsed.hasBib with
    | false => exact iff_of_false nofun fun hall => nomatch hall.1
    | true =>
      simp only [Bool.not_true, Bool.false_eq_true, if_false, true_and]
      split
      · next bib hfind =>
        refine iff_of_false nofun fun hall => ?_
        have hempty := List.find?_some hfind
        exact (hall bib (List.mem_of_find?_eq_some hfind)).1
          (KeyStore.isEmpty_findKeys.mp hempty)
      · next hfind =>
        have hkeys : ∀ bib ∈ parsed.bibs, store.key hardy bib.2.source ≠ none := by
          intro bib hmem hnone
          exact List.find?_eq_none.mp hfind bib hmem (KeyStore.isEmpty_findKeys.mpr hnone)
        have hchecks : runChecks hardy parsed (store.key hardy) = .ok () ↔ _ := runChecks_ok_iff h
        split
        · next message hrun =>
          refine iff_of_false nofun fun hall => ?_
          rw [hchecks.mpr fun bib hmem => (hall bib hmem).2] at hrun
          cases hrun
        · next hrun =>
          refine iff_of_true rfl fun bib hmem => ⟨hkeys bib hmem, ?_⟩
          exact hchecks.mp hrun bib hmem

/-- What the verdicts of a key store on a bundle are taken to say: a valid bundle has a BIB over its
payload that verified under a key whose pattern matches the security source, and an unsigned bundle
has no BIB. -/
structure VerdictSound (hardy : Hardy E)
    (verified : Parsed E → OperationSet E → Nat → Key → Prop) (store : KeyStore) (data : Bytes) :
    Prop where
  valid : verifyBundle hardy store data = .valid → ∃ parsed, hardy.parse data = .ok parsed ∧
    ∃ bib ∈ parsed.bibs, payloadBlock ∈ bib.2.targets ∧ ∃ entry ∈ store.entries,
      matchesEidPattern entry.1 (hardy.eidString bib.2.source) = true ∧
        verified parsed bib.2 payloadBlock entry.2
  unsigned : verifyBundle hardy store data = .unsigned → ∀ parsed, hardy.parse data = .ok parsed →
    parsed.bibs = [] ∧ ∀ block ∈ parsed.bundle.blocks, block.2.blockType ≠ .blockIntegrity

/-- If the bundle has BIBs, with a key for each, that all verify, then one of them is over the
payload. -/
def PayloadCovered (hardy : Hardy E) (verified : Parsed E → OperationSet E → Nat → Key → Prop)
    (store : KeyStore) (data : Bytes) : Prop :=
  ∀ parsed, hardy.parse data = .ok parsed → parsed.hasBib = true →
    (∀ bib ∈ parsed.bibs, store.key hardy bib.2.source ≠ none ∧
      ∀ target ∈ bib.2.targets, VerifiesUnder verified parsed (store.key hardy) bib.2 target) →
    ∃ bib ∈ parsed.bibs, payloadBlock ∈ bib.2.targets

/-- The verdicts on a bundle say what they are taken to say exactly if the bundle is not one whose
BIBs all verify and all leave the payload out. -/
theorem verdict_sound_iff (h : LawfulChecks hardy verified) (store : KeyStore) (data : Bytes) :
    VerdictSound hardy verified store data ↔ PayloadCovered hardy verified store data := by
  constructor
  · intro hsound parsed hparse hbib hall
    have hvalid := (verifyBundle_valid_iff h).mpr ⟨parsed, hparse, hbib, hall⟩
    obtain ⟨parsed', hparse', bib, hmem, htarget, _⟩ := hsound.valid hvalid
    rw [hparse] at hparse'
    cases hparse'
    exact ⟨bib, hmem, htarget⟩
  · intro hcovered
    constructor
    · intro hvalid
      obtain ⟨parsed, hparse, hbib, hall⟩ := (verifyBundle_valid_iff h).mp hvalid
      obtain ⟨bib, hmem, htarget⟩ := hcovered parsed hparse hbib hall
      obtain ⟨key, hkey, hverified⟩ := (hall bib hmem).2 payloadBlock htarget
      obtain ⟨entry, hentry, hmatches, rfl⟩ := KeyStore.key_eq_some hkey
      exact ⟨parsed, hparse, bib, hmem, htarget, entry, hentry, hmatches, hverified⟩
    · intro hunsigned parsed hparse
      have hbib := (verifyBundle_unsigned_iff hparse).mp hunsigned
      constructor
      · by_contra hsome
        rw [hasBib_iff.mpr (.inl hsome)] at hbib
        cases hbib
      · intro block hmem htype
        rw [hasBib_iff.mpr (.inr ⟨block, hmem, htype⟩)] at hbib
        cases hbib

/-- Bundles of a station that signs the given blocks with the key `[1]`. -/
def stationHardy (targets : List Nat) : Hardy String where
  eidString eid := eid
  parseEid s := .ok s
  parse
    | [0x9F] => .ok
      { data := [0x9F]
        bundle :=
          { primary :=
              { source := "dtn://x/out", timestamp := ⟨none, 0⟩, fragment := none, flags := 0,
                destination := "dtn://y/in", reportTo := "dtn:none", lifetime := 3600 }
            blocks := [(1, ⟨.payload, some [7]⟩), (2, ⟨.blockIntegrity, some []⟩)] }
        bibs := [(2, ⟨"dtn://x/out", targets⟩)] }
    | _ => .error "expecting Array"
  build _ := .error "no builder"
  signBlock _ _ _ _ _ := .error "no signer"
  verifyAllBibs parsed keys :=
    if ∀ bib ∈ parsed.bibs, ∀ target ∈ bib.2.targets, target ≠ payloadBlock →
        keys bib.2.source = some [1] then .ok ()
    else .error "integrity check failed"
  beginPayloadVerification parsed keys := .ok (parsed.payloadBibs.map fun bib _ =>
    if keys bib.2.source = some [1] then .ok () else .error "integrity check failed")
  emit _ := []
  tokens _ := []

theorem stationHardy_lawful (targets : List Nat) :
    LawfulChecks (stationHardy targets) fun _ _ _ key => key = [1] where
  all_bibs parsed keys := by
    have hunder : ∀ (ops : OperationSet String) target,
        VerifiesUnder (fun _ _ _ key => key = [1]) parsed keys ops target ↔
          keys ops.source = some [1] := fun ops target => by simp [VerifiesUnder]
    simp only [hunder]
    show (if ∀ bib ∈ parsed.bibs, ∀ target ∈ bib.2.targets, target ≠ payloadBlock →
        keys bib.2.source = some [1] then .ok ()
      else .error "integrity check failed" : Except String Unit) = .ok () ↔ _
    split
    · next hall => exact iff_of_true rfl hall
    · next hsome => exact iff_of_false nofun hsome
  begin_ok parsed keys verifiers hbegin := by
    cases hbegin
    rw [List.forall₂_map_right_iff, List.forall₂_same]
    intro bib hbib
    split
    · next hkey => exact iff_of_true rfl ⟨[1], hkey, rfl⟩
    · next hkey =>
      refine iff_of_false nofun ?_
      rintro ⟨_, hsome, rfl⟩
      exact hkey hsome
  begin_error parsed keys message hbegin := nomatch hbegin

/-- A bundle whose payload is signed. -/
theorem verdict_sound_iff_payload :
    VerdictSound (stationHardy [1]) (fun _ _ _ key => key = [1]) ⟨[("dtn://x/*", [1])]⟩ [0x9F] ↔
      PayloadCovered (stationHardy [1]) (fun _ _ _ key => key = [1]) ⟨[("dtn://x/*", [1])]⟩
        [0x9F] :=
  verdict_sound_iff (stationHardy_lawful [1]) ⟨[("dtn://x/*", [1])]⟩ [0x9F]

/-- A bundle of which only the primary block is signed is found valid. -/
theorem primary_signature_is_valid :
    ¬VerdictSound (stationHardy [0]) (fun _ _ _ key => key = [1]) ⟨[("dtn://x/*", [1])]⟩
      [0x9F] := by
  intro hsound
  have hvalid : verifyBundle (stationHardy [0]) ⟨[("dtn://x/*", [1])]⟩ [0x9F] = .valid := by
    decide +kernel
  obtain ⟨parsed, hparse, bib, hbib, htarget, -⟩ := hsound.valid hvalid
  cases hparse
  obtain rfl := List.mem_singleton.mp hbib
  exact absurd htarget (by decide)

end HdyUtils.Security
