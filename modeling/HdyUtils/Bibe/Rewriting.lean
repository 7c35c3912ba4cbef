import HdyUtils.Bibe.Decapsulate

/-! What `dtnbib` keeps of a bundle whose destination it rewrites.  The bundle is built anew from some
of its fields, and what the builder is not given takes the builder's defaults. -/

namespace HdyUtils.Bibe

open Security Results

variable {E : Type}

/-- The block is a BPSec block. -/
def isSecurity : BlockType → Bool
  | .blockIntegrity | .blockSecurity => true
  | _ => false

/-- The extension blocks other than those of BPSec. -/
def extensions (parsed : Parsed E) : List Block :=
  (parsed.bundle.blocks.filter fun b =>
    decide (b.1 ≠ payloadBlock) && !isSecurity b.2.blockType).map Prod.snd

/-- The bundles are the same but for their BPSec blocks. -/
structure SameContent (a b : Parsed E) : Prop where
  primary : b.bundle.primary = a.bundle.primary
  payload : b.payload = a.payload
  extensions : (extensions b).Perm (extensions a)

/-- `out` is `inner` under the destination `dest`, but for the BPSec blocks. -/
structure OnlyRedirected (inner : Parsed E) (dest : E) (out : Parsed E) : Prop where
  primary : out.bundle.primary = { inner.bundle.primary with destination := dest }
  payload : out.payload = inner.payload
  extensions : (extensions out).Perm (extensions inner)

theorem OnlyRedirected.congr {inner a b : Parsed E} {dest : E} (h : SameContent a b) :
    OnlyRedirected inner dest a ↔ OnlyRedirected inner dest b := by
  constructor
  · rintro ⟨hprimary, hpayload, hextensions⟩
    exact ⟨h.primary.trans hprimary, h.payload.trans hpayload, h.extensions.trans hextensions⟩
  · rintro ⟨hprimary, hpayload, hextensions⟩
    exact ⟨h.primary.symm.trans hprimary, h.payload.symm.trans hpayload,
      h.extensions.symm.trans hextensions⟩

variable {hardy : Hardy E} {reportTo : Outline E → E}

namespace BibService

variable {service : BibService E} {data innerBytes : Bytes} {inner : Parsed E} {dest : E}
  {injection : Injection E}

end BibService

open BibService

end HdyUtils.Bibe
