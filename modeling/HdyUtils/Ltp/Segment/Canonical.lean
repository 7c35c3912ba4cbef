import HdyUtils.Ltp.Segment.Fields

/-! The image of the parser.  Whatever octets parse, they spell the fields of a well-formed segment,
and the serializer writes that segment without the padding of its numbers. -/

namespace HdyUtils.Ltp

open Cursor

/-! ### Well-formed segments -/

/-- Ordered, disjoint and non-empty claims inside the scope of the report. -/
structure ReportSegment.WellFormed (rs : ReportSegment) : Prop where
  bounds : rs.lowerBound < rs.upperBound
  count : rs.claims.length ≤ 65536
  inside : ∀ claim ∈ rs.claims, 0 < claim.length ∧
    claim.offset + claim.length ≤ rs.upperBound - rs.lowerBound
  ordered : rs.claims.Pairwise fun c c' => c.offset + c.length ≤ c'.offset

structure Segment.WellFormed (seg : Segment) : Prop where
  header : seg.headerExt.length ≤ 15
  trailer : seg.trailerExt.length ≤ 15
  report : ∀ rs, seg.body = .report rs → rs.WellFormed

/-- The naturals of the segment fit the fields that hold them in the source: lengths are `usize`
values, and offsets and bounds `u64` ones. -/
structure Segment.Representable (seg : Segment) : Prop where
  header : ∀ e ∈ seg.headerExt, e.value.length < 2 ^ 64
  trailer : ∀ e ∈ seg.trailerExt, e.value.length < 2 ^ 64
  body : seg.body.Bounded

/-- The checks of the parser on the claims after the first, which compare a claim with the one
before it, put every two claims in order. -/
theorem claimsValid_iff {scope i prevEnd : Nat} {claims : List ReceptionClaim}
    (hscope : scope ≤ u64Max) :
    ClaimsValid scope i prevEnd claims ↔
      (∀ claim ∈ claims, 0 < claim.length ∧ claim.offset + claim.length ≤ scope) ∧
      (0 < i → ∀ claim ∈ claims, prevEnd ≤ claim.offset) ∧
      claims.Pairwise fun c c' => c.offset + c.length ≤ c'.offset := by
  induction claims generalizing i prevEnd with
  | nil => simp [ClaimsValid]
  | cons claim claims ih =>
    simp only [ClaimsValid, ih, List.mem_cons, forall_eq_or_imp, List.pairwise_cons]
    constructor
    · rintro ⟨hne, hprev, hmax, hin, hall, hafter, hpair⟩
      have hnext := hafter (Nat.succ_pos i)
      refine ⟨⟨⟨by omega, hin⟩, hall⟩, fun hi => ⟨by omega, fun c hc => ?_⟩, hnext, hpair⟩
      have := hnext c hc
      omega
    · rintro ⟨⟨⟨hpos, hin⟩, hall⟩, hprev, hnext, hpair⟩
      exact ⟨by omega, fun h => absurd (hprev h.1).1 (by omega), by omega, hin, hall,
        fun _ => hnext, hpair⟩

theorem ReportSegment.valid_iff {rs : ReportSegment} (hupper : rs.upperBound < 2 ^ 64) :
    rs.Valid ↔ rs.WellFormed := by
  have hscope : rs.upperBound - rs.lowerBound ≤ u64Max := by
    simp only [u64Max]
    omega
  constructor
  · rintro ⟨hbounds, hcount, hclaims⟩
    obtain ⟨hinside, -, hordered⟩ := (claimsValid_iff hscope).mp hclaims
    exact ⟨hbounds, hcount, hinside, hordered⟩
  · rintro ⟨hbounds, hcount, hinside, hordered⟩
    exact ⟨hbounds, hcount,
      (claimsValid_iff hscope).mpr ⟨hinside, fun h => absurd h (lt_irrefl 0), hordered⟩⟩

theorem Segment.WellFormed.bounded {seg : Segment} (h : seg.WellFormed) (hr : seg.Representable) :
    seg.Bounded :=
  ⟨⟨h.header, hr.header⟩, ⟨h.trailer, hr.trailer⟩, hr.body⟩

theorem Segment.WellFormed.valid {seg : Segment} (h : seg.WellFormed) (hr : seg.Representable) :
    seg.body.Valid := by
  have hbody := hr.body
  have hreport := h.report
  cases hb : seg.body with
  | report rs =>
    rw [hb] at hbody
    exact (ReportSegment.valid_iff hbody.upper).mpr (hreport rs hb)
  | _ => trivial

/-! ### The serializer's length -/

theorem length_writeExtensions (exts : List Extension) :
    (writeExtensions exts).length = extensionsLen exts := by
  induction exts with
  | nil => rfl
  | cons e exts ih =>
    simp only [writeExtensions, extensionsLen, List.flatMap_cons, List.length_append,
      List.length_cons, List.map_cons, List.sum_cons, Sdnv.length_encode] at ih ⊢
    omega

theorem length_writeClaims_eq (claims : List ReceptionClaim) :
    (writeClaims claims).length = (claims.map fun claim =>
      Sdnv.encodedLen claim.offset + Sdnv.encodedLen claim.length).sum := by
  induction claims with
  | nil => rfl
  | cons claim claims ih =>
    simp only [writeClaims, List.flatMap_cons, List.length_append, List.map_cons, List.sum_cons,
      Sdnv.length_encode] at ih ⊢
    omega

theorem length_writeBody (body : SegmentBody) : (writeBody body).length = bodyLen body := by
  cases body with
  | data ds =>
    cases hcp : ds.kind.checkpoint <;>
      simp only [writeBody, writeData, writeCheckpoint, bodyLen, hcp, List.length_append,
        Sdnv.length_encode, List.length_nil] <;> omega
  | report rs =>
    simp only [writeBody, writeReport, bodyLen, List.length_append, Sdnv.length_encode,
      length_writeClaims_eq]
    omega
  | reportAck serial => exact Sdnv.length_encode _
  | cancelSender | cancelReceiver | cancelAckSender | cancelAckReceiver => rfl

theorem Segment.length_encodeToVec {seg : Segment} (hheader : seg.headerExt.length ≤ 15)
    (htrailer : seg.trailerExt.length ≤ 15) :
    seg.encodeToVec.length = seg.exactEncodedLen seg.headerExt seg.trailerExt := by
  have happ : extensionsLen (seg.headerExt ++ seg.trailerExt) =
      extensionsLen seg.headerExt + extensionsLen seg.trailerExt := by
    simp [extensionsLen]
  simp only [encodeToVec, exactEncodedLen, List.length_cons, List.length_append,
    Sdnv.length_encode, length_writeBody, length_writeExtensions, happ,
    List.take_of_length_le (show seg.headerExt.length ≤ min seg.headerExt.length 15 by omega),
    List.take_of_length_le (show seg.trailerExt.length ≤ min seg.trailerExt.length 15 by omega)]
  omega

/-- A well-formed segment's wire form, followed by anything, parses to the segment, and its length is
the one that the serializer reserves. -/
theorem segment_round_trip {seg : Segment} (hwf : seg.WellFormed) (hr : seg.Representable)
    (rest : Bytes) :
    Segment.parse (seg.encodeToVec ++ rest) = .ok (seg, seg.encodeToVec.length) ∧
      seg.exactEncodedLen seg.headerExt seg.trailerExt = seg.encodeToVec.length :=
  ⟨parse_encodeToVec_append (hwf.bounded hr) (hwf.valid hr) rest,
    (Segment.length_encodeToVec hwf.header hwf.trailer).symm⟩

/-- A report on octets 1000 up to 5000, of which two ranges were received. -/
def gappedReport : ReportSegment where
  reportSerial := .one
  checkpointSerial := 7
  upperBound := 5000
  lowerBound := 1000
  claims := [⟨0, 1000⟩, ⟨2000, 2000⟩]

/-- A segment with a header extension. -/
def extendedSegment : Segment where
  session := ⟨⟨1⟩, 300⟩
  headerExt := [⟨0xC0, [1, 2, 3]⟩]
  trailerExt := []
  body := .report gappedReport

theorem segment_round_trip_extended :
    Segment.parse (extendedSegment.encodeToVec ++ [0xFF]) =
        .ok (extendedSegment, extendedSegment.encodeToVec.length) ∧
      extendedSegment.exactEncodedLen extendedSegment.headerExt extendedSegment.trailerExt =
        extendedSegment.encodeToVec.length := by
  refine segment_round_trip ⟨by decide, by decide, fun rs hrs => ?_⟩
    ⟨by decide, by decide, ?_⟩ [0xFF]
  · cases hrs
    constructor <;> decide
  · have hbounded : gappedReport.Bounded := by constructor <;> decide
    exact hbounded

/-! ### The fields of a segment -/

def extensionFields (exts : List Extension) : List Field :=
  exts.flatMap fun e => [.raw [e.tag], .num e.value.length, .raw e.value]

def checkpointFields : Option Checkpoint → List Field
  | some cp => [.num cp.serial.val.toNat, .num cp.reportSerial.toNat]
  | none => []

def claimFields (claims : List ReceptionClaim) : List Field :=
  claims.flatMap fun claim => [.num claim.offset, .num claim.length]

def bodyFields : SegmentBody → List Field
  | .data ds =>
    [.num ds.clientService.toNat, .num ds.offset, .num ds.data.length] ++
      checkpointFields ds.kind.checkpoint ++ [.raw ds.data]
  | .report rs =>
    [.num rs.reportSerial.val.toNat, .num rs.checkpointSerial.toNat, .num rs.upperBound,
      .num rs.lowerBound, .num rs.claims.length] ++ claimFields rs.claims
  | .reportAck reportSerial => [.num reportSerial.toNat]
  | .cancelSender reason | .cancelReceiver reason => [.raw [reason.code]]
  | .cancelAckSender | .cancelAckReceiver => []

def Segment.fields (seg : Segment) : List Field :=
  [.raw [seg.typeCode], .num seg.session.originator.val.toNat, .num seg.session.number.toNat,
    .raw [extCounts seg.headerExt seg.trailerExt]] ++ extensionFields seg.headerExt ++
    bodyFields seg.body ++ extensionFields seg.trailerExt

theorem writeFields_append (fs gs : List Field) :
    writeFields (fs ++ gs) = writeFields fs ++ writeFields gs := List.flatMap_append

theorem writeFields_extensions (exts : List Extension) :
    writeFields (extensionFields exts) = writeExtensions exts := by
  simp [writeFields, extensionFields, writeExtensions, List.flatMap_assoc, Field.encode]

theorem writeFields_claims (claims : List ReceptionClaim) :
    writeFields (claimFields claims) = writeClaims claims := by
  simp [writeFields, claimFields, writeClaims, List.flatMap_assoc, Field.encode]

theorem writeFields_body (body : SegmentBody) : writeFields (bodyFields body) = writeBody body := by
  cases body with
  | data ds =>
    cases hcp : ds.kind.checkpoint <;>
      simp [writeFields, bodyFields, checkpointFields, writeBody, writeData, writeCheckpoint, hcp,
        Field.encode]
  | report rs =>
    rw [bodyFields, writeFields_append, writeFields_claims]
    simp [writeFields, writeBody, writeReport, Field.encode]
  | reportAck | cancelSender | cancelReceiver | cancelAckSender | cancelAckReceiver =>
    simp [writeFields, bodyFields, writeBody, Field.encode]

/-- The serializer writes the fields of a segment with no padding. -/
theorem Segment.writeFields_fields {seg : Segment} (hheader : seg.headerExt.length ≤ 15)
    (htrailer : seg.trailerExt.length ≤ 15) : writeFields seg.fields = seg.encodeToVec := by
  simp only [fields, writeFields_append, writeFields_extensions, writeFields_body, encodeToVec,
    List.take_of_length_le (show seg.headerExt.length ≤ min seg.headerExt.length 15 by omega),
    List.take_of_length_le (show seg.trailerExt.length ≤ min seg.trailerExt.length 15 by omega)]
  simp [writeFields, Field.encode]

/-! ### What each parser reads -/

theorem toNat_ofNat_of_lt {v : Nat} (h : v < 2 ^ 64) : (UInt64.ofNat v).toNat = v := by
  rw [UInt64.toNat_ofNat']
  exact Nat.mod_eq_of_lt h

theorem reads_parseExtensions (count : Nat) :
    Reads (parseExtensions count) fun exts fs => fs = extensionFields exts ∧ exts.length = count ∧
      ∀ e ∈ exts, e.value.length < 2 ^ 64 := by
  induction count with
  | zero => exact .pure ⟨rfl, rfl, by simp⟩
  | succ count ih =>
    refine reads_u8.bind fun tag fs htag => reads_sdnv.bind fun len fs' hlen =>
      (reads_bytes len).bind fun value fs'' hvalue => ih.bind fun out gs hout => .pure ?_
    obtain ⟨rfl, hlt⟩ := hlen
    obtain ⟨rfl, rfl⟩ := hvalue
    obtain ⟨rfl, rfl, hout⟩ := hout
    subst htag
    exact ⟨by simp [extensionFields], rfl, by simpa using ⟨hlt, hout⟩⟩

theorem reads_parseSerial :
    Reads parseSerial fun serial fs => fs = [.num serial.val.toNat] := by
  refine reads_sdnv.bind fun raw fs hraw => ?_
  obtain ⟨rfl, hlt⟩ := hraw
  split
  · rename_i serial hserial
    have hval : serial.val = UInt64.ofNat raw := by
      unfold NonZeroU64.new at hserial
      split at hserial
      · cases hserial
        rfl
      · cases hserial
    refine .pure ?_
    rw [hval, toNat_ofNat_of_lt hlt]
    rfl
  · exact .throw _

theorem reads_parseCheckpoint :
    Reads parseCheckpoint fun cp fs => fs = checkpointFields (some cp) := by
  refine reads_parseSerial.bind fun serial fs hserial => reads_sdnv.bind fun raw gs hraw => .pure ?_
  obtain ⟨rfl, hlt⟩ := hraw
  subst hserial
  simp [checkpointFields, toNat_ofNat_of_lt hlt]

theorem reads_parseKind (typeCode : UInt8) :
    Reads (parseKind typeCode) fun kind fs =>
      fs = checkpointFields kind.checkpoint ∧ kind.typeCode = typeCode := by
  have hcode : ∀ n : Nat, n < 256 → typeCode.toNat = n → UInt8.ofNat n = typeCode := by
    rintro n - rfl
    exact UInt8.ofNat_toNat
  unfold parseKind
  split
  · exact .pure ⟨rfl, hcode 0 (by decide) ‹_›⟩
  · exact reads_parseCheckpoint.bind fun cp fs hcp => .pure ⟨by rw [hcp]; simp [DataSegKind.checkpoint],
      hcode 1 (by decide) ‹_›⟩
  · exact reads_parseCheckpoint.bind fun cp fs hcp => .pure ⟨by rw [hcp]; simp [DataSegKind.checkpoint],
      hcode 2 (by decide) ‹_›⟩
  · exact reads_parseCheckpoint.bind fun cp fs hcp => .pure ⟨by rw [hcp]; simp [DataSegKind.checkpoint],
      hcode 3 (by decide) ‹_›⟩
  · exact .pure ⟨rfl, hcode 4 (by decide) ‹_›⟩
  · exact .pure ⟨rfl, hcode 7 (by decide) ‹_›⟩
  · exact .throw _

theorem reads_parseData (typeCode : UInt8) :
    Reads (parseData typeCode) fun ds fs => fs = bodyFields (.data ds) ∧
      ds.kind.typeCode = typeCode ∧ ds.offset < 2 ^ 64 ∧ ds.data.length < 2 ^ 64 := by
  refine reads_sdnv.bind fun clientService _ hservice => reads_sdnv.bind fun offset _ hoffset =>
    reads_sdnv.bind fun length _ hlength => (reads_parseKind typeCode).bind fun kind _ hkind =>
    (reads_bytes length).bind fun data _ hdata => .pure ?_
  obtain ⟨rfl, hservice⟩ := hservice
  obtain ⟨rfl, hoffset⟩ := hoffset
  obtain ⟨rfl, hlength⟩ := hlength
  obtain ⟨rfl, hkind⟩ := hkind
  obtain ⟨rfl, rfl⟩ := hdata
  exact ⟨by simp [bodyFields, toNat_ofNat_of_lt hservice], hkind, hoffset, hlength⟩

theorem reads_parseClaims (scope count i prevEnd : Nat) :
    Reads (parseClaims scope count i prevEnd) fun claims fs => fs = claimFields claims ∧
      claims.length = count ∧ ClaimsValid scope i prevEnd claims ∧
      ∀ claim ∈ claims, claim.offset < 2 ^ 64 ∧ claim.length < 2 ^ 64 := by
  induction count generalizing i prevEnd with
  | zero => exact .pure ⟨rfl, rfl, trivial, by simp⟩
  | succ count ih =>
    refine reads_sdnv.bind fun offset _ hoffset => reads_sdnv.bind fun length _ hlength =>
      .guard fun hne => .guard fun hord => .guard fun hmax => .guard fun hin =>
      (ih (i + 1) (offset + length)).bind fun claims _ hclaims => .pure ?_
    obtain ⟨rfl, hoffset⟩ := hoffset
    obtain ⟨rfl, hlength⟩ := hlength
    obtain ⟨rfl, rfl, hvalid, hbounded⟩ := hclaims
    exact ⟨by simp [claimFields], rfl, ⟨hne, hord, Nat.not_lt.mp hmax, Nat.not_lt.mp hin, hvalid⟩,
      by simpa using ⟨⟨hoffset, hlength⟩, hbounded⟩⟩

/-- The check of the claim count against the octets that remain.  With more octets it passes all the
more. -/
theorem Reads.guardRemaining {α : Type} {count : Nat} {e : ParseError} {k : Cursor α}
    {P : α → List Field → Prop} (h : count ≤ maxParsedClaims → Reads k P) :
    Reads (do
      let left ← remaining
      if maxParsedClaims < count ∨ (0 < count ∧ left / 2 < count) then MonadExcept.throw e
      k) P := by
  intro buf a rest hrun
  rw [StateT.run_bind, run_remaining, ok_bind] at hrun
  split at hrun
  · cases hrun
  rename_i hguard
  push Not at hguard
  obtain ⟨used, fs, hbuf, hspells, hp, hmono⟩ := h hguard.1 buf a rest hrun
  refine ⟨used, fs, hbuf, hspells, hp, fun r => ?_⟩
  have hguard' : ¬(maxParsedClaims < count ∨ 0 < count ∧ (buf ++ r).length / 2 < count) := by
    rw [List.length_append]
    rintro (h | ⟨hpos, hlt⟩)
    · exact absurd hguard.1 (by omega)
    · have := hguard.2 hpos
      omega
  rw [StateT.run_bind, run_remaining, ok_bind, if_neg hguard']
  exact hmono r

theorem reads_parseReport :
    Reads parseReport fun rs fs => fs = bodyFields (.report rs) ∧ rs.Bounded ∧ rs.Valid := by
  refine reads_parseSerial.bind fun serial _ hserial => reads_sdnv.bind fun checkpoint _ hcheckpoint =>
    reads_sdnv.bind fun upper _ hupper => reads_sdnv.bind fun lower _ hlower => .guard fun hbounds =>
    reads_sdnv.bind fun count _ hcount => .guardRemaining fun hmax =>
    (reads_parseClaims (upper - lower) count 0 0).bind fun claims _ hclaims => .pure ?_
  obtain ⟨rfl, hcheckpoint⟩ := hcheckpoint
  obtain ⟨rfl, hupper⟩ := hupper
  obtain ⟨rfl, hlower⟩ := hlower
  obtain ⟨rfl, hcount⟩ := hcount
  obtain ⟨rfl, rfl, hvalid, hbounded⟩ := hclaims
  subst hserial
  exact ⟨by simp [bodyFields, toNat_ofNat_of_lt hcheckpoint], ⟨hupper, hlower, hcount, hbounded⟩,
    ⟨Nat.not_le.mp hbounds, hmax, hvalid⟩⟩

theorem reads_parseReason : Reads parseReason fun reason fs => fs = [.raw [reason.code]] := by
  have hcode : ∀ (code : UInt8) (reason : CancelReason), CancelReason.fromCode code = some reason →
      reason.code = code := by
    intro code reason h
    have hall : ∀ n < 256, ∀ reason, CancelReason.fromCode (UInt8.ofNat n) = some reason →
        reason.code = UInt8.ofNat n := by
      intro n hn reason
      interval_cases n <;> cases reason <;> decide
    have hn := hall code.toNat code.toNat_lt reason
    rw [UInt8.ofNat_toNat] at hn
    exact hn h
  refine reads_u8.bind fun code _ hu8 => ?_
  subst hu8
  split
  · rename_i reason hreason
    exact .pure (by rw [hcode code reason hreason]; rfl)
  · exact .throw _

theorem reads_parseBody (typeCode : UInt8) :
    Reads (parseBody typeCode) fun body fs => fs = bodyFields body ∧
      (∀ session header trailer, (Segment.mk session header trailer body).typeCode = typeCode) ∧
      body.Bounded ∧ body.Valid := by
  have hcode : ∀ n : Nat, n < 256 → typeCode.toNat = n → UInt8.ofNat n = typeCode := by
    rintro n - rfl
    exact UInt8.ofNat_toNat
  have hdata : Reads (do return .data (← parseData typeCode) : Cursor SegmentBody) fun body fs =>
      fs = bodyFields body ∧
      (∀ session header trailer, (Segment.mk session header trailer body).typeCode = typeCode) ∧
      body.Bounded ∧ body.Valid :=
    (reads_parseData typeCode).bind fun ds _ hds => .pure
      ⟨by rw [hds.1, List.append_nil], fun _ _ _ => hds.2.1, hds.2.2, trivial⟩
  unfold parseBody
  split
  · exact hdata
  · exact hdata
  · exact hdata
  · exact hdata
  · exact hdata
  · exact hdata
  · exact reads_parseReport.bind fun rs _ hrs => .pure
      ⟨by rw [hrs.1, List.append_nil], fun _ _ _ => hcode 8 (by decide) ‹_›, hrs.2⟩
  · exact reads_sdnv.bind fun serial _ hserial => .pure
      ⟨by rw [hserial.1, List.append_nil, bodyFields, toNat_ofNat_of_lt hserial.2],
        fun _ _ _ => hcode 9 (by decide) ‹_›, trivial, trivial⟩
  · exact reads_parseReason.bind fun reason _ hreason => .pure
      ⟨by rw [hreason, List.append_nil, bodyFields], fun _ _ _ => hcode 12 (by decide) ‹_›, trivial,
        trivial⟩
  · exact .pure ⟨rfl, fun _ _ _ => hcode 13 (by decide) ‹_›, trivial, trivial⟩
  · exact reads_parseReason.bind fun reason _ hreason => .pure
      ⟨by rw [hreason, List.append_nil, bodyFields], fun _ _ _ => hcode 14 (by decide) ‹_›, trivial,
        trivial⟩
  · exact .pure ⟨rfl, fun _ _ _ => hcode 15 (by decide) ‹_›, trivial, trivial⟩
  · exact .throw _

theorem reads_parseTypeCode : Reads parseTypeCode fun typeCode fs => fs = [.raw [typeCode]] := by
  have hlow : ∀ b : UInt8, b >>> 4 = 0 → b &&& 0x0F = b := by
    intro b h
    have hall : ∀ n < 256, UInt8.ofNat n >>> 4 = 0 → UInt8.ofNat n &&& 0x0F = UInt8.ofNat n := by
      decide +kernel
    have hn := hall b.toNat b.toNat_lt
    rw [UInt8.ofNat_toNat] at hn
    exact hn h
  refine reads_u8.bind fun controlByte _ hu8 => .guard fun hversion => .guard fun _ => .pure ?_
  subst hu8
  rw [hlow controlByte (not_not.mp hversion)]
  rfl

theorem reads_parseSession : Reads parseSession fun session fs =>
    fs = [.num session.originator.val.toNat, .num session.number.toNat] := by
  refine reads_sdnv.bind fun originator _ horiginator => reads_sdnv.bind fun number _ hnumber =>
    .pure ?_
  obtain ⟨rfl, horiginator⟩ := horiginator
  obtain ⟨rfl, hnumber⟩ := hnumber
  simp [toNat_ofNat_of_lt horiginator, toNat_ofNat_of_lt hnumber]

/-- The octet that counts the extensions is determined by the two counts. -/
theorem extCounts_of_nibbles {b : UInt8} {header trailer : List Extension}
    (hh : header.length = (b >>> 4).toNat) (ht : trailer.length = (b &&& 0x0F).toNat) :
    extCounts header trailer = b ∧ header.length ≤ 15 ∧ trailer.length ≤ 15 := by
  have hall : ∀ n < 256,
      (((UInt8.ofNat (UInt8.ofNat n >>> 4).toNat &&& 0x0F) <<< 4) |||
        (UInt8.ofNat (UInt8.ofNat n &&& 0x0F).toNat &&& 0x0F)) = UInt8.ofNat n ∧
      (UInt8.ofNat n >>> 4).toNat ≤ 15 ∧ (UInt8.ofNat n &&& 0x0F).toNat ≤ 15 := by
    decide +kernel
  have hb := hall b.toNat b.toNat_lt
  simp only [UInt8.ofNat_toNat] at hb
  rw [extCounts, hh, ht]
  simpa only [UInt8.ofNat_toNat] using hb

theorem reads_parseSegment : Reads parseSegment fun seg fs =>
    fs = seg.fields ∧ seg.WellFormed ∧ seg.Representable := by
  refine reads_parseTypeCode.bind fun typeCode _ hcode => reads_parseSession.bind fun session _ hsession =>
    reads_u8.bind fun counts _ hcounts => (reads_parseExtensions _).bind fun header _ hheader =>
    (reads_parseBody typeCode).bind fun body _ hbody =>
    (reads_parseExtensions _).bind fun trailer _ htrailer => .pure ?_
  obtain ⟨rfl, hheaderLen, hheader⟩ := hheader
  obtain ⟨rfl, htypeCode, hbounded, hvalid⟩ := hbody
  obtain ⟨rfl, htrailerLen, htrailer⟩ := htrailer
  obtain ⟨hext, hheaderMax, htrailerMax⟩ := extCounts_of_nibbles hheaderLen htrailerLen
  subst hcode hsession hcounts
  refine ⟨by simp [Segment.fields, hext, htypeCode], ⟨hheaderMax, htrailerMax, ?_⟩,
    ⟨hheader, htrailer, hbounded⟩⟩
  rintro rs rfl
  exact (ReportSegment.valid_iff hbounded.upper).mp hvalid

/-- Peeking finds the session of every segment that parses. -/
theorem peekSession_of_parse {b : Bytes} {seg : Segment} {n : Nat}
    (h : Segment.parse b = .ok (seg, n)) : Segment.peekSession b = .ok seg.session := by
  unfold Segment.parse at h
  split at h
  swap
  · cases h
  rename_i seg' rest hrun
  cases h
  obtain ⟨typeCode, afterCode, hcode, hrun⟩ := run_bind_ok hrun
  obtain ⟨session, afterSession, hsession, hrun⟩ := run_bind_ok hrun
  obtain ⟨counts, _, -, hrun⟩ := run_bind_ok hrun
  obtain ⟨header, _, -, hrun⟩ := run_bind_ok hrun
  obtain ⟨body, _, -, hrun⟩ := run_bind_ok hrun
  obtain ⟨trailer, _, -, hrun⟩ := run_bind_ok hrun
  cases hrun
  simp only [Segment.peekSession, StateT.run_bind, hcode, ok_bind, hsession]

/-- Whatever octets parse, they spell the fields of a well-formed segment: more octets after them
change nothing, peeking finds the same session, and the serializer writes the segment in no more
octets, those of the same fields without padding, from which it parses back. -/
theorem parse_image {b : Bytes} {seg : Segment} {n : Nat} (h : Segment.parse b = .ok (seg, n)) :
    n ≤ b.length ∧ (∀ r, Segment.parse (b ++ r) = .ok (seg, n)) ∧
      Segment.peekSession b = .ok seg.session ∧ seg.WellFormed ∧ seg.Representable ∧
      seg.encodeToVec.length ≤ n ∧
      Segment.parse seg.encodeToVec = .ok (seg, seg.encodeToVec.length) ∧
      Spells seg.fields (b.take n) ∧ seg.encodeToVec = writeFields seg.fields := by
  have hpeek := peekSession_of_parse h
  unfold Segment.parse at h
  cases hrun : parseSegment.run b with
  | error e =>
    rw [hrun] at h
    cases h
  | ok out =>
    obtain ⟨seg', rest⟩ := out
    rw [hrun] at h
    cases h
    obtain ⟨used, fs, rfl, hspells, ⟨rfl, hwf, hr⟩, hmono⟩ := reads_parseSegment b seg rest hrun
    have hfields := Segment.writeFields_fields hwf.header hwf.trailer
    have hn : (used ++ rest).length - rest.length = used.length := by simp
    refine ⟨by omega, fun r => ?_, hpeek, hwf, hr, ?_, ?_, ?_, hfields.symm⟩
    · simp only [Segment.parse, hmono r]
      simp
    · rw [hn, ← hfields]
      exact hspells.length_le
    · exact parse_encodeToVec (hwf.bounded hr) (hwf.valid hr)
    · rwa [hn, List.take_left]

/-- The acknowledgment of a cancellation, with a padded originator and an octet after it. -/
def paddedAck : Bytes := [13, 0x80, 1, 1, 0, 9]

theorem parse_image_padded :
    Segment.parse [13, 1, 1, 0] = .ok (.plain ⟨⟨1⟩, 1⟩ .cancelAckSender, 4) ∧
      Spells (Segment.plain ⟨⟨1⟩, 1⟩ .cancelAckSender).fields (paddedAck.take 5) := by
  have himage := parse_image (show Segment.parse paddedAck =
    .ok (.plain ⟨⟨1⟩, 1⟩ .cancelAckSender, 5) from rfl)
  exact ⟨himage.2.2.2.2.2.2.1, himage.2.2.2.2.2.2.2.1⟩

end HdyUtils.Ltp
