import HdyUtils.Ltp.Segment.Write
import HdyUtils.Ltp.Segment.Parse

/-! Parsing what the serializer wrote.  `Bounded` says that the naturals of a segment fit the `u64`
fields that hold them in the source; `Valid` is what the parser checks beyond that.  A bounded
segment parses back to itself when it is valid, and to an error otherwise. -/

namespace HdyUtils.Ltp

/-- Ordered, non-empty claims inside a scope, as `parseClaims` checks them from index `i` on. -/
def ClaimsValid (scope : Nat) : Nat → Nat → List ReceptionClaim → Prop
  | _, _, [] => True
  | i, prevEnd, claim :: claims =>
    claim.length ≠ 0 ∧ ¬(0 < i ∧ claim.offset < prevEnd) ∧
      claim.offset + claim.length ≤ u64Max ∧ claim.offset + claim.length ≤ scope ∧
      ClaimsValid scope (i + 1) (claim.offset + claim.length) claims

namespace ReportSegment

structure Valid (rs : ReportSegment) : Prop where
  bounds : rs.lowerBound < rs.upperBound
  count : rs.claims.length ≤ maxParsedClaims
  claims : ClaimsValid (rs.upperBound - rs.lowerBound) 0 0 rs.claims

structure Bounded (rs : ReportSegment) : Prop where
  upper : rs.upperBound < 2 ^ 64
  lower : rs.lowerBound < 2 ^ 64
  count : rs.claims.length < 2 ^ 64
  claims : ∀ claim ∈ rs.claims, claim.offset < 2 ^ 64 ∧ claim.length < 2 ^ 64

end ReportSegment

namespace SegmentBody

def Valid : SegmentBody → Prop
  | .report rs => rs.Valid
  | _ => True

def Bounded : SegmentBody → Prop
  | .data ds => ds.offset < 2 ^ 64 ∧ ds.data.length < 2 ^ 64
  | .report rs => rs.Bounded
  | _ => True

end SegmentBody

/-- Extension lists as `encodeToVec` writes them whole. -/
structure ExtsBounded (exts : List Extension) : Prop where
  count : exts.length ≤ 15
  value : ∀ e ∈ exts, e.value.length < 2 ^ 64

structure Segment.Bounded (seg : Segment) : Prop where
  header : ExtsBounded seg.headerExt
  trailer : ExtsBounded seg.trailerExt
  body : seg.body.Bounded

theorem extsBounded_nil : ExtsBounded [] := ⟨by simp, by simp⟩

theorem Segment.bounded_plain {session : SessionId} {body : SegmentBody} (h : body.Bounded) :
    (Segment.plain session body).Bounded :=
  ⟨extsBounded_nil, extsBounded_nil, h⟩

/-! ### Cursor steps -/

namespace Cursor

@[simp] theorem ok_bind {α β : Type} (a : α) (f : α → Except ParseError β) :
    (Except.ok a >>= f) = f a := rfl

@[simp] theorem error_bind {α β : Type} (e : ParseError) (f : α → Except ParseError β) :
    (Except.error e >>= f) = .error e := rfl

@[simp] theorem map_ok {α β : Type} (a : α) (f : α → β) :
    (f <$> (.ok a : Except ParseError α)) = .ok (f a) := rfl

@[simp] theorem map_error {α β : Type} (e : ParseError) (f : α → β) :
    (f <$> (.error e : Except ParseError α)) = .error e := rfl

@[simp] theorem pure_ok {α : Type} (a : α) : (pure a : Except ParseError α) = .ok a := rfl

@[simp] theorem throw_error {α : Type} (e : ParseError) :
    (throw e : Except ParseError α) = .error e := rfl

@[simp] theorem run_u8 (b : UInt8) (rest : Bytes) : u8.run (b :: rest) = .ok (b, rest) := rfl

@[simp] theorem run_remaining (buf : Bytes) : remaining.run buf = .ok (buf.length, buf) := rfl

@[simp] theorem run_throw {α : Type} (e : ParseError) (buf : Bytes) :
    (throw e : Cursor α).run buf = .error e := rfl

@[simp] theorem run_pure {α : Type} (a : α) (buf : Bytes) :
    (pure a : Cursor α).run buf = .ok (a, buf) := rfl

theorem run_sdnv {v : Nat} (h : v < 2 ^ 64) (rest : Bytes) :
    sdnv.run (Sdnv.encode v ++ rest) = .ok (v, rest) := by
  simp [sdnv, StateT.run, Sdnv.decode_encode_append h]

@[simp] theorem run_sdnv_toNat (v : UInt64) (rest : Bytes) :
    sdnv.run (Sdnv.encode v.toNat ++ rest) = .ok (v.toNat, rest) :=
  run_sdnv v.toNat_lt rest

@[simp] theorem run_bytes (data rest : Bytes) :
    (bytes data.length).run (data ++ rest) = .ok (data, rest) := by
  simp [bytes, StateT.run]

end Cursor

open Cursor

theorem run_parseExtensions {exts : List Extension} (h : ∀ e ∈ exts, e.value.length < 2 ^ 64)
    (rest : Bytes) :
    (parseExtensions exts.length).run (writeExtensions exts ++ rest) = .ok (exts, rest) := by
  induction exts with
  | nil => rfl
  | cons e exts ih =>
    have he := h e (by simp)
    have hrest := ih fun x hx => h x (by simp [hx])
    simp only [writeExtensions] at hrest
    simp [parseExtensions, writeExtensions, run_sdnv he, hrest]

@[simp] theorem run_parseSerial (s : NonZeroU64) (rest : Bytes) :
    parseSerial.run (Sdnv.encode s.val.toNat ++ rest) = .ok (s, rest) := by
  simp [parseSerial]

@[simp] theorem run_parseCheckpoint (cp : Checkpoint) (rest : Bytes) :
    parseCheckpoint.run (Sdnv.encode cp.serial.val.toNat ++
      (Sdnv.encode cp.reportSerial.toNat ++ rest)) = .ok (cp, rest) := by
  simp [parseCheckpoint]

/-! ### Data segments -/

theorem run_parseKind (kind : DataSegKind) (rest : Bytes) :
    (parseKind kind.typeCode).run (writeCheckpoint kind.checkpoint ++ rest) =
      .ok (kind, rest) := by
  cases kind <;>
    simp [parseKind, DataSegKind.checkpoint, DataSegKind.typeCode, writeCheckpoint]

theorem run_parseData {ds : DataSegment} (hoff : ds.offset < 2 ^ 64)
    (hlen : ds.data.length < 2 ^ 64) (rest : Bytes) :
    (parseData ds.kind.typeCode).run (writeData ds ++ rest) = .ok (ds, rest) := by
  simp [parseData, writeData, run_sdnv hoff, run_sdnv hlen, run_parseKind]

/-! ### Reports -/

theorem length_writeClaims (claims : List ReceptionClaim) :
    2 * claims.length ≤ (writeClaims claims).length := by
  induction claims with
  | nil => simp [writeClaims]
  | cons claim claims ih =>
    have hoff := Sdnv.encode_length_pos claim.offset
    have hlen := Sdnv.encode_length_pos claim.length
    simp only [writeClaims, List.flatMap_cons, List.length_append, List.length_cons] at ih ⊢
    omega

/-- Valid claims parse back, and no others do. -/
theorem run_parseClaims {claims : List ReceptionClaim}
    (hb : ∀ claim ∈ claims, claim.offset < 2 ^ 64 ∧ claim.length < 2 ^ 64)
    (scope i prevEnd : Nat) (rest : Bytes) :
    ClaimsValid scope i prevEnd claims ∧
        (parseClaims scope claims.length i prevEnd).run (writeClaims claims ++ rest) =
          .ok (claims, rest) ∨
      ¬ClaimsValid scope i prevEnd claims ∧
        ∃ e, (parseClaims scope claims.length i prevEnd).run (writeClaims claims ++ rest) =
          .error e := by
  induction claims generalizing i prevEnd with
  | nil => exact .inl ⟨trivial, rfl⟩
  | cons claim claims ih =>
    have hc := hb claim (by simp)
    have htail := ih (fun x hx => hb x (by simp [hx])) (i + 1) (claim.offset + claim.length)
    simp only [writeClaims] at htail
    simp only [parseClaims, writeClaims, List.length_cons, List.flatMap_cons, List.append_assoc,
      StateT.run_bind, run_sdnv hc.1, run_sdnv hc.2, ok_bind, ClaimsValid]
    by_cases hne : claim.length = 0
    · exact .inr ⟨fun h => h.1 hne, by simp [hne]⟩
    by_cases hord : 0 < i ∧ claim.offset < prevEnd
    · exact .inr ⟨fun h => h.2.1 hord, by simp [hne, hord]⟩
    by_cases hmax : u64Max < claim.offset + claim.length
    · exact .inr ⟨fun h => absurd hmax (Nat.not_lt.mpr h.2.2.1), by simp [hne, hord, hmax]⟩
    by_cases hin : scope < claim.offset + claim.length
    · exact .inr ⟨fun h => absurd hin (Nat.not_lt.mpr h.2.2.2.1),
        by simp [hne, hord, hmax, hin]⟩
    rcases htail with ⟨hv, hok⟩ | ⟨hv, e, he⟩
    · exact .inl ⟨⟨hne, hord, Nat.not_lt.mp hmax, Nat.not_lt.mp hin, hv⟩,
        by simp [hne, hord, hmax, hin, hok]⟩
    · exact .inr ⟨fun h => hv h.2.2.2.2, e, by simp [hne, hord, hmax, hin, he]⟩

/-- A valid report parses back, and no other report does. -/
theorem run_parseReport {rs : ReportSegment} (hb : rs.Bounded) (rest : Bytes) :
    rs.Valid ∧ parseReport.run (writeReport rs ++ rest) = .ok (rs, rest) ∨
      ¬rs.Valid ∧ ∃ e, parseReport.run (writeReport rs ++ rest) = .error e := by
  have hlen := length_writeClaims rs.claims
  have hguard : ¬(0 < rs.claims.length ∧
      (writeClaims rs.claims ++ rest).length / 2 < rs.claims.length) := by
    rw [List.length_append]
    omega
  have hclaims := run_parseClaims hb.claims (rs.upperBound - rs.lowerBound) 0 0 rest
  simp only [parseReport, writeReport, List.append_assoc, StateT.run_bind, run_parseSerial,
    run_sdnv_toNat, run_sdnv hb.upper, run_sdnv hb.lower, ok_bind]
  by_cases hbounds : rs.upperBound ≤ rs.lowerBound
  · exact .inr ⟨fun h => absurd h.bounds (Nat.not_lt.mpr hbounds), by simp [hbounds]⟩
  by_cases hcount : maxParsedClaims < rs.claims.length
  · exact .inr ⟨fun h => absurd hcount (Nat.not_lt.mpr h.count),
      by simp [hbounds, hcount, run_sdnv hb.count]⟩
  have hok : ¬(maxParsedClaims < rs.claims.length ∨ 0 < rs.claims.length ∧
      (writeClaims rs.claims ++ rest).length / 2 < rs.claims.length) := by
    rintro (h | h)
    · exact hcount h
    · exact hguard h
  rcases hclaims with ⟨hv, hrun⟩ | ⟨hv, e, hrun⟩
  · refine .inl ⟨⟨by omega, by omega, hv⟩, ?_⟩
    simp only [hbounds, if_false, StateT.run_bind, run_pure, ok_bind, run_sdnv hb.count,
      run_remaining, hok, hrun]
    simp
  · refine .inr ⟨fun h => hv h.claims, e, ?_⟩
    simp only [hbounds, if_false, StateT.run_bind, run_pure, ok_bind, run_sdnv hb.count,
      run_remaining, hok, hrun]
    simp

/-! ### Whole segments -/

theorem run_parseReason (reason : CancelReason) (rest : Bytes) :
    parseReason.run (reason.code :: rest) = .ok (reason, rest) := by
  simp [parseReason]

theorem run_parseBody {seg : Segment} (hb : seg.body.Bounded) (rest : Bytes) :
    seg.body.Valid ∧
        (parseBody seg.typeCode).run (writeBody seg.body ++ rest) = .ok (seg.body, rest) ∨
      ¬seg.body.Valid ∧ ∃ e, (parseBody seg.typeCode).run (writeBody seg.body ++ rest) = .error e := by
  obtain ⟨session, headerExt, trailerExt, body⟩ := seg
  cases body with
  | data ds =>
    obtain ⟨hoff, hlen⟩ := hb
    refine .inl ⟨trivial, ?_⟩
    have hdata := run_parseData hoff hlen rest
    cases hk : ds.kind <;>
      simp_all [Segment.typeCode, parseBody, writeBody, DataSegKind.typeCode]
  | report rs =>
    rcases run_parseReport hb rest with ⟨hv, hrun⟩ | ⟨hv, e, hrun⟩
    · exact .inl ⟨hv, by simp [Segment.typeCode, parseBody, writeBody, hrun]⟩
    · exact .inr ⟨hv, e, by simp [Segment.typeCode, parseBody, writeBody, hrun]⟩
  | reportAck serial => exact .inl ⟨trivial, by simp [Segment.typeCode, parseBody, writeBody]⟩
  | cancelSender reason =>
    exact .inl ⟨trivial, by simp [Segment.typeCode, parseBody, writeBody, run_parseReason]⟩
  | cancelAckSender => exact .inl ⟨trivial, by simp [Segment.typeCode, parseBody, writeBody]⟩
  | cancelReceiver reason =>
    exact .inl ⟨trivial, by simp [Segment.typeCode, parseBody, writeBody, run_parseReason]⟩
  | cancelAckReceiver => exact .inl ⟨trivial, by simp [Segment.typeCode, parseBody, writeBody]⟩

theorem run_parseTypeCode (seg : Segment) (rest : Bytes) :
    parseTypeCode.run (seg.typeCode :: rest) = .ok (seg.typeCode, rest) := by
  have hcode : seg.typeCode >>> 4 = 0 ∧ seg.typeCode &&& 0x0F = seg.typeCode ∧
      ¬(seg.typeCode = 5 ∨ seg.typeCode = 6 ∨ seg.typeCode = 10 ∨ seg.typeCode = 11) := by
    rcases seg with ⟨session, headerExt, trailerExt, ds | rs | n | r | _ | r | _⟩
    · cases hk : ds.kind <;> simp only [Segment.typeCode, DataSegKind.typeCode, hk] <;> decide
    all_goals simp only [Segment.typeCode]; decide
  obtain ⟨hversion, hmask, hdefined⟩ := hcode
  simp [parseTypeCode, hversion, hmask, hdefined]

theorem run_parseSession (session : SessionId) (rest : Bytes) :
    parseSession.run (Sdnv.encode session.originator.val.toNat ++
      (Sdnv.encode session.number.toNat ++ rest)) = .ok (session, rest) := by
  simp [parseSession]

theorem extCounts_nibbles {header trailer : List Extension} (hh : header.length ≤ 15)
    (ht : trailer.length ≤ 15) :
    (extCounts header trailer >>> 4).toNat = header.length ∧
      (extCounts header trailer &&& 0x0F).toNat = trailer.length := by
  have h : ∀ m < 16, ∀ n < 16,
      ((((UInt8.ofNat m &&& 0x0F) <<< 4) ||| (UInt8.ofNat n &&& 0x0F)) >>> 4).toNat = m ∧
      ((((UInt8.ofNat m &&& 0x0F) <<< 4) ||| (UInt8.ofNat n &&& 0x0F)) &&& 0x0F).toNat = n := by
    decide +kernel
  exact h header.length (by omega) trailer.length (by omega)

theorem ExtsBounded.take {exts : List Extension} (h : ExtsBounded exts) :
    exts.take (min exts.length 15) = exts := by
  have := h.count
  rw [List.take_of_length_le (by omega)]

/-- A valid segment parses back, and no other segment does. -/
theorem run_parseSegment {seg : Segment} (hb : seg.Bounded) (rest : Bytes) :
    seg.body.Valid ∧ parseSegment.run (seg.encodeToVec ++ rest) = .ok (seg, rest) ∨
      ¬seg.body.Valid ∧ ∃ e, parseSegment.run (seg.encodeToVec ++ rest) = .error e := by
  have hbody := run_parseBody hb.body (writeExtensions seg.trailerExt ++ rest)
  obtain ⟨hh, ht⟩ := extCounts_nibbles hb.header.count hb.trailer.count
  simp only [parseSegment, Segment.encodeToVec, hb.header.take, hb.trailer.take, List.append_assoc,
    List.cons_append, StateT.run_bind, run_parseTypeCode, run_parseSession, run_u8, ok_bind, hh,
    run_parseExtensions hb.header.value]
  rcases hbody with ⟨hv, hrun⟩ | ⟨hv, e, hrun⟩
  · refine .inl ⟨hv, ?_⟩
    simp only [hrun, ok_bind, ht, run_parseExtensions hb.trailer.value, run_pure]
  · exact .inr ⟨hv, e, by simp only [hrun, error_bind]⟩

/-- A valid segment's wire form, followed by anything, parses to the segment. -/
theorem parse_encodeToVec_append {seg : Segment} (hb : seg.Bounded) (hv : seg.body.Valid)
    (rest : Bytes) :
    Segment.parse (seg.encodeToVec ++ rest) = .ok (seg, seg.encodeToVec.length) := by
  rcases run_parseSegment hb rest with ⟨-, hrun⟩ | ⟨hn, -⟩
  · simp [Segment.parse, hrun]
  · exact absurd hv hn

theorem parse_encodeToVec {seg : Segment} (hb : seg.Bounded) (hv : seg.body.Valid) :
    Segment.parse seg.encodeToVec = .ok (seg, seg.encodeToVec.length) := by
  simpa using parse_encodeToVec_append hb hv []

/-- Whatever the wire form of a bounded segment parses to is that segment. -/
theorem eq_of_parse_encodeToVec {seg seg' : Segment} {n : Nat} (hb : seg.Bounded)
    (h : Segment.parse seg.encodeToVec = .ok (seg', n)) :
    seg' = seg ∧ n = seg.encodeToVec.length ∧ seg.body.Valid := by
  have hrun := run_parseSegment hb []
  rw [List.append_nil] at hrun
  rcases hrun with ⟨hv, hrun⟩ | ⟨-, e, hrun⟩
  · simp [Segment.parse, hrun] at h
    exact ⟨h.1.symm, h.2.symm, hv⟩
  · simp [Segment.parse, hrun] at h

end HdyUtils.Ltp
