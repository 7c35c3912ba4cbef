import HdyUtils.Cla.Driver
import HdyUtils.Ltp.Traffic
import HdyUtils.Ltp.WireOutput

/-! Padding a segment for a TNC.  What the engine puts out is the wire form of a bounded segment; the
padding adds one trailer extension to it, which no engine that receives the segment looks at. -/

namespace HdyUtils.Ltp

open Trace

/-! ### One more trailer extension -/

namespace Segment

/-- The segment with one more trailer extension. -/
def withTrailer (seg : Segment) (ext : Extension) : Segment :=
  { seg with trailerExt := seg.trailerExt ++ [ext] }

variable {seg : Segment} {ext : Extension}

theorem Bounded.withTrailer (hb : seg.Bounded) (hroom : seg.trailerExt.length < 15)
    (hvalue : ext.value.length < 2 ^ 64) : (seg.withTrailer ext).Bounded := by
  refine ⟨hb.header, ⟨?_, fun e he => ?_⟩, hb.body⟩
  · simp only [Segment.withTrailer, List.length_append, List.length_singleton]
    omega
  · rcases List.mem_append.mp he with he | he
    · exact hb.trailer.value e he
    · rw [List.mem_singleton.mp he]
      exact hvalue

/-- The extension adds its tag, its length and its value to the wire form. -/
theorem length_withTrailer (hb : seg.Bounded) (hroom : seg.trailerExt.length < 15) :
    (seg.withTrailer ext).encodeToVec.length =
      seg.encodeToVec.length + (1 + Sdnv.encodedLen ext.value.length + ext.value.length) := by
  have hcount : (seg.withTrailer ext).trailerExt.length ≤ 15 := by
    simp only [Segment.withTrailer, List.length_append, List.length_singleton]
    omega
  rw [length_encodeToVec hb.header.count hb.trailer.count,
    length_encodeToVec (show (seg.withTrailer ext).headerExt.length ≤ 15 from hb.header.count) hcount]
  simp only [exactEncodedLen, Segment.withTrailer, extensionsLen, List.map_append, List.sum_append,
    List.map_cons, List.map_nil, List.sum_cons, List.sum_nil]
  omega

end Segment

/-! ### Extensions do not matter to an engine -/

namespace Engine

/-- An engine handles the session and the body of a segment, whatever its extensions. -/
theorem handleSegment_extensions (e : Engine) (source : EngineId) {seg seg' : Segment} (now : Nat)
    (hsession : seg'.session = seg.session) (hbody : seg'.body = seg.body) :
    e.handleSegment source seg' now = e.handleSegment source seg now := by
  simp only [handleSegment, hsession, hbody]

/-- Octets that parse, all of them, are handled as their segment. -/
theorem handleIncomingSegment_whole (e : Engine) (source : EngineId) {bytes : Bytes} {seg : Segment}
    (now : Nat) (hparse : Segment.parse bytes = .ok (seg, bytes.length)) :
    e.handleIncomingSegment source bytes now = .ok (e.handleSegment source seg now) := by
  simp only [handleIncomingSegment, hparse, ne_eq, not_true_eq_false, if_false]

end Engine

/-! ### What an engine puts out -/

namespace Host

/-- The octets are the wire form of a segment without extensions that fits its fields. -/
def Plain (bytes : Bytes) : Prop :=
  ∃ (sid : SessionId) (body : SegmentBody), body.Bounded ∧ bytes = (Segment.plain sid body).encodeToVec

/-- What was queued is the wire form of bounded segments, and so is what is kept for sending. -/
structure Encodes (h : Host) : Prop where
  owned : h.engine.Owned
  pushed : ∀ x ∈ h.pushed, Plain x.2
  keeps : ∀ (sid : SessionId) (s : RecvSession), h.engine.recvSessions[sid]? = some s →
    s.Keeps ReportSegment.Bounded

theorem encodes_new (config : EngineConfig) : (new config).Encodes :=
  ⟨Engine.owned_new config, by simp [new, pushed, Engine.new], by simp [new, Engine.new]⟩

theorem plain_pushed {h h' : Host} {sid : SessionId} {p : List Push}
    (hpushed : h'.pushed = h.pushed ++ p.map (Push.wire sid))
    (hold : ∀ x ∈ h.pushed, Plain x.2) (hnew : ∀ x ∈ p, x.2.Bounded) :
    ∀ x ∈ h'.pushed, Plain x.2 := by
  intro x hx
  rw [hpushed] at hx
  rcases List.mem_append.mp hx with hx | hx
  · exact hold x hx
  · obtain ⟨q, hq, rfl⟩ := List.mem_map.mp hx
    exact ⟨sid, q.2, hnew q hq, rfl⟩

theorem Encodes.step {h : Host} (hinv : h.Encodes) (c : Call) : (h.step c).Encodes := by
  have hown := owned_step hinv.owned c
  cases steps_step hinv.owned c with
  | same hsame pushed =>
    refine ⟨hown, by rw [pushed]; exact hinv.pushed, fun sid s hs => ?_⟩
    rw [hsame.recv] at hs
    exact hinv.keeps sid s hs
  | tick _ _ heq =>
    refine ⟨hown, ?_, fun sid s hs => ?_⟩
    · rw [heq]
      exact hinv.pushed
    · rw [heq] at hs
      exact hinv.keeps sid s hs
  | @send sid trigger p n _ _ acts move recv =>
    have hwired := move.wired fun s hs => (hinv.owned.send sid s hs).2
    refine ⟨hown, plain_pushed acts.pushed hinv.pushed fun x hx => (hwired x hx).bounded,
      fun t s hs => ?_⟩
    by_cases ht : t = sid
    · rw [ht, recv] at hs
      cases hs
    · rw [acts.recv t ht] at hs
      exact hinv.keeps t s hs
  | @recv sid trigger p n _ _ acts move =>
    obtain ⟨hpushes, hkeeps⟩ := move.fromReceiver (hinv.keeps sid)
    refine ⟨hown, plain_pushed acts.pushed hinv.pushed fun x hx => (hpushes x hx).1,
      fun t s hs => ?_⟩
    by_cases ht : t = sid
    · subst ht
      exact hkeeps s hs
    · rw [acts.recv t ht] at hs
      exact hinv.keeps t s hs

theorem encodes_run (config : EngineConfig) (calls : List Call) :
    ((new config).run calls).Encodes := by
  have hstep : ∀ (h : Host) (c : Call), h.Encodes → (h.step c).Encodes := fun h c hinv =>
    hinv.step c
  exact run_invariant hstep calls (encodes_new config)

end Host

end HdyUtils.Ltp

namespace HdyUtils.Cla

open Ltp

/-! ### Padding -/

/-- Padding the wire form of a segment appends at most one trailer extension to the segment, and
gives at least the octets that the TNC asks for. -/
theorem exists_padSegmentForTnc {seg : Segment} (hb : seg.Bounded) (hv : seg.body.Valid)
    (hroom : seg.trailerExt.length < 15) {minFrameLen : Nat} (hmin : minFrameLen < 2 ^ 64) :
    ∃ padded : Segment, padSegmentForTnc seg.encodeToVec minFrameLen = padded.encodeToVec ∧
      padded.Bounded ∧ minFrameLen ≤ padded.encodeToVec.length ∧
      padded.session = seg.session ∧ padded.headerExt = seg.headerExt ∧ padded.body = seg.body ∧
      ∃ added, added.length ≤ 1 ∧ padded.trailerExt = seg.trailerExt ++ added := by
  by_cases hlong : minFrameLen = 0 ∨ minFrameLen ≤ seg.encodeToVec.length
  · have hsame : padSegmentForTnc seg.encodeToVec minFrameLen = seg.encodeToVec := if_pos hlong
    exact ⟨seg, hsame, hb, by omega, rfl, rfl, rfl, [], by simp, by simp⟩
  · -- the tag and at least one octet of length make up for the two that the padding leaves out
    have hparse := parse_encodeToVec hb hv
    let padding : Extension :=
      ⟨0, List.replicate (minFrameLen - (seg.encodeToVec.length + 2)) 0⟩
    have hvalue : padding.value.length = minFrameLen - (seg.encodeToVec.length + 2) :=
      List.length_replicate
    have hlength : (seg.withTrailer padding).encodeToVec.length = _ :=
      Segment.length_withTrailer hb hroom
    have hpos := Sdnv.encodedLen_pos padding.value.length
    refine ⟨seg.withTrailer padding, ?_, hb.withTrailer hroom (by omega), by omega, rfl, rfl, rfl,
      [padding], Nat.le_refl 1, rfl⟩
    simp only [padSegmentForTnc, if_neg hlong, hparse, hroom, and_self, if_true]
    rfl

/-- What is read after the padding has the session and the body of what an engine put out. -/
theorem parse_padSegmentForTnc {bytes : Bytes} (hplain : Host.Plain bytes) {minFrameLen : UInt64}
    {seg : Segment} {n : Nat}
    (hparse : Segment.parse (padSegmentForTnc bytes minFrameLen.toNat) = .ok (seg, n)) :
    ∃ sent m, Segment.parse bytes = .ok (sent, m) ∧ sent.session = seg.session ∧
      sent.body = seg.body := by
  obtain ⟨sid, body, hbody, rfl⟩ := hplain
  have hbounded : (Segment.plain sid body).Bounded := Segment.bounded_plain hbody
  cases hsent : Segment.parse (Segment.plain sid body).encodeToVec with
  | error err =>
    -- octets that do not parse are not padded
    have hsame : padSegmentForTnc (Segment.plain sid body).encodeToVec minFrameLen.toNat =
        (Segment.plain sid body).encodeToVec := by
      simp only [padSegmentForTnc, hsent, ite_self]
    rw [hsame, hsent] at hparse
    cases hparse
  | ok out =>
    obtain ⟨sent, m⟩ := out
    obtain ⟨rfl, -, hvalid⟩ := eq_of_parse_encodeToVec hbounded hsent
    obtain ⟨padded, hpad, hpadded, -, hsession, -, hsame, -⟩ :=
      exists_padSegmentForTnc hbounded hvalid (Nat.zero_lt_succ 14) minFrameLen.toNat_lt
    rw [hpad] at hparse
    obtain ⟨rfl, -, -⟩ := eq_of_parse_encodeToVec hpadded hparse
    exact ⟨_, m, rfl, hsession.symm, hsame.symm⟩

/-- Padding a segment that an engine put out, for any TNC, gives octets that are long enough and parse
to the same segment with at most one more trailer extension; every engine handles them as it handles
the segment itself. -/
theorem padding_transparent {config : EngineConfig} {calls : List Call} {x : EngineId × Bytes}
    (hx : x ∈ ((Host.new config).run calls).pushed) {seg : Segment} {n : Nat}
    (hparse : Segment.parse x.2 = .ok (seg, n)) (hroom : seg.trailerExt.length < 15)
    (minFrameLen : UInt64) :
    let bytes := padSegmentForTnc x.2 minFrameLen.toNat
    minFrameLen.toNat ≤ bytes.length ∧
      (∃ padded : Segment, Segment.parse bytes = .ok (padded, bytes.length) ∧
        padded.session = seg.session ∧ padded.headerExt = seg.headerExt ∧
        padded.body = seg.body ∧
        ∃ added, added.length ≤ 1 ∧ padded.trailerExt = seg.trailerExt ++ added) ∧
      ∀ (e : Engine) (source : EngineId) (now : Nat),
        e.handleIncomingSegment source bytes now = e.handleIncomingSegment source x.2 now := by
  obtain ⟨sid, body, hbody, hbytes⟩ := (Host.encodes_run config calls).pushed x hx
  have hbounded : (Segment.plain sid body).Bounded := Segment.bounded_plain hbody
  rw [hbytes] at hparse ⊢
  obtain ⟨rfl, rfl, hvalid⟩ := eq_of_parse_encodeToVec hbounded hparse
  obtain ⟨padded, hpad, hpadded, hlong, hsession, hheader, hsame, htrailer⟩ :=
    exists_padSegmentForTnc hbounded hvalid hroom minFrameLen.toNat_lt
  have hwhole : Segment.parse padded.encodeToVec = .ok (padded, padded.encodeToVec.length) := by
    refine parse_encodeToVec hpadded ?_
    rw [hsame]
    exact hvalid
  simp only [hpad]
  refine ⟨hlong, ⟨padded, hwhole, hsession, hheader, hsame, htrailer⟩, fun e source now => ?_⟩
  calc e.handleIncomingSegment source padded.encodeToVec now
      = .ok (e.handleSegment source padded now) := e.handleIncomingSegment_whole source now hwhole
    _ = .ok (e.handleSegment source (.plain sid body) now) := by
        rw [e.handleSegment_extensions source now hsession hsame]
    _ = e.handleIncomingSegment source (Segment.plain sid body).encodeToVec now :=
        (e.handleIncomingSegment_whole source now hparse).symm

/-- The segment of a block of one octet, which a TNC that asks for 16 octets does not take. -/
def shortFrame : Bytes := [3, 1, 1, 0, 1, 0, 1, 1, 0, 7]

theorem padding_transparent_short :
    16 ≤ (padSegmentForTnc shortFrame 16).length ∧
      (Engine.new .default).handleIncomingSegment ⟨1⟩ (padSegmentForTnc shortFrame 16) 5 =
        (Engine.new .default).handleIncomingSegment ⟨1⟩ shortFrame 5 := by
  have hpushed : (⟨2⟩, shortFrame) ∈
      ((Host.new .default).run [.request ⟨2⟩ 1 [7] 1 0]).pushed := by
    decide +kernel
  have hparse : Segment.parse shortFrame =
      .ok (.plain ⟨⟨1⟩, 1⟩ (.data ⟨1, 0, .redCpEorpEob ⟨.one, 0⟩, [7]⟩), 10) := rfl
  obtain ⟨hlong, -, hsame⟩ := padding_transparent hpushed hparse (by decide) 16
  exact ⟨hlong, hsame (.new .default) ⟨1⟩ 5⟩

end HdyUtils.Cla
