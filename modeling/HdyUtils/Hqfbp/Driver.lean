import HdyUtils.Hqfbp.Session
import HdyUtils.Lib.Trace
import HdyUtils.Ltp.Kiss

/-! The receive loops of the HQFBP driver (`hqfbp-cla/src/driver.rs`).  A KISS link unframes what it
reads, a UDP socket takes each datagram as it is, and both hand the result to
`handle_incoming_packet`, which unframes what looks like a KISS frame.  The KISS codec belongs to the
`hqfbp_rs` crate and is a parameter. -/

namespace HdyUtils.Hqfbp

open Ltp.Kiss (FEND FESC TFEND TFESC escapeByte)

variable {K D : Type}

/-- The KISS codec, with the states `K` of a `KissDecoder`. -/
structure KissCodec (K : Type) where
  new : K
  processByte : K → UInt8 → Option Bytes × K
  encodeKissFrame : Bytes → Bytes

/-- The PDU in a frame, if it is a data frame. -/
def pduOf : Bytes → Option Bytes
  | [] => none
  | command :: pdu => if command &&& 0x0F = 0 then some pdu else none

namespace KissCodec

variable (kiss : KissCodec K)

/-- The frames that end in `bytes`, and the decoder after them. -/
def feed : K → Bytes → List Bytes × K
  | k, [] => ([], k)
  | k, b :: bytes =>
    let (frame, k) := kiss.processByte k b
    let (frames, k) := feed k bytes
    (frame.toList ++ frames, k)

/-- The PDU of the first data frame that ends in `packet`. -/
def firstPdu : K → Bytes → Option Bytes
  | _, [] => none
  | k, b :: packet =>
    let (frame, k) := kiss.processByte k b
    match frame.bind pduOf with
    | some pdu => some pdu
    | none => firstPdu k packet

/-- `pdu_data` of `handle_incoming_packet`. -/
def pduData (packet : Bytes) : Bytes :=
  if packet.head? = some FEND then (kiss.firstPdu kiss.new packet).getD packet else packet

/-- What the driver relies on: a decoder that is new, or has just ended a frame, gives an encoded
PDU back at the last byte of its frame and only there, and no frame is longer than what was fed. -/
structure Documented (idle : K → Prop) : Prop where
  new : idle kiss.new
  framed : ∀ k pdu, idle k → pdu ≠ [] → ∃ bytes last command,
    kiss.encodeKissFrame pdu = bytes ++ [last] ∧ (kiss.feed k bytes).1 = [] ∧
    (kiss.feed k (bytes ++ [last])).1 = [command :: pdu] ∧ command &&& 0x0F = 0 ∧
    idle (kiss.feed k (bytes ++ [last])).2
  short : ∀ bytes, ∀ frame ∈ (kiss.feed kiss.new bytes).1, frame.length ≤ bytes.length

end KissCodec

/-- What the loop of a transport waits for. -/
inductive Input
  | sweep (now : Nat)
  | read (raw : Bytes) (now : Nat)
deriving DecidableEq, Repr

/-- The bytes that an input brings. -/
def Input.raw : Input → Option Bytes
  | .sweep _ => none
  | .read raw _ => some raw

inductive Transport
  | udp
  | kiss
deriving DecidableEq, Repr

/-- The receiving side of the driver, with a log of the PDUs given to `process_pdu`. -/
structure Driver (K D : Type) where
  kissDecoder : K
  rxManager : RxSessionManager D
  processed : List Bytes
  dispatched : List CompletedMessage

namespace Driver

/-- The driver when its transport opens. -/
def opened (kiss : KissCodec K) (rxManager : RxSessionManager D) : Driver K D :=
  ⟨kiss.new, rxManager, [], []⟩

variable (kiss : KissCodec K) (api : Deframer D)

def handleIncomingPacket (now : Nat) (d : Driver K D) (packet : Bytes) : Driver K D :=
  let pdu := kiss.pduData packet
  let processed := d.processed ++ [pdu]
  match d.rxManager.processPdu api pdu now with
  | (.error _, m) => { d with rxManager := m, processed := processed }
  | (.ok (), m) =>
    let (completed, m) := m.drainCompletedMessages api now
    { d with rxManager := m, processed := processed, dispatched := d.dispatched ++ completed }

/-- One byte of a KISS link. -/
def readByte (now : Nat) (d : Driver K D) (b : UInt8) : Driver K D :=
  let (frame, k) := kiss.processByte d.kissDecoder b
  let d := { d with kissDecoder := k }
  match frame.bind pduOf with
  | some pdu => d.handleIncomingPacket kiss api now pdu
  | none => d

/-- One turn of the loop of a transport.  A datagram is shorter than the buffer that it is received
in. -/
def step (transport : Transport) (d : Driver K D) : Input → Driver K D
  | .sweep now => { d with rxManager := (d.rxManager.sweepExpiredDefault api now).2 }
  | .read raw now =>
    match transport with
    | .udp => d.handleIncomingPacket kiss api now raw
    | .kiss => raw.foldl (readByte kiss api now) d

end Driver

/-- The inputs bring `pdus`: each as a datagram, or all of them as KISS frames one after another, in
reads of any sizes. -/
def Carries (kiss : KissCodec K) (pdus : List Bytes) (inputs : List Input) : Transport → Prop
  | .udp => inputs.filterMap Input.raw = pdus
  | .kiss => (inputs.filterMap Input.raw).flatten = (pdus.map kiss.encodeKissFrame).flatten

/-- A PDU that is not taken for a KISS frame: it starts with another byte than `FEND`, or no data
frame ends in it. -/
def Unframed (kiss : KissCodec K) (pdu : Bytes) : Prop :=
  pdu.head? = some FEND → ∀ frame ∈ (kiss.feed kiss.new pdu).1, pduOf frame = none

instance (kiss : KissCodec K) (pdu : Bytes) : Decidable (Unframed kiss pdu) :=
  inferInstanceAs (Decidable (_ → _))

/-! ### The codec -/

namespace KissCodec

variable {kiss : KissCodec K}

theorem feed_append (k : K) (as bs : Bytes) :
    kiss.feed k (as ++ bs) =
      ((kiss.feed k as).1 ++ (kiss.feed (kiss.feed k as).2 bs).1,
        (kiss.feed (kiss.feed k as).2 bs).2) := by
  induction as generalizing k with
  | nil => rfl
  | cons a as ih => simp only [List.cons_append, feed, ih, List.append_assoc]

/-- The loop that stops at the first data frame finds what feeding all of the packet finds first. -/
theorem firstPdu_eq (k : K) (packet : Bytes) :
    kiss.firstPdu k packet = (kiss.feed k packet).1.findSome? pduOf := by
  induction packet generalizing k with
  | nil => rfl
  | cons b packet ih =>
    rw [firstPdu, feed]
    cases hframe : (kiss.processByte k b).1 with
    | none => simp [hframe, ih]
    | some frame => cases hpdu : pduOf frame <;> simp [hframe, hpdu, ih]

theorem length_pduOf {frame pdu : Bytes} (h : pduOf frame = some pdu) :
    pdu.length < frame.length := by
  cases frame with
  | nil => cases h
  | cons command rest =>
    simp only [pduOf] at h
    split at h
    · cases h
      simp
    · cases h

variable {idle : K → Prop}

/-- A packet is handed on as it is exactly when it is not taken for a KISS frame. -/
theorem Documented.pduData_eq_iff (hkiss : kiss.Documented idle) (packet : Bytes) :
    kiss.pduData packet = packet ↔ Unframed kiss packet := by
  unfold pduData Unframed
  by_cases hfend : packet.head? = some FEND
  · simp only [hfend, if_true, forall_const]
    rw [← List.findSome?_eq_none_iff, ← firstPdu_eq]
    cases hfirst : kiss.firstPdu kiss.new packet with
    | none => simp
    | some pdu =>
      rw [firstPdu_eq] at hfirst
      obtain ⟨frame, hmem, hframe⟩ := List.exists_of_findSome?_eq_some hfirst
      have hlt := length_pduOf hframe
      have hle := hkiss.short packet frame hmem
      have hne : pdu ≠ packet := by
        intro heq
        rw [heq] at hlt
        omega
      simp [hne]
  · simp [hfend]

/-- Frames of `pdus` give the PDUs back, in order. -/
theorem Documented.feed_frames (hkiss : kiss.Documented idle) {k : K} (hk : idle k)
    {pdus : List Bytes} (hne : ∀ pdu ∈ pdus, pdu ≠ []) :
    (kiss.feed k (pdus.map kiss.encodeKissFrame).flatten).1.filterMap pduOf = pdus := by
  induction pdus generalizing k with
  | nil => rfl
  | cons pdu pdus ih =>
    obtain ⟨bytes, last, command, hencode, -, hframes, hdata, hidle⟩ :=
      hkiss.framed k pdu hk (hne pdu List.mem_cons_self)
    have hrest := ih hidle fun p hp => hne p (List.mem_cons_of_mem pdu hp)
    rw [List.map_cons, List.flatten_cons, hencode, feed_append, hframes, List.filterMap_append,
      hrest]
    simp [pduOf, hdata]

end KissCodec

/-! ### The loops -/

namespace Driver

variable {kiss : KissCodec K} {api : Deframer D}

theorem handleIncomingPacket_log (kiss : KissCodec K) (api : Deframer D) (now : Nat)
    (d : Driver K D) (packet : Bytes) :
    (d.handleIncomingPacket kiss api now packet).processed =
      d.processed ++ [kiss.pduData packet] ∧
    (d.handleIncomingPacket kiss api now packet).kissDecoder = d.kissDecoder := by
  unfold handleIncomingPacket
  dsimp only
  split <;> exact ⟨rfl, rfl⟩

theorem readBytes_log (kiss : KissCodec K) (api : Deframer D) (now : Nat) (d : Driver K D)
    (raw : Bytes) :
    (raw.foldl (readByte kiss api now) d).processed =
      d.processed ++ ((kiss.feed d.kissDecoder raw).1.filterMap pduOf).map kiss.pduData ∧
    (raw.foldl (readByte kiss api now) d).kissDecoder = (kiss.feed d.kissDecoder raw).2 := by
  induction raw generalizing d with
  | nil => simp [KissCodec.feed]
  | cons b raw ih =>
    obtain ⟨hlog, hdecoder⟩ := ih (d.readByte kiss api now b)
    have hbyte : (d.readByte kiss api now b).processed = d.processed ++
          ((kiss.processByte d.kissDecoder b).1.bind pduOf).toList.map kiss.pduData ∧
        (d.readByte kiss api now b).kissDecoder = (kiss.processByte d.kissDecoder b).2 := by
      unfold readByte
      cases hpdu : (kiss.processByte d.kissDecoder b).1.bind pduOf with
      | none => simp [hpdu]
      | some pdu =>
        have hpacket := handleIncomingPacket_log kiss api now
          { d with kissDecoder := (kiss.processByte d.kissDecoder b).2 } pdu
        simpa [hpdu] using hpacket
    rw [List.foldl_cons, hlog, hdecoder, hbyte.1, hbyte.2]
    refine ⟨?_, rfl⟩
    rw [KissCodec.feed]
    cases hframe : (kiss.processByte d.kissDecoder b).1 with
    | none => simp [hframe]
    | some frame => cases hpdu : pduOf frame <;> simp [hframe, hpdu]

/-- The PDUs that inputs bring: of a KISS link, those of the data frames that end in them. -/
def pdusOf (kiss : KissCodec K) (k : K) (inputs : List Input) : Transport → List Bytes
  | .udp => inputs.filterMap Input.raw
  | .kiss => (kiss.feed k (inputs.filterMap Input.raw).flatten).1.filterMap pduOf

/-- Every PDU that the inputs bring is handed on, through `pdu_data`. -/
theorem run_log (transport : Transport) (d : Driver K D) (inputs : List Input) :
    (Trace.run (step kiss api transport) d inputs).processed =
      d.processed ++ (pdusOf kiss d.kissDecoder inputs transport).map kiss.pduData := by
  induction inputs generalizing d with
  | nil => cases transport <;> simp [pdusOf, KissCodec.feed]
  | cons input inputs ih =>
    rw [Trace.run_cons, ih]
    cases input with
    | sweep now => rfl
    | read raw now =>
      cases transport with
      | udp =>
        obtain ⟨hlog, -⟩ := handleIncomingPacket_log kiss api now d raw
        show (d.handleIncomingPacket kiss api now raw).processed ++ _ = _
        rw [hlog]
        simp [pdusOf, Input.raw]
      | kiss =>
        obtain ⟨hlog, hdecoder⟩ := readBytes_log kiss api now d raw
        show (raw.foldl (readByte kiss api now) d).processed ++
          (pdusOf kiss (raw.foldl (readByte kiss api now) d).kissDecoder inputs .kiss).map _ = _
        rw [hlog, hdecoder]
        simp [pdusOf, Input.raw, KissCodec.feed_append]

end Driver

/-- Over either transport, the driver hands exactly `pdus` to its manager exactly when none of them
is taken for a KISS frame. -/
theorem processed_eq_iff {kiss : KissCodec K} {idle : K → Prop} (hkiss : kiss.Documented idle)
    (api : Deframer D) (rxManager : RxSessionManager D) (transport : Transport)
    {pdus : List Bytes} (hne : ∀ pdu ∈ pdus, pdu ≠ []) {inputs : List Input}
    (hcarries : Carries kiss pdus inputs transport) :
    (Trace.run (Driver.step kiss api transport) (.opened kiss rxManager) inputs).processed = pdus ↔
      ∀ pdu ∈ pdus, Unframed kiss pdu := by
  have hpdus : Driver.pdusOf kiss kiss.new inputs transport = pdus := by
    cases transport with
    | udp => exact hcarries
    | kiss =>
      show (kiss.feed kiss.new (inputs.filterMap Input.raw).flatten).1.filterMap pduOf = pdus
      have hstream : (inputs.filterMap Input.raw).flatten =
        (pdus.map kiss.encodeKissFrame).flatten := hcarries
      rw [hstream]
      exact hkiss.feed_frames hkiss.new hne
  rw [Driver.run_log]
  show [] ++ (Driver.pdusOf kiss kiss.new inputs transport).map kiss.pduData = pdus ↔ _
  rw [hpdus, List.nil_append]
  have hself : pdus.map kiss.pduData = pdus ↔ ∀ pdu ∈ pdus, kiss.pduData pdu = pdu := by
    conv_lhs => rhs; rw [← List.map_id pdus]
    exact List.map_inj_left
  rw [hself]
  exact forall₂_congr fun pdu _ => hkiss.pduData_eq_iff pdu

/-! ### A codec -/

/-- A decoder of KISS frames: the bytes of the frame so far, and whether the last one was `FESC`. -/
structure SlipState where
  buffer : Bytes
  escaped : Bool
deriving DecidableEq, Repr

/-- The codec of port 0, with `FEND` before and after each frame. -/
def slip : KissCodec SlipState where
  new := ⟨[], false⟩
  processByte k b :=
    if b = FEND then (if k.buffer = [] then none else some k.buffer, ⟨[], false⟩)
    else if k.escaped then
      (none, ⟨k.buffer ++ [if b = TFEND then FEND else if b = TFESC then FESC else b], false⟩)
    else if b = FESC then (none, ⟨k.buffer, true⟩)
    else (none, ⟨k.buffer ++ [b], false⟩)
  encodeKissFrame pdu := FEND :: 0 :: pdu.flatMap escapeByte ++ [FEND]

theorem slip_feed_escaped (buffer pdu : Bytes) :
    slip.feed ⟨buffer, false⟩ (pdu.flatMap escapeByte) = ([], ⟨buffer ++ pdu, false⟩) := by
  induction pdu generalizing buffer with
  | nil => simp [KissCodec.feed]
  | cons b pdu ih =>
    have hbyte : slip.feed ⟨buffer, false⟩ (escapeByte b) = ([], ⟨buffer ++ [b], false⟩) := by
      unfold escapeByte
      by_cases hfend : b = FEND
      · subst hfend
        rfl
      · by_cases hfesc : b = FESC
        · subst hfesc
          rfl
        · simp [hfend, hfesc, KissCodec.feed, slip]
    rw [List.flatMap_cons, KissCodec.feed_append, hbyte, ih]
    simp

theorem slip_feed_short (k : SlipState) (bytes frame : Bytes)
    (h : frame ∈ (slip.feed k bytes).1) : frame.length ≤ k.buffer.length + bytes.length := by
  induction bytes generalizing k with
  | nil => simp [KissCodec.feed] at h
  | cons b bytes ih =>
    rw [KissCodec.feed, List.mem_append] at h
    have hnext : (slip.processByte k b).2.buffer.length ≤ k.buffer.length + 1 := by
      simp only [slip]
      split
      · simp
      · split
        · simp
        · split <;> simp
    rcases h with h | h
    · have hframe : frame = k.buffer := by
        simp only [slip, Option.mem_toList] at h
        grind
      rw [hframe]
      omega
    · have hrest : frame.length ≤ (slip.processByte k b).2.buffer.length + bytes.length := ih _ h
      rw [List.length_cons]
      omega

theorem slip_documented : slip.Documented (· = ⟨[], false⟩) where
  new := rfl
  framed := by
    intro k pdu hk _
    subst hk
    have hstart : slip.feed ⟨[], false⟩ (FEND :: 0 :: pdu.flatMap escapeByte) =
        ([], ⟨0 :: pdu, false⟩) := by
      have hhead : slip.feed ⟨[], false⟩ [FEND, 0] = ([], ⟨[0], false⟩) := rfl
      show slip.feed ⟨[], false⟩ ([FEND, 0] ++ pdu.flatMap escapeByte) = _
      rw [KissCodec.feed_append, hhead, slip_feed_escaped]
      rfl
    refine ⟨FEND :: 0 :: pdu.flatMap escapeByte, FEND, 0, rfl, by rw [hstart], ?_, rfl, ?_⟩
    · rw [KissCodec.feed_append, hstart]
      rfl
    · rw [KissCodec.feed_append, hstart]
      rfl
  short := by
    intro bytes frame h
    have hshort := slip_feed_short ⟨[], false⟩ bytes frame h
    simpa using hshort

/-- A deframer that reports nothing. -/
def silent : Deframer Unit where
  new := ()
  unpack _ := none
  receiveBytes _ _ _ := ()
  nextEvents _ := ([], ())
  cleanupExpired _ _ _ := ([], ())

/-- Two PDUs in three reads, the first of which starts with `FEND`. -/
theorem processed_eq_iff_two_pdus :
    (Trace.run (Driver.step slip silent .kiss) (.opened slip (.new silent 4 100 60))
      [.read [0xC0, 0x00, 0xDB, 0xDC, 0x01] 0, .sweep 1, .read [0xC0, 0xC0, 0x00] 2,
        .read [0x02, 0xC0] 3]).processed = [[0xC0, 0x01], [0x02]] ↔
      ∀ pdu ∈ [[0xC0, 0x01], [0x02]], Unframed slip pdu :=
  processed_eq_iff slip_documented silent (.new silent 4 100 60) .kiss (by decide) rfl

/-- A PDU with a KISS frame in it arrives on a KISS link without the frame. -/
theorem framed_pdu_is_unwrapped :
    ¬ (Trace.run (Driver.step slip silent .kiss) (.opened slip (.new silent 4 100 60))
      [.read (slip.encodeKissFrame [0xC0, 0x00, 0x41, 0xC0]) 0]).processed =
        [[0xC0, 0x00, 0x41, 0xC0]] := by
  decide +kernel

end HdyUtils.Hqfbp
