import HdyUtils.Mercury.Addressed
import HdyUtils.Mercury.Replies

/-! The frames of the data socket: the writer task puts the length of a bundle before it, and the read
loop of the peer takes the bundles off the stream again. -/

namespace HdyUtils.Mercury

open Std (TreeMap)

/-- `MAX_MERCURY_FRAME`, 16 MiB. -/
def maxMercuryFrame : Nat := 16 * 1024 * 1024

/-- Where the read loop is: within the four octets of a length, within a payload, or past its end. -/
inductive ReadState
  | length (buf : Bytes)
  | payload (length : Nat) (buf : Bytes)
  | aborted
deriving DecidableEq, Repr

/-- The read loop, with the bundles that it passed on. -/
structure DataReader where
  state : ReadState
  bundles : List Bytes
deriving DecidableEq, Repr

/-- `u32::from_be_bytes`. -/
def beLength (buf : Bytes) : Nat := buf.foldl (fun n b => n * 2 ^ 8 + b.toNat) 0

namespace DataReader

def new : DataReader := ⟨.length [], []⟩

/-- One byte of the stream.  `read_exact` waits for the last byte of a length or of a payload. -/
def readByte (r : DataReader) (b : UInt8) : DataReader :=
  match r.state with
  | .length buf =>
    let buf := buf ++ [b]
    if buf.length = 4 then
      let length := beLength buf
      if length = 0 then { r with state := .length [] }
      else if maxMercuryFrame < length then { r with state := .aborted }
      else { r with state := .payload length [] }
    else { r with state := .length buf }
  | .payload length buf =>
    let buf := buf ++ [b]
    if buf.length = length then ⟨.length [], r.bundles ++ [buf]⟩
    else { r with state := .payload length buf }
  | .aborted => r

/-- What one read of the socket returns. -/
def read (r : DataReader) (raw : Bytes) : DataReader := raw.foldl readByte r

end DataReader

/-- A bundle that the read loop lets through. -/
def Framable (bundle : Bytes) : Prop := bundle ≠ [] ∧ bundle.length ≤ maxMercuryFrame

instance (bundle : Bytes) : Decidable (Framable bundle) := inferInstanceAs (Decidable (_ ∧ _))

/-! ### Reading -/

namespace DataReader

theorem run_read (r : DataReader) (reads : List Bytes) :
    Trace.run read r reads = r.read reads.flatten := by
  induction reads generalizing r with
  | nil => rfl
  | cons raw reads ih =>
    rw [Trace.run_cons, ih, List.flatten_cons]
    exact List.foldl_append.symm

theorem read_append (r : DataReader) (as bs : Bytes) : r.read (as ++ bs) = (r.read as).read bs :=
  List.foldl_append

/-- The rest of a payload ends it. -/
theorem read_payload (bundles : List Bytes) (buf rest : Bytes) (hrest : rest ≠ []) :
    read ⟨.payload (buf ++ rest).length buf, bundles⟩ rest =
      ⟨.length [], bundles ++ [buf ++ rest]⟩ := by
  induction rest generalizing buf with
  | nil => exact absurd rfl hrest
  | cons b rest ih =>
    rw [read, List.foldl_cons]
    cases rest with
    | nil => simp [readByte]
    | cons c rest =>
      have hstep : readByte ⟨.payload (buf ++ b :: c :: rest).length buf, bundles⟩ b =
          ⟨.payload ((buf ++ [b]) ++ c :: rest).length (buf ++ [b]), bundles⟩ := by
        simp [readByte]
      have hjoin : buf ++ [b] ++ c :: rest = buf ++ b :: c :: rest := by simp
      rw [hstep, ← hjoin]
      exact ih (buf ++ [b]) (by simp)

theorem beLength_header (len : Nat) (h : len < 2 ^ 32) :
    beLength [UInt8.ofNat (len / 2 ^ 24), UInt8.ofNat (len / 2 ^ 16), UInt8.ofNat (len / 2 ^ 8),
      UInt8.ofNat len] = len := by
  simp only [beLength, List.foldl_cons, List.foldl_nil, UInt8.toNat_ofNat']
  omega

/-- A frame gives its bundle back. -/
theorem read_frame (bundles : List Bytes) {bundle : Bytes} (h : Framable bundle) :
    read ⟨.length [], bundles⟩ (frame bundle) = ⟨.length [], bundles ++ [bundle]⟩ := by
  obtain ⟨hne, hmax⟩ := h
  have hmax' : bundle.length ≤ 16 * 1024 * 1024 := hmax
  have hpos : 0 < bundle.length := List.length_pos_iff.mpr hne
  have hlen : bundle.length % 2 ^ 32 = bundle.length := Nat.mod_eq_of_lt (by omega)
  unfold frame
  dsimp only
  rw [hlen, read_append]
  have hheader : read ⟨.length [], bundles⟩ [UInt8.ofNat (bundle.length / 2 ^ 24),
      UInt8.ofNat (bundle.length / 2 ^ 16), UInt8.ofNat (bundle.length / 2 ^ 8),
      UInt8.ofNat bundle.length] = ⟨.payload bundle.length [], bundles⟩ := by
    have hbe := beLength_header bundle.length (by omega)
    simp only [read, readByte, List.foldl_cons, List.foldl_nil, List.nil_append, List.cons_append,
      List.length_cons, List.length_nil, Nat.reduceAdd, Nat.reduceEqDiff, if_false, if_true, hbe]
    rw [if_neg (by omega), if_neg (Nat.not_lt.mpr hmax)]
  rw [hheader]
  exact read_payload bundles [] bundle hne

theorem read_frames (bundles : List Bytes) {more : List Bytes} (h : ∀ b ∈ more, Framable b) :
    read ⟨.length [], bundles⟩ (more.flatMap frame) = ⟨.length [], bundles ++ more⟩ := by
  induction more generalizing bundles with
  | nil => simp [read]
  | cons bundle more ih =>
    rw [List.flatMap_cons, read_append, read_frame bundles (h bundle List.mem_cons_self),
      ih _ fun b hb => h b (List.mem_cons_of_mem bundle hb)]
    simp

/-- The read loop passes on only what it lets through. -/
structure Sound (r : DataReader) : Prop where
  bundles : ∀ b ∈ r.bundles, Framable b
  payload : ∀ length buf, r.state = .payload length buf →
    buf.length < length ∧ length ≤ maxMercuryFrame

theorem Sound.readByte {r : DataReader} (h : r.Sound) (b : UInt8) : (r.readByte b).Sound := by
  obtain ⟨state, bundles⟩ := r
  unfold DataReader.readByte
  cases state with
  | length buf =>
    dsimp only
    split
    · split
      · exact ⟨h.bundles, nofun⟩
      · next hpos =>
        split
        · exact ⟨h.bundles, nofun⟩
        · next hmax =>
          refine ⟨h.bundles, ?_⟩
          rintro length buf ⟨⟩
          exact ⟨Nat.pos_of_ne_zero hpos, Nat.le_of_not_lt hmax⟩
    · exact ⟨h.bundles, nofun⟩
  | payload length buf =>
    obtain ⟨hlt, hmax⟩ := h.payload length buf rfl
    dsimp only
    split
    · next hend =>
      refine ⟨?_, nofun⟩
      intro bundle hbundle
      rcases List.mem_append.mp hbundle with hold | hlast
      · exact h.bundles bundle hold
      · rw [List.mem_singleton] at hlast
        subst hlast
        exact ⟨by simp, hend ▸ hmax⟩
    · next hmore =>
      refine ⟨h.bundles, ?_⟩
      rintro length buf ⟨⟩
      rw [List.length_append, List.length_singleton] at hmore ⊢
      exact ⟨by omega, hmax⟩
  | aborted => exact h

theorem read_sound (raw : Bytes) : (DataReader.new.read raw).Sound := by
  have hstep : ∀ (r : DataReader) (b : UInt8), r.Sound → (r.readByte b).Sound :=
    fun _ b h => h.readByte b
  exact Trace.run_invariant hstep raw ⟨nofun, nofun⟩

/-- The frames of `bundles` are read back exactly when the read loop lets each of them through. -/
theorem read_frames_iff (bundles : List Bytes) :
    (DataReader.new.read (bundles.flatMap frame)).bundles = bundles ↔
      ∀ b ∈ bundles, Framable b := by
  constructor
  · intro h
    have hsound := (read_sound (bundles.flatMap frame)).bundles
    rwa [h] at hsound
  · intro h
    rw [new, read_frames [] h]
    rfl

theorem read_frame_iff (bundle : Bytes) :
    (DataReader.new.read (frame bundle)).bundles = [bundle] ↔ Framable bundle := by
  simpa using read_frames_iff [bundle]

end DataReader

/-! ### The stream of a link -/

variable {N : Type} {platform : Platform N} {config : Config}

namespace Driver

/-- What the writer task wrote since the link was opened is the last part of what it wrote. -/
def Streamed (d : Driver N) : Prop :=
  ∀ link, d.phase = .online link → ∃ sent, sent <:+ d.written ∧
    link.stream = sent.flatMap fun w => frame w.data

theorem streamed_of_offline {d : Driver N} (h : d.phase.session = none) : d.Streamed := by
  intro link hphase
  rw [hphase] at h
  cases h

theorem Streamed.step {d : Driver N} (h : d.Streamed) (event : Event N) :
    (d.step platform config event).Streamed := by
  cases hphase : d.phase with
  | stopped =>
    unfold Driver.step
    rw [hphase]
    exact h
  | offline =>
    unfold Driver.step
    rw [hphase]
    cases event with
    | opened =>
      rintro link ⟨⟩
      exact ⟨[], List.nil_suffix, rfl⟩
    | command cmd now writeOk =>
      refine streamed_of_offline ?_
      cases cmd <;> simp [handleOffline, hphase, Phase.session]
    | commandsClosed => exact streamed_of_offline rfl
    | _ => exact h
  | online link =>
    obtain ⟨sent, hsent, hstream⟩ := h link hphase
    rw [step_online hphase]
    by_cases hevent : ∃ writeOk, event = .dataWrite writeOk
    · obtain ⟨writeOk, rfl⟩ := hevent
      simp only [stepOnline, handleWrite]
      split
      · exact h
      · next data reply queue hqueue =>
        split
        · rintro link' ⟨⟩
          refine ⟨sent ++ [⟨data, reply, link.session.peer⟩], ?_, ?_⟩
          · obtain ⟨earlier, hearlier⟩ := hsent
            exact ⟨earlier, by rw [← List.append_assoc, hearlier]⟩
          · simp [hstream]
        · rintro link' ⟨⟩
          exact ⟨sent, hsent, hstream⟩
    · rw [not_exists] at hevent
      obtain ⟨hwritten, hwire⟩ := stepOnline_wire platform config hphase hevent
      intro link' hphase'
      exact ⟨sent, hwritten ▸ hsent, (hwire link' hphase').trans hstream⟩

/-- Every bundle that was written is acknowledged. -/
def Acknowledged (d : Driver N) : Prop := ∀ w ∈ d.written, (w.reply, .ok) ∈ d.replies

theorem Acknowledged.step {d : Driver N} (h : d.Acknowledged) (event : Event N) :
    (d.step platform config event).Acknowledged := by
  have hreplies : d.replies <+: (d.step platform config event).replies := step_replies d event
  have hold : ∀ w ∈ d.written, (w.reply, .ok) ∈ (d.step platform config event).replies :=
    fun w hw => hreplies.subset (h w hw)
  cases hphase : d.phase with
  | online link =>
    by_cases hevent : ∃ writeOk, event = .dataWrite writeOk
    · obtain ⟨writeOk, rfl⟩ := hevent
      rw [step_online hphase] at hold ⊢
      simp only [stepOnline, handleWrite] at hold ⊢
      split at hold
      · exact hold
      · split at hold
        · next hqueue hok =>
          simp only [hok, if_true]
          intro w hw
          rcases List.mem_append.mp hw with hw | hw
          · exact hold w hw
          · rw [List.mem_singleton] at hw
            subst hw
            exact List.mem_append_right _ List.mem_cons_self
        · next hqueue hfailed =>
          simp only [hfailed, Bool.false_eq_true, if_false]
          exact hold
    · rw [not_exists] at hevent
      obtain ⟨hwritten, -⟩ := stepOnline_wire platform config hphase hevent
      intro w hw
      rw [step_online hphase, hwritten] at hw
      exact hold w hw
  | _ =>
    have hwritten := d.step_written platform config event
    rw [waiting_of_offline (by rw [hphase]; rfl)] at hwritten
    rcases hwritten with heq | ⟨item, hitem, -⟩
    · intro w hw
      exact hold w (heq ▸ hw)
    · cases hitem

end Driver

open Driver

/-- In every state of a run, the stream of the link is the frames of the bundles that the writer task
acknowledged on it; and the read loop takes exactly these bundles off it, in reads of any sizes, exactly
when none is empty and none is longer than the read loop admits. -/
theorem stream_decodes_iff (platform : Platform N) (config : Config) (peers : TreeMap String N)
    (events : List (Event N)) (link : Link N)
    (hlink : (Trace.run (step platform config) (.new peers) events).phase = .online link) :
    ∃ sent, sent <:+ (Trace.run (step platform config) (.new peers) events).written ∧
      (∀ w ∈ sent, (w.reply, .ok) ∈
        (Trace.run (step platform config) (.new peers) events).replies) ∧
      link.stream = sent.flatMap (fun w => frame w.data) ∧
      ∀ reads : List Bytes, reads.flatten = link.stream →
        ((Trace.run DataReader.read .new reads).bundles = sent.map Written.data ↔
          ∀ w ∈ sent, Framable w.data) := by
  have hstep : ∀ (d : Driver N) (event : Event N), d.Streamed →
      (d.step platform config event).Streamed := fun _ event h => h.step event
  have hnew : (Driver.new peers).Streamed := streamed_of_offline rfl
  have hack : ∀ (d : Driver N) (event : Event N), d.Acknowledged →
      (d.step platform config event).Acknowledged := fun _ event h => h.step event
  have hempty : (Driver.new peers).Acknowledged := nofun
  have hacknowledged := Trace.run_invariant hack events hempty
  obtain ⟨sent, hsent, hstream⟩ := Trace.run_invariant hstep events hnew link hlink
  refine ⟨sent, hsent, fun w hw => hacknowledged w (hsent.subset hw), hstream, ?_⟩
  intro reads hreads
  have hframes : sent.flatMap (fun w => frame w.data) = (sent.map Written.data).flatMap frame := by
    rw [List.flatMap_map]
  rw [DataReader.run_read, hreads, hstream, hframes, DataReader.read_frames_iff]
  simp

/-- A driver that forwards two bundles in one session. -/
def forwardedTwo : Driver String :=
  Trace.run (step ascii ⟨"N0CALL", none⟩) (.new ∅)
    [.opened, .ctlLine "CONNECTED K1ABC N0CALL 500" 0, .command (.forwardBundle [7, 8] 0) 1 true,
      .command (.forwardBundle [9] 1) 2 true, .dataWrite true, .dataWrite true]

theorem stream_decodes_iff_two_bundles :
    ∃ sent, sent <:+ forwardedTwo.written ∧ (∀ w ∈ sent, (w.reply, .ok) ∈ forwardedTwo.replies) ∧
      frame [7, 8] ++ frame [9] = sent.flatMap (fun w => frame w.data) ∧
      ∀ reads : List Bytes, reads.flatten = frame [7, 8] ++ frame [9] →
        ((Trace.run DataReader.read .new reads).bundles = sent.map Written.data ↔
          ∀ w ∈ sent, Framable w.data) :=
  stream_decodes_iff ascii ⟨"N0CALL", none⟩ ∅
    [.opened, .ctlLine "CONNECTED K1ABC N0CALL 500" 0, .command (.forwardBundle [7, 8] 0) 1 true,
      .command (.forwardBundle [9] 1) 2 true, .dataWrite true, .dataWrite true]
    ⟨.connected "K1ABC" "dtn://k1abc/" 0 2, none, none, [], true, [], frame [7, 8] ++ frame [9]⟩
    (by decide +kernel)

/-- A driver that forwards one bundle in a session. -/
def forwarded (bundle : Bytes) : Driver String :=
  Trace.run (step ascii ⟨"N0CALL", none⟩) (.new ∅)
    [.opened, .ctlLine "CONNECTED K1ABC N0CALL 500" 0, .command (.forwardBundle bundle 0) 1 true,
      .dataWrite true]

theorem forwarded_stream (bundle : Bytes) : (0, .ok) ∈ (forwarded bundle).replies ∧
    (forwarded bundle).phase = .online
      ⟨.connected "K1ABC" "dtn://k1abc/" 0 1, none, none, [], true, [], frame bundle⟩ := by
  let session : SessionState String := .connected "K1ABC" "dtn://k1abc/" 0 0
  let d : Driver String := Trace.run (step ascii ⟨"N0CALL", none⟩) (.new ∅)
    [.opened, .ctlLine "CONNECTED K1ABC N0CALL 500" 0]
  have hphase : d.phase = .online ⟨session, none, none, [], true, [], []⟩ := by decide +kernel
  have hqueued : (d.step ascii ⟨"N0CALL", none⟩ (.command (.forwardBundle bundle 0) 1 true)).phase =
      .online ⟨.connected "K1ABC" "dtn://k1abc/" 0 1, none, none, [(bundle, 0)], true, [], []⟩ := by
    rw [step_online hphase]
    rfl
  have hforwarded : forwarded bundle = Driver.step ascii ⟨"N0CALL", none⟩
    (d.step ascii ⟨"N0CALL", none⟩ (.command (.forwardBundle bundle 0) 1 true)) (.dataWrite true) := rfl
  rw [hforwarded, step_online hqueued]
  exact ⟨List.mem_append_right _ List.mem_cons_self, rfl⟩

/-- A bundle of more than 16 MiB is acknowledged, and the read loop of the peer stops at it. -/
theorem large_bundle_is_not_read :
    (0, .ok) ∈ (forwarded (List.replicate (2 ^ 24 + 1) 7)).replies ∧
    ¬ ∀ link, (forwarded (List.replicate (2 ^ 24 + 1) 7)).phase = .online link →
      (Trace.run DataReader.read .new [link.stream]).bundles = [List.replicate (2 ^ 24 + 1) 7] := by
  have hlength : (List.replicate (2 ^ 24 + 1) (7 : UInt8)).length = 2 ^ 24 + 1 :=
    List.length_replicate
  generalize List.replicate (2 ^ 24 + 1) (7 : UInt8) = bundle at hlength ⊢
  refine ⟨(forwarded_stream bundle).1, ?_⟩
  intro h
  have hread := h _ (forwarded_stream bundle).2
  rw [DataReader.run_read, List.flatten_singleton, DataReader.read_frame_iff] at hread
  have hmax : bundle.length ≤ 16 * 1024 * 1024 := hread.2
  omega

end HdyUtils.Mercury
