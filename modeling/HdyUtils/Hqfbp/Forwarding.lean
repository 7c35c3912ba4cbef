import HdyUtils.Lib.BigEndian
import HdyUtils.Lib.Trace
import HdyUtils.Hqfbp.Session

/-! The sending side of the HQFBP driver (`hqfbp-cla/src/driver.rs`).  For each bundle the driver moves
its counter of message ids on by ten, before it knows how many PDUs the bundle makes, and each PDU
takes an id.  The generator of the PDUs belongs to the `hqfbp_rs` crate and is a parameter. -/

namespace HdyUtils.Hqfbp

open Trace

variable {A C : Type}

/-- What the driver uses of `hqfbp_rs` to send, with the content encodings `C`. -/
structure PduGenerator (C : Type) where
  generate : (srcCallsign dstCallsign : Option String) → (encodings hailingEncodings : List C) →
    (initialMsgId : UInt32) → Bytes → Except String (List Bytes)
  /-- The message id in the header of a PDU. -/
  messageId : Bytes → Option UInt32

namespace PduGenerator

variable (gen : PduGenerator C)

def ids (pdus : List Bytes) : List UInt32 := pdus.filterMap gen.messageId

/-- The PDUs carry consecutive ids, modulo `2^32`, from `first` on. -/
def NumberedFrom (first : UInt32) (pdus : List Bytes) : Prop :=
  pdus.map gen.messageId = (List.range pdus.length).map fun i => some (first + UInt32.ofNat i)

/-- The generator numbers the PDUs of a message from the id that it is given. -/
def Documented : Prop :=
  ∀ srcCallsign dstCallsign encodings hailingEncodings initialMsgId data pdus,
    gen.generate srcCallsign dstCallsign encodings hailingEncodings initialMsgId data = .ok pdus →
      gen.NumberedFrom initialMsgId pdus

end PduGenerator

inductive TransportMode (A : Type)
  | kissTcp
  | kissSerial
  | udp (peerAddr : Option A)

structure PeerConfig (A : Type) where
  callsign : String
  address : Option A

structure Config (A C : Type) where
  callsign : Option String
  transport : TransportMode A
  hailingEncodings : List C
  initialMsgId : UInt32
  peers : List (PeerConfig A)

inductive SendError
  | hqfbp (message : String)
  | io (message : String)
  | serial (message : String)
deriving DecidableEq, Repr

inductive ForwardBundleResult
  | sent
  | noNeighbour
deriving DecidableEq, Repr

/-- The commands that the sending side heeds. -/
inductive DriverCommand (A C : Type)
  /-- A bundle to forward, with the number of PDUs after which the transport fails, if it does, and its
  error. -/
  | forward (dstCallsign : Option String) (encodings : List C) (data : Bytes)
      (failure : Option (Nat × String))
  | registerPeer (callsign : String) (addr : Option A)
  | unregisterPeer (callsign : String)

/-- The sending side of the driver, with a log of the PDUs that it sent for each bundle. -/
structure Transmitter (A C : Type) where
  config : Config A C
  nextMsgId : UInt32
  callsignToAddr : Std.TreeMap String A
  sent : List (List Bytes)

/-- The PDUs that go out until the transport fails, and its error. -/
def writeAll (pdus : List Bytes) : Option (Nat × String) → List Bytes × Option String
  | none => (pdus, none)
  | some (count, message) =>
    if count < pdus.length then (pdus.take count, some message) else (pdus, none)

namespace Transmitter

/-- The driver as it is spawned. -/
def spawn (config : Config A C) : Transmitter A C where
  config := config
  nextMsgId := config.initialMsgId
  callsignToAddr := config.peers.foldl
    (fun addrs peer => match peer.address with
      | some addr => addrs.insert peer.callsign addr
      | none => addrs) ∅
  sent := []

variable (gen : PduGenerator C)

/-- Sends a bundle on a transport that reports a failed write as the error `failed`. -/
def transmit (t : Transmitter A C) (failed : String → SendError) (dstCallsign : Option String)
    (encodings : List C) (data : Bytes) (failure : Option (Nat × String)) :
    Except SendError ForwardBundleResult × Transmitter A C :=
  let generated := gen.generate t.config.callsign dstCallsign encodings t.config.hailingEncodings
    t.nextMsgId data
  let t := { t with nextMsgId := t.nextMsgId + 10 }
  match generated with
  | .error message => (.error (.hqfbp message), { t with sent := t.sent ++ [[]] })
  | .ok pdus =>
    let (out, error) := writeAll pdus failure
    let t := { t with sent := t.sent ++ [out] }
    match error with
    | none => (.ok .sent, t)
    | some message => (.error (failed message), t)

def forward (t : Transmitter A C) (dstCallsign : Option String) (encodings : List C) (data : Bytes)
    (failure : Option (Nat × String)) : Except SendError ForwardBundleResult × Transmitter A C :=
  match t.config.transport with
  | .kissTcp =>
    t.transmit gen (fun _ => .io "KISS write failed") dstCallsign encodings data failure
  | .kissSerial =>
    t.transmit gen (fun _ => .serial "Serial write error") dstCallsign encodings data failure
  | .udp defaultPeer =>
    let targetAddr := (dstCallsign.bind fun callsign => t.callsignToAddr[callsign]?).or defaultPeer
    match targetAddr with
    | none => (.ok .noNeighbour, t)
    | some _ => t.transmit gen .io dstCallsign encodings data failure

def step (t : Transmitter A C) : DriverCommand A C → Transmitter A C
  | .forward dstCallsign encodings data failure =>
    (t.forward gen dstCallsign encodings data failure).2
  | .registerPeer callsign (some addr) =>
    { t with callsignToAddr := t.callsignToAddr.insert callsign addr }
  | .registerPeer _ none => t
  | .unregisterPeer callsign => { t with callsignToAddr := t.callsignToAddr.erase callsign }

end Transmitter

/-! ### Arcs of a cycle -/

/-- On a cycle of `N` points, an arc of `m` points from 0 and one of `n` points from `δ` have no point
in common exactly if one is empty or each ends before the other starts. -/
theorem arcs_disjoint_iff {N m n δ : Nat} (hδ : δ < N) :
    (∀ i < m, ∀ j < n, i % N ≠ (δ + j) % N) ↔ m = 0 ∨ n = 0 ∨ m ≤ δ ∧ δ + n ≤ N := by
  constructor
  · intro hdisjoint
    by_contra hoverlap
    simp only [not_or, not_and_or, not_le] at hoverlap
    obtain ⟨hm, hn, hlong⟩ := hoverlap
    by_cases hfirst : δ < m
    · exact hdisjoint δ hfirst 0 (Nat.pos_of_ne_zero hn) rfl
    · -- the second arc goes around to 0
      have hsecond : N < δ + n := hlong.resolve_left hfirst
      refine hdisjoint 0 (Nat.pos_of_ne_zero hm) (N - δ) (by omega) ?_
      rw [Nat.add_sub_cancel' hδ.le, Nat.mod_self, Nat.zero_mod]
  · rintro (rfl | rfl | ⟨hm, hn⟩) i hi j hj
    · exact absurd hi (Nat.not_lt_zero i)
    · exact absurd hj (Nat.not_lt_zero j)
    · rw [Nat.mod_eq_of_lt (by omega), Nat.mod_eq_of_lt (by omega)]
      omega

/-! ### The ids of the bundles -/

/-- The id at which the bundle number `k` starts. -/
def firstId (initialMsgId : UInt32) (k : Nat) : UInt32 := initialMsgId + UInt32.ofNat (10 * k)

theorem firstId_add_ne_iff (initialMsgId : UInt32) {k l : Nat} (hlt : k < l) (i j : Nat) :
    firstId initialMsgId k + UInt32.ofNat i ≠ firstId initialMsgId l + UInt32.ofNat j ↔
      i % 2 ^ 32 ≠ (10 * (l - k) % 2 ^ 32 + j) % 2 ^ 32 := by
  have hsum : ∀ k i, firstId initialMsgId k + UInt32.ofNat i =
      initialMsgId + UInt32.ofNat (10 * k + i) := fun k i => by
    rw [firstId, UInt32.add_assoc, UInt32.ofNat_add]
  rw [hsum, hsum, ne_eq, UInt32.add_right_inj, ← UInt32.toNat_inj, UInt32.toNat_ofNat',
    UInt32.toNat_ofNat']
  omega

section Ids

variable {gen : PduGenerator C}

theorem PduGenerator.NumberedFrom.take {first : UInt32} {pdus : List Bytes}
    (h : gen.NumberedFrom first pdus) (n : Nat) : gen.NumberedFrom first (pdus.take n) := by
  rw [PduGenerator.NumberedFrom, List.map_take, h, ← List.map_take, List.take_range,
    List.length_take]

theorem PduGenerator.NumberedFrom.ids {first : UInt32} {pdus : List Bytes}
    (h : gen.NumberedFrom first pdus) :
    gen.ids pdus = (List.range pdus.length).map fun i => first + UInt32.ofNat i := by
  have hids : gen.ids pdus = (pdus.map gen.messageId).reduceOption := by
    simp [PduGenerator.ids, List.reduceOption, List.filterMap_map]
  rw [hids, h, List.reduceOption, List.filterMap_map]
  simp

/-- Two bundles share no id exactly if the PDUs of neither reach into those of the other. -/
theorem ids_disjoint_iff_spaced {initialMsgId : UInt32} {k l : Nat} (hlt : k < l)
    {pdus pdus' : List Bytes} (h : gen.NumberedFrom (firstId initialMsgId k) pdus)
    (h' : gen.NumberedFrom (firstId initialMsgId l) pdus') :
    (gen.ids pdus).Disjoint (gen.ids pdus') ↔ pdus.length = 0 ∨ pdus'.length = 0 ∨
      pdus.length ≤ 10 * (l - k) % 2 ^ 32 ∧ 10 * (l - k) % 2 ^ 32 + pdus'.length ≤ 2 ^ 32 := by
  rw [← arcs_disjoint_iff (Nat.mod_lt _ (by norm_num)), h.ids, h'.ids]
  simp only [← firstId_add_ne_iff initialMsgId hlt]
  constructor
  · intro hdisjoint i hi j hj heq
    exact hdisjoint (List.mem_map.mpr ⟨i, List.mem_range.mpr hi, rfl⟩)
      (List.mem_map.mpr ⟨j, List.mem_range.mpr hj, heq.symm⟩)
  · intro hne id hid hid'
    obtain ⟨i, hi, rfl⟩ := List.mem_map.mp hid
    obtain ⟨j, hj, heq⟩ := List.mem_map.mp hid'
    exact hne i (List.mem_range.mp hi) j (List.mem_range.mp hj) heq.symm

end Ids

namespace Transmitter

/-- The bundles were numbered from the ids that were set apart for them, and the next id is past
these. -/
structure Numbered (gen : PduGenerator C) (initialMsgId : UInt32) (t : Transmitter A C) : Prop where
  next : t.nextMsgId = firstId initialMsgId t.sent.length
  sent : ∀ k pdus, t.sent[k]? = some pdus → gen.NumberedFrom (firstId initialMsgId k) pdus

variable {gen : PduGenerator C} {initialMsgId : UInt32} {t : Transmitter A C}

theorem numbered_spawn (config : Config A C) :
    (spawn config).Numbered gen config.initialMsgId where
  next := by simp [spawn, firstId]
  sent := by simp [spawn]

theorem firstId_succ (initialMsgId : UInt32) (k : Nat) :
    firstId initialMsgId (k + 1) = firstId initialMsgId k + 10 := by
  rw [firstId, firstId, Nat.mul_succ, UInt32.ofNat_add, UInt32.add_assoc]
  rfl

theorem Numbered.append (h : t.Numbered gen initialMsgId) {pdus : List Bytes}
    (hpdus : gen.NumberedFrom t.nextMsgId pdus) :
    { t with nextMsgId := t.nextMsgId + 10, sent := t.sent ++ [pdus] }.Numbered gen
      initialMsgId where
  next := by
    rw [List.length_append, List.length_singleton, firstId_succ, h.next]
  sent := by
    intro k pdus' hk
    rcases lt_or_ge k t.sent.length with hlt | hge
    · rw [List.getElem?_append_left hlt] at hk
      exact h.sent k pdus' hk
    · rw [List.getElem?_append_right hge, List.getElem?_singleton] at hk
      split at hk
      · next hzero =>
        cases hk
        rwa [Nat.le_antisymm (Nat.le_of_sub_eq_zero hzero) hge, ← h.next]
      · cases hk

theorem Numbered.transmit (h : t.Numbered gen initialMsgId) (hgen : gen.Documented)
    (failed : String → SendError) (dstCallsign : Option String) (encodings : List C) (data : Bytes)
    (failure : Option (Nat × String)) :
    (t.transmit gen failed dstCallsign encodings data failure).2.Numbered gen initialMsgId := by
  simp only [Transmitter.transmit]
  split
  · exact h.append rfl
  · next pdus hgenerated =>
    have hpdus := hgen _ _ _ _ _ _ _ hgenerated
    have hout : gen.NumberedFrom t.nextMsgId (writeAll pdus failure).1 := by
      unfold writeAll
      split
      · exact hpdus
      · split
        · exact hpdus.take _
        · exact hpdus
    split <;> exact h.append hout

theorem Numbered.step (h : t.Numbered gen initialMsgId) (hgen : gen.Documented)
    (command : DriverCommand A C) : (t.step gen command).Numbered gen initialMsgId := by
  cases command with
  | forward dstCallsign encodings data failure =>
    simp only [Transmitter.step, forward]
    split
    · exact h.transmit hgen ..
    · exact h.transmit hgen ..
    · split
      · exact h
      · exact h.transmit hgen ..
  | registerPeer callsign addr => cases addr <;> exact ⟨h.next, h.sent⟩
  | unregisterPeer callsign => exact ⟨h.next, h.sent⟩

/-- Of any two bundles for which PDUs were sent, neither reaches into the ids of the other: the first
has as many PDUs as ids were set apart from it to the second, or fewer, and the second as many as there
are from it around to the first. -/
def Spaced (t : Transmitter A C) : Prop :=
  ∀ (k l : Nat) pdus pdus', k < l → t.sent[k]? = some pdus → t.sent[l]? = some pdus' →
    pdus.length = 0 ∨ pdus'.length = 0 ∨
      pdus.length ≤ 10 * (l - k) % 2 ^ 32 ∧ 10 * (l - k) % 2 ^ 32 + pdus'.length ≤ 2 ^ 32

/-- No two bundles use the same message id. -/
def Unshared (gen : PduGenerator C) (t : Transmitter A C) : Prop :=
  ∀ (k l : Nat) pdus pdus', k < l → t.sent[k]? = some pdus → t.sent[l]? = some pdus' →
    (gen.ids pdus).Disjoint (gen.ids pdus')

/-- Bundles of ten PDUs and fewer are spaced, as long as the counter does not come around. -/
theorem spaced_of_short (hshort : ∀ pdus ∈ t.sent, pdus.length ≤ 10)
    (hfew : 10 * t.sent.length ≤ 2 ^ 32) : t.Spaced := by
  intro k l pdus pdus' hlt hk hl
  have hlen := hshort pdus (List.mem_of_getElem? hk)
  have hlen' := hshort pdus' (List.mem_of_getElem? hl)
  have hl := (List.getElem?_eq_some_iff.mp hl).1
  rw [Nat.mod_eq_of_lt (by omega)]
  exact .inr (.inr ⟨by omega, by omega⟩)

end Transmitter

/-- No two bundles share a message id exactly if no bundle has more PDUs than ids were set apart for
it. -/
theorem unshared_iff_spaced (gen : PduGenerator C) (hgen : gen.Documented) (config : Config A C)
    (commands : List (DriverCommand A C)) :
    (run (Transmitter.step gen) (.spawn config) commands).Unshared gen ↔
      (run (Transmitter.step gen) (.spawn config) commands).Spaced := by
  have hspawn : (Transmitter.spawn config).Numbered gen config.initialMsgId :=
    Transmitter.numbered_spawn config
  have hnumbered := run_invariant (fun _ command h => h.step hgen command) commands hspawn
  constructor
  · intro hunshared k l pdus pdus' hlt hk hl
    exact (ids_disjoint_iff_spaced hlt (hnumbered.sent k pdus hk) (hnumbered.sent l pdus' hl)).mp
      (hunshared k l pdus pdus' hlt hk hl)
  · intro hspaced k l pdus pdus' hlt hk hl
    exact (ids_disjoint_iff_spaced hlt (hnumbered.sent k pdus hk) (hnumbered.sent l pdus' hl)).mpr
      (hspaced k l pdus pdus' hlt hk hl)

/-- A PDU for each octet of a bundle, with its id in front. -/
def octetGenerator : PduGenerator Unit where
  generate _ _ _ _ initialMsgId data := .ok (data.mapIdx fun i octet =>
    BigEndian.toBytes 4 (initialMsgId + UInt32.ofNat i).toNat ++ [octet])
  messageId pdu := some (UInt32.ofNat (BigEndian.fromBytes (pdu.take 4)))

theorem octetGenerator_documented : octetGenerator.Documented := by
  intro srcCallsign dstCallsign encodings hailingEncodings initialMsgId data pdus h
  cases h
  apply List.ext_getElem
  · simp
  · intro i hi hi'
    have hread (n : Nat) (rest : Bytes) :
        BigEndian.fromBytes ((BigEndian.toBytes 4 n ++ rest).take 4) = n % 256 ^ 4 := by
      rw [BigEndian.take_toBytes_append, BigEndian.fromBytes_toBytes]
    simp only [octetGenerator, List.getElem_map, List.getElem_mapIdx, List.getElem_range, hread]
    rw [Nat.mod_eq_of_lt (lt_of_lt_of_eq (UInt32.toNat_lt _) (by norm_num)), UInt32.ofNat_toNat]

def kissConfig : Config Unit Unit where
  callsign := some "N0CALL"
  transport := .kissTcp
  hailingEncodings := []
  initialMsgId := 1
  peers := []

/-- A bundle of ten PDUs and one of two. -/
theorem unshared_iff_spaced_ten :
    (run (Transmitter.step octetGenerator) (.spawn kissConfig)
        [.forward none [] [0, 1, 2, 3, 4, 5, 6, 7, 8, 9] none, .forward none [] [10, 11] none]).Unshared
          octetGenerator ↔
      (run (Transmitter.step octetGenerator) (.spawn kissConfig)
        [.forward none [] [0, 1, 2, 3, 4, 5, 6, 7, 8, 9] none, .forward none [] [10, 11] none]).Spaced :=
  unshared_iff_spaced octetGenerator octetGenerator_documented kissConfig _

/-- The eleventh PDU of a bundle has the id of the first PDU of the next bundle. -/
theorem eleventh_pdu_is_shared :
    let t := run (Transmitter.step octetGenerator) (.spawn kissConfig)
      [.forward none [] [0, 1, 2, 3, 4, 5, 6, 7, 8, 9, 10] none, .forward none [] [11] none]
    (t.sent.map List.length).sum < 2 ^ 32 ∧ ¬t.Unshared octetGenerator := by
  refine ⟨by decide +kernel, fun hunshared => ?_⟩
  have hdisjoint := hunshared 0 1 _ _ Nat.zero_lt_one rfl rfl
  exact hdisjoint (a := 11) (by decide +kernel) (by decide +kernel)

end HdyUtils.Hqfbp
