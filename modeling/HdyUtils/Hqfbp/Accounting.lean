import HdyUtils.Hqfbp.Session
import HdyUtils.Lib.Sums
import HdyUtils.Lib.Trace

/-! The accounting of the receiver: bytes are charged to the manager, to a sender and to a message,
and released on completion, eviction and sweep. -/

namespace HdyUtils.Hqfbp

open Std (TreeMap TreeSet)

variable {D : Type} {m m' : RxSessionManager D} {s : Sender} {state : SenderState}

/-- The bytes charged to the messages of a sender. -/
def SenderState.messageBytes (state : SenderState) : Nat := Maps.total id state.sessionBytes

/-- A completed message `mid` is one that the sender was charged for, or no message of the sender
has bytes charged to it. -/
def SenderState.covers (state : SenderState) (mid : Option UInt32) : Bool :=
  match mid with
  | some id => state.sessionBytes.contains id || state.messageBytes == 0
  | none => true

namespace RxSessionManager

/-- The three levels of counters agree, and the limits hold. -/
structure Accounted (m : RxSessionManager D) : Prop where
  total : m.totalBufferedBytes = Maps.total (·.bufferedBytes) m.senders
  messages : ∀ (s : Sender) (state : SenderState), m.senders[s]? = some state → state.messageBytes ≤ state.bufferedBytes
  cap : m.totalBufferedBytes ≤ m.maxInFlightBytes
  distinct : m.lruSenders.Nodup
  lru : m.lruSenders.Perm m.senders.keys
  count : m.senders.size ≤ m.maxConcurrentSenders

/-- What the operations keep, with what the proof needs besides. -/
structure Kept (m : RxSessionManager D) : Prop where
  total : m.totalBufferedBytes = Maps.total (·.bufferedBytes) m.senders
  messages : ∀ (s : Sender) (state : SenderState), m.senders[s]? = some state → state.messageBytes ≤ state.bufferedBytes
  active : ∀ (s : Sender) (state : SenderState), m.senders[s]? = some state →
    ∀ id, id ∈ state.activeMessageIds ↔ id ∈ state.sessionBytes
  cap : m.totalBufferedBytes ≤ m.maxInFlightBytes
  distinct : m.lruSenders.Nodup
  lru : ∀ s, s ∈ m.lruSenders ↔ s ∈ m.senders
  count : m.senders.size ≤ m.maxConcurrentSenders
  room : 1 ≤ m.maxConcurrentSenders

theorem Kept.accounted (h : Kept m) : Accounted m where
  total := h.total
  messages := h.messages
  cap := h.cap
  distinct := h.distinct
  lru := by
    rw [List.perm_ext_iff_of_nodup h.distinct TreeMap.nodup_keys]
    intro s
    rw [h.lru, TreeMap.mem_keys]
  count := h.count

/-- The accounting reads only these fields. -/
theorem Kept.congr (h : Kept m) (hsenders : m'.senders = m.senders)
    (htotal : m'.totalBufferedBytes = m.totalBufferedBytes) (hlru : m'.lruSenders = m.lruSenders)
    (hmax : m'.maxConcurrentSenders = m.maxConcurrentSenders)
    (hcap : m'.maxInFlightBytes = m.maxInFlightBytes) : Kept m' := by
  cases m
  cases m'
  subst hsenders htotal hlru hmax hcap
  exact ⟨h.total, h.messages, h.active, h.cap, h.distinct, h.lru, h.count, h.room⟩

/-! ### Dropping a sender -/

/-- `m'` is `m` without the sender `s`, whose state was `state`. -/
structure Dropped (s : Sender) (state : SenderState) (m m' : RxSessionManager D) : Prop where
  held : m.senders[s]? = some state
  senders : m'.senders = m.senders.erase s
  total : m'.totalBufferedBytes = m.totalBufferedBytes - state.bufferedBytes
  lru : m'.lruSenders = m.lruSenders.erase s
  maxSenders : m'.maxConcurrentSenders = m.maxConcurrentSenders
  maxBytes : m'.maxInFlightBytes = m.maxInFlightBytes

theorem Dropped.size_lt (h : Dropped s state m m') : m'.senders.size < m.senders.size := by
  have hsize := Maps.size_erase_of_some h.held
  rw [h.senders]
  omega

theorem Kept.dropped (hk : Kept m) (h : Dropped s state m m') : Kept m' where
  total := by
    have hsum := Maps.total_erase (·.bufferedBytes) h.held
    rw [h.total, h.senders, hk.total]
    omega
  messages := by
    intro t st hst
    rw [h.senders, Maps.getElem?_erase] at hst
    split at hst
    · cases hst
    · exact hk.messages t st hst
  active := by
    intro t st hst
    rw [h.senders, Maps.getElem?_erase] at hst
    split at hst
    · cases hst
    · exact hk.active t st hst
  cap := by
    rw [h.total, h.maxBytes]
    exact (Nat.sub_le _ _).trans hk.cap
  distinct := by
    rw [h.lru]
    exact hk.distinct.erase s
  lru := by
    intro t
    rw [h.lru, h.senders, hk.distinct.mem_erase_iff, Maps.mem_map_erase, hk.lru, ne_comm]
  count := by
    rw [h.maxSenders]
    exact h.size_lt.le.trans hk.count
  room := by
    rw [h.maxSenders]
    exact hk.room

/-- Taking an entry off the list at its index. -/
theorem eraseIdx_of_getElem? {l : List Sender} (hl : l.Nodup) {idx : Nat} (h : l[idx]? = some s) :
    l.eraseIdx idx = l.erase s := by
  obtain ⟨hlt, hget⟩ := List.getElem?_eq_some_iff.mp h
  rw [List.erase_eq_eraseIdx_of_idxOf]
  rw [← hget, hl.idxOf_getElem]

/-- An eviction drops the oldest sender that is not to be skipped, and fails only when there is
none. -/
theorem evict_cases (api : Deframer D) (hk : Kept m) (skip : Option Sender) (now : Nat) :
    (m.evictOldestSender api skip now = (false, m) ∧ ∀ s ∈ m.lruSenders, skip = some s) ∨
    ∃ s state, (m.evictOldestSender api skip now).1 = true ∧ skip ≠ some s ∧
      Dropped s state m (m.evictOldestSender api skip now).2 := by
  cases htarget : m.targetIdx skip with
  | none =>
    refine .inl ⟨by rw [evictOldestSender, htarget], ?_⟩
    intro s hs
    unfold targetIdx at htarget
    cases skip with
    | none =>
      cases hlru : m.lruSenders with
      | nil => simp [hlru] at hs
      | cons => simp [hlru] at htarget
    | some x =>
      simp only [List.findIdx?_eq_none_iff, decide_eq_false_iff_not, not_not] at htarget
      rw [htarget s hs]
  | some idx =>
    have hidx : ∃ s, m.lruSenders[idx]? = some s ∧ skip ≠ some s := by
      unfold targetIdx at htarget
      cases skip with
      | none =>
        cases hlru : m.lruSenders with
        | nil => simp [hlru] at htarget
        | cons s rest =>
          simp only [hlru, List.isEmpty_cons, Bool.false_eq_true, if_false, Option.some.injEq]
            at htarget
          subst htarget
          exact ⟨s, rfl, by simp⟩
      | some x =>
        obtain ⟨hlt, hne, -⟩ := List.findIdx?_eq_some_iff_getElem.mp htarget
        refine ⟨m.lruSenders[idx], List.getElem?_eq_getElem hlt, ?_⟩
        intro heq
        exact of_decide_eq_true hne (Option.some.inj heq).symm
    obtain ⟨s, hs, hskip⟩ := hidx
    have hmem : s ∈ m.senders := (hk.lru s).mp (List.mem_of_getElem? hs)
    rw [TreeMap.mem_iff_isSome_getElem?, Option.isSome_iff_exists] at hmem
    obtain ⟨state, hstate⟩ := hmem
    have heq : m.evictOldestSender api skip now =
        (true, { m with
          lruSenders := m.lruSenders.eraseIdx idx
          senders := m.senders.erase s
          totalBufferedBytes := m.totalBufferedBytes - state.bufferedBytes
          deframer := purge api m.deframer now state.activeMessageIds.toList }) := by
      unfold evictOldestSender
      rw [htarget]
      dsimp only
      rw [hs]
      dsimp only
      rw [hstate]
    refine .inr ⟨s, state, by rw [heq], hskip, ?_⟩
    rw [heq]
    exact ⟨hstate, rfl, rfl, eraseIdx_of_getElem? hk.distinct hs, rfl, rfl⟩

/-! ### Making room -/

/-- The sender is there, or there is a place for it. -/
def HasPlace (m : RxSessionManager D) (s : Sender) : Prop :=
  s ∈ m.senders ∨ m.senders.size < m.maxConcurrentSenders

theorem HasPlace.dropped {t : Sender} (hp : HasPlace m t) (h : Dropped s state m m')
    (hne : s ≠ t) : HasPlace m' t := by
  unfold HasPlace
  rw [h.senders, h.maxSenders, Maps.mem_map_erase]
  have hlt := h.size_lt
  rw [h.senders] at hlt
  rcases hp with hmem | hroom
  · exact .inl ⟨hne, hmem⟩
  · exact .inr (by omega)

theorem makePlace_kept (api : Deframer D) (hk : Kept m) (s : Sender) (now : Nat) :
    Kept (m.makePlace api s now) ∧ HasPlace (m.makePlace api s now) s := by
  unfold makePlace
  split
  · next hfull =>
    rcases evict_cases api hk none now with ⟨-, hnone⟩ | ⟨t, state, -, -, hdrop⟩
    · -- The list is empty, so there is no sender, and the manager is not full.
      have hempty : m.senders.size = 0 := by
        rw [← TreeMap.length_keys, List.length_eq_zero_iff, List.eq_nil_iff_forall_not_mem]
        intro t ht
        have habs := hnone t ((hk.lru t).mpr (TreeMap.mem_keys.mp ht))
        cases habs
      have := hk.room
      omega
    · refine ⟨hk.dropped hdrop, .inr ?_⟩
      have hlt := hdrop.size_lt
      have hcount := hk.count
      rw [hdrop.maxSenders]
      omega
  · next hfree =>
    refine ⟨hk, ?_⟩
    rw [not_and, TreeMap.contains_iff_mem] at hfree
    by_cases hmem : s ∈ m.senders
    · exact .inl hmem
    · exact .inr (Nat.lt_of_not_le (hfree hmem))

/-- What a success of `makeRoom` gives. -/
theorem makeRoom_kept (api : Deframer D) (pduLen : Nat) (s : Sender) (now fuel : Nat)
    (hk : Kept m) (hp : HasPlace m s) :
    Kept (makeRoom api pduLen s now fuel m).2 ∧ HasPlace (makeRoom api pduLen s now fuel m).2 s ∧
    ((makeRoom api pduLen s now fuel m).1 = .ok () →
      (makeRoom api pduLen s now fuel m).2.totalBufferedBytes + pduLen ≤
        (makeRoom api pduLen s now fuel m).2.maxInFlightBytes) := by
  induction fuel generalizing m with
  | zero => exact ⟨hk, hp, fun h => nomatch h⟩
  | succ fuel ih =>
    rw [makeRoom]
    split
    · rcases evict_cases api hk (some s) now with ⟨heq, -⟩ | ⟨t, state, htrue, hne, hdrop⟩
      · rw [heq]
        exact ⟨hk, hp, fun h => nomatch h⟩
      · cases hev : m.evictOldestSender api (some s) now with
        | mk evicted m' =>
          rw [hev] at htrue hdrop
          simp only at htrue hdrop
          subst htrue
          have hts : t ≠ s := fun h => hne (by rw [h])
          exact ih (hk.dropped hdrop) (hp.dropped hdrop hts)
    · next hfits => exact ⟨hk, hp, fun _ => Nat.le_of_not_lt hfits⟩

/-! ### Charging -/

/-- The entry of a sender keeps its books when it is charged. -/
theorem charge_entry (mid : Option UInt32) (pduLen now : Nat)
    (hbytes : state.messageBytes ≤ state.bufferedBytes)
    (hactive : ∀ id, id ∈ state.activeMessageIds ↔ id ∈ state.sessionBytes) :
    (state.charge mid pduLen now).bufferedBytes = state.bufferedBytes + pduLen ∧
    (state.charge mid pduLen now).messageBytes ≤ (state.charge mid pduLen now).bufferedBytes ∧
    ∀ id, id ∈ (state.charge mid pduLen now).activeMessageIds ↔
      id ∈ (state.charge mid pduLen now).sessionBytes := by
  cases mid with
  | none => exact ⟨rfl, hbytes.trans (Nat.le_add_right _ _), hactive⟩
  | some mid =>
    refine ⟨rfl, ?_, ?_⟩
    · have hsum := Maps.total_insert_add (id : Nat → Nat) state.sessionBytes mid
        ((state.sessionBytes[mid]?).getD 0 + pduLen)
      show Maps.total id (state.sessionBytes.insert mid ((state.sessionBytes[mid]?).getD 0 + pduLen))
        ≤ state.bufferedBytes + pduLen
      unfold SenderState.messageBytes at hbytes
      simp only [Option.map_id, id_eq] at hsum
      omega
    · intro id
      show id ∈ state.activeMessageIds.insert mid ↔ id ∈ state.sessionBytes.insert mid _
      rw [Maps.mem_insert, Maps.mem_map_insert, hactive]

theorem touchSender_lru (m : RxSessionManager D) (s : Sender) :
    (m.touchSender s).lruSenders = m.lruSenders.erase s ++ [s] := by
  rw [touchSender, List.erase_eq_eraseIdx]
  cases m.lruSenders.idxOf? s <;> rfl

theorem charge_kept (hk : Kept m) (hp : HasPlace m s) (mid : Option UInt32) (pduLen now : Nat)
    (hroom : m.totalBufferedBytes + pduLen ≤ m.maxInFlightBytes) :
    Kept (m.charge s mid pduLen now) := by
  let entry := (m.senders[s]?).getD ⟨now, 0, ∅, ∅⟩
  have hentry : entry.messageBytes ≤ entry.bufferedBytes ∧
      ∀ id, id ∈ entry.activeMessageIds ↔ id ∈ entry.sessionBytes := by
    cases hs : m.senders[s]? with
    | none =>
      simp only [entry, hs, Option.getD_none]
      exact ⟨Nat.le_refl _, fun id => by simp⟩
    | some state =>
      simp only [entry, hs, Option.getD_some]
      exact ⟨hk.messages s state hs, hk.active s state hs⟩
  obtain ⟨hbuffered, hmessages, hactive⟩ :=
    charge_entry mid pduLen now hentry.1 hentry.2
  have hsenders : (m.charge s mid pduLen now).senders =
      m.senders.insert s (entry.charge mid pduLen now) := rfl
  have hlru : (m.charge s mid pduLen now).lruSenders = m.lruSenders.erase s ++ [s] :=
    touchSender_lru _ s
  constructor
  case total =>
    have hsum := Maps.total_insert_add (fun x : SenderState => x.bufferedBytes) m.senders s
      (entry.charge mid pduLen now)
    have hold : (m.senders[s]?.map (·.bufferedBytes)).getD 0 = entry.bufferedBytes := by
      cases hs : m.senders[s]? <;> simp [entry, hs]
    have htotal := hk.total
    rw [hsenders]
    show m.totalBufferedBytes + pduLen = _
    omega
  case messages =>
    intro t st hst
    rw [hsenders, Maps.getElem?_insert] at hst
    split at hst
    · cases hst
      exact hmessages
    · exact hk.messages t st hst
  case active =>
    intro t st hst
    rw [hsenders, Maps.getElem?_insert] at hst
    split at hst
    · cases hst
      exact hactive
    · exact hk.active t st hst
  case cap => exact hroom
  case distinct =>
    rw [hlru, List.nodup_append]
    refine ⟨hk.distinct.erase s, by simp, ?_⟩
    intro a ha b hb heq
    rw [List.mem_singleton] at hb
    subst heq hb
    exact hk.distinct.not_mem_erase ha
  case lru =>
    intro t
    rw [hlru, hsenders, List.mem_append, hk.distinct.mem_erase_iff, List.mem_singleton,
      Maps.mem_map_insert, hk.lru]
    by_cases hts : t = s
    · simp [hts]
    · simp [hts, Ne.symm hts]
  case count =>
    show (m.charge s mid pduLen now).senders.size ≤ m.maxConcurrentSenders
    rw [hsenders, TreeMap.size_insert]
    split
    · exact hk.count
    · next hnot =>
      rcases hp with hmem | hlt
      · exact absurd (TreeMap.contains_iff_mem.mpr hmem) hnot
      · exact hlt
  case room => exact hk.room

/-! ### Releasing -/

/-- The loop over the finished messages moves their bytes from the books to `deducted`. -/
theorem Release.run_add (ids : List UInt32) (r : Release) :
    Maps.total id (ids.foldl Release.add r).sessionBytes + (ids.foldl Release.add r).deducted =
      Maps.total id r.sessionBytes + r.deducted ∧
    (∀ k, (ids.foldl Release.add r).sessionBytes[k]? =
      if k ∈ ids then none else r.sessionBytes[k]?) ∧
    ((ids.foldl Release.add r).foundSession = true ↔
      r.foundSession = true ∨ ∃ id ∈ ids, id ∈ r.sessionBytes) := by
  induction ids generalizing r with
  | nil => simp
  | cons i ids ih =>
    obtain ⟨hsum, hlookup, hfound⟩ := ih (r.add i)
    rw [List.foldl_cons]
    unfold Release.add at hsum hlookup hfound ⊢
    cases hi : r.sessionBytes[i]? with
    | none =>
      have hnot : i ∉ r.sessionBytes := by
        rw [TreeMap.mem_iff_isSome_getElem?, hi]
        simp
      simp only [hi] at hsum hlookup hfound ⊢
      refine ⟨hsum, ?_, ?_⟩
      · intro k
        rw [hlookup]
        by_cases hki : k = i
        · subst hki
          simp [hi]
        · simp [hki]
      · rw [hfound]
        simp [hnot]
    | some bytes =>
      have hmem : i ∈ r.sessionBytes := by
        rw [TreeMap.mem_iff_isSome_getElem?, hi]
        rfl
      simp only [hi] at hsum hlookup hfound ⊢
      have herase := Maps.total_erase (id : Nat → Nat) hi
      simp only [id_eq] at herase
      refine ⟨by omega, ?_, ?_⟩
      · intro k
        rw [hlookup, Maps.getElem?_erase]
        by_cases hki : k = i
        · subst hki
          simp
        · simp [hki, Ne.symm hki]
      · simp [hfound, hmem]

/-- The entry of a sender keeps its books when a message that it covers is released. -/
theorem release_entry {mid : Option UInt32} (hcovers : state.covers mid = true)
    (hbytes : state.messageBytes ≤ state.bufferedBytes)
    (hactive : ∀ id, id ∈ state.activeMessageIds ↔ id ∈ state.sessionBytes)
    {release : Release}
    (hrelease : release = (state.finishedIds mid).foldl Release.add ⟨state.sessionBytes, 0, false⟩)
    {deducted : Nat}
    (hdeducted : deducted = if release.foundSession then release.deducted else state.bufferedBytes) :
    deducted ≤ state.bufferedBytes ∧
    Maps.total id release.sessionBytes ≤ state.bufferedBytes - deducted ∧
    ∀ id, id ∈ state.stillActive mid ↔ id ∈ release.sessionBytes := by
  obtain ⟨hsum, hlookup, hfound⟩ :=
    Release.run_add (state.finishedIds mid) ⟨state.sessionBytes, 0, false⟩
  rw [← hrelease] at hsum hlookup hfound
  unfold SenderState.messageBytes at hbytes
  simp only [Nat.add_zero, Bool.false_eq_true, false_or] at hsum hlookup hfound
  have hmem : ∀ id, id ∈ release.sessionBytes ↔
      id ∉ state.finishedIds mid ∧ id ∈ state.sessionBytes := by
    intro id
    rw [TreeMap.mem_iff_isSome_getElem?, hlookup, TreeMap.mem_iff_isSome_getElem?]
    split <;> simp_all
  refine ⟨?_, ?_, ?_⟩
  · subst hdeducted
    split <;> omega
  · by_cases hf : release.foundSession = true
    · rw [if_pos hf] at hdeducted
      omega
    · -- Nothing was found, so the whole sender is released, and nothing may be left of it.
      rw [if_neg hf] at hdeducted
      rw [hfound] at hf
      have hzero : Maps.total id state.sessionBytes = 0 := by
        cases mid with
        | some id =>
          simp only [SenderState.covers, Bool.or_eq_true, beq_iff_eq, TreeMap.contains_iff_mem]
            at hcovers
          rcases hcovers with hcharged | hzero
          · exact absurd ⟨id, List.mem_singleton.mpr rfl, hcharged⟩ hf
          · exact hzero
        | none =>
          apply Maps.total_of_forall_none
          intro id
          by_contra hsome
          rw [← ne_eq, Option.ne_none_iff_isSome, ← TreeMap.mem_iff_isSome_getElem?] at hsome
          refine hf ⟨id, ?_, hsome⟩
          exact TreeSet.mem_toList.mpr ((hactive id).mpr hsome)
      omega
  · intro id
    rw [hmem]
    cases mid with
    | some mid =>
      show id ∈ state.activeMessageIds.erase mid ↔ id ∉ [mid] ∧ _
      rw [Maps.mem_erase, List.mem_singleton, hactive, ne_comm]
    | none =>
      show id ∈ (∅ : TreeSet UInt32) ↔ id ∉ state.activeMessageIds.toList ∧ _
      rw [TreeSet.mem_toList, hactive]
      simp

theorem releaseMessage_kept (hk : Kept m) {mid : Option UInt32}
    (hcovers : ∀ state, m.senders[s]? = some state → state.covers mid = true) (now : Nat) :
    Kept (m.releaseMessage s mid now) := by
  unfold releaseMessage
  split
  · exact hk
  · next state hs =>
    obtain ⟨hle, hmessages, hactive⟩ := release_entry (hcovers state hs) (hk.messages s state hs)
      (hk.active s state hs) rfl rfl
    have hmem : m.senders.contains s = true := by
      rw [TreeMap.contains_eq_isSome_getElem?, hs]
      rfl
    constructor
    case total =>
      have herase := Maps.total_erase (fun x : SenderState => x.bufferedBytes) hs
      have htotal := hk.total
      rw [Maps.total_insert]
      dsimp only
      omega
    case messages =>
      intro t st hst
      simp only [Maps.getElem?_insert] at hst
      split at hst
      · cases hst
        exact hmessages
      · exact hk.messages t st hst
    case active =>
      intro t st hst
      simp only [Maps.getElem?_insert] at hst
      split at hst
      · cases hst
        exact hactive
      · exact hk.active t st hst
    case cap => exact (Nat.sub_le _ _).trans hk.cap
    case distinct => exact hk.distinct
    case lru =>
      intro t
      rw [Maps.mem_map_insert]
      show t ∈ m.lruSenders ↔ _
      rw [hk.lru]
      constructor
      · exact .inr
      · rintro (rfl | ht)
        · exact TreeMap.contains_iff_mem.mp hmem
        · exact ht
    case count =>
      show (m.senders.insert s _).size ≤ m.maxConcurrentSenders
      rw [TreeMap.size_insert, if_pos hmem]
      exact hk.count
    case room => exact hk.room

/-! ### Events -/

/-- A completed message is a duplicate, or its sender is not there, or covers it. -/
def Settles (s : RxSessionManager D × TreeMap Sender UInt32) (event : Event) : Bool :=
  match event with
  | .message header payload =>
    s.1.completedPayloads.contains ⟨header.srcCallsign, hashPayload payload⟩ ||
      match s.1.senders[header.srcCallsign]? with
      | some state => state.covers (messageOf s.2 header)
      | none => true
  | _ => true

theorem handleEvent_kept (now : Nat) {s : RxSessionManager D × TreeMap Sender UInt32}
    (event : Event) (hk : Kept s.1) (hs : Settles s event = true) :
    Kept (handleEvent now s event).1 := by
  cases event with
  | pdu header =>
    simp only [handleEvent]
    split <;> exact hk
  | message header payload =>
    simp only [handleEvent]
    split
    · exact hk
    · next hnew =>
      simp only [Settles, Bool.or_eq_true, hnew, Bool.false_eq_true, false_or] at hs
      have hcovers : ∀ state, s.1.senders[header.srcCallsign]? = some state →
          state.covers (messageOf s.2 header) = true := by
        intro state hstate
        rw [hstate] at hs
        exact hs
      let noted : RxSessionManager D := { s.1 with
        completedPayloads :=
          s.1.completedPayloads.insert ⟨header.srcCallsign, hashPayload payload⟩ now }
      have hnoted : Kept noted := hk.congr rfl rfl rfl rfl rfl
      have hreleased : Kept (noted.releaseMessage header.srcCallsign (messageOf s.2 header) now) :=
        releaseMessage_kept hnoted hcovers now
      exact hreleased.congr rfl rfl rfl rfl rfl
  | sessionExpired => exact hk
  | duplicate => exact hk

/-- Every completed message that a poll of the deframer takes settles. -/
def PollSettles (api : Deframer D) (m : RxSessionManager D) (now : Nat) : Bool :=
  decide (Trace.Along (handleEvent now) (fun s event => Settles s event = true)
    ({ m with deframer := (api.nextEvents m.deframer).2 }, ∅) (api.nextEvents m.deframer).1)

theorem pollDeframerEvents_kept (api : Deframer D) (hk : Kept m) (now : Nat)
    (hs : m.PollSettles api now = true) : Kept (m.pollDeframerEvents api now) := by
  have hstep : ∀ (s : RxSessionManager D × TreeMap Sender UInt32) (event : Event),
      Kept s.1 → Settles s event = true → Kept (handleEvent now s event).1 :=
    fun _ event => handleEvent_kept now event
  exact (of_decide_eq_true hs).invariant hstep (hk.congr rfl rfl rfl rfl rfl)

/-! ### Operations -/

theorem admitPdu_kept (api : Deframer D) (hk : Kept m) (pdu : Bytes) (now : Nat) :
    Kept (m.admitPdu api pdu now).2 := by
  unfold admitPdu
  cases peek api pdu with
  | mk sender mid =>
    dsimp only
    split
    · exact hk
    · split
      · exact hk
      · obtain ⟨hplaced, hplace⟩ := makePlace_kept api hk sender now
        have hroom := makeRoom_kept api pdu.length sender now
          ((m.makePlace api sender now).lruSenders.length + 1) hplaced hplace
        split
        · next heq =>
          rw [heq] at hroom
          exact hroom.1
        · next heq =>
          rw [heq] at hroom
          have hcharged := charge_kept hroom.1 hroom.2.1 mid pdu.length now (hroom.2.2 rfl)
          exact hcharged.congr rfl rfl rfl rfl rfl

theorem dropStale_kept (hk : Kept m) (stale : Sender) : Kept (m.dropStale stale) := by
  have hlru : (m.dropStale stale).lruSenders = m.lruSenders.erase stale := by
    rw [List.erase_eq_eraseIdx]
    cases hs : m.senders[stale]? <;> cases hidx : m.lruSenders.idxOf? stale <;>
      simp [dropStale, hs, hidx]
  cases hs : m.senders[stale]? with
  | none =>
    have hnot : stale ∉ m.lruSenders := by
      rw [hk.lru, TreeMap.mem_iff_isSome_getElem?, hs]
      simp
    rw [List.erase_of_not_mem hnot] at hlru
    apply hk.congr _ _ hlru <;> simp [dropStale, hs]
  | some state =>
    have hdrop : Dropped stale state m (m.dropStale stale) := by
      refine ⟨hs, ?_, ?_, hlru, ?_, ?_⟩ <;> simp [dropStale, hs]
    exact hk.dropped hdrop

theorem sweepExpired_kept (api : Deframer D) (hk : Kept m) (now timeout : Nat) :
    Kept (m.sweepExpired api now timeout).2 := by
  have hstep : ∀ (m : RxSessionManager D) (stale : Sender), Kept m → Kept (m.dropStale stale) :=
    fun _ stale hm => dropStale_kept hm stale
  let cleaned : RxSessionManager D :=
    { m with deframer := (api.cleanupExpired m.deframer timeout now).2 }
  have hcleaned : Kept cleaned := hk.congr rfl rfl rfl rfl rfl
  have hdropped : Kept (Trace.run dropStale cleaned (cleaned.staleSenders now timeout)) :=
    Trace.run_invariant hstep _ hcleaned
  exact hdropped.congr rfl rfl rfl rfl rfl

/-- Every completed message that the deframer reports during an operation settles. -/
def ActionSettles (api : Deframer D) (m : RxSessionManager D) : Action → Bool
  | .processPdu pdu now =>
    match m.admitPdu api pdu now with
    | (.ok true, m) => m.PollSettles api now
    | _ => true
  | .drainCompletedMessages now => m.PollSettles api now
  | .sweepExpired _ _ => true

theorem step_kept (api : Deframer D) (hk : Kept m) (action : Action)
    (hs : m.ActionSettles api action = true) : Kept (m.step api action) := by
  cases action with
  | processPdu pdu now =>
    have hadmit := admitPdu_kept api hk pdu now
    simp only [step, processPdu, ActionSettles] at hs ⊢
    cases hcase : m.admitPdu api pdu now with
    | mk result m' =>
      rw [hcase] at hadmit hs
      cases result with
      | error e => exact hadmit
      | ok fed =>
        cases fed with
        | false => exact hadmit
        | true => exact pollDeframerEvents_kept api hadmit now hs
  | drainCompletedMessages now =>
    exact (pollDeframerEvents_kept api hk now hs).congr rfl rfl rfl rfl rfl
  | sweepExpired now timeout => exact sweepExpired_kept api hk now timeout

theorem new_kept (api : Deframer D) {maxConcurrentSenders : Nat} (h : 1 ≤ maxConcurrentSenders)
    (maxInFlightBytes sessionTtl : Nat) :
    Kept (new api maxConcurrentSenders maxInFlightBytes sessionTtl) where
  total := rfl
  messages := by simp [new]
  active := by simp [new]
  cap := Nat.zero_le _
  distinct := List.nodup_nil
  lru := by simp [new]
  count := Nat.zero_le _
  room := h

end RxSessionManager

open RxSessionManager

/-- In a run in which every completed message settles, the three levels of counters agree in every
state, and the limits hold. -/
theorem accounted_of_settled (api : Deframer D) (maxConcurrentSenders maxInFlightBytes : Nat)
    (sessionTtl : Nat) (hmax : 1 ≤ maxConcurrentSenders) (actions : List Action)
    (hsettles : Trace.Along (step api) (fun m action => m.ActionSettles api action = true)
      (new api maxConcurrentSenders maxInFlightBytes sessionTtl) actions) :
    Accounted (Trace.run (step api)
      (new api maxConcurrentSenders maxInFlightBytes sessionTtl) actions) := by
  have hstep : ∀ (m : RxSessionManager D) (action : Action),
      Kept m → m.ActionSettles api action = true → Kept (m.step api action) :=
    fun _ action hk => step_kept api hk action
  exact (hsettles.invariant hstep (new_kept api hmax maxInFlightBytes sessionTtl)).accounted

/-- A deframer for short runs.  A PDU starts with the sender, its message (0 for none) and the
message that it completes (0 for none). -/
def relay : Deframer (List Event) where
  new := []
  unpack
    | sender :: mid :: _ =>
      some ⟨some (toString sender.toNat), none, if mid = 0 then none else some mid.toUInt32, none⟩
    | _ => none
  receiveBytes
    | events, sender :: _ :: completed :: payload, _ =>
      if completed = 0 then events
      else events ++
        [.message ⟨some (toString sender.toNat), none, some completed.toUInt32, none⟩ payload]
    | events, _, _ => events
  nextEvents events := (events, [])
  cleanupExpired _ _ _ := ([], [])

/-- Two messages of one sender, one of which is completed, and a sweep. -/
theorem accounted_of_settled_two_messages :
    Accounted (Trace.run (step relay) (new relay 2 100 60)
      [.processPdu [1, 1, 0] 0, .processPdu [1, 2, 0] 1, .processPdu [1, 1, 1] 2,
        .sweepExpired 90 60]) := by
  apply accounted_of_settled
  · decide
  · decide +kernel

/-- A message that was not charged to its sender is completed while another message of the sender
is in flight, and then that one is completed too: the bytes of the second sender are not counted any
more. -/
theorem accounting_lost_by_uncharged_message :
    ¬ Accounted (Trace.run (step relay) (new relay 4 100 60)
      [.processPdu [1, 1, 0] 0, .processPdu [1, 0, 9] 1, .processPdu [2, 5, 0] 2,
        .processPdu [1, 1, 1, 7] 3]) := by
  intro h
  have htotal := h.total
  revert htotal
  decide +kernel

end HdyUtils.Hqfbp
