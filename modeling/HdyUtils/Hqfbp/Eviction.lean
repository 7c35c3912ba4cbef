import HdyUtils.Hqfbp.Accounting

/-! What the eviction of a sender does to the other senders.  The deframer is looked at through the
chunks that it holds of each message and the last activity of the message. -/

namespace HdyUtils.Hqfbp

variable {D : Type} {m m' : RxSessionManager D}

/-- How the state of a deframer is looked at: the chunks of a message that it received and did not
drop, and when the message was last active. -/
structure View (D : Type) where
  held : D → MessageKey → Set Bytes
  lastActive : D → MessageKey → Nat

/-- The events that a deframer reports while it is fed `pdus`. -/
def feed (api : Deframer D) (now : Nat) : D → List Bytes → List Event
  | _, [] => []
  | d, pdu :: pdus =>
    let (events, d) := api.nextEvents (api.receiveBytes d pdu now)
    events ++ feed api now d pdus

/-- A message of `key` was completed. -/
def Completes (key : MessageKey) (events : List Event) : Prop :=
  ∃ header payload, Event.message header payload ∈ events ∧ header.srcCallsign = key.sender ∧
    header.message = some key.messageId

/-- What the manager relies on.  `chunks key` says which lists of PDUs are the chunks of a message
of `key`. -/
structure Documented (api : Deframer D) (view : View D) (chunks : MessageKey → List Bytes → Prop) :
    Prop where
  cleanup : ∀ d timeout now key, view.held (api.cleanupExpired d timeout now).2 key =
    if timeout ≤ now - view.lastActive d key then ∅ else view.held d key
  completes : ∀ d key pdus rest now, chunks key pdus → rest ≠ [] → (∀ pdu ∈ rest, pdu ∈ pdus) →
    (∀ pdu ∈ pdus, pdu ∈ view.held d key ∨ pdu ∈ rest) → Completes key (feed api now d rest)

namespace RxSessionManager

/-- The sender that an eviction takes. -/
def victim (m : RxSessionManager D) (skip : Option Sender) : Option Sender :=
  (m.targetIdx skip).bind fun idx => m.lruSenders[idx]?

/-- From `m` to `m'` no sender but `evicted` lost anything: neither its accounting nor the chunks
that the deframer holds of its messages, so that a message is still completed by the chunks that
were missing. -/
structure Isolated (api : Deframer D) (view : View D) (chunks : MessageKey → List Bytes → Prop)
    (evicted : Option Sender) (m m' : RxSessionManager D) : Prop where
  senders : ∀ s, evicted ≠ some s → m'.senders[s]? = m.senders[s]?
  held : ∀ key, evicted ≠ some key.sender →
    view.held m'.deframer key = view.held m.deframer key
  completes : ∀ key pdus rest now, evicted ≠ some key.sender → chunks key pdus → rest ≠ [] →
    (∀ pdu ∈ rest, pdu ∈ pdus) → (∀ pdu ∈ pdus, pdu ∈ view.held m.deframer key ∨ pdu ∈ rest) →
    Completes key (feed api now m'.deframer rest)

/-- The sender to evict has no active message, or the deframer holds nothing of the others. -/
def SparesOthers (view : View D) (m : RxSessionManager D) (skip : Option Sender) : Prop :=
  ∀ s state, m.victim skip = some s → m.senders[s]? = some state →
    state.activeMessageIds.toList = [] ∨ ∀ key, key.sender ≠ s → view.held m.deframer key = ∅

/-- A cleanup with no timeout drops every message. -/
theorem held_purge {api : Deframer D} {view : View D} {chunks : MessageKey → List Bytes → Prop}
    (hapi : Documented api view chunks) (now : Nat) (ids : List UInt32) (d : D) (key : MessageKey) :
    view.held (purge api d now ids) key = if ids = [] then view.held d key else ∅ := by
  induction ids generalizing d with
  | nil => rfl
  | cons i ids ih =>
    rw [if_neg (List.cons_ne_nil i ids)]
    show view.held (purge api (api.cleanupExpired d 0 now).2 now ids) key = ∅
    rw [ih, hapi.cleanup, if_pos (Nat.zero_le _), ite_self]

/-- What an eviction does: it takes the victim's entries, and purges the deframer if the victim has
active messages. -/
theorem evict_effect (api : Deframer D) (m : RxSessionManager D) (skip : Option Sender)
    (now : Nat) :
    ((m.evictOldestSender api skip now).2.senders = m.senders ∧
      (m.evictOldestSender api skip now).2.deframer = m.deframer ∧
      ∀ s, m.victim skip = some s → m.senders[s]? = none) ∨
    ∃ s state, m.victim skip = some s ∧ m.senders[s]? = some state ∧
      (m.evictOldestSender api skip now).2.senders = m.senders.erase s ∧
      (m.evictOldestSender api skip now).2.deframer =
        purge api m.deframer now state.activeMessageIds.toList := by
  cases htarget : m.targetIdx skip with
  | none =>
    refine .inl ⟨by simp only [evictOldestSender, htarget], by simp only [evictOldestSender, htarget],
      fun s hs => ?_⟩
    simp [victim, htarget] at hs
  | some idx =>
    cases hidx : m.lruSenders[idx]? with
    | none =>
      refine .inl ⟨by simp only [evictOldestSender, htarget, hidx],
        by simp only [evictOldestSender, htarget, hidx], fun s hs => ?_⟩
      simp [victim, htarget, hidx] at hs
    | some s =>
      have hvictim : m.victim skip = some s := by rw [victim, htarget, Option.bind_some, hidx]
      cases hstate : m.senders[s]? with
      | none =>
        refine .inl ⟨by simp only [evictOldestSender, htarget, hidx, hstate],
          by simp only [evictOldestSender, htarget, hidx, hstate], fun t ht => ?_⟩
        rw [hvictim] at ht
        cases ht
        exact hstate
      | some state =>
        exact .inr ⟨s, state, hvictim, hstate,
          by simp only [evictOldestSender, htarget, hidx, hstate],
          by simp only [evictOldestSender, htarget, hidx, hstate]⟩

/-- An eviction leaves the other senders alone exactly when the evicted sender has no active message
or the deframer holds nothing of the others: otherwise it drops the chunks of every sender. -/
theorem eviction_isolated_iff (api : Deframer D) (view : View D)
    (chunks : MessageKey → List Bytes → Prop) (hapi : Documented api view chunks)
    (m : RxSessionManager D) (skip : Option Sender) (now : Nat) :
    Isolated api view chunks (m.victim skip) m (m.evictOldestSender api skip now).2 ↔
      m.SparesOthers view skip := by
  rcases evict_effect api m skip now with ⟨hsenders, hdeframer, hnone⟩ |
    ⟨s, state, hvictim, hstate, hsenders, hdeframer⟩
  · -- Nothing is evicted.
    refine iff_of_true ⟨?_, ?_, ?_⟩ ?_
    · intro s _
      rw [hsenders]
    · intro key _
      rw [hdeframer]
    · intro key pdus rest now _ hchunks hrest hsub hall
      rw [hdeframer]
      exact hapi.completes _ key pdus rest now hchunks hrest hsub hall
    · intro s state hvictim hstate
      rw [hnone s hvictim] at hstate
      cases hstate
  · rw [hvictim]
    have hheld : ∀ key, view.held (m.evictOldestSender api skip now).2.deframer key =
        if state.activeMessageIds.toList = [] then view.held m.deframer key else ∅ := by
      intro key
      rw [hdeframer, held_purge hapi]
    constructor
    · intro h t st ht hst
      rw [hvictim] at ht
      cases ht
      rw [hstate] at hst
      cases hst
      by_cases hids : state.activeMessageIds.toList = []
      · exact .inl hids
      · refine .inr fun key hkey => ?_
        have hsame := h.held key fun heq => hkey (Option.some.inj heq).symm
        rw [hheld, if_neg hids] at hsame
        exact hsame.symm
    · intro h
      have hsame : ∀ key, some s ≠ some key.sender →
          view.held (m.evictOldestSender api skip now).2.deframer key =
            view.held m.deframer key := by
        intro key hkey
        rw [hheld]
        split
        · rfl
        · next hids =>
          rcases h s state hvictim hstate with hempty | hothers
          · exact absurd hempty hids
          · exact (hothers key fun heq => hkey (by rw [heq])).symm
      refine ⟨?_, hsame, ?_⟩
      · intro t ht
        rw [hsenders, Maps.getElem?_erase, if_neg fun heq => ht (by rw [heq])]
      · intro key pdus rest now hkey hchunks hrest hsub hall
        rw [← hsame key hkey] at hall
        exact hapi.completes _ key pdus rest now hchunks hrest hsub hall

end RxSessionManager

/-! ### A deframer of numbered chunks -/

/-- The chunks held of each message, the last activity of each message, the messages with chunks,
and the events that wait. -/
structure ChunkStore where
  held : MessageKey → List Bytes
  lastActive : MessageKey → Nat
  known : List MessageKey
  waiting : List Event

/-- A chunk starts with its sender, its message, its number and how many chunks there are. -/
def readChunk : Bytes → Option (MessageKey × UInt8 × UInt8)
  | sender :: mid :: index :: count :: _ =>
    some (⟨some (toString sender.toNat), mid.toUInt32⟩, index, count)
  | _ => none

/-- The chunk with number `i`. -/
def findChunk (held : List Bytes) (i : Nat) : Option Bytes :=
  held.find? fun pdu => (readChunk pdu).any fun chunk => chunk.2.1.toNat == i

def hasAllChunks (held : List Bytes) (count : UInt8) : Bool :=
  (List.range count.toNat).all fun i => (findChunk held i).isSome

/-- The payload of a message, from its chunks in order. -/
def assemble (held : List Bytes) (count : UInt8) : Bytes :=
  (List.range count.toNat).flatMap fun i => ((findChunk held i).getD []).drop 4

/-- Holds chunks until all those of a message are there. -/
def chunked : Deframer ChunkStore where
  new := ⟨fun _ => [], fun _ => 0, [], []⟩
  unpack pdu := (readChunk pdu).map fun chunk =>
    ⟨chunk.1.sender, none, some chunk.1.messageId, none⟩
  receiveBytes d pdu now :=
    match readChunk pdu with
    | none => d
    | some (key, _, count) =>
      let held := pdu :: d.held key
      if hasAllChunks held count then
        { d with
          held := Function.update d.held key []
          waiting := d.waiting ++
            [.message ⟨key.sender, none, some key.messageId, none⟩ (assemble held count)] }
      else
        { d with
          held := Function.update d.held key held
          lastActive := Function.update d.lastActive key now
          known := key :: d.known }
  nextEvents d := (d.waiting, { d with waiting := [] })
  cleanupExpired d timeout now :=
    (d.known.filter fun key => timeout ≤ now - d.lastActive key,
      { d with held := fun key => if timeout ≤ now - d.lastActive key then [] else d.held key })

def chunkView : View ChunkStore where
  held d key := { pdu | pdu ∈ d.held key }
  lastActive d key := d.lastActive key

/-- The PDUs are the numbered chunks of one message of `key`. -/
def Numbered (key : MessageKey) (pdus : List Bytes) : Prop :=
  ∃ count, (∀ pdu ∈ pdus, ∃ index, readChunk pdu = some (key, index, count)) ∧
    ∀ i < count.toNat, ∃ pdu ∈ pdus, ∃ index, readChunk pdu = some (key, index, count) ∧
      index.toNat = i

theorem hasAllChunks_of_subset {key : MessageKey} {count : UInt8} {held pdus : List Bytes}
    (hnumbers : ∀ i < count.toNat, ∃ pdu ∈ pdus, ∃ index,
      readChunk pdu = some (key, index, count) ∧ index.toNat = i)
    (hall : ∀ pdu ∈ pdus, pdu ∈ held) : hasAllChunks held count = true := by
  rw [hasAllChunks, List.all_eq_true]
  intro i hi
  obtain ⟨pdu, hpdu, index, hread, hindex⟩ := hnumbers i (List.mem_range.mp hi)
  rw [findChunk, List.find?_isSome]
  exact ⟨pdu, hall pdu hpdu, by simp [hread, hindex]⟩

theorem chunked_completes {key : MessageKey} {pdus : List Bytes} (hchunks : Numbered key pdus)
    (now : Nat) (rest : List Bytes) (d : ChunkStore) (hrest : rest ≠ [])
    (hsub : ∀ pdu ∈ rest, pdu ∈ pdus) (hall : ∀ pdu ∈ pdus, pdu ∈ d.held key ∨ pdu ∈ rest) :
    Completes key (feed chunked now d rest) := by
  obtain ⟨count, hread, hnumbers⟩ := hchunks
  induction rest generalizing d with
  | nil => exact absurd rfl hrest
  | cons c rest ih =>
    obtain ⟨index, hc⟩ := hread c (hsub c List.mem_cons_self)
    by_cases hcomplete : hasAllChunks (c :: d.held key) count = true
    · refine ⟨⟨key.sender, none, some key.messageId, none⟩, assemble (c :: d.held key) count, ?_,
        rfl, rfl⟩
      simp only [feed, chunked, hc, hcomplete, if_true]
      exact List.mem_append_left _ (List.mem_append_right _ (List.mem_singleton.mpr rfl))
    · -- Something is still missing, so it is in the rest.
      have hmore : rest ≠ [] := by
        rintro rfl
        refine hcomplete (hasAllChunks_of_subset hnumbers fun pdu hpdu => ?_)
        rcases hall pdu hpdu with hheld | hlast
        · exact List.mem_cons_of_mem c hheld
        · rw [List.mem_singleton.mp hlast]
          exact List.mem_cons_self
      let d' := (chunked.nextEvents (chunked.receiveBytes d c now)).2
      have hheld : d'.held key = c :: d.held key := by
        simp [d', chunked, hc, hcomplete]
      have hall' : ∀ pdu ∈ pdus, pdu ∈ d'.held key ∨ pdu ∈ rest := by
        intro pdu hpdu
        rw [hheld]
        rcases hall pdu hpdu with h | h
        · exact .inl (List.mem_cons_of_mem c h)
        · rcases List.mem_cons.mp h with rfl | h
          · exact .inl List.mem_cons_self
          · exact .inr h
      obtain ⟨header, payload, hmem, hsrc, hmid⟩ :=
        ih d' hmore (fun pdu hpdu => hsub pdu (List.mem_cons_of_mem c hpdu)) hall'
      exact ⟨header, payload, List.mem_append_right _ hmem, hsrc, hmid⟩

theorem chunked_documented : Documented chunked chunkView Numbered where
  cleanup := by
    intro d timeout now key
    show { pdu | pdu ∈ if timeout ≤ now - d.lastActive key then [] else d.held key } =
      if timeout ≤ now - d.lastActive key then ∅ else { pdu | pdu ∈ d.held key }
    split <;> simp
  completes := by
    intro d key pdus rest now hchunks hrest hsub hall
    exact chunked_completes hchunks now rest d hrest hsub hall

open RxSessionManager

/-- Two senders with the first of two chunks each. -/
def twoSenders (maxConcurrentSenders : Nat) : RxSessionManager ChunkStore :=
  Trace.run (step chunked) (new chunked maxConcurrentSenders 100 60)
    [.processPdu [1, 1, 0, 2, 7] 0, .processPdu [2, 1, 0, 2, 8] 1]

theorem eviction_isolated_iff_two_senders :
    Isolated chunked chunkView Numbered ((twoSenders 2).victim none) (twoSenders 2)
        ((twoSenders 2).evictOldestSender chunked none 2).2 ↔
      (twoSenders 2).SparesOthers chunkView none :=
  eviction_isolated_iff chunked chunkView Numbered chunked_documented (twoSenders 2) none 2

/-- A third sender takes the place of the first one: the deframer drops the chunk of the second
sender too, and its message is not completed by the chunk that was missing.  With a place for the
third sender it is. -/
theorem eviction_drops_other_sender :
    ¬ Isolated chunked chunkView Numbered ((twoSenders 2).victim none) (twoSenders 2)
        ((twoSenders 2).evictOldestSender chunked none 2).2 ∧
    (Trace.run (step chunked) (twoSenders 2)
      [.processPdu [3, 1, 0, 2, 9] 2, .processPdu [2, 1, 1, 2, 6] 3]).completedMessages = [] ∧
    (Trace.run (step chunked) (twoSenders 3)
      [.processPdu [3, 1, 0, 2, 9] 2, .processPdu [2, 1, 1, 2, 6] 3]).completedMessages =
      [⟨some "2", none, some 1, [8, 6]⟩] := by
  refine ⟨?_, by decide +kernel, by decide +kernel⟩
  intro h
  have hkept := h.held ⟨some "2", 1⟩ (by decide +kernel)
  have hbefore : ([2, 1, 0, 2, 8] : Bytes) ∈ (twoSenders 2).deframer.held ⟨some "2", 1⟩ := by
    decide +kernel
  have hafter : ([2, 1, 0, 2, 8] : Bytes) ∉
      ((twoSenders 2).evictOldestSender chunked none 2).2.deframer.held ⟨some "2", 1⟩ := by
    decide +kernel
  exact hafter ((Set.ext_iff.mp hkept _).mpr hbefore)

end HdyUtils.Hqfbp
