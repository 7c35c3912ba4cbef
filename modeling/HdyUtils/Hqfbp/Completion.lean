import HdyUtils.Hqfbp.Accounting

/-! The completed sessions of the receiver, against the messages that it completed.  A chunk of a
completed session is dropped, so that a session is to be there only when its message was pushed; and a
message that is completed is to leave nothing charged to it. -/

namespace HdyUtils.Hqfbp

open Std (TreeMap TreeSet)

variable {D : Type} {m m' : RxSessionManager D}

/-- The message of `key` is one of `pushed`. -/
def Pushed (pushed : List CompletedMessage) (key : MessageKey) : Prop :=
  ∃ msg ∈ pushed, msg.srcCallsign = key.sender ∧ msg.messageId = some key.messageId

instance (pushed : List CompletedMessage) (key : MessageKey) : Decidable (Pushed pushed key) :=
  inferInstanceAs (Decidable (∃ msg ∈ pushed, _))

theorem Pushed.append {pushed : List CompletedMessage} {key : MessageKey} (h : Pushed pushed key)
    (more : List CompletedMessage) : Pushed (pushed ++ more) key := by
  obtain ⟨msg, hmem, hmsg⟩ := h
  exact ⟨msg, List.mem_append_left more hmem, hmsg⟩

/-- Nothing is charged to a message, and it is not active. -/
def SenderState.freed (state : SenderState) (mid : UInt32) : Bool :=
  (state.sessionBytes[mid]?).getD 0 == 0 && !state.activeMessageIds.contains mid

theorem SenderState.freed_iff {state : SenderState} {mid : UInt32} :
    state.freed mid = true ↔
      (state.sessionBytes[mid]?).getD 0 = 0 ∧ mid ∉ state.activeMessageIds := by
  simp [freed, ← TreeSet.contains_iff_mem]

namespace RxSessionManager

/-- Every completed session is one whose message was pushed: it waits to be taken, or was drained
before. -/
def Backed (drained : List CompletedMessage) (m : RxSessionManager D) : Prop :=
  ∀ key ∈ m.completedSessions, Pushed (drained ++ m.completedMessages) key

/-- Nothing is charged to the message of `key`. -/
def Freed (m : RxSessionManager D) (key : MessageKey) : Bool :=
  match m.senders[key.sender]? with
  | some state => state.freed key.messageId
  | none => true

/-- `m'` has the completed sessions and the completed messages of `m`. -/
structure SameCompletions (m m' : RxSessionManager D) : Prop where
  sessions : m'.completedSessions = m.completedSessions
  messages : m'.completedMessages = m.completedMessages

theorem SameCompletions.refl (m : RxSessionManager D) : SameCompletions m m := ⟨rfl, rfl⟩

theorem SameCompletions.trans {m'' : RxSessionManager D} (h : SameCompletions m m')
    (h' : SameCompletions m' m'') : SameCompletions m m'' :=
  ⟨h'.sessions.trans h.sessions, h'.messages.trans h.messages⟩

theorem SameCompletions.backed (h : SameCompletions m m') {drained : List CompletedMessage}
    (hb : Backed drained m) : Backed drained m' := by
  unfold Backed
  rw [h.sessions, h.messages]
  exact hb

/-! ### Operations that complete nothing -/

theorem evict_completions (api : Deframer D) (m : RxSessionManager D) (skip : Option Sender)
    (now : Nat) : SameCompletions m (m.evictOldestSender api skip now).2 := by
  unfold evictOldestSender
  split
  · exact .refl m
  · split
    · exact .refl m
    · dsimp only
      split <;> exact ⟨rfl, rfl⟩

theorem makePlace_completions (api : Deframer D) (m : RxSessionManager D) (sender : Sender)
    (now : Nat) : SameCompletions m (m.makePlace api sender now) := by
  unfold makePlace
  split
  · exact evict_completions api m none now
  · exact .refl m

theorem makeRoom_completions (api : Deframer D) (pduLen : Nat) (sender : Sender) (now fuel : Nat)
    (m : RxSessionManager D) : SameCompletions m (makeRoom api pduLen sender now fuel m).2 := by
  induction fuel generalizing m with
  | zero => exact .refl m
  | succ fuel ih =>
    rw [makeRoom]
    split
    · have hevict := evict_completions api m (some sender) now
      split
      · next heq =>
        rw [heq] at hevict
        exact hevict.trans (ih _)
      · next heq =>
        rw [heq] at hevict
        exact hevict
    · exact .refl m

theorem admitPdu_completions (api : Deframer D) (m : RxSessionManager D) (pdu : Bytes)
    (now : Nat) : SameCompletions m (m.admitPdu api pdu now).2 := by
  unfold admitPdu
  dsimp only
  split
  · exact .refl m
  · split
    · exact .refl m
    · have hplace := makePlace_completions api m (peek api pdu).1 now
      have hroom := makeRoom_completions api pdu.length (peek api pdu).1 now
        ((m.makePlace api (peek api pdu).1 now).lruSenders.length + 1)
        (m.makePlace api (peek api pdu).1 now)
      split
      · next heq =>
        rw [heq] at hroom
        exact hplace.trans hroom
      · next heq =>
        rw [heq] at hroom
        have hcharge := hplace.trans hroom
        exact ⟨hcharge.sessions, hcharge.messages⟩

theorem dropStale_completions (m : RxSessionManager D) (stale : Sender) :
    SameCompletions m (m.dropStale stale) := by
  unfold dropStale
  dsimp only
  split <;> exact ⟨rfl, rfl⟩

theorem sweepExpired_backed (api : Deframer D) {drained : List CompletedMessage}
    (hb : Backed drained m) (now timeout : Nat) :
    Backed drained (m.sweepExpired api now timeout).2 := by
  have hstep : ∀ (m : RxSessionManager D) (stale : Sender),
      Backed drained m → Backed drained (m.dropStale stale) :=
    fun m stale hm => (dropStale_completions m stale).backed hm
  let cleaned : RxSessionManager D :=
    { m with deframer := (api.cleanupExpired m.deframer timeout now).2 }
  have hdropped : Backed drained
      (Trace.run dropStale cleaned (cleaned.staleSenders now timeout)) :=
    Trace.run_invariant hstep _ hb
  intro key hkey
  exact hdropped key (TreeMap.mem_of_mem_filter hkey)

/-! ### Events -/

theorem mem_foldl_insert (src : Sender) (ids : List UInt32) (time : Nat)
    (sessions : TreeMap MessageKey Nat) (key : MessageKey) :
    key ∈ ids.foldl (fun sessions id => sessions.insert ⟨src, id⟩ time) sessions ↔
      key ∈ sessions ∨ (key.sender = src ∧ key.messageId ∈ ids) := by
  induction ids generalizing sessions with
  | nil => simp
  | cons i ids ih =>
    rw [List.foldl_cons, ih, Maps.mem_map_insert]
    cases key
    grind

/-- The sessions that are complete after a message of `src`. -/
theorem mem_completed_release (src : Sender) (mid : Option UInt32) (time : Nat)
    (key : MessageKey) :
    key ∈ (m.releaseMessage src mid time).completedSessions ↔ key ∈ m.completedSessions ∨
      ∃ state, m.senders[src]? = some state ∧ key.sender = src ∧
        key.messageId ∈ state.finishedIds mid := by
  unfold releaseMessage
  cases hs : m.senders[src]? with
  | none => simp
  | some state =>
    rw [mem_foldl_insert]
    simp

/-- A message that is released leaves nothing behind. -/
theorem freed_release (src : Sender) (mid : UInt32) (time : Nat) :
    (m.releaseMessage src (some mid) time).Freed ⟨src, mid⟩ = true := by
  unfold releaseMessage Freed
  cases hs : m.senders[src]? with
  | none => simp [hs]
  | some state =>
    obtain ⟨-, hlookup, -⟩ :=
      Release.run_add (state.finishedIds (some mid)) ⟨state.sessionBytes, 0, false⟩
    dsimp only
    rw [Maps.getElem?_insert, if_pos rfl, SenderState.freed_iff]
    have hfinished : mid ∈ state.finishedIds (some mid) := List.mem_singleton.mpr rfl
    dsimp only
    rw [hlookup, if_pos hfinished]
    refine ⟨rfl, ?_⟩
    show mid ∉ state.activeMessageIds.erase mid
    rw [Maps.mem_erase]
    simp

theorem releaseMessage_messages (src : Sender) (mid : Option UInt32) (time : Nat) :
    (m.releaseMessage src mid time).completedMessages = m.completedMessages := by
  unfold releaseMessage
  split <;> rfl

/-- The message that an event completes. -/
def completedKey (lastMidBySender : TreeMap Sender UInt32) : Event → Option MessageKey
  | .message header _ => (messageOf lastMidBySender header).map (⟨header.srcCallsign, ·⟩)
  | _ => none

/-- What is to hold after an event: every completed session has its message pushed, and the message
that the event completes has nothing charged to it. -/
structure Settled (drained : List CompletedMessage) (now : Nat)
    (s : RxSessionManager D × TreeMap Sender UInt32) (event : Event) : Prop where
  backed : Backed drained (handleEvent now s event).1
  freed : ∀ key, completedKey s.2 event = some key →
    (handleEvent now s event).1.Freed key = true

/-- A message that is suppressed for its payload has nothing charged to it already, and a message
without an id comes when every active message of its sender was pushed before. -/
def Settleable (drained : List CompletedMessage) (s : RxSessionManager D × TreeMap Sender UInt32) :
    Event → Bool
  | .message header payload =>
    match messageOf s.2 header with
    | some mid =>
      !s.1.completedPayloads.contains ⟨header.srcCallsign, hashPayload payload⟩ ||
        s.1.Freed ⟨header.srcCallsign, mid⟩
    | none =>
      s.1.completedPayloads.contains ⟨header.srcCallsign, hashPayload payload⟩ ||
        match s.1.senders[header.srcCallsign]? with
        | some state => decide (∀ mid ∈ state.activeMessageIds.toList,
            Pushed (drained ++ s.1.completedMessages) ⟨header.srcCallsign, mid⟩)
        | none => true
  | _ => true

/-- An event that leaves the manager as it was. -/
theorem settled_of_unchanged {drained : List CompletedMessage} {now : Nat}
    {s : RxSessionManager D × TreeMap Sender UInt32} {event : Event} (hb : Backed drained s.1)
    (h : (handleEvent now s event).1 = s.1) :
    Settled drained now s event ↔ ∀ key, completedKey s.2 event = some key → s.1.Freed key = true := by
  constructor
  · intro hs
    rw [← h]
    exact hs.freed
  · intro hfreed
    exact ⟨by rwa [h], by rwa [h]⟩

section Message

variable {drained : List CompletedMessage} {now : Nat}
  {s : RxSessionManager D × TreeMap Sender UInt32} {header : Header} {payload : Bytes}

/-- A message that is no duplicate is pushed. -/
theorem handleEvent_message (now : Nat)
    (hnew : s.1.completedPayloads.contains ⟨header.srcCallsign, hashPayload payload⟩ = false) :
    (∀ key, key ∈ (handleEvent now s (.message header payload)).1.completedSessions ↔
      key ∈ s.1.completedSessions ∨ ∃ state, s.1.senders[header.srcCallsign]? = some state ∧
        key.sender = header.srcCallsign ∧ key.messageId ∈ state.finishedIds (messageOf s.2 header)) ∧
    (handleEvent now s (.message header payload)).1.completedMessages = s.1.completedMessages ++
      [⟨header.srcCallsign, header.dstCallsign, messageOf s.2 header, payload⟩] ∧
    ∀ mid, messageOf s.2 header = some mid →
      (handleEvent now s (.message header payload)).1.Freed ⟨header.srcCallsign, mid⟩ = true := by
  let noted : RxSessionManager D := { s.1 with
    completedPayloads :=
      s.1.completedPayloads.insert ⟨header.srcCallsign, hashPayload payload⟩ now }
  simp only [handleEvent, hnew, Bool.false_eq_true, if_false]
  refine ⟨?_, ?_, ?_⟩
  · intro key
    exact mem_completed_release (m := noted) header.srcCallsign (messageOf s.2 header) now key
  · rw [releaseMessage_messages]
  · intro mid hmid
    rw [hmid]
    exact freed_release (m := noted) header.srcCallsign mid now

theorem settled_message_iff (hb : Backed drained s.1)
    (hnew : s.1.completedPayloads.contains ⟨header.srcCallsign, hashPayload payload⟩ = false) :
    Settled drained now s (.message header payload) ↔
      (messageOf s.2 header = none → ∀ state, s.1.senders[header.srcCallsign]? = some state →
        ∀ mid ∈ state.activeMessageIds,
          Pushed (drained ++ s.1.completedMessages) ⟨header.srcCallsign, mid⟩) := by
  obtain ⟨hsessions, hmessages, hfreed⟩ := handleEvent_message now hnew
  constructor
  · intro hs hnone state hstate mid hmid
    have hmem : (⟨header.srcCallsign, mid⟩ : MessageKey) ∈
        (handleEvent now s (.message header payload)).1.completedSessions := by
      rw [hsessions]
      refine .inr ⟨state, hstate, rfl, ?_⟩
      rw [hnone]
      exact TreeSet.mem_toList.mpr hmid
    obtain ⟨msg, hmsg, hsrc, hid⟩ := hs.backed _ hmem
    -- The message that the event pushes has no id, so it is another one.
    rw [hmessages, ← List.append_assoc, List.mem_append, List.mem_singleton] at hmsg
    rcases hmsg with hmsg | rfl
    · exact ⟨msg, hmsg, hsrc, hid⟩
    · rw [hnone] at hid
      cases hid
  · intro hactive
    constructor
    case backed =>
      intro key hkey
      rw [hmessages, ← List.append_assoc]
      rw [hsessions] at hkey
      rcases hkey with hkey | ⟨state, hstate, hsrc, hid⟩
      · exact (hb key hkey).append _
      · cases hmid : messageOf s.2 header with
        | none =>
          rw [hmid] at hid
          have hpushed := hactive hmid state hstate key.messageId (TreeSet.mem_toList.mp hid)
          rw [← hsrc] at hpushed
          exact hpushed.append _
        | some mid =>
          rw [hmid] at hid
          have hkeyid : key.messageId = mid := List.mem_singleton.mp hid
          refine ⟨_, List.mem_append_right _ (List.mem_singleton.mpr rfl), hsrc.symm, ?_⟩
          rw [hkeyid]
    case freed =>
      intro key hkey
      rw [completedKey, Option.map_eq_some_iff] at hkey
      obtain ⟨mid, hmid, rfl⟩ := hkey
      exact hfreed mid hmid

end Message

/-- What an event needs to leave every completed session backed, and its own message free. -/
theorem settled_iff {drained : List CompletedMessage} {now : Nat}
    {s : RxSessionManager D × TreeMap Sender UInt32} {event : Event} (hb : Backed drained s.1) :
    Settled drained now s event ↔ Settleable drained s event = true := by
  cases event with
  | pdu header =>
    have hsame : (handleEvent now s (.pdu header)).1 = s.1 := by
      simp only [handleEvent]
      split <;> rfl
    rw [settled_of_unchanged hb hsame]
    simp [completedKey, Settleable]
  | message header payload =>
    cases hdup : s.1.completedPayloads.contains ⟨header.srcCallsign, hashPayload payload⟩ with
    | true =>
      have hsame : (handleEvent now s (.message header payload)).1 = s.1 := by
        simp only [handleEvent, hdup, if_true]
      rw [settled_of_unchanged hb hsame]
      simp only [completedKey, Settleable, hdup]
      cases messageOf s.2 header <;> simp
    | false =>
      rw [settled_message_iff hb hdup]
      simp only [Settleable, hdup]
      cases messageOf s.2 header with
      | none => cases s.1.senders[header.srcCallsign]? <;> simp
      | some mid => simp
  | sessionExpired =>
    rw [settled_of_unchanged hb rfl]
    simp [completedKey, Settleable]
  | duplicate =>
    rw [settled_of_unchanged hb rfl]
    simp [completedKey, Settleable]

/-! ### Actions -/

/-- The manager in which an action takes the events of the deframer, and when. -/
def polls (api : Deframer D) (m : RxSessionManager D) : Action → Option (RxSessionManager D × Nat)
  | .processPdu pdu now =>
    match m.admitPdu api pdu now with
    | (.ok true, m) => some (m, now)
    | _ => none
  | .drainCompletedMessages now => some (m, now)
  | .sweepExpired _ _ => none

/-- `ok` holds of every event that an action takes, in the state in which it is handled. -/
def EventsAlong (api : Deframer D)
    (ok : Nat → RxSessionManager D × TreeMap Sender UInt32 → Event → Prop)
    (m : RxSessionManager D) (action : Action) : Prop :=
  match m.polls api action with
  | some (m, now) =>
    Trace.Along (handleEvent now) (ok now)
      ({ m with deframer := (api.nextEvents m.deframer).2 }, ∅) (api.nextEvents m.deframer).1
  | none => True

instance {api : Deframer D} {ok : Nat → RxSessionManager D × TreeMap Sender UInt32 → Event → Prop}
    [∀ now s event, Decidable (ok now s event)] (m : RxSessionManager D) (action : Action) :
    Decidable (EventsAlong api ok m action) :=
  match h : m.polls api action with
  | some _ => decidable_of_iff' _ (by rw [EventsAlong, h])
  | none => isTrue (by rw [EventsAlong, h]; trivial)

/-- Nothing is completed up to where an action takes its events. -/
theorem polls_completions {api : Deframer D} {action : Action} {now : Nat}
    (h : m.polls api action = some (m', now)) : SameCompletions m m' := by
  cases action with
  | processPdu pdu time =>
    have hadmit := admitPdu_completions api m pdu time
    simp only [polls] at h
    split at h
    · next heq =>
      cases h
      rw [heq] at hadmit
      exact hadmit
    · cases h
  | drainCompletedMessages time =>
    cases h
    exact .refl m
  | sweepExpired time timeout => cases h

/-- The events of an action settle exactly when each is settleable. -/
theorem eventsAlong_settled_iff (api : Deframer D) {drained : List CompletedMessage}
    (hb : Backed drained m) (action : Action) :
    EventsAlong api (Settled drained) m action ↔
      EventsAlong api (fun _ s event => Settleable drained s event = true) m action := by
  unfold EventsAlong
  cases h : m.polls api action with
  | none => exact Iff.rfl
  | some polled =>
    obtain ⟨m', now⟩ := polled
    have hstart : Backed drained { m' with deframer := (api.nextEvents m'.deframer).2 } :=
      (polls_completions h).backed hb
    constructor
    · intro hsettled
      have hstep : ∀ (s : RxSessionManager D × TreeMap Sender UInt32) (event : Event),
          Backed drained s.1 → Settled drained now s event →
            Backed drained (handleEvent now s event).1 := fun _ _ _ hs => hs.backed
      have hok : ∀ (s : RxSessionManager D × TreeMap Sender UInt32) (event : Event),
          Backed drained s.1 → Settled drained now s event → Settleable drained s event = true :=
        fun _ _ hs hsettled => (settled_iff hs).mp hsettled
      exact hsettled.strengthen hstep hok hstart
    · intro hsettleable
      have hstep : ∀ (s : RxSessionManager D × TreeMap Sender UInt32) (event : Event),
          Backed drained s.1 → Settleable drained s event = true →
            Backed drained (handleEvent now s event).1 :=
        fun _ _ hs hevent => ((settled_iff hs).mpr hevent).backed
      have hok : ∀ (s : RxSessionManager D × TreeMap Sender UInt32) (event : Event),
          Backed drained s.1 → Settleable drained s event = true → Settled drained now s event :=
        fun _ _ hs hevent => (settled_iff hs).mpr hevent
      exact hsettleable.strengthen hstep hok hstart

theorem pollDeframerEvents_backed {api : Deframer D} {drained : List CompletedMessage}
    {now : Nat} (hb : Backed drained m)
    (h : Trace.Along (handleEvent now) (Settled drained now)
      ({ m with deframer := (api.nextEvents m.deframer).2 }, ∅) (api.nextEvents m.deframer).1) :
    Backed drained (m.pollDeframerEvents api now) := by
  have hstep : ∀ (s : RxSessionManager D × TreeMap Sender UInt32) (event : Event),
      Backed drained s.1 → Settled drained now s event → Backed drained (handleEvent now s event).1 :=
    fun _ _ _ hs => hs.backed
  exact h.invariant hstep hb

end RxSessionManager

open RxSessionManager

/-- A manager, with the completed messages that were taken from it. -/
structure Receiver (D : Type) where
  manager : RxSessionManager D
  drained : List CompletedMessage

namespace Receiver

/-- Every message that was pushed. -/
def pushed (r : Receiver D) : List CompletedMessage := r.drained ++ r.manager.completedMessages

def step (api : Deframer D) (r : Receiver D) (action : Action) : Receiver D where
  manager := r.manager.step api action
  drained := match action with
    | .drainCompletedMessages now => r.drained ++ (r.manager.drainCompletedMessages api now).1
    | _ => r.drained

def new (api : Deframer D) (maxConcurrentSenders maxInFlightBytes sessionTtl : Nat) : Receiver D :=
  ⟨.new api maxConcurrentSenders maxInFlightBytes sessionTtl, []⟩

/-- Every completed session is one whose message was pushed. -/
def Sound (r : Receiver D) : Prop := ∀ key ∈ r.manager.completedSessions, Pushed r.pushed key

/-- The manager discards a PDU: its message is complete already. -/
def Discards (api : Deframer D) (r : Receiver D) (pdu : Bytes) (now : Nat) : Prop :=
  (r.manager.admitPdu api pdu now).1 = .ok false

/-- What is to hold of an action: a PDU is discarded only when its message was pushed, every event
settles, and the completed sessions are those of pushed messages afterwards. -/
structure Clean (api : Deframer D) (r : Receiver D) (action : Action) : Prop where
  discards : ∀ pdu now, action = .processPdu pdu now → r.Discards api pdu now →
    ∃ mid, (peek api pdu).2 = some mid ∧ Pushed r.pushed ⟨(peek api pdu).1, mid⟩
  events : EventsAlong api (Settled r.drained) r.manager action
  sound : (r.step api action).Sound

/-- Every event that the deframer reports during an action is settleable. -/
def Cleanable (api : Deframer D) (r : Receiver D) (action : Action) : Prop :=
  EventsAlong api (fun _ s event => Settleable r.drained s event = true) r.manager action

instance (api : Deframer D) (r : Receiver D) (action : Action) :
    Decidable (r.Cleanable api action) :=
  inferInstanceAs (Decidable (EventsAlong api _ r.manager action))

variable {r : Receiver D}

theorem Sound.discards (hs : r.Sound) {api : Deframer D} {pdu : Bytes} {now : Nat}
    (h : r.Discards api pdu now) :
    ∃ mid, (peek api pdu).2 = some mid ∧ Pushed r.pushed ⟨(peek api pdu).1, mid⟩ := by
  unfold Discards admitPdu at h
  dsimp only at h
  split at h
  · cases h
  · split at h
    · next hcompleted =>
      unfold isCompleted at hcompleted
      cases hmid : (peek api pdu).2 with
      | none =>
        rw [hmid] at hcompleted
        cases hcompleted
      | some mid =>
        rw [hmid] at hcompleted
        exact ⟨mid, rfl, hs _ (TreeMap.contains_iff_mem.mp hcompleted)⟩
    · split at h <;> cases h

theorem Sound.step (hs : r.Sound) {api : Deframer D} {action : Action}
    (h : EventsAlong api (Settled r.drained) r.manager action) : (r.step api action).Sound := by
  cases action with
  | processPdu pdu now =>
    have hadmit := (admitPdu_completions api r.manager pdu now).backed hs
    show Backed r.drained (r.manager.processPdu api pdu now).2
    unfold processPdu
    cases hcase : r.manager.admitPdu api pdu now with
    | mk result m' =>
      rw [hcase] at hadmit
      cases result with
      | error e => exact hadmit
      | ok fed =>
        cases fed with
        | false => exact hadmit
        | true =>
          simp only [EventsAlong, polls, hcase] at h
          exact pollDeframerEvents_backed hadmit h
  | drainCompletedMessages now =>
    have hpolled := pollDeframerEvents_backed hs h
    intro key hkey
    show Pushed (r.drained ++ (r.manager.pollDeframerEvents api now).completedMessages ++ []) key
    rw [List.append_nil]
    exact hpolled key hkey
  | sweepExpired now timeout => exact sweepExpired_backed api hs now timeout

theorem Sound.clean_iff (hs : r.Sound) (api : Deframer D) (action : Action) :
    r.Clean api action ↔ r.Cleanable api action := by
  unfold Cleanable
  rw [← eventsAlong_settled_iff api hs action]
  constructor
  · exact Clean.events
  · intro h
    exact ⟨fun _ _ _ hdiscards => hs.discards hdiscards, h, hs.step h⟩

end Receiver

/-- The receiver is clean along a run exactly when every event of the run is settleable where it is
handled. -/
theorem completions_clean_iff (api : Deframer D)
    (maxConcurrentSenders maxInFlightBytes sessionTtl : Nat) (actions : List Action) :
    Trace.Along (Receiver.step api) (Receiver.Clean api)
        (.new api maxConcurrentSenders maxInFlightBytes sessionTtl) actions ↔
      Trace.Along (Receiver.step api) (Receiver.Cleanable api)
        (.new api maxConcurrentSenders maxInFlightBytes sessionTtl) actions := by
  have hnew : (Receiver.new api maxConcurrentSenders maxInFlightBytes sessionTtl).Sound := by
    intro key hkey
    exact absurd hkey TreeMap.not_mem_emptyc
  have hstep : ∀ (r : Receiver D) (action : Action),
      r.Sound → r.Clean api action → (r.step api action).Sound := fun _ _ _ h => h.sound
  constructor
  · intro h
    exact h.strengthen hstep (fun _ action hs => (hs.clean_iff api action).mp) hnew
  · intro h
    have hstep' : ∀ (r : Receiver D) (action : Action),
        r.Sound → r.Cleanable api action → (r.step api action).Sound :=
      fun _ action hs hok => ((hs.clean_iff api action).mpr hok).sound
    exact h.strengthen hstep' (fun _ action hs => (hs.clean_iff api action).mpr) hnew

/-- A sender repeats the text of its message 1 as message 2, in two chunks: the text is suppressed,
and the chunks of message 2 stay charged to it. -/
theorem duplicate_payload_stays_charged :
    ¬ Trace.Along (Receiver.step relay) (Receiver.Clean relay) (.new relay 4 100 60)
      [.processPdu [1, 1, 1, 7] 0, .processPdu [1, 2, 0] 1, .processPdu [1, 2, 2, 7] 2] := by
  intro h
  have hsettled : Settled _ _ _ (.message ⟨some "1", none, some 2, none⟩ [7]) := h.2.2.1.events.1
  have hfreed := hsettled.freed ⟨some "1", 2⟩ rfl
  revert hfreed
  decide +kernel

end HdyUtils.Hqfbp
