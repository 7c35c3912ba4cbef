import HdyUtils.Ham.Conversations

/-! The chat of stations with one another (`web/routes/chat.rs`, `chat_service.rs`).  The network carries
the bundles that the stations send, late, again or not at all, and others beside them.
`chat_faithful` says that what a station shows as a message of another one is what that one sent. -/

namespace HdyUtils.Ham

open Security Trace

theorem ChatMessage.Same.refl (m : ChatMessage) : m.Same m := ⟨m.isRead, m.isSticky, rfl⟩

theorem ChatMessage.Same.trans {m m' m'' : ChatMessage} (h : m.Same m') (h' : m'.Same m'') :
    m.Same m'' := by
  obtain ⟨isRead, isSticky, rfl⟩ := h
  obtain ⟨isRead', isSticky', rfl⟩ := h'
  exact ⟨isRead, isSticky, rfl⟩

/-- Every message was there, but for its marks, or was brought. -/
theorem InternalStorage.Moves.rows {s s' : InternalStorage} {brought : ChatMessage → Prop}
    (h : s.Moves s' brought) : ∀ m ∈ s'.chatMessages.rows,
      (∃ m' ∈ s.chatMessages.rows, m.Same m') ∨ brought m := by
  intro m hm
  cases h with
  | kept hmessages | created _ hmessages => exact .inl ⟨m, hmessages ▸ hm, .refl m⟩
  | marked q g _ hsame hmessages =>
    rw [hmessages] at hm
    obtain ⟨m', hm', rfl⟩ := List.mem_map.mp hm
    refine .inl ⟨m', hm', ?_⟩
    split
    · exact hsame m'
    · exact .refl m'
  | deleted q hmessages =>
    rw [hmessages] at hm
    exact .inl ⟨m, List.mem_of_mem_filter hm, .refl m⟩
  | inserted msg hmsg hmessages =>
    rw [hmessages] at hm
    rcases List.mem_append.mp hm with hold | hnew
    · exact .inl ⟨m, List.mem_of_mem_filter hold, .refl m⟩
    · rw [List.mem_singleton.mp hnew]
      exact .inr hmsg

/-! ### Stations and what they send -/

/-- What the chat relies on in the `hardy` crates and in the standard library. -/
structure LawfulChat {E : Type} (p : Platform E) : Prop where
  lowercase : LawfulLowercase p.lowercase
  /-- A bundle is from and to whom its builder was told, and is no administrative record. -/
  build : ∀ outline bundle data, p.hardy.build outline = .ok (bundle, data) →
    bundle.primary.source = outline.source ∧ bundle.primary.destination = outline.destination ∧
      bundle.primary.timestamp = outline.timestamp ∧
      (outline.flags = none → bundle.primary.flags &&& 2 = 0)
  /-- A bundle that was built is parsed back. -/
  parse_build : ∀ outline bundle data, p.hardy.build outline = .ok (bundle, data) →
    ∃ parsed, p.hardy.parse data = .ok parsed ∧ parsed.bundle.primary = bundle.primary ∧
      parsed.payload = some outline.payload
  fromUtf8Lossy : ∀ text : String, p.fromUtf8Lossy text.toUTF8.toList = text

/-- Stations, with the names of their nodes and the endpoints of their chat services.  The names are
endpoints that are printed as they are written. -/
structure Stations {E : Type} (p : Platform E) (S : Type) where
  node : S → String
  service : S → E
  stable : ∀ x, ChatStable (node x)
  parsed : ∀ x, p.hardy.parseEid (InternalStorage.normalizeChatTarget p.lowercase (node x)) =
    .ok (service x)
  printed : ∀ x, p.hardy.eidString (service x) =
    InternalStorage.normalizeChatTarget p.lowercase (node x)
  notNull : ∀ x, p.isNull (service x) = false

/-- A message that a station has sent, and the bundle of it. -/
structure Sent (S : Type) where
  origin : S
  message : ChatMessage
  bundle : Bytes

structure Network (S : Type) where
  station : S → Station
  sent : List (Sent S)

/-- What happens.  A station sends a message, with a clock that shows `created`, and its agent takes the
bundle if it is `taken`; a bundle that was sent is delivered, once or again; or a call is made. -/
inductive Event (S : Type)
  | send (x : S) (peer content : String) (lifetimeOverride : Option UInt64) (created : Int)
      (sequence : Nat) (now : Int) (taken : Bytes)
  | deliver (y : S) (sent : Nat) (now : Int)
  | call (x : S) (c : Call)

/-- The message as the chat service of another station stores it. -/
def ChatMessage.received (m : ChatMessage) (recipientEid : String) : ChatMessage :=
  { m with
    conversationPeer := m.senderEid
    recipientEid := recipientEid
    direction := "inbound"
    status := "received"
    isRead := false }

section Send

variable {E S : Type} {p : Platform E} (stations : Stations p S)

/-- The name of the chat service of a station. -/
def Stations.name (x : S) : String :=
  InternalStorage.normalizeChatTarget p.lowercase (stations.node x)

/-- What an agent answers that takes one bundle. -/
def takes (taken bundle : Bytes) : Except String Unit :=
  if bundle = taken then .ok () else .error "BPA dispatch failed"

/-- The station sends a message. -/
def Stations.send (s : InternalStorage) (f : Faults) (x : S) (peer content : String)
    (lifetimeOverride : Option UInt64) (timestamp : CreationTimestamp) (now : Int) (taken : Bytes) :
    Except (ChatStatus × String) ChatMessage × InternalStorage :=
  doSendChatMessage p s f (stations.node x) peer content lifetimeOverride timestamp now (takes taken)

/-- Other bundles that are delivered are not from a station, and a station sends only by `send`. -/
def Event.Allowed (e : Event S) : Prop :=
  match e with
  | .call _ (.act (.deliverChat data _)) => ∀ primary payload,
      deliveredBundle p data = some (primary, payload) →
      ∀ x, p.hardy.eidString primary.source ≠ stations.name x
  | .call _ (.send ..) => False
  | _ => True

/-- The message of a bundle that was built for it. -/
def outgoing (p : Platform E) (primary : PrimaryBlock E) (senderEid target content : String)
    (now : Int) : ChatMessage where
  id := p.toKey primary
  conversationPeer := target
  senderEid := senderEid
  recipientEid := target
  content := content
  direction := "outbound"
  status := "sent"
  isRead := true
  isSticky := false
  timestamp := (bundleTimes primary now).1
  expiryTimestamp := (bundleTimes primary now).2.2
  createdAt := p.rfc3339 (primary.timestamp.datetime.getD now)

/-- What is injected and answered for a message that has been sent. -/
theorem doSendChatMessage_eq_ok {s : InternalStorage} {f : Faults} {nodeId peer content : String}
    {lifetimeOverride : Option UInt64} {timestamp : CreationTimestamp} {now : Int}
    {inject : Bytes → Except String Unit} {m : ChatMessage}
    (h : (doSendChatMessage p s f nodeId peer content lifetimeOverride timestamp now inject).1 = .ok m) :
    ∃ sender recipient bundle data,
      p.hardy.parseEid (InternalStorage.normalizeChatTarget p.lowercase nodeId) = .ok sender ∧
      p.hardy.parseEid (InternalStorage.normalizeChatTarget p.lowercase peer) = .ok recipient ∧
      p.hardy.build ⟨sender, recipient, Duration.fromSecs (lifetimeOverride.getD 3600).toNat, none,
        (Text.trim content).toUTF8.toList, timestamp⟩ = .ok (bundle, data) ∧
      inject data = .ok () ∧
      m = outgoing p bundle.primary (InternalStorage.normalizeChatTarget p.lowercase nodeId)
        (InternalStorage.normalizeChatTarget p.lowercase peer) (Text.trim content) now := by
  unfold doSendChatMessage at h
  simp only at h
  split at h
  · cases h
  split at h
  · cases h
  split at h
  · cases h
  next recipient hrecipient =>
    split at h
    · cases h
    next sender hsender =>
      split at h
      · cases h
      next bundle data hbuild =>
        split at h
        · cases h
        next hinject =>
          cases h
          exact ⟨sender, recipient, bundle, data, hsender, hrecipient, hbuild, hinject, rfl⟩

theorem takes_eq_ok_iff {taken bundle : Bytes} : takes taken bundle = .ok () ↔ bundle = taken := by
  unfold takes
  split
  · next heq => exact iff_of_true rfl heq
  · next hne => exact iff_of_false nofun hne

variable {stations} {s : InternalStorage} {f : Faults} {x : S} {peer content : String}
  {lifetimeOverride : Option UInt64} {timestamp : CreationTimestamp} {now : Int} {taken : Bytes}
  {m : ChatMessage}

theorem Stations.normalize_name (h : LawfulChat p) (x : S) :
    InternalStorage.normalizeChatTarget p.lowercase (stations.name x) = stations.name x :=
  (normalizeChatTarget_idempotent_iff h.lowercase _).mpr (stations.stable x)

/-- A message that was sent is parsed back as a bundle from the station. -/
theorem Stations.parse_send (h : LawfulChat p)
    (hsend : (stations.send s f x peer content lifetimeOverride timestamp now taken).1 = .ok m) :
    ∃ recipient parsed,
      p.hardy.parseEid (InternalStorage.normalizeChatTarget p.lowercase peer) = .ok recipient ∧
      p.hardy.parse taken = .ok parsed ∧
      parsed.bundle.primary.source = stations.service x ∧
      parsed.bundle.primary.destination = recipient ∧
      parsed.bundle.primary.timestamp = timestamp ∧
      parsed.bundle.primary.flags &&& 2 = 0 ∧
      parsed.payload = some (Text.trim content).toUTF8.toList ∧
      m = outgoing p parsed.bundle.primary (stations.name x)
        (InternalStorage.normalizeChatTarget p.lowercase peer) (Text.trim content) now := by
  obtain ⟨sender, recipient, bundle, data, hsender, hrecipient, hbuild, hinject, hm⟩ :=
    doSendChatMessage_eq_ok hsend
  obtain rfl := takes_eq_ok_iff.mp hinject
  have hservice : sender = stations.service x := by
    rw [stations.parsed x] at hsender
    exact (Except.ok.inj hsender).symm
  obtain ⟨hsource, hdestination, htimestamp, hflags⟩ := h.build _ _ _ hbuild
  obtain ⟨parsed, hparse, hprimary, hpayload⟩ := h.parse_build _ _ _ hbuild
  exact ⟨recipient, parsed, hrecipient, hparse, hprimary ▸ hsource.trans hservice,
    hprimary ▸ hdestination, hprimary ▸ htimestamp, hprimary ▸ hflags rfl, hpayload, hprimary ▸ hm⟩

end Send

/-! ### The network -/

section Network

variable {E S : Type} [DecidableEq E] {p : Platform E} (stations : Stations p S)

/-- The bundle is for this endpoint. -/
def addressed (p : Platform E) (bundle : Bytes) (eid : E) : Bool :=
  match p.hardy.parse bundle with
  | .error _ => false
  | .ok parsed => parsed.bundle.primary.destination = eid

namespace Network

variable (n : Network S)

/-- A call at a station. -/
def callAt [DecidableEq S] (p : Platform E) (x : S) (c : Call × Faults) : Network S :=
  { n with station := Function.update n.station x ((n.station x).call p c) }

/-- A bundle that is not for the station is not delivered to it. -/
def step [DecidableEq S] (n : Network S) (e : Event S × Faults) : Network S :=
  match e.1 with
  | .send x peer content lifetimeOverride created sequence now taken =>
    let timestamp := ⟨some created, sequence⟩
    let answer :=
      (stations.send (n.station x).storage e.2 x peer content lifetimeOverride timestamp now taken).1
    { n.callAt p x (.send (stations.node x) peer content lifetimeOverride timestamp now (takes taken), e.2)
        with sent := n.sent ++ (answer.toOption.map fun message => ⟨x, message, taken⟩).toList }
  | .deliver y sent now =>
    match n.sent[sent]? with
    | some sent =>
      if addressed p sent.bundle (stations.service y) then
        n.callAt p y (.act (.deliverChat sent.bundle now), e.2)
      else n
    | none => n
  | .call x c => n.callAt p x (c, e.2)

/-- A network on which nothing has been sent. -/
def new (filesDir : S → String) (disk : S → String → Option Bytes) : Network S where
  station x := .new (filesDir x) (disk x)
  sent := []

end Network

/-- The messages of the stations are those that they sent one another.  A message that a station has sent
is stored there as it was sent.  A message from a station is what that one sent to this one, in the
conversation with it.  A reply in this conversation is for that station, and stays in it; and a bundle
for a station is stored when it is delivered. -/
structure Network.Faithful (n : Network S) : Prop where
  outbound : ∀ y, ∀ m ∈ (n.station y).storage.chatMessages.rows, m.direction = "outbound" →
    ∃ sent ∈ n.sent, sent.origin = y ∧ m.Same sent.message
  inbound : ∀ y, ∀ m ∈ (n.station y).storage.chatMessages.rows, m.direction ≠ "outbound" →
    ∀ x, m.senderEid = stations.name x → ∃ sent ∈ n.sent,
      stations.name sent.origin = stations.name x ∧ addressed p sent.bundle (stations.service y) ∧
        m.Same (sent.message.received (stations.name y))
  reply : ∀ y, ∀ m ∈ (n.station y).storage.chatMessages.rows, m.direction ≠ "outbound" →
    ∀ x, m.senderEid = stations.name x →
    ∀ f content lifetimeOverride timestamp now taken answer,
      (stations.send (n.station y).storage f y m.conversationPeer content lifetimeOverride timestamp now
        taken).1 = .ok answer →
      answer.conversationPeer = m.conversationPeer ∧ addressed p taken (stations.service x)
  delivered : ∀ sent ∈ n.sent, ∀ y, addressed p sent.bundle (stations.service y) → ∀ now f,
    f.database = false →
    ((n.station y).call p (.act (.deliverChat sent.bundle now), f)).storage.chatMessages.get
      sent.message.id = some (sent.message.received (stations.name y))

/-- What a bundle that was sent makes of itself elsewhere. -/
structure Sent.Genuine (sent : Sent S) : Prop where
  outbound : sent.message.direction = "outbound"
  sender : sent.message.senderEid = stations.name sent.origin
  delivered : ∃ primary payload, deliveredBundle p sent.bundle = some (primary, payload) ∧
    (∀ eid, addressed p sent.bundle eid = true ↔ primary.destination = eid) ∧
    ∀ now, ChatService.message p primary payload now =
      sent.message.received (p.hardy.eidString primary.destination)

variable {stations}

theorem addressed_of_parse {bundle : Bytes} {parsed : Parsed E}
    (hparse : p.hardy.parse bundle = .ok parsed) (eid : E) :
    addressed p bundle eid = true ↔ parsed.bundle.primary.destination = eid := by
  unfold addressed
  rw [hparse]
  exact decide_eq_true_iff

/-- The bundle of a message that was sent is stored elsewhere as that message. -/
theorem Stations.genuine_send {s : InternalStorage} {f : Faults} {x : S} {peer content : String}
    {lifetimeOverride : Option UInt64} {created : Int} {sequence : Nat} {now : Int} {taken : Bytes}
    {m : ChatMessage} (h : LawfulChat p)
    (hsend : (stations.send s f x peer content lifetimeOverride ⟨some created, sequence⟩ now taken).1 =
      .ok m) :
    Sent.Genuine stations ⟨x, m, taken⟩ := by
  obtain ⟨recipient, parsed, -, hparse, hsource, -, htimestamp, hflags, hpayload, rfl⟩ :=
    Stations.parse_send h hsend
  have hdelivered : deliveredBundle p taken =
      some (parsed.bundle.primary, (Text.trim content).toUTF8.toList) := by
    simp [deliveredBundle, hparse, hsource, stations.notNull, hflags, hpayload]
  have hprinted : p.hardy.eidString parsed.bundle.primary.source = stations.name x := by
    rw [hsource]
    exact stations.printed x
  refine
    { outbound := rfl
      sender := by simp only [outgoing]
      delivered := ⟨_, _, hdelivered, addressed_of_parse hparse, fun later => ?_⟩ }
  -- the clock of the sender counts, not when the bundle is delivered
  have htimes : bundleTimes parsed.bundle.primary later = bundleTimes parsed.bundle.primary now := by
    simp only [bundleTimes, htimestamp, Option.getD_some]
  simp only [ChatService.message, ChatMessage.received, outgoing, hprinted, Stations.normalize_name h,
    htimes, htimestamp, Option.getD_some, h.fromUtf8Lossy]

/-! ### What a run keeps -/

/-- Where a row comes from: the station has sent the message, or it came from elsewhere, and if it is
from a station, then it was sent there. -/
def Accounted (stations : Stations p S) (sent : List (Sent S)) (y : S) (m : ChatMessage) : Prop :=
  (m.direction = "outbound" ∧ ∃ e ∈ sent, e.origin = y ∧ m.Same e.message) ∨
  (m.direction = "inbound" ∧ ∀ x, m.senderEid = stations.name x → ∃ e ∈ sent,
    stations.name e.origin = stations.name x ∧ addressed p e.bundle (stations.service y) ∧
      m.Same (e.message.received (stations.name y)))

theorem Accounted.same {sent : List (Sent S)} {y : S} {m m' : ChatMessage}
    (h : Accounted stations sent y m') (hsame : m.Same m') : Accounted stations sent y m := by
  have hfields : m.direction = m'.direction ∧ m.senderEid = m'.senderEid := by
    obtain ⟨isRead, isSticky, rfl⟩ := hsame
    exact ⟨rfl, rfl⟩
  rcases h with ⟨hdirection, e, he, horigin, hsent⟩ | ⟨hdirection, hfrom⟩
  · exact .inl ⟨hfields.1.trans hdirection, e, he, horigin, hsame.trans hsent⟩
  · refine .inr ⟨hfields.1.trans hdirection, fun x hx => ?_⟩
    obtain ⟨e, he, hname, haddressed, hsent⟩ := hfrom x (hfields.2.symm.trans hx)
    exact ⟨e, he, hname, haddressed, hsame.trans hsent⟩

theorem Accounted.mono {sent sent' : List (Sent S)} {y : S} {m : ChatMessage}
    (h : Accounted stations sent y m) (hsub : sent ⊆ sent') : Accounted stations sent' y m := by
  rcases h with ⟨hdirection, e, he, hsent⟩ | ⟨hdirection, hfrom⟩
  · exact .inl ⟨hdirection, e, hsub he, hsent⟩
  · refine .inr ⟨hdirection, fun x hx => ?_⟩
    obtain ⟨e, he, hsent⟩ := hfrom x hx
    exact ⟨e, hsub he, hsent⟩

namespace Network

variable {n : Network S}

/-- Every bundle that was sent is genuine, and every row is accounted for. -/
structure Sound (stations : Stations p S) (n : Network S) : Prop where
  genuine : ∀ e ∈ n.sent, e.Genuine stations
  accounted : ∀ y, ∀ m ∈ (n.station y).storage.chatMessages.rows, Accounted stations n.sent y m

theorem Sound.callAt [DecidableEq S] (hn : n.Sound stations) {x : S} {c : Call × Faults}
    {sent : List (Sent S)} (hsub : n.sent ⊆ sent) (hgenuine : ∀ e ∈ sent, e.Genuine stations)
    (hbrings : ∀ m, (n.station x).Brings p c m → Accounted stations sent x m) :
    Sound stations { n.callAt p x c with sent := sent } where
  genuine := hgenuine
  accounted := by
    intro y m hm
    change m ∈ (Function.update n.station x ((n.station x).call p c) y).storage.chatMessages.rows at hm
    by_cases hy : y = x
    · subst hy
      rw [Function.update_self] at hm
      rcases (Station.moves_call (n.station y) c).rows m hm with ⟨m', hm', hsame⟩ | hbrought
      · exact ((hn.accounted y m' hm').mono hsub).same hsame
      · exact hbrings m hbrought
    · rw [Function.update_of_ne hy] at hm
      exact (hn.accounted y m hm).mono hsub

/-- What a delivery brings is accounted for by the bundle that was sent. -/
theorem accounted_delivery {sent : List (Sent S)} {e : Sent S} (he : e ∈ sent)
    (hgenuine : e.Genuine stations) {y : S} (haddressed : addressed p e.bundle (stations.service y))
    {primary : PrimaryBlock E} {payload : Bytes}
    (hdelivered : deliveredBundle p e.bundle = some (primary, payload)) (now : Int) :
    ChatService.message p primary payload now = e.message.received (stations.name y) ∧
      Accounted stations sent y (ChatService.message p primary payload now) := by
  obtain ⟨primary', payload', hdelivered', hdestination, hmessage⟩ := hgenuine.delivered
  obtain ⟨rfl, rfl⟩ : primary' = primary ∧ payload' = payload := by
    simpa [hdelivered'] using hdelivered
  have hreceived : ChatService.message p primary' payload' now = e.message.received (stations.name y) := by
    rw [hmessage, (hdestination _).mp haddressed]
    exact congrArg e.message.received (stations.printed y)
  refine ⟨hreceived, .inr ⟨rfl, fun x hx => ⟨e, he, ?_, haddressed, hreceived ▸ .refl _⟩⟩⟩
  rw [hreceived] at hx
  exact hgenuine.sender.symm.trans hx

theorem Sound.step [DecidableEq S] (h : LawfulChat p) (hn : n.Sound stations) (e : Event S × Faults)
    (hallowed : e.1.Allowed stations) : (n.step stations e).Sound stations := by
  obtain ⟨event, f⟩ := e
  cases event with
  | send x peer content lifetimeOverride created sequence now taken =>
    refine hn.callAt (List.subset_append_left _ _) ?_ ?_
    · intro e he
      rcases List.mem_append.mp he with hold | hnew
      · exact hn.genuine e hold
      · obtain ⟨m, hm, rfl⟩ := Option.map_eq_some_iff.mp (Option.mem_toList.mp hnew)
        exact Stations.genuine_send h (Results.toOption_eq_some_iff.mp hm)
    · intro m hm
      have hsend : (stations.send (n.station x).storage f x peer content lifetimeOverride
          ⟨some created, sequence⟩ now taken).1 = .ok m := hm
      refine .inl ⟨(Stations.genuine_send h hsend).outbound, ⟨x, m, taken⟩, ?_, rfl, .refl m⟩
      rw [hsend]
      exact List.mem_append_right _ List.mem_cons_self
  | deliver y k now =>
    unfold Network.step
    simp only
    split
    · next e he =>
      split
      · next haddressed =>
        refine hn.callAt (List.Subset.refl _) hn.genuine ?_
        rintro m ⟨primary, payload, hdelivered, rfl⟩
        have hmem : e ∈ n.sent := List.mem_of_getElem? he
        exact (accounted_delivery hmem (hn.genuine e hmem) haddressed hdelivered now).2
      · exact hn
    · exact hn
  | call x c =>
    refine hn.callAt (List.Subset.refl _) hn.genuine ?_
    intro m hm
    cases c with
    | act act =>
      cases act with
      | deliverChat data now =>
        obtain ⟨primary, payload, hdelivered, rfl⟩ := hm
        exact .inr ⟨rfl, fun z hz => absurd hz (hallowed primary payload hdelivered z)⟩
      | _ => exact hm.elim
    | send => exact hallowed.elim
    | create => exact hm.elim

theorem Sound.inbound (hn : n.Sound stations) {y x : S} {m : ChatMessage}
    (hm : m ∈ (n.station y).storage.chatMessages.rows) (hdirection : m.direction ≠ "outbound")
    (hx : m.senderEid = stations.name x) :
    ∃ e ∈ n.sent, stations.name e.origin = stations.name x ∧
      addressed p e.bundle (stations.service y) ∧ m.Same (e.message.received (stations.name y)) := by
  rcases hn.accounted y m hm with ⟨hout, -⟩ | ⟨-, hfrom⟩
  · exact absurd hout hdirection
  · exact hfrom x hx

/-- The conversation of a message from a station has the name of that station. -/
theorem Sound.conversationPeer (hn : n.Sound stations) {y x : S} {m : ChatMessage}
    (hm : m ∈ (n.station y).storage.chatMessages.rows) (hdirection : m.direction ≠ "outbound")
    (hx : m.senderEid = stations.name x) : m.conversationPeer = stations.name x := by
  obtain ⟨e, -, -, -, isRead, isSticky, rfl⟩ := hn.inbound hm hdirection hx
  exact hx

theorem Sound.faithful (h : LawfulChat p) (hn : n.Sound stations) : n.Faithful stations where
  outbound := by
    intro y m hm hdirection
    rcases hn.accounted y m hm with ⟨-, hsent⟩ | ⟨hinbound, -⟩
    · exact hsent
    · rw [hinbound] at hdirection
      exact absurd hdirection (by decide)
  inbound := fun y m hm hdirection x hx => hn.inbound hm hdirection hx
  reply := by
    intro y m hm hdirection x hx f content lifetimeOverride timestamp now taken answer hsend
    have hpeer := hn.conversationPeer hm hdirection hx
    obtain ⟨recipient, parsed, hrecipient, hparse, -, hdestination, -, -, -, rfl⟩ :=
      Stations.parse_send h hsend
    rw [hpeer, Stations.normalize_name h] at hrecipient
    have hservice : recipient = stations.service x :=
      (Except.ok.inj (hrecipient.symm.trans (stations.parsed x)))
    refine ⟨?_, (addressed_of_parse hparse _).mpr (hdestination.trans hservice)⟩
    show InternalStorage.normalizeChatTarget p.lowercase m.conversationPeer = _
    rw [hpeer, Stations.normalize_name h]
  delivered := by
    intro e he y haddressed now f hdatabase
    obtain ⟨primary, payload, hdelivered, -, -⟩ := (hn.genuine e he).delivered
    have hreceived := (accounted_delivery he (hn.genuine e he) haddressed hdelivered now).1
    have hid : p.toKey primary = e.message.id := congrArg ChatMessage.id hreceived
    show (ChatService.handleDeliveredBundle p (n.station y).storage f e.bundle now).chatMessages.get _ = _
    rw [ChatService.handleDelivered_get _ _ _ hdelivered, if_pos ⟨hdatabase, hid⟩, hreceived]

end Network

end Network

/-- Whatever the stations send and do, whatever goes wrong, and in whatever order, as often and as late
as the network delivers their bundles and others, what a station shows as a message of another one is
what that one sent to it. -/
theorem chat_faithful {E S : Type} [DecidableEq E] [DecidableEq S] {p : Platform E} (h : LawfulChat p)
    (stations : Stations p S) (filesDir : S → String) (disk : S → String → Option Bytes)
    (events : List (Event S × Faults)) (hallowed : ∀ e ∈ events, e.1.Allowed stations) :
    (run (Network.step stations) (.new filesDir disk) events).Faithful stations := by
  have hnew : (Network.new filesDir disk).Sound stations := ⟨nofun, fun _ => nofun⟩
  have halong : Along (Network.step stations) (fun _ e => e.1.Allowed stations)
      (Network.new filesDir disk) events :=
    along_of_forall_mem fun e he _ => hallowed e he
  have hstep : ∀ (n : Network S) (e : Event S × Faults), n.Sound stations → e.1.Allowed stations →
      (n.step stations e).Sound stations := fun n e hn he => hn.step h e he
  exact (halong.invariant hstep hnew).faithful h

section Example

/-- The bundles of two stations, which live for an hour. -/
def clubPrimary (source destination : Bool) : PrimaryBlock Bool :=
  ⟨source, ⟨some 0, 0⟩, none, 0, destination, source, Duration.fromSecs 3600⟩

/-- A platform with two endpoints.  A bundle is an octet for each of them, and its payload. -/
def clubPlatform : Platform Bool where
  hardy :=
    { eidString := fun eid => if eid then "dtn://f4jxq/chat" else "dtn://stata/chat"
      parseEid := fun name =>
        if name = "dtn://f4jxq/chat" then .ok true
        else if name = "dtn://stata/chat" then .ok false
        else .error "unknown"
      parse := fun data =>
        match data with
        | source :: destination :: payload => .ok
            ⟨data, ⟨clubPrimary (source = 1) (destination = 1),
              [(payloadBlock, ⟨.payload, some payload⟩)]⟩, []⟩
        | _ => .error "too short"
      build := fun outline =>
        if outline.flags = none ∧ outline.lifetime = Duration.fromSecs 3600 ∧
            outline.timestamp = ⟨some 0, 0⟩ then
          .ok (⟨clubPrimary outline.source outline.destination,
              [(payloadBlock, ⟨.payload, some outline.payload⟩)]⟩,
            outline.source.toUInt8 :: outline.destination.toUInt8 :: outline.payload)
        else .error "unsupported"
      signBlock := fun _ _ _ _ _ => .error "unused"
      verifyAllBibs := fun _ _ => .ok ()
      beginPayloadVerification := fun _ _ => .ok []
      emit := fun _ => []
      tokens := fun _ => [] }
  isNull := fun _ => false
  toKey := fun primary => if primary.source then "f4jxq-0" else "stata-0"
  rfc3339 := fun _ => ""
  isAlphanumeric := Char.isAlphanum
  lowercase := asciiLowercase
  fromUtf8Lossy := fun data => (String.fromUTF8? ⟨data.toArray⟩).getD ""
  parseJson := fun _ => none

theorem clubPlatform_build {outline : Outline Bool} {bundle : Bundle Bool} {data : Bytes}
    (h : clubPlatform.hardy.build outline = .ok (bundle, data)) :
    outline.timestamp = ⟨some 0, 0⟩ ∧ data =
        outline.source.toUInt8 :: outline.destination.toUInt8 :: outline.payload ∧
      bundle = ⟨clubPrimary outline.source outline.destination,
        [(payloadBlock, ⟨.payload, some outline.payload⟩)]⟩ := by
  unfold clubPlatform at h
  simp only at h
  split at h
  · next hfits =>
    cases h
    exact ⟨hfits.2.2, rfl, rfl⟩
  · cases h

theorem clubPlatform_lawful : LawfulChat clubPlatform where
  lowercase := lawfulLowercase_ascii
  build := by
    intro outline bundle data h
    obtain ⟨htimestamp, -, rfl⟩ := clubPlatform_build h
    exact ⟨rfl, rfl, htimestamp.symm, fun _ => show (0 : UInt64) &&& 2 = 0 by decide⟩
  parse_build := by
    intro outline bundle data h
    obtain ⟨-, rfl, rfl⟩ := clubPlatform_build h
    refine ⟨_, rfl, ?_, rfl⟩
    show clubPrimary (decide (outline.source.toUInt8 = 1)) (decide (outline.destination.toUInt8 = 1)) = _
    cases outline.source <;> cases outline.destination <;> rfl
  fromUtf8Lossy := by
    intro text
    show (String.fromUTF8? ⟨text.toUTF8.toList.toArray⟩).getD "" = text
    rw [Text.fromUTF8?_toUTF8]
    rfl

def clubStations : Stations clubPlatform Bool where
  node x := if x then "f4jxq" else "stata"
  service := id
  stable := by
    intro x
    cases x with
    | true =>
      have hparts : ∀ part ∈ Text.split '/' "f4jxq", Text.trim part ≠ "" := by decide
      exact ⟨by decide, .inr hparts⟩
    | false =>
      have hparts : ∀ part ∈ Text.split '/' "stata", Text.trim part ≠ "" := by decide
      exact ⟨by decide, .inr hparts⟩
  parsed := by decide
  printed := by decide
  notNull _ := rfl

/-- A message and its answer, the message delivered twice. -/
theorem chat_faithful_answered :
    let sound : Faults := ⟨.done, fun _ => false, false⟩
    (run (Network.step clubStations) (.new (fun _ => "files") fun _ _ => none)
      [(.send true "STATA" "QSL?" none 0 0 0 [1, 0, 81, 83, 76, 63], sound),
        (.deliver false 0 5, sound),
        (.send false "dtn://f4jxq/chat" "73" none 0 0 6 [0, 1, 55, 51], sound),
        (.deliver false 0 7, sound), (.deliver true 1 8, sound)]).Faithful clubStations := by
  refine chat_faithful clubPlatform_lawful clubStations _ _ _ ?_
  simp only [List.forall_mem_cons]
  exact ⟨trivial, trivial, trivial, trivial, trivial, nofun⟩

end Example

end HdyUtils.Ham
