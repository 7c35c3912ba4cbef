import HdyUtils.Ham.PeerNames
import HdyUtils.Ham.Retention
import HdyUtils.Lib.Groups

/-! Conversations: the messages that the operator sends (`web/routes/chat.rs`), the list of
conversations and the messages of one (`internal_storage.rs`).  `conversations_agree` says that these
views agree with one another and with the messages that are stored, whatever has happened. -/

namespace HdyUtils.Ham

open Security Trace

namespace InternalStorage

variable (s : InternalStorage) (lowercase : String → String)

/-- The time of the last message of a conversation, or zero. -/
def lastTimestamp (c : Conversation) : Int64 :=
  ((s.messagesWith c.peer).getLast?.map (·.timestamp)).getD 0

/-- `ORDER BY COALESCE(m.timestamp, 0) DESC, c.created_at DESC`. -/
def newerFirst (c d : Conversation) : Bool :=
  decide ((s.lastTimestamp d).toInt < (s.lastTimestamp c).toInt) ||
    decide ((s.lastTimestamp d).toInt = (s.lastTimestamp c).toInt ∧ d.createdAt ≤ c.createdAt)

/-- Lists all conversation threads with summaries. -/
def listConversations : Except StorageError (List ConversationSummary) :=
  (s.chatConversations.rows.mergeSort s.newerFirst).mapM fun c =>
    ConversationSummary.ofRow c (s.messagesWith c.peer)

/-- Gets all messages for a specific conversation peer. -/
def getConversationMessages (peer : String) : List ChatMessage :=
  (s.messagesWith (normalizeChatTarget lowercase peer)).mergeSort fun m n =>
    decide (m.timestamp.toInt ≤ n.timestamp.toInt)

end InternalStorage

/-! ### Sending a message -/

inductive ChatStatus
  | badRequest
  | internalServerError
deriving DecidableEq

section Send

variable {E : Type} (p : Platform E)

/-- Sends a message, and stores it once the agent has taken it.  The bundle is created at `timestamp`,
and `inject` is what the agent answers. -/
def doSendChatMessage (s : InternalStorage) (f : Faults) (nodeId peer content : String)
    (lifetimeOverride : Option UInt64) (timestamp : CreationTimestamp) (now : Int)
    (inject : Bytes → Except String Unit) :
    Except (ChatStatus × String) ChatMessage × InternalStorage :=
  let content := Text.trim content
  if content = "" then (.error (.badRequest, "Message content cannot be empty"), s)
  else if Text.trim peer = "" then (.error (.badRequest, "Peer cannot be empty"), s)
  else
    let target := InternalStorage.normalizeChatTarget p.lowercase peer
    let senderStr := InternalStorage.normalizeChatTarget p.lowercase nodeId
    match p.hardy.parseEid target with
    | .error err => (.error (.badRequest, "Invalid recipient EID '" ++ target ++ "': " ++ err), s)
    | .ok recipientEid =>
      match p.hardy.parseEid senderStr with
      | .error err =>
        (.error (.internalServerError, "Invalid sender EID '" ++ senderStr ++ "': " ++ err), s)
      | .ok senderEid =>
        let lifetime := Duration.fromSecs (lifetimeOverride.getD 3600).toNat
        match p.hardy.build
          ⟨senderEid, recipientEid, lifetime, none, content.toUTF8.toList, timestamp⟩ with
        | .error e => (.error (.internalServerError, "Failed to build chat bundle: " ++ e), s)
        | .ok (bundle, bundleBytes) =>
          match inject bundleBytes with
          | .error e => (.error (.internalServerError, "Failed to dispatch chat bundle: " ++ e), s)
          | .ok () =>
            let (creation, _, expiry) := bundleTimes bundle.primary now
            let message : ChatMessage :=
              { id := p.toKey bundle.primary
                conversationPeer := target
                senderEid := senderStr
                recipientEid := target
                content := content
                direction := "outbound"
                status := "sent"
                isRead := true
                isSticky := false
                timestamp := creation
                expiryTimestamp := expiry
                createdAt := p.rfc3339 (bundle.primary.timestamp.datetime.getD now) }
            -- a message that cannot be stored is logged
            (.ok message, (s.insertChatMessage f message).toOption.getD s)

end Send

/-! ### What the operator and the network do -/

inductive Call
  | act (a : Action)
  | send (nodeId peer content : String) (lifetimeOverride : Option UInt64)
      (timestamp : CreationTimestamp) (now : Int) (inject : Bytes → Except String Unit)
  | create (peer createdAt now : String)

/-- A call, and what goes wrong during it. -/
def Station.call {E : Type} (p : Platform E) (s : Station) (c : Call × Faults) : Station :=
  match c.1 with
  | .act a => s.step p (a, c.2)
  | .send nodeId peer content lifetimeOverride timestamp now inject =>
    { s with
      storage := (doSendChatMessage p s.storage c.2 nodeId peer content lifetimeOverride timestamp now
        inject).2 }
  | .create peer createdAt now =>
    { s with storage := (s.storage.createConversation c.2 p.lowercase peer createdAt now).2 }

/-- The message that a call brings: the one of a bundle that is delivered, or the one that is sent. -/
def Station.Brings {E : Type} (p : Platform E) (s : Station) (c : Call × Faults) (m : ChatMessage) :
    Prop :=
  match c.1 with
  | .act (.deliverChat data now) => ∃ primary payload,
      deliveredBundle p data = some (primary, payload) ∧ m = ChatService.message p primary payload now
  | .send nodeId peer content lifetimeOverride timestamp now inject =>
      (doSendChatMessage p s.storage c.2 nodeId peer content lifetimeOverride timestamp now inject).1 =
        .ok m
  | _ => False

/-- The messages are the same, though one may be read or sticky and the other not. -/
def ChatMessage.Same (m m' : ChatMessage) : Prop :=
  ∃ isRead isSticky, m = { m' with isRead, isSticky }

/-- What can happen to the conversations and messages. -/
inductive InternalStorage.Moves (s s' : InternalStorage) (brought : ChatMessage → Prop) : Prop
  | kept (hmessages : s'.chatMessages = s.chatMessages)
      (hconversations : s'.chatConversations = s.chatConversations)
  | created (c : Conversation) (hmessages : s'.chatMessages = s.chatMessages)
      (hconversations : s'.chatConversations = s.chatConversations.insertOrIgnore c)
  | marked (q : ChatMessage → Bool) (g : ChatMessage → ChatMessage) (hid : ∀ m, (g m).id = m.id)
      (hsame : ∀ m, (g m).Same m) (hmessages : s'.chatMessages = s.chatMessages.update q g hid)
      (hconversations : s'.chatConversations = s.chatConversations)
  | deleted (q : ChatMessage → Bool) (hmessages : s'.chatMessages = s.chatMessages.delete q)
      (hconversations : s'.chatConversations = s.chatConversations)
  | inserted (m : ChatMessage) (hm : brought m)
      (hmessages : s'.chatMessages = s.chatMessages.insertOrReplace m)
      (hconversations : s'.chatConversations =
        s.chatConversations.insertOrIgnore ⟨m.conversationPeer, m.createdAt⟩)

section Moves

variable {E : Type} {p : Platform E}

namespace InternalStorage

variable {s s' : InternalStorage} {f : Faults} {brought : ChatMessage → Prop}

theorem moves_insertChatMessage {m : ChatMessage} (hm : brought m) :
    Moves s ((s.insertChatMessage f m).toOption.getD s) brought := by
  unfold insertChatMessage
  cases f.database with
  | true => exact .kept rfl rfl
  | false => exact .inserted m hm rfl rfl

end InternalStorage

theorem doSendChatMessage_moves (s : InternalStorage) (f : Faults) (nodeId peer content : String)
    (lifetimeOverride : Option UInt64) (timestamp : CreationTimestamp) (now : Int)
    (inject : Bytes → Except String Unit) :
    let sent := doSendChatMessage p s f nodeId peer content lifetimeOverride timestamp now inject
    s.Moves sent.2 fun m => sent.1 = .ok m := by
  unfold doSendChatMessage
  simp only
  repeat' split
  all_goals first
    | exact .kept rfl rfl
    | exact InternalStorage.moves_insertChatMessage rfl

namespace Station

/-- What an action of the network or the operator does to the conversations and messages. -/
theorem moves_step (s : Station) (act : Action) (f : Faults) :
    s.storage.Moves (s.step p (act, f)).storage (s.Brings p (.act act, f)) := by
  cases act with
  | deliverFile data now =>
    show s.storage.Moves (FilesService.handleDeliveredBundle p s.storage f data now) _
    unfold FilesService.handleDeliveredBundle InternalStorage.insertFileBundle
    split
    · exact .kept rfl rfl
    · cases f.write <;> cases f.database <;> exact .kept rfl rfl
  | deliverChat data now =>
    show s.storage.Moves (ChatService.handleDeliveredBundle p s.storage f data now) _
    unfold ChatService.handleDeliveredBundle
    split
    · exact .kept rfl rfl
    · next primary payload hdelivered =>
      have hbrings : s.Brings p (.act (.deliverChat data now), f)
          (ChatService.message p primary payload now) := ⟨primary, payload, hdelivered, rfl⟩
      have hmoves := InternalStorage.moves_insertChatMessage (s := s.storage) (f := f) hbrings
      cases hinsert : s.storage.insertChatMessage f (ChatService.message p primary payload now) with
      | ok stored => simpa [hinsert, Except.toOption] using hmoves
      | error e => exact .kept rfl rfl
  | toggleFile id =>
    show s.storage.Moves (s.toggleFile f id).storage _
    unfold toggleFile InternalStorage.toggleFileSticky
    cases s.storage.filesBundles.get id <;> cases f.database <;> exact .kept rfl rfl
  | toggleChat id =>
    show s.storage.Moves (s.toggleChat f id).storage _
    unfold toggleChat InternalStorage.toggleChatSticky
    cases s.storage.chatMessages.get id with
    | none => exact .kept rfl rfl
    | some m =>
      cases f.database with
      | true => exact .kept rfl rfl
      | false =>
        refine .marked _ _ ?_ ?_ rfl rfl
        · exact fun _ => rfl
        · exact fun m' => ⟨m'.isRead, !m.isSticky, rfl⟩
  | deleteFile id =>
    show s.storage.Moves (s.storage.deleteFileBundle f id).2 _
    unfold InternalStorage.deleteFileBundle
    repeat' split
    all_goals exact .kept rfl rfl
  | markFileRead id =>
    show s.storage.Moves ((s.storage.markFileRead f id).toOption.getD s.storage) _
    unfold InternalStorage.markFileRead
    cases f.database <;> exact .kept rfl rfl
  | markConversationRead peer =>
    show s.storage.Moves ((s.storage.markConversationRead f p.lowercase peer).toOption.getD s.storage) _
    unfold InternalStorage.markConversationRead
    cases f.database with
    | true => exact .kept rfl rfl
    | false =>
      refine .marked _ _ ?_ ?_ rfl rfl
      · exact fun _ => rfl
      · exact fun m => ⟨true, m.isSticky, rfl⟩
  | purge nowMs =>
    show s.storage.Moves (s.storage.purgeExpired f nowMs).2 _
    unfold InternalStorage.purgeExpired
    simp only
    split
    · exact .kept rfl rfl
    · exact .deleted _ rfl rfl

theorem moves_call (s : Station) (c : Call × Faults) :
    s.storage.Moves (s.call p c).storage (s.Brings p c) := by
  obtain ⟨call, f⟩ := c
  cases call with
  | act act => exact moves_step s act f
  | send nodeId peer content lifetimeOverride timestamp now inject =>
    exact doSendChatMessage_moves s.storage f nodeId peer content lifetimeOverride timestamp now inject
  | create peer createdAt now =>
    show s.storage.Moves (s.storage.createConversation f p.lowercase peer createdAt now).2 _
    unfold InternalStorage.createConversation
    simp only
    split
    · exact .kept rfl rfl
    · exact .created _ rfl rfl

end Station

end Moves

/-- Every message is in a conversation that is stored. -/
def InternalStorage.Threaded (s : InternalStorage) : Prop :=
  ∀ m ∈ s.chatMessages.rows, (s.chatConversations.get m.conversationPeer).isSome

theorem InternalStorage.Threaded.move {s s' : InternalStorage} {brought : ChatMessage → Prop}
    (h : s.Threaded) (hmoves : s.Moves s' brought) : s'.Threaded := by
  unfold Threaded
  cases hmoves with
  | kept hmessages hconversations =>
    rw [hmessages, hconversations]
    exact h
  | created c hmessages hconversations =>
    rw [hmessages, hconversations]
    exact fun m hm => Table.isSome_insertOrIgnore _ _ (h m hm)
  | marked q g hid hsame hmessages hconversations =>
    rw [hmessages, hconversations]
    intro m hm
    obtain ⟨m', hm', rfl⟩ := List.mem_map.mp hm
    have hpeer : (if q m' then g m' else m').conversationPeer = m'.conversationPeer := by
      split
      · obtain ⟨isRead, isSticky, hg⟩ := hsame m'
        rw [hg]
      · rfl
    rw [hpeer]
    exact h m' hm'
  | deleted q hmessages hconversations =>
    rw [hmessages, hconversations]
    exact fun m hm => h m (List.mem_of_mem_filter hm)
  | inserted msg hmsg hmessages hconversations =>
    rw [hmessages, hconversations]
    intro m hm
    rcases List.mem_append.mp hm with hold | hnew
    · exact Table.isSome_insertOrIgnore _ _ (h m (List.mem_of_mem_filter hold))
    · rw [List.mem_singleton.mp hnew]
      exact Table.isSome_insertOrIgnore_self s.chatConversations ⟨msg.conversationPeer, msg.createdAt⟩

/-! ### What a summary says -/

/-- An inbound message that has not been read. -/
def ChatMessage.unread (m : ChatMessage) : Bool := !m.isRead && m.direction = "inbound"

namespace ConversationSummary

/-- The summary of a conversation with few enough messages. -/
def summarize (c : Conversation) (messages : List ChatMessage) : ConversationSummary where
  peer := c.peer
  callsign := some c.peer
  lastMessage := (messages.getLast?.map (·.content)).getD ""
  lastDirection := (messages.getLast?.map (·.direction)).getD "outbound"
  lastStatus := (messages.getLast?.map (·.status)).getD "queued"
  lastTimestamp := (messages.getLast?.map (·.timestamp)).getD 0
  lastCreatedAt := (messages.getLast?.map (·.createdAt)).getD c.createdAt
  unreadCount := messages.countP ChatMessage.unread
  totalMessages := messages.length

theorem ofRow_eq_ok (c : Conversation) {messages : List ChatMessage}
    (hfew : messages.length < 2 ^ 32) : ofRow c messages = .ok (summarize c messages) := by
  have hunread : (messages.filter fun m => !m.isRead && m.direction = "inbound").length =
      messages.countP ChatMessage.unread := List.countP_eq_length_filter.symm
  have hfewer : messages.countP ChatMessage.unread < 2 ^ 32 :=
    lt_of_le_of_lt List.countP_le_length hfew
  unfold ofRow
  rw [hunread, readU32_of_lt hfewer, readU32_of_lt hfew]
  rfl

/-- What is read in a conversation is its number of unread messages. -/
theorem summarize_read (c : Conversation) (messages : List ChatMessage) :
    summarize c (messages.map fun m => if !m.isRead then { m with isRead := true } else m) =
      { summarize c messages with unreadCount := 0 } := by
  have hlast : ∀ {γ : Type} (g : ChatMessage → γ), (∀ m, g { m with isRead := true } = g m) →
      ((messages.map fun m => if !m.isRead then { m with isRead := true } else m).getLast?.map g) =
        messages.getLast?.map g := by
    intro γ g hg
    rw [List.getLast?_map, Option.map_map]
    refine Option.map_congr fun m _ => ?_
    show g (if !m.isRead then { m with isRead := true } else m) = g m
    split
    · exact hg m
    · rfl
  have hunread : (messages.map fun m => if !m.isRead then { m with isRead := true } else m).countP
      ChatMessage.unread = 0 := by
    rw [List.countP_eq_zero]
    intro m hm
    obtain ⟨m', -, rfl⟩ := List.mem_map.mp hm
    cases hread : m'.isRead <;> simp [ChatMessage.unread, hread]
  unfold summarize
  rw [hlast, hlast, hlast, hlast, hlast, hunread, List.length_map]
  all_goals exact fun _ => rfl

end ConversationSummary

/-! ### The views agree -/

/-- The views of the conversations agree.  Each conversation is listed once, the one with the newest last
message first; the counts together are those of all the messages; and under a name that the
normalization leaves as it is, the summary of a conversation is the one in the list, its messages are as
many as that says, in order of time, and to read it changes its count of unread messages and nothing
else. -/
structure InternalStorage.Agrees (lowercase : String → String) (s : InternalStorage)
    (list : List ConversationSummary) : Prop where
  once : (list.map (·.peer)).Nodup
  newest : list.Pairwise fun c d => d.lastTimestamp.toInt ≤ c.lastTimestamp.toInt
  listed : ∀ m ∈ s.chatMessages.rows, m.conversationPeer ∈ list.map (·.peer)
  total : (list.map (·.totalMessages)).sum = s.chatMessages.rows.length
  unread : (list.map (·.unreadCount)).sum = s.chatMessages.rows.countP ChatMessage.unread
  summary : ∀ c ∈ list, InternalStorage.normalizeChatTarget lowercase c.peer = c.peer →
    ∀ now, s.getConversationSummary lowercase c.peer now = .ok c
  messages : ∀ c ∈ list, InternalStorage.normalizeChatTarget lowercase c.peer = c.peer →
    let messages := s.getConversationMessages lowercase c.peer
    messages.Perm (s.messagesWith c.peer) ∧ messages.length = c.totalMessages ∧
      messages.countP ChatMessage.unread = c.unreadCount ∧
      messages.Pairwise fun m n => m.timestamp.toInt ≤ n.timestamp.toInt
  read : ∀ c ∈ list, InternalStorage.normalizeChatTarget lowercase c.peer = c.peer →
    ∀ f s', s.markConversationRead f lowercase c.peer = .ok s' →
      s'.listConversations =
        .ok (list.map fun d => if d.peer = c.peer then { d with unreadCount := 0 } else d)

namespace InternalStorage

variable {s s' : InternalStorage} {lowercase : String → String}

theorem newerFirst_trans (a b c : Conversation) (hab : s.newerFirst a b = true)
    (hbc : s.newerFirst b c = true) : s.newerFirst a c = true := by
  unfold newerFirst at *
  simp only [Bool.or_eq_true, decide_eq_true_eq] at *
  rcases hab with hab | ⟨hab, hab'⟩ <;> rcases hbc with hbc | ⟨hbc, hbc'⟩
  · exact .inl (hbc.trans hab)
  · exact .inl (hbc ▸ hab)
  · exact .inl (hab ▸ hbc)
  · exact .inr ⟨hbc.trans hab, hbc'.trans hab'⟩

theorem newerFirst_total (a b : Conversation) :
    (s.newerFirst a b || s.newerFirst b a) = true := by
  unfold newerFirst
  simp only [Bool.or_eq_true, decide_eq_true_eq]
  rcases lt_trichotomy (s.lastTimestamp a).toInt (s.lastTimestamp b).toInt with hlt | heq | hgt
  · exact .inr (.inl hlt)
  · rcases le_total a.createdAt b.createdAt with hle | hle
    · exact .inr (.inr ⟨heq, hle⟩)
    · exact .inl (.inr ⟨heq.symm, hle⟩)
  · exact .inl (.inl hgt)

/-- The list, with summaries that are all read. -/
theorem listConversations_eq_ok (hfew : s.chatMessages.rows.length < 2 ^ 32) :
    s.listConversations = .ok ((s.chatConversations.rows.mergeSort s.newerFirst).map fun c =>
      ConversationSummary.summarize c (s.messagesWith c.peer)) :=
  Results.mapM_eq_ok fun c _ => ConversationSummary.ofRow_eq_ok c
    (lt_of_le_of_lt (List.length_filter_le _ _) hfew)

theorem peers_listConversations :
    ((s.chatConversations.rows.mergeSort s.newerFirst).map fun c =>
      ConversationSummary.summarize c (s.messagesWith c.peer)).map (·.peer) =
      (s.chatConversations.rows.mergeSort s.newerFirst).map Conversation.peer := by
  rw [List.map_map]
  rfl

theorem nodup_peers :
    ((s.chatConversations.rows.mergeSort s.newerFirst).map Conversation.peer).Nodup :=
  ((List.mergeSort_perm _ _).map _).nodup_iff.mpr s.chatConversations.unique

theorem Threaded.mem_peers (h : s.Threaded) {m : ChatMessage} (hm : m ∈ s.chatMessages.rows) :
    m.conversationPeer ∈
      (s.chatConversations.rows.mergeSort s.newerFirst).map Conversation.peer := by
  obtain ⟨c, hc⟩ := Option.isSome_iff_exists.mp (h m hm)
  obtain ⟨hmem, hpeer⟩ := Table.get_eq_some_iff.mp hc
  exact List.mem_map.mpr ⟨c, List.mem_mergeSort.mpr hmem, hpeer⟩

/-- The messages of all conversations with a property are all messages with it. -/
theorem Threaded.sum_countP (h : s.Threaded) (q : ChatMessage → Bool) :
    ((s.chatConversations.rows.mergeSort s.newerFirst).map fun c =>
      (s.messagesWith c.peer).countP q).sum = s.chatMessages.rows.countP q := by
  have hmem : ∀ m ∈ s.chatMessages.rows.filter q, m.conversationPeer ∈
      (s.chatConversations.rows.mergeSort s.newerFirst).map Conversation.peer := fun m hm =>
    h.mem_peers (List.mem_of_mem_filter hm)
  have hpeers := Groups.sum_countP nodup_peers hmem
  rw [List.map_map, ← List.countP_eq_length_filter] at hpeers
  rw [← hpeers]
  refine congrArg List.sum (List.map_congr_left fun c _ => ?_)
  show (s.chatMessages.rows.filter _).countP q = (s.chatMessages.rows.filter q).countP _
  rw [List.countP_filter, List.countP_filter]
  simp only [Bool.and_comm]

theorem rows_markConversationRead {f : Faults} {peer : String}
    (h : s.markConversationRead f lowercase peer = .ok s') :
    s'.chatConversations = s.chatConversations ∧ s'.chatMessages.rows = s.chatMessages.rows.map fun m =>
      if m.conversationPeer = normalizeChatTarget lowercase peer && !m.isRead then
        { m with isRead := true }
      else m := by
  unfold markConversationRead at h
  cases hdatabase : f.database with
  | true => simp [hdatabase] at h
  | false =>
    simp only [hdatabase, Bool.false_eq_true, if_false, Except.ok.injEq] at h
    subst h
    exact ⟨rfl, rfl⟩

/-- To read a conversation marks its messages, and no others. -/
theorem messagesWith_markConversationRead {f : Faults} {peer : String}
    (h : s.markConversationRead f lowercase peer = .ok s') (peer' : String) :
    s'.messagesWith peer' =
      if peer' = normalizeChatTarget lowercase peer then
        (s.messagesWith peer').map fun m => if !m.isRead then { m with isRead := true } else m
      else s.messagesWith peer' := by
  obtain ⟨-, hrows⟩ := rows_markConversationRead h
  have hpeer : ∀ m : ChatMessage,
      (if m.conversationPeer = normalizeChatTarget lowercase peer && !m.isRead then
        { m with isRead := true } else m).conversationPeer = m.conversationPeer := by
    intro m
    split <;> rfl
  unfold messagesWith
  rw [hrows, List.filter_map]
  simp only [Function.comp_def, hpeer]
  split
  · next heq =>
    apply List.map_congr_left
    intro m hm
    have hthis : m.conversationPeer = peer' := of_decide_eq_true (List.mem_filter.mp hm).2
    rw [hthis, heq, decide_eq_true rfl, Bool.true_and]
  · next hne =>
    rw [List.map_congr_left (g := id), List.map_id]
    intro m hm
    have hthis : m.conversationPeer = peer' := of_decide_eq_true (List.mem_filter.mp hm).2
    rw [hthis, decide_eq_false hne, Bool.false_and, if_neg Bool.false_ne_true]
    rfl

theorem summarize_markConversationRead {f : Faults} {peer : String}
    (h : s.markConversationRead f lowercase peer = .ok s') (c : Conversation) :
    ConversationSummary.summarize c (s'.messagesWith c.peer) =
      if c.peer = normalizeChatTarget lowercase peer then
        { ConversationSummary.summarize c (s.messagesWith c.peer) with unreadCount := 0 }
      else ConversationSummary.summarize c (s.messagesWith c.peer) := by
  rw [messagesWith_markConversationRead h]
  split
  · exact ConversationSummary.summarize_read c _
  · rfl

/-- The order of the list is not changed by reading. -/
theorem newerFirst_markConversationRead {f : Faults} {peer : String}
    (h : s.markConversationRead f lowercase peer = .ok s') : s'.newerFirst = s.newerFirst := by
  have hlast : ∀ c, s'.lastTimestamp c = s.lastTimestamp c := by
    intro c
    have hsummary := congrArg ConversationSummary.lastTimestamp (summarize_markConversationRead h c)
    split at hsummary <;> exact hsummary
  funext c d
  unfold newerFirst
  rw [hlast c, hlast d]

theorem listConversations_markConversationRead {f : Faults} {peer : String}
    (hfew : s.chatMessages.rows.length < 2 ^ 32)
    (h : s.markConversationRead f lowercase peer = .ok s') :
    s'.listConversations = .ok ((s.chatConversations.rows.mergeSort s.newerFirst).map fun c =>
      if c.peer = normalizeChatTarget lowercase peer then
        { ConversationSummary.summarize c (s.messagesWith c.peer) with unreadCount := 0 }
      else ConversationSummary.summarize c (s.messagesWith c.peer)) := by
  obtain ⟨hconversations, hrows⟩ := rows_markConversationRead h
  have hfew' : s'.chatMessages.rows.length < 2 ^ 32 := by
    rw [hrows, List.length_map]
    exact hfew
  rw [listConversations_eq_ok hfew', newerFirst_markConversationRead h, hconversations]
  exact congrArg _ (List.map_congr_left fun c _ => summarize_markConversationRead h c)

theorem Threaded.agrees (h : s.Threaded) (hfew : s.chatMessages.rows.length < 2 ^ 32)
    (lowercase : String → String) :
    s.Agrees lowercase ((s.chatConversations.rows.mergeSort s.newerFirst).map fun c =>
      ConversationSummary.summarize c (s.messagesWith c.peer)) where
  once := peers_listConversations ▸ nodup_peers
  newest := by
    have hsorted := @List.pairwise_mergeSort _ s.newerFirst newerFirst_trans newerFirst_total
      s.chatConversations.rows
    refine List.pairwise_map.mpr (hsorted.imp fun {c d} hcd => ?_)
    unfold newerFirst at hcd
    simp only [Bool.or_eq_true, decide_eq_true_eq] at hcd
    rcases hcd with hlt | ⟨heq, -⟩
    · exact hlt.le
    · exact heq.le
  listed := fun m hm => peers_listConversations ▸ h.mem_peers hm
  total := by
    have hall := h.sum_countP fun _ => true
    simpa [List.map_map, Function.comp_def, ConversationSummary.summarize, List.countP_true] using hall
  unread := by
    rw [List.map_map]
    exact h.sum_countP ChatMessage.unread
  summary := by
    intro summary hsummary hstable now
    obtain ⟨c, hc, rfl⟩ := List.mem_map.mp hsummary
    have hpeer : normalizeChatTarget lowercase c.peer = c.peer := hstable
    have hget : s.chatConversations.get c.peer = some c :=
      Table.get_eq_some_iff.mpr ⟨List.mem_mergeSort.mp hc, rfl⟩
    show s.getConversationSummary lowercase c.peer now = _
    rw [getConversationSummary_some (hpeer.symm ▸ hget), hpeer]
    exact ConversationSummary.ofRow_eq_ok c (lt_of_le_of_lt (List.length_filter_le _ _) hfew)
  messages := by
    intro summary hsummary hstable
    obtain ⟨c, -, rfl⟩ := List.mem_map.mp hsummary
    have hpeer : normalizeChatTarget lowercase c.peer = c.peer := hstable
    have hperm : (s.getConversationMessages lowercase c.peer).Perm (s.messagesWith c.peer) := by
      unfold getConversationMessages
      rw [hpeer]
      exact List.mergeSort_perm _ _
    have hsorted := @List.pairwise_mergeSort _
      (fun m n : ChatMessage => decide (m.timestamp.toInt ≤ n.timestamp.toInt))
      (fun a b c hab hbc => by simp only [decide_eq_true_eq] at *; omega)
      (fun a b => by simp only [Bool.or_eq_true, decide_eq_true_eq]; omega)
      (s.messagesWith (normalizeChatTarget lowercase c.peer))
    exact ⟨hperm, hperm.length_eq, hperm.countP_eq _, hsorted.imp fun hle => of_decide_eq_true hle⟩
  read := by
    intro summary hsummary hstable f s' hread
    obtain ⟨c, -, rfl⟩ := List.mem_map.mp hsummary
    have hpeer : normalizeChatTarget lowercase c.peer = c.peer := hstable
    have hread' : s.markConversationRead f lowercase c.peer = .ok s' := hread
    rw [listConversations_markConversationRead hfew hread', hpeer, List.map_map]
    rfl

end InternalStorage

/-- Whatever messages come in and are sent, whatever conversations are created, read, kept and purged,
and whatever goes wrong, the conversations are listed and their views agree. -/
theorem conversations_agree {E : Type} (p : Platform E) (s : Station) (h : s.storage.Threaded)
    (calls : List (Call × Faults))
    (hfew : (run (Station.call p) s calls).storage.chatMessages.rows.length < 2 ^ 32) :
    ∃ list, (run (Station.call p) s calls).storage.listConversations = .ok list ∧
      (run (Station.call p) s calls).storage.Agrees p.lowercase list := by
  have hthreaded : (run (Station.call p) s calls).storage.Threaded :=
    @run_invariant _ _ _ _ (fun s : Station => s.storage.Threaded)
      (fun s c hs => hs.move (Station.moves_call s c)) calls h
  exact ⟨_, InternalStorage.listConversations_eq_ok hfew, hthreaded.agrees hfew p.lowercase⟩

/-- A message that has come in, a conversation without messages, and the first one read. -/
theorem conversations_agree_inbox :
    let sound : Faults := ⟨.done, fun _ => false, false⟩
    let s := run (Station.call plainPlatform) (.new "files" fun _ => none)
      [(.act (.deliverChat [1] 0), sound), (.create "stata" "" "", sound),
        (.act (.markConversationRead "dtn://f4jxq/files"), sound)]
    ∃ list, s.storage.listConversations = .ok list ∧ s.storage.Agrees plainPlatform.lowercase list :=
  conversations_agree plainPlatform (.new "files" fun _ => none) nofun _ (by decide +kernel)

end HdyUtils.Ham
