import HdyUtils.Ham.Routing
import HdyUtils.Ham.Storage
import HdyUtils.Lib.Results

/-! The names of peers (`internal_storage.rs`): the endpoint of a chat, under which a conversation is
stored, and the endpoint of a node.  A conversation is found again under its stored name when the
normalization leaves that name as it is. -/

namespace HdyUtils.Ham

/-- What is used of the lower-case mapping of Unicode. -/
structure LawfulLowercase (lowercase : String → String) : Prop where
  idempotent : ∀ s, lowercase (lowercase s) = lowercase s
  split : ∀ s, Text.split '/' (lowercase s) = (Text.split '/' s).map lowercase
  trim : ∀ s, Text.trim (lowercase s) = lowercase (Text.trim s)
  eq_empty : ∀ s, lowercase s = "" ↔ s = ""
  none : lowercase "none" = "none"

/-! ### Conversations -/

structure ConversationSummary where
  peer : String
  callsign : Option String
  lastMessage : String
  lastDirection : String
  lastStatus : String
  lastTimestamp : Int64
  lastCreatedAt : String
  unreadCount : Nat
  totalMessages : Nat

/-- Reads the column of a count as a `u32`. -/
def readU32 (count : Nat) : Except StorageError Nat :=
  if count < 2 ^ 32 then .ok count else .error .database

/-- The row of the summary of a conversation, with its messages in the order of their insertion. -/
def ConversationSummary.ofRow (c : Conversation) (messages : List ChatMessage) :
    Except StorageError ConversationSummary := do
  -- the row with the greatest rowid
  let last := messages.getLast?
  let unread ← readU32 (messages.filter fun m => !m.isRead && m.direction = "inbound").length
  let total ← readU32 messages.length
  return {
    peer := c.peer
    callsign := some c.peer
    lastMessage := (last.map (·.content)).getD ""
    lastDirection := (last.map (·.direction)).getD "outbound"
    lastStatus := (last.map (·.status)).getD "queued"
    lastTimestamp := (last.map (·.timestamp)).getD 0
    lastCreatedAt := (last.map (·.createdAt)).getD c.createdAt
    unreadCount := unread
    totalMessages := total }

namespace InternalStorage

variable (s : InternalStorage) (f : Faults) (lowercase : String → String)

def messagesWith (peer : String) : List ChatMessage :=
  s.chatMessages.rows.filter fun m => m.conversationPeer = peer

/-- The summary of the conversation with a peer, at the time `now`. -/
def getConversationSummary (peer now : String) : Except StorageError ConversationSummary :=
  let canonical := normalizeChatTarget lowercase peer
  match s.chatConversations.get canonical with
  | some c => ConversationSummary.ofRow c (s.messagesWith c.peer)
  | none =>
    .ok {
      peer := canonical
      callsign := some canonical
      lastMessage := ""
      lastDirection := "outbound"
      lastStatus := "queued"
      lastTimestamp := 0
      lastCreatedAt := now
      unreadCount := 0
      totalMessages := 0 }

/-- Creates the conversation with a peer at the time `createdAt`, before any message is sent. -/
def createConversation (peer createdAt now : String) :
    Except StorageError ConversationSummary × InternalStorage :=
  let canonical := normalizeChatTarget lowercase peer
  if f.database then (.error .database, s)
  else
    let created := { s with
      chatConversations := s.chatConversations.insertOrIgnore ⟨canonical, createdAt⟩ }
    (created.getConversationSummary lowercase canonical now, created)

end InternalStorage

theorem readU32_of_lt {count : Nat} (h : count < 2 ^ 32) : readU32 count = .ok count := if_pos h

namespace ConversationSummary

variable {c : Conversation} {messages : List ChatMessage} {summary : ConversationSummary}

theorem peer_ofRow (h : ofRow c messages = .ok summary) : summary.peer = c.peer := by
  obtain ⟨unread, -, h⟩ := Results.bind_eq_ok_iff.mp h
  obtain ⟨total, -, h⟩ := Results.bind_eq_ok_iff.mp h
  cases h
  rfl

/-- The summary shows the last message. -/
theorem ofRow_last {m : ChatMessage} (hlast : messages.getLast? = some m)
    (h : ofRow c messages = .ok summary) :
    summary.lastMessage = m.content ∧ summary.lastDirection = m.direction ∧
      summary.lastStatus = m.status ∧ summary.lastTimestamp = m.timestamp ∧
      summary.lastCreatedAt = m.createdAt := by
  obtain ⟨unread, -, h⟩ := Results.bind_eq_ok_iff.mp h
  obtain ⟨total, -, h⟩ := Results.bind_eq_ok_iff.mp h
  cases h
  simp only [hlast, Option.map_some, Option.getD_some, and_self]

theorem exists_ofRow (c : Conversation) (hfew : messages.length < 2 ^ 32) :
    ∃ summary, ofRow c messages = .ok summary := by
  have hunread := List.length_filter_le (fun m : ChatMessage => !m.isRead && m.direction = "inbound")
    messages
  unfold ofRow
  rw [readU32_of_lt (lt_of_le_of_lt hunread hfew), readU32_of_lt hfew]
  exact ⟨_, rfl⟩

end ConversationSummary

namespace InternalStorage

variable {s : InternalStorage} {f : Faults} {lowercase : String → String}
  {peer now : String} {summary : ConversationSummary}

theorem getConversationSummary_some {c : Conversation}
    (hrow : s.chatConversations.get (normalizeChatTarget lowercase peer) = some c) :
    s.getConversationSummary lowercase peer now =
      ConversationSummary.ofRow c (s.messagesWith (normalizeChatTarget lowercase peer)) := by
  simp only [getConversationSummary, hrow, Table.key_of_get hrow]

theorem getConversationSummary_peer
    (h : s.getConversationSummary lowercase peer now = .ok summary) :
    summary.peer = normalizeChatTarget lowercase peer := by
  cases hrow : s.chatConversations.get (normalizeChatTarget lowercase peer) with
  | none =>
    simp only [getConversationSummary, hrow] at h
    cases h
    rfl
  | some c =>
    rw [getConversationSummary_some hrow] at h
    rw [ConversationSummary.peer_ofRow h]
    exact Table.key_of_get hrow

/-- Names with one normal form have one summary, at any time, once the conversation is stored. -/
theorem getConversationSummary_congr {peer' now' : String}
    (hpeer : normalizeChatTarget lowercase peer' = normalizeChatTarget lowercase peer)
    (hrow : (s.chatConversations.get (normalizeChatTarget lowercase peer)).isSome) :
    s.getConversationSummary lowercase peer' now' = s.getConversationSummary lowercase peer now := by
  obtain ⟨c, hrow⟩ := Option.isSome_iff_exists.mp hrow
  rw [getConversationSummary_some hrow, getConversationSummary_some (hpeer ▸ hrow), hpeer]

/-- A summary is read when the table has fewer than `2 ^ 32` messages. -/
theorem exists_getConversationSummary (hfew : s.chatMessages.rows.length < 2 ^ 32)
    (peer now : String) : ∃ summary, s.getConversationSummary lowercase peer now = .ok summary := by
  cases hrow : s.chatConversations.get (normalizeChatTarget lowercase peer) with
  | none =>
    simp only [getConversationSummary, hrow]
    exact ⟨_, rfl⟩
  | some c =>
    rw [getConversationSummary_some hrow]
    exact ConversationSummary.exists_ofRow c (lt_of_le_of_lt (List.length_filter_le _ _) hfew)

theorem exists_createConversation {createdAt : String} (hdb : f.database = false)
    (hfew : s.chatMessages.rows.length < 2 ^ 32) :
    ∃ summary, (s.createConversation f lowercase peer createdAt now).1 = .ok summary := by
  unfold createConversation
  simp only [hdb, Bool.false_eq_true, if_false]
  apply exists_getConversationSummary
  exact hfew

/-- What a conversation that is created leaves: its row, and a summary of the name it was stored
under. -/
theorem createConversation_ok {createdAt : String} {s' : InternalStorage}
    (h : s.createConversation f lowercase peer createdAt now = (.ok summary, s')) :
    (s'.chatConversations.get (normalizeChatTarget lowercase peer)).isSome ∧
      s'.getConversationSummary lowercase (normalizeChatTarget lowercase peer) now = .ok summary := by
  unfold createConversation at h
  cases hdb : f.database with
  | true => simp [hdb] at h
  | false =>
    simp only [hdb, Bool.false_eq_true, if_false, Prod.mk.injEq] at h
    obtain ⟨hsummary, rfl⟩ := h
    exact ⟨Table.isSome_insertOrIgnore_self _ _, hsummary⟩

/-- A message that is stored is the last one of its conversation, which is listed. -/
theorem insertChatMessage_ok {m : ChatMessage} {s' : InternalStorage}
    (h : s.insertChatMessage f m = .ok s') :
    (s'.chatConversations.get m.conversationPeer).isSome ∧
      (s'.messagesWith m.conversationPeer).getLast? = some m := by
  unfold insertChatMessage at h
  cases hdb : f.database with
  | true => simp [hdb] at h
  | false =>
    simp only [hdb, Bool.false_eq_true, if_false, Except.ok.injEq] at h
    subst h
    refine ⟨Table.isSome_insertOrIgnore_self s.chatConversations ⟨m.conversationPeer, m.createdAt⟩, ?_⟩
    unfold messagesWith Table.insertOrReplace
    rw [List.filter_append, List.filter_singleton, decide_eq_true rfl, Bool.cond_true,
      List.getLast?_concat]

end InternalStorage

/-! ### The endpoint of a chat -/

/-- The endpoint that some parts name. -/
def endpoint (parts : List String) : String := "dtn://" ++ "/".intercalate parts

def nonBlank (parts : List String) : List String := parts.filter fun part => Text.trim part ≠ ""

/-- The name without the slashes at its ends. -/
def withoutSlashes (name : String) : String :=
  Text.trimEnd (· = '/') (Text.trimStart (· = '/') name)

/-- The parts of the chat endpoint for the parts of a name. -/
def chatParts (lowercase : String → String) (parts : List String) : List String :=
  match parts with
  | [] => ["none", "chat"]
  | [node] => [lowercase node, "chat"]
  | node :: service => lowercase node :: service

section Endpoint

variable {front parts : List String} {last node : String} {lowercase : String → String}

theorem endpoint_inj {parts' : List String} (hfree : ∀ p ∈ parts, '/' ∉ p.toList)
    (hfree' : ∀ p ∈ parts', '/' ∉ p.toList) (hne : parts ≠ []) (hne' : parts' ≠ []) :
    endpoint parts = endpoint parts' ↔ parts = parts' := by
  constructor
  · intro h
    have hparts := (String.append_right_inj "dtn://").mp h
    have hsep : "/".toList = ['/'] := rfl
    rw [← Text.split_intercalate hsep hfree hne, hparts, Text.split_intercalate hsep hfree' hne']
  · exact congrArg endpoint

theorem dtn_append_ne_none (rest : String) : "dtn://" ++ rest ≠ "dtn:none" := by
  intro heq
  rw [← String.toList_inj, String.toList_append] at heq
  cases heq

theorem stripStart_dtn_ipn (rest : String) : Text.stripStart ("dtn://" ++ rest) "ipn:" = none := by
  unfold Text.stripStart Text.startsWith
  rw [String.toList_append]
  rfl

/-- An endpoint ends in its last part. -/
theorem exists_endpoint_append (front : List String) :
    ∃ lead : String, lead.toList.head? = some 'd' ∧
      ∀ last, endpoint (front ++ [last]) = lead ++ last := by
  cases front with
  | nil =>
    refine ⟨"dtn://", rfl, fun last => ?_⟩
    rw [endpoint, List.nil_append, String.intercalate_singleton]
  | cons p front =>
    refine ⟨"dtn://" ++ "/".intercalate (p :: front) ++ "/", ?_, fun last => ?_⟩
    · rw [String.append_assoc, String.toList_append]
      rfl
    · rw [endpoint, String.intercalate_append_of_ne_nil (List.cons_ne_nil p front)
        (List.cons_ne_nil last []), String.intercalate_singleton]
      simp only [String.append_assoc]

/-- An endpoint is trimmed at its last part. -/
theorem trim_endpoint (hlast : Text.trim last ≠ "") :
    Text.trim (endpoint (front ++ [last])) =
      endpoint (front ++ [Text.trimEnd Text.isWhitespace last]) := by
  obtain ⟨lead, hhead, hlead⟩ := exists_endpoint_append front
  rw [hlead, hlead, Text.trim_append ?_ ?_ hlast]
  · intro c hc
    rw [hhead] at hc
    cases hc
    rfl
  · rintro rfl
    cases hhead

/-- The normal form of a name with the scheme `dtn`. -/
theorem normalizeChatTarget_dtn {input stripped : String}
    (h : Text.trim input = "dtn://" ++ stripped) :
    InternalStorage.normalizeChatTarget lowercase input =
      endpoint (chatParts lowercase (nonBlank (Text.split '/' stripped))) := by
  have hne : "dtn://" ++ stripped ≠ "" := by
    intro hnil
    rw [← String.toList_inj, String.toList_append] at hnil
    cases hnil
  have hipn : Text.startsWith ("dtn://" ++ stripped) "ipn:" = false := by
    unfold Text.startsWith
    rw [String.toList_append]
    rfl
  unfold InternalStorage.normalizeChatTarget
  simp only [h, hne, hipn, Text.stripStart_append, if_false, Bool.false_eq_true]
  show (match nonBlank (Text.split '/' stripped) with
    | [] => "dtn://none/chat"
    | [node] => "dtn://" ++ lowercase node ++ "/chat"
    | node :: service => "dtn://" ++ lowercase node ++ "/" ++ "/".intercalate service) = _
  unfold chatParts endpoint
  split
  · rfl
  · rw [String.intercalate_cons_cons, String.intercalate_singleton]
    simp only [String.append_assoc]
    rfl
  · next node service hservice _ =>
    rw [String.intercalate_cons_of_ne_nil hservice]
    simp only [String.append_assoc]

/-- The normal form of an endpoint: the blank parts go, and the white space at the end. -/
theorem normalizeChatTarget_endpoint (hfree : ∀ p ∈ front, '/' ∉ p.toList) (hlast : '/' ∉ last.toList)
    (hblank : Text.trim last ≠ "") :
    InternalStorage.normalizeChatTarget lowercase (endpoint (front ++ [last])) =
      endpoint (chatParts lowercase
        (nonBlank front ++ [Text.trimEnd Text.isWhitespace last])) := by
  have hparts : ∀ p ∈ front ++ [Text.trimEnd Text.isWhitespace last], '/' ∉ p.toList := by
    intro p hp
    rcases List.mem_append.mp hp with hp | hp
    · exact hfree p hp
    · rw [List.mem_singleton.mp hp]
      exact Text.notMem_trimEnd hlast
  rw [normalizeChatTarget_dtn (trim_endpoint hblank),
    Text.split_intercalate rfl hparts (List.append_ne_nil_of_right_ne_nil _ (List.cons_ne_nil _ []))]
  unfold nonBlank
  rw [List.filter_append, List.filter_singleton,
    decide_eq_true (Text.trim_trimEnd_ne_empty hblank), Bool.cond_true]

theorem nonBlank_eq (h : ∀ p ∈ parts, Text.trim p ≠ "") : nonBlank parts = parts :=
  List.filter_eq_self.mpr fun p hp => decide_eq_true (h p hp)

theorem chatParts_ne_nil : chatParts lowercase parts ≠ [] := by
  unfold chatParts
  split <;> exact List.cons_ne_nil _ _

theorem forall_mem_chatParts (lowercase : String → String) {P : String → Prop} (hnone : P "none")
    (hchat : P "chat") (hlower : ∀ p, P p → P (lowercase p)) (hparts : ∀ p ∈ parts, P p) :
    ∀ p ∈ chatParts lowercase parts, P p := by
  unfold chatParts
  split
  · intro p hp
    rcases List.mem_cons.mp hp with rfl | hp
    · exact hnone
    · rwa [List.mem_singleton.mp hp]
  · intro p hp
    rcases List.mem_cons.mp hp with rfl | hp
    · exact hlower _ (hparts _ List.mem_cons_self)
    · rwa [List.mem_singleton.mp hp]
  · intro p hp
    rcases List.mem_cons.mp hp with rfl | hp
    · exact hlower _ (hparts _ List.mem_cons_self)
    · exact hparts p (List.mem_cons_of_mem _ hp)

theorem chatParts_of_two (front : List String) (last : String) :
    chatParts lowercase (node :: (front ++ [last])) = lowercase node :: (front ++ [last]) := by
  cases front with
  | nil => rfl
  | cons p front => rfl

/-- An endpoint of at least two parts is its own normal form, if its last part does not end in white
space. -/
theorem normalizeChatTarget_endpoint_eq_iff (front : List String)
    (hfree : ∀ p ∈ node :: front, '/' ∉ p.toList)
    (hblank : ∀ p ∈ node :: front, Text.trim p ≠ "") (hnode : lowercase node = node)
    (hlast : '/' ∉ last.toList) (hlastBlank : Text.trim last ≠ "") :
    InternalStorage.normalizeChatTarget lowercase (endpoint (node :: (front ++ [last]))) =
        endpoint (node :: (front ++ [last])) ↔
      Text.trimEnd Text.isWhitespace last = last := by
  have hfreeWith : ∀ x : String, '/' ∉ x.toList →
      ∀ p ∈ node :: (front ++ [x]), '/' ∉ p.toList := by
    intro x hx p hp
    rw [← List.cons_append] at hp
    rcases List.mem_append.mp hp with hp | hp
    · exact hfree p hp
    · rwa [List.mem_singleton.mp hp]
  rw [← List.cons_append, normalizeChatTarget_endpoint hfree hlast hlastBlank, nonBlank_eq hblank,
    List.cons_append, List.cons_append, chatParts_of_two, hnode,
    endpoint_inj (hfreeWith _ (Text.notMem_trimEnd hlast)) (hfreeWith _ hlast)
      (List.cons_ne_nil _ _) (List.cons_ne_nil _ _)]
  simp only [List.cons.injEq, List.append_cancel_left_eq, true_and, and_true]

end Endpoint

theorem trim_chat : Text.trim "chat" ≠ "" := by decide

section Stable

variable {lowercase : String → String} (h : LawfulLowercase lowercase) {node : String}
include h

namespace LawfulLowercase

theorem notMem_slash (hnode : '/' ∉ node.toList) : '/' ∉ (lowercase node).toList := by
  have hsplit := h.split node
  rw [Text.split_of_notMem hnode, List.map_singleton] at hsplit
  apply Text.notMem_of_mem_split (s := lowercase node)
  rw [hsplit]
  exact List.mem_singleton_self _

theorem trim_ne_empty_iff (s : String) : Text.trim (lowercase s) ≠ "" ↔ Text.trim s ≠ "" := by
  rw [h.trim, ne_eq, h.eq_empty]

end LawfulLowercase

/-- When the normal form of a name with the scheme `dtn`, of these parts, is its own normal form. -/
theorem normalizeChatTarget_chatParts_iff {parts : List String}
    (hfree : ∀ p ∈ parts, '/' ∉ p.toList) (hblank : ∀ p ∈ parts, Text.trim p ≠ "") :
    InternalStorage.normalizeChatTarget lowercase (endpoint (chatParts lowercase parts)) =
        endpoint (chatParts lowercase parts) ↔
      ∀ last ∈ parts.tail.getLast?, Text.trimEnd Text.isWhitespace last = last := by
  have hone : ∀ {node : String}, '/' ∉ node.toList → Text.trim node ≠ "" → lowercase node = node →
      (InternalStorage.normalizeChatTarget lowercase (endpoint [node, "chat"]) =
        endpoint [node, "chat"] ↔ True) := by
    intro node hnode hnodeBlank hlower
    refine (normalizeChatTarget_endpoint_eq_iff [] ?_ ?_ hlower (by decide)
      trim_chat).trans ⟨fun _ => trivial, fun _ => by decide⟩
    · exact List.forall_mem_singleton.mpr hnode
    · exact List.forall_mem_singleton.mpr hnodeBlank
  match parts with
  | [] => exact (hone (by decide) (by decide) h.none).trans ⟨fun _ => nofun, fun _ => trivial⟩
  | [node] =>
    have hnode := h.notMem_slash (hfree node List.mem_cons_self)
    have hnodeBlank := (h.trim_ne_empty_iff node).mpr (hblank node List.mem_cons_self)
    exact (hone hnode hnodeBlank (h.idempotent node)).trans ⟨fun _ => nofun, fun _ => trivial⟩
  | node :: p :: service =>
    obtain ⟨front, last, hservice⟩ := List.eq_nil_or_concat' (p :: service) |>.resolve_left nofun
    rw [hservice] at hfree hblank ⊢
    rw [chatParts_of_two, List.tail_cons, List.getLast?_concat, normalizeChatTarget_endpoint_eq_iff]
    · exact ⟨fun hlast x hx => Option.some.inj hx ▸ hlast, fun hlast => hlast last rfl⟩
    · intro q hq
      rcases List.mem_cons.mp hq with rfl | hq
      · exact h.notMem_slash (hfree node List.mem_cons_self)
      · exact hfree q (List.mem_cons_of_mem node (List.mem_append_left _ hq))
    · intro q hq
      rcases List.mem_cons.mp hq with rfl | hq
      · exact (h.trim_ne_empty_iff node).mpr (hblank node List.mem_cons_self)
      · exact hblank q (List.mem_cons_of_mem node (List.mem_append_left _ hq))
    · exact h.idempotent node
    · exact hfree last (List.mem_cons_of_mem node (List.mem_append_right _ List.mem_cons_self))
    · exact hblank last (List.mem_cons_of_mem node (List.mem_append_right _ List.mem_cons_self))

/-- The normal form of a name without a scheme. -/
theorem normalizeChatTarget_bare {input : String} (hne : Text.trim input ≠ "")
    (hipn : Text.startsWith (Text.trim input) "ipn:" = false)
    (hdtn : Text.stripStart (Text.trim input) "dtn://" = none) :
    InternalStorage.normalizeChatTarget lowercase input =
      endpoint ((Text.split '/' (withoutSlashes (Text.trim input))).map lowercase ++ ["chat"]) := by
  have hsep : "/".toList = ['/'] := rfl
  unfold InternalStorage.normalizeChatTarget
  simp only [hne, hipn, hdtn, if_false, Bool.false_eq_true]
  rw [← h.split]
  show _ = "dtn://" ++ _
  rw [String.intercalate_append_of_ne_nil (Text.split_ne_nil _ _) (List.cons_ne_nil _ []),
    Text.intercalate_split hsep, String.intercalate_singleton, String.append_assoc,
    String.append_assoc]
  rfl

/-- The parts of a name without a scheme are kept when none of them is blank. -/
theorem normalizeChatTarget_map_iff {pieces : List String} (hne : pieces ≠ [])
    (hfree : ∀ p ∈ pieces, '/' ∉ p.toList) :
    InternalStorage.normalizeChatTarget lowercase (endpoint (pieces.map lowercase ++ ["chat"])) =
        endpoint (pieces.map lowercase ++ ["chat"]) ↔
      ∀ p ∈ pieces, Text.trim p ≠ "" := by
  have hmap : ∀ p ∈ pieces.map lowercase, '/' ∉ p.toList := by
    intro p hp
    obtain ⟨q, hq, rfl⟩ := List.mem_map.mp hp
    exact h.notMem_slash (hfree q hq)
  constructor
  · intro heq p hp hblank
    rw [normalizeChatTarget_endpoint hmap (by decide) trim_chat] at heq
    have hkept : ∀ q ∈ nonBlank (pieces.map lowercase) ++ [Text.trimEnd Text.isWhitespace "chat"],
        '/' ∉ q.toList ∧ Text.trim q ≠ "" := by
      intro q hq
      rcases List.mem_append.mp hq with hq | hq
      · exact ⟨hmap q (List.mem_filter.mp hq).1, of_decide_eq_true (List.mem_filter.mp hq).2⟩
      · rw [List.mem_singleton.mp hq]
        decide
    have hparts := forall_mem_chatParts lowercase (by decide) (by decide)
      (fun q hq => ⟨h.notMem_slash hq.1, (h.trim_ne_empty_iff q).mpr hq.2⟩) hkept
    have hall : ∀ q ∈ pieces.map lowercase ++ ["chat"], '/' ∉ q.toList := by
      intro q hq
      rcases List.mem_append.mp hq with hq | hq
      · exact hmap q hq
      · rw [List.mem_singleton.mp hq]
        decide
    rw [endpoint_inj (fun q hq => (hparts q hq).1) hall chatParts_ne_nil
      (List.append_ne_nil_of_right_ne_nil _ (List.cons_ne_nil _ []))] at heq
    rw [heq] at hparts
    have hlower := hparts _ (List.mem_append_left _ (List.mem_map_of_mem hp))
    exact (h.trim_ne_empty_iff p).mp hlower.2 hblank
  · intro hblank
    obtain ⟨node, rest, rfl⟩ := List.exists_cons_of_ne_nil hne
    rw [List.map_cons, List.cons_append]
    refine (normalizeChatTarget_endpoint_eq_iff _ (List.map_cons ▸ hmap) ?_ (h.idempotent node)
      (by decide) trim_chat).mpr (by decide)
    intro p hp
    rw [← List.map_cons] at hp
    obtain ⟨q, hq, rfl⟩ := List.mem_map.mp hp
    exact (h.trim_ne_empty_iff q).mpr (hblank q hq)

/-! ### The endpoint of a node -/

section Node

variable {Pattern Eid : Type} (eids : Eids Pattern Eid)

omit h in
theorem normalizePeerNode_ipn {number : String} (hnumber : '.' ∉ number.toList) :
    normalizePeerNode eids ("ipn:" ++ (number ++ ".0")) = "ipn:" ++ (number ++ ".0") := by
  have htrim : Text.trim ("ipn:" ++ (number ++ ".0")) = "ipn:" ++ (number ++ ".0") :=
    Text.trim_between (fun c hc => by cases hc; rfl) nofun (by decide) nofun
  have hne : "ipn:" ++ (number ++ ".0") ≠ "" := fun hnil =>
    nomatch (String.append_eq_empty_iff.mp hnil).1
  unfold normalizePeerNode
  simp only [htrim, hne, Text.stripStart_append, if_false]
  rw [Text.before_append hnumber rfl, String.append_assoc]

omit h in
theorem normalizePeerNode_dtn (hslash : '/' ∉ node.toList) (htrim : Text.trim node = node)
    (hlower : eids.lowercase node = node) :
    normalizePeerNode eids ("dtn://" ++ (node ++ "/")) = "dtn://" ++ (node ++ "/") := by
  have hends : Text.trim ("dtn://" ++ (node ++ "/")) = "dtn://" ++ (node ++ "/") :=
    Text.trim_between (fun c hc => by cases hc; rfl) nofun (by decide) nofun
  have hne : "dtn://" ++ (node ++ "/") ≠ "" := fun hnil =>
    nomatch (String.append_eq_empty_iff.mp hnil).1
  unfold normalizePeerNode
  simp only [hends, hne, stripStart_dtn_ipn, Text.stripStart_append, if_false]
  rw [Text.before_append hslash rfl, htrim, hlower, String.append_assoc]

/-- The endpoint of a node is its own, for every name that is not blank. -/
theorem normalizePeerNode_idempotent_iff (heids : eids.lowercase = lowercase) (input : String) :
    normalizePeerNode eids (normalizePeerNode eids input) = normalizePeerNode eids input ↔
      Text.trim input ≠ "" := by
  subst heids
  by_cases hne : Text.trim input = ""
  · have hnone : normalizePeerNode eids input = "dtn:none" := by
      unfold normalizePeerNode
      rw [if_pos hne]
    refine iff_of_false ?_ fun hblank => hblank hne
    rw [hnone]
    show "dtn://" ++ _ ++ "/" ≠ "dtn:none"
    rw [String.append_assoc]
    exact dtn_append_ne_none _
  refine iff_of_true ?_ hne
  cases hipn : Text.stripStart (Text.trim input) "ipn:" with
  | some rest =>
    have hout : normalizePeerNode eids input = "ipn:" ++ (Text.before '.' rest ++ ".0") := by
      unfold normalizePeerNode
      simp only [hne, hipn, if_false, String.append_assoc]
    rw [hout, normalizePeerNode_ipn eids (Text.notMem_before '.' rest)]
  | none =>
    obtain ⟨name, hout⟩ : ∃ name, normalizePeerNode eids input =
        "dtn://" ++ (eids.lowercase (Text.trim (Text.before '/' name)) ++ "/") := by
      unfold normalizePeerNode
      simp only [hne, hipn, if_false, String.append_assoc]
      exact ⟨_, rfl⟩
    have hslash : '/' ∉ (Text.trim (Text.before '/' name)).toList :=
      Text.notMem_trim (Text.notMem_before '/' name)
    rw [hout, normalizePeerNode_dtn eids (h.notMem_slash hslash) ?_ (h.idempotent _)]
    rw [h.trim, Text.trim_trim]

end Node

/-! ### The names that are stable -/

/-- The name is not blank.  After `dtn://`, white space does not end the service once the blank parts are
gone; in a name without a scheme, no part is blank. -/
def ChatStable (input : String) : Prop :=
  Text.trim input ≠ "" ∧
    (Text.startsWith (Text.trim input) "ipn:" = true ∨
      match Text.stripStart (Text.trim input) "dtn://" with
      | some stripped => ∀ last ∈ (nonBlank (Text.split '/' stripped)).tail.getLast?,
          Text.trimEnd Text.isWhitespace last = last
      | none => ∀ part ∈ Text.split '/' (withoutSlashes (Text.trim input)), Text.trim part ≠ "")

theorem normalizeChatTarget_idempotent_iff (input : String) :
    InternalStorage.normalizeChatTarget lowercase
          (InternalStorage.normalizeChatTarget lowercase input) =
        InternalStorage.normalizeChatTarget lowercase input ↔
      ChatStable input := by
  unfold ChatStable
  by_cases hne : Text.trim input = ""
  · have hnone : InternalStorage.normalizeChatTarget lowercase input = "dtn:none" := by
      unfold InternalStorage.normalizeChatTarget
      rw [if_pos hne]
    refine iff_of_false ?_ fun hstable => hstable.1 hne
    rw [hnone, normalizeChatTarget_bare h (by decide) (by decide) (by decide)]
    exact dtn_append_ne_none _
  by_cases hipn : Text.startsWith (Text.trim input) "ipn:" = true
  · have hsame : InternalStorage.normalizeChatTarget lowercase input = Text.trim input := by
      unfold InternalStorage.normalizeChatTarget
      simp only [hne, hipn, if_false, if_true]
    rw [hsame]
    refine iff_of_true ?_ ⟨hne, .inl hipn⟩
    unfold InternalStorage.normalizeChatTarget
    simp only [Text.trim_trim, hne, hipn, if_false, if_true]
  cases hdtn : Text.stripStart (Text.trim input) "dtn://" with
  | some stripped =>
    rw [normalizeChatTarget_dtn (Text.eq_of_stripStart hdtn), normalizeChatTarget_chatParts_iff h]
    · simp only [hne, hipn, ne_eq, not_false_eq_true, Bool.false_eq_true, false_or, true_and]
    · exact fun p hp => Text.notMem_of_mem_split (List.mem_filter.mp hp).1
    · exact fun p hp => of_decide_eq_true (List.mem_filter.mp hp).2
  | none =>
    rw [normalizeChatTarget_bare h hne (Bool.eq_false_iff.mpr hipn) hdtn,
      normalizeChatTarget_map_iff h (Text.split_ne_nil _ _) fun p hp => Text.notMem_of_mem_split hp]
    simp only [hne, hipn, ne_eq, not_false_eq_true, Bool.false_eq_true, false_or, true_and]

end Stable

section Names

variable {Pattern Eid : Type} (eids : Eids Pattern Eid) (input : String)

/-- The name refers to the conversation that is stored for `input`: it is the name the conversation is
stored under, or one with that normal form. -/
def RefersTo (name : String) : Prop :=
  let canonical := InternalStorage.normalizeChatTarget eids.lowercase input
  name = canonical ∨ InternalStorage.normalizeChatTarget eids.lowercase name = canonical

/-- The normal forms of a name are their own.  The conversation that is created for the name is the one
that the peer's names refer to, and so are the messages that are stored for it later. -/
structure StableNames : Prop where
  target : InternalStorage.normalizeChatTarget eids.lowercase
      (InternalStorage.normalizeChatTarget eids.lowercase input) =
    InternalStorage.normalizeChatTarget eids.lowercase input
  node : normalizePeerNode eids (normalizePeerNode eids input) = normalizePeerNode eids input
  creates : ∀ (s : InternalStorage) (f : Faults) (createdAt now : String), f.database = false →
    s.chatMessages.rows.length < 2 ^ 32 →
    ∃ summary, (s.createConversation f eids.lowercase input createdAt now).1 = .ok summary
  created : ∀ (s : InternalStorage) (f : Faults) (createdAt now : String) summary s',
    s.createConversation f eids.lowercase input createdAt now = (.ok summary, s') →
    summary.peer = InternalStorage.normalizeChatTarget eids.lowercase input ∧
      (s'.chatConversations.get summary.peer).isSome ∧
      ∀ name later, RefersTo eids input name →
        s'.getConversationSummary eids.lowercase name later = .ok summary
  followed : ∀ (s : InternalStorage) (f : Faults) m s',
    m.conversationPeer = InternalStorage.normalizeChatTarget eids.lowercase input →
    s.insertChatMessage f m = .ok s' → ∀ name later summary, RefersTo eids input name →
      s'.getConversationSummary eids.lowercase name later = .ok summary →
      summary.peer = m.conversationPeer ∧ summary.lastMessage = m.content ∧
        summary.lastDirection = m.direction ∧ summary.lastStatus = m.status ∧
        summary.lastTimestamp = m.timestamp ∧ summary.lastCreatedAt = m.createdAt

/-- The names of a peer are stable exactly when the normal form has nothing left to drop: no blank name,
no blank part of a name without a scheme, no white space at the end of the service. -/
theorem stableNames_iff (h : LawfulLowercase eids.lowercase) :
    StableNames eids input ↔ ChatStable input := by
  constructor
  · intro hstable
    exact (normalizeChatTarget_idempotent_iff h input).mp hstable.target
  intro hchat
  have htarget := (normalizeChatTarget_idempotent_iff h input).mpr hchat
  have hrefers : ∀ {name}, RefersTo eids input name →
      InternalStorage.normalizeChatTarget eids.lowercase name =
        InternalStorage.normalizeChatTarget eids.lowercase input := by
    rintro name (rfl | hname)
    · exact htarget
    · exact hname
  refine {
    target := htarget
    node := (normalizePeerNode_idempotent_iff h eids rfl input).mpr hchat.1
    creates := ?_
    created := ?_
    followed := ?_ }
  · intro s f createdAt now hdb hfew
    exact InternalStorage.exists_createConversation hdb hfew
  · intro s f createdAt now summary s' hcreate
    obtain ⟨hrow, hsummary⟩ := InternalStorage.createConversation_ok hcreate
    have hpeer := InternalStorage.getConversationSummary_peer hsummary
    rw [htarget] at hpeer
    refine ⟨hpeer, hpeer ▸ hrow, fun name later hname => ?_⟩
    rw [← hsummary]
    refine InternalStorage.getConversationSummary_congr ?_ (htarget.symm ▸ hrow)
    rw [hrefers hname, htarget]
  · intro s f m s' hm hinsert name later summary hname hsummary
    obtain ⟨hrow, hlast⟩ := InternalStorage.insertChatMessage_ok hinsert
    rw [hm, ← hrefers hname] at hrow hlast
    obtain ⟨c, hrow⟩ := Option.isSome_iff_exists.mp hrow
    refine ⟨?_, ?_⟩
    · rw [InternalStorage.getConversationSummary_peer hsummary, hrefers hname, hm]
    · rw [InternalStorage.getConversationSummary_some hrow] at hsummary
      exact ConversationSummary.ofRow_last hlast hsummary

end Names

/-! ### Lower case in ASCII -/

def asciiLowercase : String → String := Text.map Char.toLower

theorem toNat_of_isUpper {c : Char} (h : c.isUpper = true) : 65 ≤ c.toNat ∧ c.toNat ≤ 90 := by
  unfold Char.isUpper at h
  simp only [ge_iff_le, decide_eq_true_eq, UInt32.le_iff_toNat_le] at h
  exact h

theorem isWhitespace_toLower (c : Char) : Text.isWhitespace c.toLower = Text.isWhitespace c := by
  by_cases h : c.isUpper = true
  · have hc := toNat_of_isUpper h
    have hlower : c.toLower.toNat = c.toNat + 32 := by
      rw [Char.toLower_eq_of_isUpper h, Char.toNat_ofNat, if_pos]
      show c.toNat + 32 < 0xD800 ∨ _
      omega
    unfold Text.isWhitespace
    rw [hlower]
    grind
  · rw [Char.toLower_eq_of_not_isUpper h]

theorem toLower_eq_slash_iff (c : Char) : c.toLower = '/' ↔ c = '/' := by
  by_cases h : c.isUpper = true
  · have halpha : c.toLower.isAlpha = true := by
      rw [Char.isAlpha_toLower_eq_isAlpha, Char.isAlpha, h, Bool.true_or]
    constructor
    · intro heq
      rw [heq] at halpha
      cases halpha
    · rintro rfl
      cases h
  · rw [Char.toLower_eq_of_not_isUpper h]

theorem lawfulLowercase_ascii : LawfulLowercase asciiLowercase where
  idempotent := Text.map_map Char.toLower_toLower_eq_toLower
  split := Text.split_map toLower_eq_slash_iff
  trim := Text.trim_map isWhitespace_toLower
  eq_empty := Text.map_eq_empty_iff
  none := by decide

/-- A station without routes, with names in ASCII. -/
def asciiEids : Eids Unit Unit where
  parsePattern _ := none
  parseEid _ := none
  null := ()
  lowercase := asciiLowercase

theorem stableNames_iff_callsign : StableNames asciiEids "F4JXQ-9" :=
  (stableNames_iff asciiEids "F4JXQ-9" lawfulLowercase_ascii).mpr
    ⟨by decide, .inr (show ∀ part ∈ Text.split '/' "F4JXQ-9", Text.trim part ≠ "" by decide)⟩

/-- The conversation with `dtn://a/b /` is stored under `dtn://a/b `, and its summary is looked up under
`dtn://a/b`. -/
theorem service_before_blank_not_stable : ¬ StableNames asciiEids "dtn://a/b /" := by
  intro h
  have hstored : InternalStorage.normalizeChatTarget asciiLowercase "dtn://a/b /" = "dtn://a/b " := by
    decide
  have hlooked : InternalStorage.normalizeChatTarget asciiLowercase "dtn://a/b " = "dtn://a/b" := by
    decide
  have htarget := h.target
  rw [show asciiEids.lowercase = asciiLowercase from rfl, hstored, hlooked] at htarget
  revert htarget
  decide

end HdyUtils.Ham
