import HdyUtils.Lib.Tables
import HdyUtils.Lib.Text
import HdyUtils.Security.Hardy

/-! The storage of the internal services of a station (`internal_storage.rs`), and the files and chat
services that deliver into it (`files_service.rs`, `chat_service.rs`).  A file is a row of the
database and a payload file, whose name is made from the id of its bundle. -/

namespace HdyUtils.Ham

open Security

/-! ### The storage -/

structure ChatMessage where
  id : String
  conversationPeer : String
  senderEid : String
  recipientEid : String
  content : String
  direction : String
  status : String
  isRead : Bool
  isSticky : Bool
  timestamp : Int64
  expiryTimestamp : Int64
  createdAt : String

structure FileBundleRecord where
  id : String
  sourceEid : String
  destinationEid : String
  creationTimestamp : Int64
  lifetimeSecs : UInt64
  expiryTimestamp : Int64
  size : Nat
  payloadPath : String
  mimeType : String
  isSticky : Bool
  isRead : Bool
  createdAt : String

structure Conversation where
  peer : String
  createdAt : String

structure InternalStorage where
  filesDir : String
  chatConversations : Table Conversation Conversation.peer
  chatMessages : Table ChatMessage ChatMessage.id
  filesBundles : Table FileBundleRecord FileBundleRecord.id
  /-- The files of the disk. -/
  disk : String → Option Bytes

/-- How the write of a file ends: well, or before it, or after some of the octets. -/
inductive Write
  | done
  | refused
  | cut (written : Nat)
deriving DecidableEq

/-- What goes wrong during a call: the write of a file, the removal of files, and the changes of the
database. -/
structure Faults where
  write : Write
  stuck : String → Bool
  database : Bool

inductive StorageError
  | database
  | missing (message : String)

/-- A JSON value, as far as its type is inferred. -/
inductive Json
  | array (items : List Json)
  | object (members : List (String × Json))
  | scalar

/-- The value is an object with this member. -/
def Json.has (value : Json) (member : String) : Bool :=
  match value with
  | .object members => members.any fun m => m.1 = member
  | _ => false

/-- What the services take from the platform and the crates they use. -/
structure Platform (E : Type) where
  hardy : Hardy E
  isNull : E → Bool
  toKey : PrimaryBlock E → String
  rfc3339 : Int → String
  isAlphanumeric : Char → Bool
  lowercase : String → String
  fromUtf8Lossy : Bytes → String
  parseJson : String → Option Json

/-- What a write leaves in the file, if it changes it. -/
def Write.left (write : Write) (payload : Bytes) : Option Bytes :=
  match write with
  | .done => some payload
  | .refused => none
  | .cut written => some (payload.take written)

namespace InternalStorage

variable (s : InternalStorage) (f : Faults)

/-- Normalizes a target into a chat service endpoint. -/
def normalizeChatTarget (lowercase : String → String) (input : String) : String :=
  let trimmed := Text.trim input
  if trimmed = "" then "dtn:none"
  else if Text.startsWith trimmed "ipn:" then trimmed
  else
    match Text.stripStart trimmed "dtn://" with
    | some stripped =>
      match (Text.split '/' stripped).filter fun part => Text.trim part ≠ "" with
      | [] => "dtn://none/chat"
      | [node] => "dtn://" ++ lowercase node ++ "/chat"
      | node :: service => "dtn://" ++ lowercase node ++ "/" ++ "/".intercalate service
    | none => "dtn://" ++ lowercase (Text.trimEnd (· = '/') (Text.trimStart (· = '/') trimmed)) ++ "/chat"

def insertChatMessage (msg : ChatMessage) : Except StorageError InternalStorage :=
  if f.database then .error .database
  else .ok { s with
    chatConversations := s.chatConversations.insertOrIgnore ⟨msg.conversationPeer, msg.createdAt⟩
    chatMessages := s.chatMessages.insertOrReplace msg }

def markConversationRead (lowercase : String → String) (peer : String) :
    Except StorageError InternalStorage :=
  let norm := normalizeChatTarget lowercase peer
  if f.database then .error .database
  else .ok { s with
    chatMessages := s.chatMessages.update (fun m => m.conversationPeer = norm && !m.isRead)
      (fun m => { m with isRead := true }) fun _ => rfl }

/-- Toggles the sticky retention flag for a chat message. -/
def toggleChatSticky (id : String) : Except StorageError (Bool × InternalStorage) :=
  match s.chatMessages.get id with
  | none => .error (.missing "Chat message not found")
  | some m =>
    let next := !m.isSticky
    if f.database then .error .database
    else .ok (next, { s with
      chatMessages := s.chatMessages.update (fun m => m.id = id)
        (fun m => { m with isSticky := next }) fun _ => rfl })

def insertFileBundle (bundle : FileBundleRecord) : Except StorageError InternalStorage :=
  if f.database then .error .database
  else .ok { s with filesBundles := s.filesBundles.insertOrReplace bundle }

/-- Toggles the sticky retention flag for a file bundle. -/
def toggleFileSticky (id : String) : Except StorageError (Bool × InternalStorage) :=
  match s.filesBundles.get id with
  | none => .error (.missing "File bundle not found")
  | some row =>
    let next := !row.isSticky
    if f.database then .error .database
    else .ok (next, { s with
      filesBundles := s.filesBundles.update (fun row => row.id = id)
        (fun row => { row with isSticky := next }) fun _ => rfl })

def markFileRead (id : String) : Except StorageError InternalStorage :=
  if f.database then .error .database
  else .ok { s with
    filesBundles := s.filesBundles.update (fun row => row.id = id)
      (fun row => { row with isRead := true }) fun _ => rfl }

/-- Removes the files at some paths, except those that cannot be removed. -/
def removeFiles (paths : List String) : InternalStorage :=
  { s with disk := fun path => if path ∈ paths ∧ f.stuck path = false then none else s.disk path }

/-- Deletes a file bundle and removes its payload file from disk. -/
def deleteFileBundle (id : String) : Except StorageError Bool × InternalStorage :=
  match s.filesBundles.get id with
  | none => (.ok false, s)
  | some row =>
    let removed := s.removeFiles f [row.payloadPath]
    if f.database then (.error .database, removed)
    else (.ok true, { removed with filesBundles := s.filesBundles.delete fun row => row.id = id })

/-- The condition of the purge: `is_sticky = 0 AND expiry_timestamp > 0 AND expiry_timestamp <= now`. -/
def expired (nowMs : Int64) (isSticky : Bool) (expiryTimestamp : Int64) : Bool :=
  !isSticky && 0 < expiryTimestamp && expiryTimestamp ≤ nowMs

def expiredFiles (nowMs : Int64) : List FileBundleRecord :=
  s.filesBundles.rows.filter fun row => expired nowMs row.isSticky row.expiryTimestamp

/-- Purges all non-sticky bundles and messages that have expired. -/
def purgeExpired (nowMs : Int64) : Except StorageError Nat × InternalStorage :=
  let removed := s.removeFiles f ((s.expiredFiles nowMs).map (·.payloadPath))
  if f.database then (.error .database, removed)
  else
    let files := s.filesBundles.delete fun row => expired nowMs row.isSticky row.expiryTimestamp
    let chats := s.chatMessages.delete fun m => expired nowMs m.isSticky m.expiryTimestamp
    (.ok (s.filesBundles.rows.length - files.rows.length +
        (s.chatMessages.rows.length - chats.rows.length)),
      { removed with filesBundles := files, chatMessages := chats })

/-! ### What the calls change -/

variable {s f}

theorem disk_removeFiles (paths : List String) (path : String) :
    (s.removeFiles f paths).disk path =
      if path ∈ paths ∧ f.stuck path = false then none else s.disk path := rfl

theorem deleteFileBundle_missing {id : String} (h : s.filesBundles.get id = none) :
    (s.deleteFileBundle f id).2 = s := by
  simp only [deleteFileBundle, h]

theorem deleteFileBundle_chats (id : String) :
    (s.deleteFileBundle f id).2.chatMessages = s.chatMessages := by
  unfold deleteFileBundle
  repeat' split
  all_goals rfl

theorem deleteFileBundle_get (s : InternalStorage) (f : Faults) (id id' : String) :
    (s.deleteFileBundle f id).2.filesBundles.get id' =
      if id' = id ∧ f.database = false then none else s.filesBundles.get id' := by
  unfold deleteFileBundle
  cases hrow : s.filesBundles.get id with
  | none =>
    by_cases heq : id' = id
    · simp [heq, hrow]
    · simp [heq]
  | some row =>
    cases f.database with
    | true => simp [removeFiles]
    | false =>
      simp only [Bool.false_eq_true, if_false, Table.get_delete]
      cases hrow' : s.filesBundles.get id' with
      | none => simp
      | some row' =>
        have hid := Table.key_of_get hrow'
        by_cases heq : id' = id <;> simp [Option.filter, hid, heq]

theorem deleteFileBundle_disk (f : Faults) {id : String} {row : FileBundleRecord}
    (h : s.filesBundles.get id = some row) (path : String) :
    (s.deleteFileBundle f id).2.disk path =
      if path = row.payloadPath ∧ f.stuck path = false then none else s.disk path := by
  simp only [deleteFileBundle, h]
  split <;> simp [disk_removeFiles]

theorem purgeExpired_files {nowMs : Int64} {id : String} {row : FileBundleRecord} :
    (s.purgeExpired f nowMs).2.filesBundles.get id = some row ↔ s.filesBundles.get id = some row ∧
      (f.database = true ∨ expired nowMs row.isSticky row.expiryTimestamp = false) := by
  unfold purgeExpired
  simp only
  cases f.database with
  | true => simp [removeFiles]
  | false => simp [Table.get_delete, Option.filter_eq_some_iff]

theorem purgeExpired_chats {nowMs : Int64} {id : String} {m : ChatMessage} :
    (s.purgeExpired f nowMs).2.chatMessages.get id = some m ↔ s.chatMessages.get id = some m ∧
      (f.database = true ∨ expired nowMs m.isSticky m.expiryTimestamp = false) := by
  unfold purgeExpired
  simp only
  cases f.database with
  | true => simp [removeFiles]
  | false => simp [Table.get_delete, Option.filter_eq_some_iff]

theorem purgeExpired_disk (s : InternalStorage) (f : Faults) (nowMs : Int64) (path : String) :
    (s.purgeExpired f nowMs).2.disk path =
      if (∃ row ∈ s.expiredFiles nowMs, row.payloadPath = path) ∧ f.stuck path = false then none
      else s.disk path := by
  unfold purgeExpired
  simp only
  split <;> simp [disk_removeFiles]

@[simp] theorem expired_sticky (nowMs expiryTimestamp : Int64) :
    expired nowMs true expiryTimestamp = false := rfl

theorem mem_expiredFiles {nowMs : Int64} {row : FileBundleRecord} :
    row ∈ s.expiredFiles nowMs ↔ s.filesBundles.get row.id = some row ∧
      expired nowMs row.isSticky row.expiryTimestamp = true := by
  rw [expiredFiles, List.mem_filter, Table.get_eq_some_iff, and_iff_left rfl]

end InternalStorage

/-! ### The services -/

section Services

variable {E : Type} (p : Platform E)

/-- The octets of an ASCII text. -/
def ascii (text : String) : Bytes := text.toList.map fun c => c.toNat.toUInt8

/-- The type of a payload (`bundle_inspector.rs`), and whether it is binary. -/
def inferMimeType (data : Bytes) : String × Bool :=
  if data = [] then ("text/plain", false)
  else if data.take 8 = [0x89] ++ ascii "PNG\r\n\x1a\n" then ("image/png", true)
  else if data.take 3 = [0xFF, 0xD8, 0xFF] then ("image/jpeg", true)
  else if data.take 6 = ascii "GIF87a" || data.take 6 = ascii "GIF89a" then ("image/gif", true)
  else if data.take 4 = ascii "RIFF" && (data.drop 8).take 4 = ascii "WEBP" then ("image/webp", true)
  else if data.take 4 = ascii "RIFF" && (data.drop 8).take 4 = ascii "WAVE" then ("audio/wav", true)
  else if data.take 4 = ascii "OggS" then
    let packetOffset := 27 + (data.getD 26 0).toNat
    if 36 ≤ data.length && (data.drop packetOffset).take 8 = ascii "OpusHead" then
      ("audio/ogg; codecs=opus", true)
    else ("audio/ogg", true)
  else if data.take 3 = ascii "ID3" || data.head? = some 0xFF &&
      data.length ≥ 2 && data.getD 1 0 &&& 0xE0 = 0xE0 then
    ("audio/mpeg", true)
  else
    match String.fromUTF8? ⟨data.toArray⟩ with
    | some text =>
      match p.parseJson text with
      | some value =>
        let isSenml :=
          match value with
          | .array items => items.any fun item => item.has "n" || item.has "v" || item.has "bn"
          | .object _ => value.has "bn" || value.has "n" || value.has "e"
          | .scalar => false
        if isSenml then ("application/senml+json", false) else ("application/json", false)
      | none =>
        -- the last of these is the backquote
        if text.toList.any fun c => c = '#' || c = '*' || c = '[' || c.toNat = 96 then
          ("text/markdown", false)
        else ("text/plain", false)
    | none => ("application/octet-stream", true)

/-- The extension of the payload file. -/
def fileExtension (mimeType : String) : String :=
  if mimeType = "text/markdown" then "md"
  else if mimeType = "text/plain" then "txt"
  else if mimeType = "application/json" then "json"
  else if mimeType = "application/senml+json" then "senml.json"
  else if mimeType = "image/png" then "png"
  else if mimeType = "image/jpeg" then "jpg"
  else if mimeType = "image/gif" then "gif"
  else if mimeType = "image/webp" then "webp"
  else if mimeType = "audio/wav" then "wav"
  else if mimeType = "audio/mpeg" then "mp3"
  else if Text.startsWith mimeType "audio/ogg" then "ogg"
  else if Text.startsWith mimeType "audio/webm" then "webm"
  else "bin"

/-- The bundle id as a file name. -/
def safeName (bundleId : String) : String :=
  String.ofList (bundleId.toList.map fun c =>
    if p.isAlphanumeric c || c = '-' || c = '_' then c else '_')

/-- What both services take from a bundle that is delivered: its fields and its payload.  Bundles
without a source, administrative records and bundles without payload are ignored. -/
def deliveredBundle (data : Bytes) : Option (PrimaryBlock E × Bytes) :=
  match p.hardy.parse data with
  | .error _ => none
  | .ok parsed =>
    let primary := parsed.bundle.primary
    if p.isNull primary.source || primary.flags &&& 2 ≠ 0 then none
    else parsed.payload.map fun payload => (primary, payload)

/-- The creation time of a bundle in milliseconds, its lifetime in seconds, and its expiry, which wraps
around. -/
def bundleTimes (primary : PrimaryBlock E) (now : Int) : Int64 × UInt64 × Int64 :=
  let creation := Int64.ofInt ((primary.timestamp.datetime.getD now).tdiv 1000000)
  let lifetimeSecs := UInt64.ofNat (primary.lifetime / Duration.fromSecs 1)
  (creation, lifetimeSecs, creation + lifetimeSecs.toInt64 * 1000)

namespace FilesService

/-- The path of the payload file of a bundle. -/
def payloadPath (filesDir bundleId : String) (payload : Bytes) : String :=
  filesDir ++ "/" ++ (safeName p bundleId ++ "." ++ fileExtension (inferMimeType p payload).1)

/-- The record of a bundle. -/
def record (filesDir : String) (primary : PrimaryBlock E) (payload : Bytes) (now : Int) :
    FileBundleRecord :=
  let (creation, lifetimeSecs, expiry) := bundleTimes primary now
  { id := p.toKey primary
    sourceEid := p.hardy.eidString primary.source
    destinationEid := p.hardy.eidString primary.destination
    creationTimestamp := creation
    lifetimeSecs := lifetimeSecs
    expiryTimestamp := expiry
    size := payload.length
    payloadPath := payloadPath p filesDir (p.toKey primary) payload
    mimeType := (inferMimeType p payload).1
    isSticky := false
    isRead := false
    createdAt := p.rfc3339 (primary.timestamp.datetime.getD now) }

/-- Writes the payload file of a delivered bundle, and then its row.  A file that cannot be written,
or a row that cannot be inserted, is logged. -/
def handleDeliveredBundle (s : InternalStorage) (f : Faults) (data : Bytes) (now : Int) :
    InternalStorage :=
  match deliveredBundle p data with
  | none => s
  | some (primary, payload) =>
    let row := record p s.filesDir primary payload now
    let written :=
      match f.write.left payload with
      | some content => { s with disk := Function.update s.disk row.payloadPath (some content) }
      | none => s
    if f.write = .done then
      match written.insertFileBundle f row with
      | .ok stored => stored
      | .error _ => written
    else written

variable {p} (s : InternalStorage) (f : Faults) (now : Int) {data : Bytes} {primary : PrimaryBlock E}
  {payload : Bytes}

theorem handleDelivered_ignored (h : deliveredBundle p data = none) :
    handleDeliveredBundle p s f data now = s := by
  simp only [handleDeliveredBundle, h]

theorem handleDelivered_chats (data : Bytes) : (handleDeliveredBundle p s f data now).filesDir = s.filesDir ∧
    (handleDeliveredBundle p s f data now).chatMessages = s.chatMessages := by
  unfold handleDeliveredBundle InternalStorage.insertFileBundle
  split
  · exact ⟨rfl, rfl⟩
  · cases f.write <;> cases f.database <;> exact ⟨rfl, rfl⟩

theorem handleDelivered_disk (h : deliveredBundle p data = some (primary, payload)) (path : String) :
    (handleDeliveredBundle p s f data now).disk path =
      if path = payloadPath p s.filesDir (p.toKey primary) payload then
        (f.write.left payload).elim (s.disk path) some
      else s.disk path := by
  simp only [handleDeliveredBundle, h, InternalStorage.insertFileBundle]
  cases f.write <;> cases f.database <;> simp [Write.left, Function.update_apply, record]

theorem handleDelivered_get (h : deliveredBundle p data = some (primary, payload)) (id : String) :
    (handleDeliveredBundle p s f data now).filesBundles.get id =
      if f.write = .done ∧ f.database = false ∧ p.toKey primary = id then
        some (record p s.filesDir primary payload now)
      else s.filesBundles.get id := by
  have hid : (record p s.filesDir primary payload now).id = p.toKey primary := rfl
  simp only [handleDeliveredBundle, h, InternalStorage.insertFileBundle]
  cases f.write <;> cases f.database <;> simp [Write.left, Table.get_insertOrReplace, hid]

end FilesService

namespace ChatService

/-- The message of a bundle. -/
def message (primary : PrimaryBlock E) (payload : Bytes) (now : Int) : ChatMessage :=
  let (creation, _, expiry) := bundleTimes primary now
  { id := p.toKey primary
    conversationPeer :=
      InternalStorage.normalizeChatTarget p.lowercase (p.hardy.eidString primary.source)
    senderEid := p.hardy.eidString primary.source
    recipientEid := p.hardy.eidString primary.destination
    content := p.fromUtf8Lossy payload
    direction := "inbound"
    status := "received"
    isRead := false
    isSticky := false
    timestamp := creation
    expiryTimestamp := expiry
    createdAt := p.rfc3339 (primary.timestamp.datetime.getD now) }

def handleDeliveredBundle (s : InternalStorage) (f : Faults) (data : Bytes) (now : Int) :
    InternalStorage :=
  match deliveredBundle p data with
  | none => s
  | some (primary, payload) =>
    match s.insertChatMessage f (message p primary payload now) with
    | .ok stored => stored
    | .error _ => s

variable {p} (s : InternalStorage) (f : Faults) (now : Int) {data : Bytes} {primary : PrimaryBlock E}
  {payload : Bytes}

theorem handleDelivered_ignored (h : deliveredBundle p data = none) :
    handleDeliveredBundle p s f data now = s := by
  simp only [handleDeliveredBundle, h]

theorem handleDelivered_files (data : Bytes) : (handleDeliveredBundle p s f data now).filesDir = s.filesDir ∧
    (handleDeliveredBundle p s f data now).filesBundles = s.filesBundles ∧
    (handleDeliveredBundle p s f data now).disk = s.disk := by
  unfold handleDeliveredBundle InternalStorage.insertChatMessage
  split
  · exact ⟨rfl, rfl, rfl⟩
  · cases f.database <;> exact ⟨rfl, rfl, rfl⟩

theorem handleDelivered_get (h : deliveredBundle p data = some (primary, payload)) (id : String) :
    (handleDeliveredBundle p s f data now).chatMessages.get id =
      if f.database = false ∧ p.toKey primary = id then some (message p primary payload now)
      else s.chatMessages.get id := by
  have hid : (message p primary payload now).id = p.toKey primary := rfl
  simp only [handleDeliveredBundle, h, InternalStorage.insertChatMessage]
  cases f.database <;> simp [Table.get_insertOrReplace, hid]

end ChatService

end Services

end HdyUtils.Ham
