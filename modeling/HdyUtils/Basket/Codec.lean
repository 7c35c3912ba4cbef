import HdyUtils.Lib.Cbor

/-! Requests and responses of the basket service, and their CBOR encoding (`basket.rs`).  The octets
of a message stand as the tokens that `hardy_cbor` writes and reads. -/

namespace HdyUtils.Basket

open Cbor

structure RequestItem where
  /-- 0 is GET, 1 CHECK, 2 SEARCH, 3 CANCEL and 4 LIST. -/
  op : UInt64
  uri : String
  maxSize : Option UInt64
  acceptedFormats : Option (List String)
  haveHashes : Option (List (List UInt8))
  ifModifiedSince : Option UInt64
  lifetimeOverride : Option UInt64
deriving DecidableEq, Repr

structure BasketRequest where
  experimentTag : Option UInt64
  version : UInt64
  reqId : String
  replyTo : Option String
  defaultLifetime : Option UInt64
  items : List RequestItem
deriving DecidableEq, Repr

structure ItemMetadata where
  hash : List UInt8
  size : Option UInt64
  mimeType : Option String
  uri : Option String
  lastModified : Option UInt64
deriving DecidableEq, Repr

structure ItemResponse where
  itemIdx : UInt64
  coapStatus : UInt8
  metadata : Option ItemMetadata
  diagnostic : Option String
deriving DecidableEq, Repr

structure BasketResponse where
  experimentTag : Option UInt64
  version : UInt64
  reqId : String
  items : List ItemResponse
deriving DecidableEq, Repr

def cborSkipDepthLimit : Nat := 10

/-- The tag that messages are sent under. -/
def basketTag : UInt64 := 44444

def cborBytes : Reader (List UInt8) := do
  match ← parseValue with
  | ([], .bytes data) => return data
  | ([], .byteStream chunks) => return chunks.flatten
  | ([], _) => throw (.incorrectType "Bytes")
  | (_ :: _, _) => throw .unexpectedTag

def parseCborTextValue (tags : List UInt64) (value : Token) : Except Error String :=
  match tags, value with
  | [], .text s => .ok s
  | [], .textStream parts => .ok (String.join parts)
  | [], _ => .error (.incorrectType "Text")
  | _ :: _, _ => .error .unexpectedTag

def cborString : Reader String := do
  let (tags, value) ← parseValue
  parseCborTextValue tags value

def cborFormat : Reader String := do
  match ← parseValue with
  | (_, .uint n) => return toString n
  | (_, .text s) => return s
  | _ => throw (.incorrectType "Uint or Text")

def hexDigit (n : Nat) : Char := ("0123456789abcdef".toList).getD n '0'

def hexEncode (data : List UInt8) : String :=
  String.ofList (data.flatMap fun b => [hexDigit (b.toNat / 16), hexDigit (b.toNat % 16)])

def cborReqId : Reader String := do
  match ← parseValue with
  | (tags, .text s) => parseCborTextValue tags (.text s)
  | (tags, .textStream parts) => parseCborTextValue tags (.textStream parts)
  | (_, .bytes data) => return hexEncode data
  | (_, .byteStream chunks) => return hexEncode chunks.flatten
  | _ => throw (.incorrectType "Text or Bytes")

/-- One entry of a request item's map. -/
def RequestItem.entry (item : RequestItem) : Reader RequestItem := do
  match ← u64 with
  | 0 => return { item with op := ← u64 }
  | 1 => return { item with uri := ← cborString }
  | 2 => return { item with maxSize := some (← u64) }
  | 3 => return { item with acceptedFormats := some (← array cborFormat) }
  | 4 => return { item with haveHashes := some (← array cborBytes) }
  | 5 => return { item with ifModifiedSince := some (← u64) }
  | 6 => return { item with lifetimeOverride := some (← u64) }
  | _ =>
    skipValue cborSkipDepthLimit
    return item

def RequestItem.fromCbor : Reader RequestItem :=
  map RequestItem.entry fun _ =>
    { op := 0, uri := "", maxSize := none, acceptedFormats := none, haveHashes := none,
      ifModifiedSince := none, lifetimeOverride := none }

/-- What the entries of a request's map have given so far. -/
structure BasketRequest.Fields where
  experimentTag : Option UInt64
  version : Option UInt64 := none
  reqId : Option String := none
  replyTo : Option String := none
  defaultLifetime : Option UInt64 := none
  items : List RequestItem := []

def experimentTagOf (tags : List UInt64) : Option UInt64 :=
  if tags.contains basketTag then some basketTag else none

/-- One entry of a request's map.  The value of the experiment tag is read and dropped. -/
def BasketRequest.entry (fields : BasketRequest.Fields) : Reader BasketRequest.Fields := do
  match ← i64 with
  | -1 =>
    let _ ← u64
    return fields
  | 0 => return { fields with version := some (← u64) }
  | 1 => return { fields with reqId := some (← cborReqId) }
  | 2 => return { fields with replyTo := some (← cborString) }
  | 3 => return { fields with defaultLifetime := some (← u64) }
  | 4 => return { fields with items := fields.items ++ (← array RequestItem.fromCbor) }
  | _ =>
    skipValue cborSkipDepthLimit
    return fields

def BasketRequest.fromCbor : Reader BasketRequest := do
  let fields ← map BasketRequest.entry fun tags => { experimentTag := experimentTagOf tags }
  match fields.version, fields.reqId with
  | some version, some reqId =>
    return { experimentTag := fields.experimentTag, version, reqId, replyTo := fields.replyTo,
             defaultLifetime := fields.defaultLifetime, items := fields.items }
  | _, _ => throw .partialMap

def ItemMetadata.entry (metadata : ItemMetadata) : Reader ItemMetadata := do
  match ← u64 with
  | 0 => return { metadata with hash := ← cborBytes }
  | 1 => return { metadata with size := some (← u64) }
  | 2 => return { metadata with mimeType := some (← cborString) }
  | 3 => return { metadata with uri := some (← cborString) }
  | 4 => return { metadata with lastModified := some (← u64) }
  | _ =>
    skipValue cborSkipDepthLimit
    return metadata

def ItemMetadata.fromCbor : Reader ItemMetadata :=
  map ItemMetadata.entry fun _ =>
    { hash := [], size := none, mimeType := none, uri := none, lastModified := none }

/-- A value as an octet, where it is one. -/
def u8TryFrom (n : UInt64) : Except Error UInt8 :=
  if n.toNat < 256 then .ok n.toUInt8 else .error .outOfRange

def ItemResponse.entry (item : ItemResponse) : Reader ItemResponse := do
  match ← u64 with
  | 0 => return { item with itemIdx := ← u64 }
  | 1 => return { item with coapStatus := ← u8TryFrom (← u64) }
  | 2 => return { item with metadata := some (← ItemMetadata.fromCbor) }
  | 3 => return { item with diagnostic := some (← cborString) }
  | _ =>
    skipValue cborSkipDepthLimit
    return item

def ItemResponse.fromCbor : Reader ItemResponse :=
  map ItemResponse.entry fun _ =>
    { itemIdx := 0, coapStatus := 0, metadata := none, diagnostic := none }

/-- What the entries of a response's map have given so far. -/
structure BasketResponse.Fields where
  experimentTag : Option UInt64
  version : Option UInt64 := none
  reqId : Option String := none
  items : List ItemResponse := []

/-- One entry of a response's map.  The value of the experiment tag is read and dropped. -/
def BasketResponse.entry (fields : BasketResponse.Fields) : Reader BasketResponse.Fields := do
  match ← i64 with
  | -1 =>
    let _ ← u64
    return fields
  | 0 => return { fields with version := some (← u64) }
  | 1 => return { fields with reqId := some (← cborReqId) }
  | 2 => return { fields with items := fields.items ++ (← array ItemResponse.fromCbor) }
  | _ =>
    skipValue cborSkipDepthLimit
    return fields

def BasketResponse.fromCbor : Reader BasketResponse := do
  let fields ← map BasketResponse.entry fun tags => { experimentTag := experimentTagOf tags }
  match fields.version, fields.reqId with
  | some version, some reqId =>
    return { experimentTag := fields.experimentTag, version, reqId, items := fields.items }
  | _, _ => throw .partialMap


/-! ### Encoding -/

def RequestItem.count (item : RequestItem) : Nat :=
  2 + item.maxSize.isSome.toNat + item.acceptedFormats.isSome.toNat +
    item.haveHashes.isSome.toNat + item.ifModifiedSince.isSome.toNat +
    item.lifetimeOverride.isSome.toNat

/-- The keys and values emitted for a request item. -/
def RequestItem.emitted (item : RequestItem) : List (List Token) :=
  [[.uint 0], [.uint item.op], [.uint 1], [.text item.uri]] ++
    item.maxSize.elim [] (fun maxSize => [[.uint 2], [.uint maxSize]]) ++
    item.acceptedFormats.elim []
      (fun formats => [[.uint 3], emitArray (formats.map fun fmt => [.text fmt])]) ++
    item.haveHashes.elim []
      (fun hashes => [[.uint 4], emitArray (hashes.map fun hash => [.bytes hash])]) ++
    item.ifModifiedSince.elim [] (fun ifModified => [[.uint 5], [.uint ifModified]]) ++
    item.lifetimeOverride.elim [] (fun lifetime => [[.uint 6], [.uint lifetime]])

def RequestItem.toCbor (item : RequestItem) : List Token := emitMap item.count item.emitted

def BasketRequest.count (request : BasketRequest) : Nat :=
  3 + request.experimentTag.isSome.toNat + request.replyTo.isSome.toNat +
    request.defaultLifetime.isSome.toNat

def BasketRequest.emitted (request : BasketRequest) : List (List Token) :=
  request.experimentTag.elim [] (fun tag => [[.nint 0], [.uint tag]]) ++
    [[.uint 0], [.uint request.version], [.uint 1], [.text request.reqId]] ++
    request.replyTo.elim [] (fun reply => [[.uint 2], [.text reply]]) ++
    request.defaultLifetime.elim [] (fun lifetime => [[.uint 3], [.uint lifetime]]) ++
    [[.uint 4], emitArray (request.items.map RequestItem.toCbor)]

def BasketRequest.toCbor (request : BasketRequest) : List Token :=
  emitMap request.count request.emitted

def ItemMetadata.count (metadata : ItemMetadata) : Nat :=
  1 + metadata.size.isSome.toNat + metadata.mimeType.isSome.toNat + metadata.uri.isSome.toNat +
    metadata.lastModified.isSome.toNat

def ItemMetadata.emitted (metadata : ItemMetadata) : List (List Token) :=
  [[.uint 0], [.bytes metadata.hash]] ++
    metadata.size.elim [] (fun size => [[.uint 1], [.uint size]]) ++
    metadata.mimeType.elim [] (fun mime => [[.uint 2], [.text mime]]) ++
    metadata.uri.elim [] (fun uri => [[.uint 3], [.text uri]]) ++
    metadata.lastModified.elim [] (fun lastModified => [[.uint 4], [.uint lastModified]])

def ItemMetadata.toCbor (metadata : ItemMetadata) : List Token :=
  emitMap metadata.count metadata.emitted

def ItemResponse.count (item : ItemResponse) : Nat :=
  2 + item.metadata.isSome.toNat + item.diagnostic.isSome.toNat

def ItemResponse.emitted (item : ItemResponse) : List (List Token) :=
  [[.uint 0], [.uint item.itemIdx], [.uint 1], [.uint item.coapStatus.toUInt64]] ++
    item.metadata.elim [] (fun metadata => [[.uint 2], metadata.toCbor]) ++
    item.diagnostic.elim [] (fun diagnostic => [[.uint 3], [.text diagnostic]])

def ItemResponse.toCbor (item : ItemResponse) : List Token := emitMap item.count item.emitted

def BasketResponse.count (response : BasketResponse) : Nat :=
  3 + response.experimentTag.isSome.toNat

def BasketResponse.emitted (response : BasketResponse) : List (List Token) :=
  response.experimentTag.elim [] (fun tag => [[.nint 0], [.uint tag]]) ++
    [[.uint 0], [.uint response.version], [.uint 1], [.text response.reqId], [.uint 2],
      emitArray (response.items.map ItemResponse.toCbor)]

def BasketResponse.toCbor (response : BasketResponse) : List Token :=
  emitMap response.count response.emitted

/-! ### What the decoders make of it -/

theorem reads_cborBytes (data : List UInt8) : Reads cborBytes [.bytes data] data := fun _ => rfl

theorem reads_cborString (s : String) : Reads cborString [.text s] s := fun _ => rfl

theorem reads_cborFormat (s : String) : Reads cborFormat [.text s] s := fun _ => rfl

theorem reads_cborReqId (s : String) : Reads cborReqId [.text s] s := fun _ => rfl

/-- A key and its value, where the value is read by `c` and kept by `set`. -/
theorem fills_entry {α σ : Type} (body : σ → Reader σ) {s : σ} (key : UInt64) (set : α → σ)
    {c : Reader α} {value : List Token} {a : α} (hvalue : WellCounted value) (h : Reads c value a)
    (hbody : ∀ rest, body s (.uint key :: rest) = (do return set (← c) : Reader σ) rest) :
    Fills body 1 s [[.uint key], value] (set a) := by
  refine .entry (.leaf rfl) hvalue fun rest => ?_
  show body s (.uint key :: (value ++ rest)) = _
  rw [hbody]
  exact h.bind_pure (f := fun a => pure (set a)) rfl rest

/-- The same for a value that may be absent. -/
theorem fills_optional {α σ : Type} (body : σ → Reader σ) (key : UInt64) (set : Option α → σ)
    {c : Reader α} {emit : α → List Token} (o : Option α) (hvalue : ∀ v, WellCounted (emit v))
    (h : ∀ v, Reads c (emit v) v)
    (hbody : ∀ rest, body (set none) (.uint key :: rest) =
      (do return set (some (← c)) : Reader σ) rest) :
    Fills body o.isSome.toNat (set none) (o.elim [] fun v => [[.uint key], emit v]) (set o) :=
  .optional set fun v => fills_entry body key (fun v => set (some v)) (hvalue v) (h v) hbody

theorem wellCounted_array {α : Type} {emit : α → List Token} (h : ∀ a, WellCounted (emit a))
    (xs : List α) : WellCounted (emitArray (xs.map emit)) := by
  refine .array fun l hl => ?_
  obtain ⟨x, _, rfl⟩ := List.mem_map.mp hl
  exact h x

theorem reads_formats (formats : List String) : Reads (array cborFormat)
    (emitArray (formats.map fun fmt => [.text fmt])) formats :=
  .array formats fun fmt _ => reads_cborFormat fmt

theorem reads_hashes (hashes : List (List UInt8)) : Reads (array cborBytes)
    (emitArray (hashes.map fun hash => [.bytes hash])) hashes :=
  .array hashes fun hash _ => reads_cborBytes hash

theorem RequestItem.fills (item : RequestItem) :
    Fills RequestItem.entry item.count
      { op := 0, uri := "", maxSize := none, acceptedFormats := none, haveHashes := none,
        ifModifiedSince := none, lifetimeOverride := none } item.emitted item := by
  obtain ⟨op, uri, maxSize, formats, hashes, ifModified, lifetime⟩ := item
  have hop := fills_entry entry 0 (s := ⟨0, "", none, none, none, none, none⟩)
    (fun op => ⟨op, "", none, none, none, none, none⟩) (.leaf rfl) (Reads.u64 op) fun _ => rfl
  have huri := fills_entry entry 1 (s := ⟨op, "", none, none, none, none, none⟩)
    (fun uri => ⟨op, uri, none, none, none, none, none⟩) (.leaf rfl) (reads_cborString uri)
    fun _ => rfl
  have hsize := fills_optional entry 2 (fun o => ⟨op, uri, o, none, none, none, none⟩) maxSize
    (fun _ => .leaf rfl) Reads.u64 fun _ => rfl
  have hformats := fills_optional entry 3 (fun o => ⟨op, uri, maxSize, o, none, none, none⟩)
    formats (wellCounted_array fun _ => .leaf rfl) reads_formats fun _ => rfl
  have hhashes := fills_optional entry 4 (fun o => ⟨op, uri, maxSize, formats, o, none, none⟩)
    hashes (wellCounted_array fun _ => .leaf rfl) reads_hashes fun _ => rfl
  have hmodified := fills_optional entry 5
    (fun o => ⟨op, uri, maxSize, formats, hashes, o, none⟩) ifModified (fun _ => .leaf rfl)
    Reads.u64 fun _ => rfl
  have hlifetime := fills_optional entry 6
    (fun o => ⟨op, uri, maxSize, formats, hashes, ifModified, o⟩) lifetime (fun _ => .leaf rfl)
    Reads.u64 fun _ => rfl
  exact (((((hop.append huri).append hsize).append hformats).append hhashes).append
    hmodified).append hlifetime

theorem RequestItem.reads (item : RequestItem) : Reads RequestItem.fromCbor item.toCbor item :=
  item.fills.map []

theorem ItemMetadata.fills (metadata : ItemMetadata) :
    Fills ItemMetadata.entry metadata.count
      { hash := [], size := none, mimeType := none, uri := none, lastModified := none }
      metadata.emitted metadata := by
  obtain ⟨hash, size, mime, uri, lastModified⟩ := metadata
  have hhash := fills_entry entry 0 (s := ⟨[], none, none, none, none⟩)
    (fun hash => ⟨hash, none, none, none, none⟩) (.leaf rfl) (reads_cborBytes hash) fun _ => rfl
  have hsize := fills_optional entry 1 (fun o => ⟨hash, o, none, none, none⟩) size
    (fun _ => .leaf rfl) Reads.u64 fun _ => rfl
  have hmime := fills_optional entry 2 (fun o => ⟨hash, size, o, none, none⟩) mime
    (fun _ => .leaf rfl) reads_cborString fun _ => rfl
  have huri := fills_optional entry 3 (fun o => ⟨hash, size, mime, o, none⟩) uri
    (fun _ => .leaf rfl) reads_cborString fun _ => rfl
  have hmodified := fills_optional entry 4 (fun o => ⟨hash, size, mime, uri, o⟩) lastModified
    (fun _ => .leaf rfl) Reads.u64 fun _ => rfl
  exact (((hhash.append hsize).append hmime).append huri).append hmodified

theorem ItemMetadata.reads (metadata : ItemMetadata) :
    Reads ItemMetadata.fromCbor metadata.toCbor metadata :=
  metadata.fills.map []

theorem u8TryFrom_toUInt64 (n : UInt8) : u8TryFrom n.toUInt64 = .ok n := by
  have hlt : n.toUInt64.toNat < 256 := by
    rw [UInt8.toNat_toUInt64]
    exact n.toNat_lt
  rw [u8TryFrom, if_pos hlt]
  simp

theorem ItemResponse.reads_status (item : ItemResponse) (status : UInt8) :
    Reads item.entry [.uint 1, .uint status.toUInt64] { item with coapStatus := status } := by
  intro rest
  show ((u8TryFrom status.toUInt64 >>= fun n => pure (n, rest)) >>= fun p =>
    pure ({ item with coapStatus := p.1 }, p.2)) = _
  rw [u8TryFrom_toUInt64]
  rfl

theorem ItemResponse.fills (item : ItemResponse) :
    Fills ItemResponse.entry item.count
      { itemIdx := 0, coapStatus := 0, metadata := none, diagnostic := none } item.emitted item := by
  obtain ⟨itemIdx, status, metadata, diagnostic⟩ := item
  have hidx := fills_entry entry 0 (s := ⟨0, 0, none, none⟩) (fun idx => ⟨idx, 0, none, none⟩)
    (.leaf rfl) (Reads.u64 itemIdx) fun _ => rfl
  have hstatus := Fills.entry (.leaf rfl) (.leaf rfl) (reads_status ⟨itemIdx, 0, none, none⟩ status)
  have hmetadata := fills_optional entry 2 (fun o => ⟨itemIdx, status, o, none⟩) metadata
    (fun metadata => metadata.fills.wellCounted) ItemMetadata.reads fun _ => rfl
  have hdiagnostic := fills_optional entry 3 (fun o => ⟨itemIdx, status, metadata, o⟩) diagnostic
    (fun _ => .leaf rfl) reads_cborString fun _ => rfl
  exact ((hidx.append hstatus).append hmetadata).append hdiagnostic

theorem ItemResponse.reads (item : ItemResponse) : Reads ItemResponse.fromCbor item.toCbor item :=
  item.fills.map []

/-- The experiment tag takes an entry of the map, which leaves no trace. -/
theorem fills_experimentTag {σ : Type} (body : σ → Reader σ) (s : σ) (o : Option UInt64)
    (hbody : ∀ rest, body s (.nint 0 :: rest) = (do let _ ← u64; return s : Reader σ) rest) :
    Fills body o.isSome.toNat s (o.elim [] fun tag => [[.nint 0], [.uint tag]]) s := by
  refine .optional (fun _ => s) fun tag => .entry (.leaf rfl) (.leaf rfl) fun rest => ?_
  show body s (.nint 0 :: .uint tag :: rest) = _
  rw [hbody]
  rfl

theorem BasketRequest.fills (request : BasketRequest) (tag : Option UInt64) :
    Fills BasketRequest.entry request.count { experimentTag := tag } request.emitted
      { experimentTag := tag, version := some request.version, reqId := some request.reqId,
        replyTo := request.replyTo, defaultLifetime := request.defaultLifetime,
        items := request.items } := by
  obtain ⟨experimentTag, version, reqId, replyTo, lifetime, items⟩ := request
  have htag := fills_experimentTag entry ⟨tag, none, none, none, none, []⟩ experimentTag
    fun _ => rfl
  have hversion := fills_entry entry 0 (s := ⟨tag, none, none, none, none, []⟩)
    (fun version => ⟨tag, some version, none, none, none, []⟩) (.leaf rfl) (Reads.u64 version)
    fun _ => rfl
  have hreqId := fills_entry entry 1 (s := ⟨tag, some version, none, none, none, []⟩)
    (fun reqId => ⟨tag, some version, some reqId, none, none, []⟩) (.leaf rfl)
    (reads_cborReqId reqId) fun _ => rfl
  have hreply := fills_optional entry 2
    (fun o => ⟨tag, some version, some reqId, o, none, []⟩) replyTo (fun _ => .leaf rfl)
    reads_cborString fun _ => rfl
  have hlifetime := fills_optional entry 3
    (fun o => ⟨tag, some version, some reqId, replyTo, o, []⟩) lifetime (fun _ => .leaf rfl)
    Reads.u64 fun _ => rfl
  have hitems := fills_entry entry 4
    (s := ⟨tag, some version, some reqId, replyTo, lifetime, []⟩)
    (fun items => ⟨tag, some version, some reqId, replyTo, lifetime, [] ++ items⟩)
    (wellCounted_array (fun item => item.fills.wellCounted) items)
    (.array items fun item _ => item.reads) fun _ => rfl
  have hall := (((htag.append (hversion.append hreqId)).append hreply).append hlifetime).append hitems
  have hcount : BasketRequest.count ⟨experimentTag, version, reqId, replyTo, lifetime, items⟩ =
      experimentTag.isSome.toNat + (1 + 1) + replyTo.isSome.toNat + lifetime.isSome.toNat + 1 := by
    show 3 + experimentTag.isSome.toNat + replyTo.isSome.toNat + lifetime.isSome.toNat = _
    omega
  rw [hcount]
  exact hall

/-- A request reads back with the experiment tag that its tags name. -/
theorem BasketRequest.reads (request : BasketRequest) (tags : List UInt64) :
    Reads BasketRequest.fromCbor (tags.map .tag ++ request.toCbor)
      { request with experimentTag := experimentTagOf tags } := by
  have hfields : Reads (map BasketRequest.entry fun tags => { experimentTag := experimentTagOf tags })
      (tags.map .tag ++ request.toCbor) _ := (request.fills _).map tags
  exact hfields.bind_pure rfl

theorem BasketResponse.fills (response : BasketResponse) (tag : Option UInt64) :
    Fills BasketResponse.entry response.count { experimentTag := tag } response.emitted
      { experimentTag := tag, version := some response.version, reqId := some response.reqId,
        items := response.items } := by
  obtain ⟨experimentTag, version, reqId, items⟩ := response
  have htag := fills_experimentTag entry ⟨tag, none, none, []⟩ experimentTag fun _ => rfl
  have hversion := fills_entry entry 0 (s := ⟨tag, none, none, []⟩)
    (fun version => ⟨tag, some version, none, []⟩) (.leaf rfl) (Reads.u64 version) fun _ => rfl
  have hreqId := fills_entry entry 1 (s := ⟨tag, some version, none, []⟩)
    (fun reqId => ⟨tag, some version, some reqId, []⟩) (.leaf rfl) (reads_cborReqId reqId)
    fun _ => rfl
  have hitems := fills_entry entry 2 (s := ⟨tag, some version, some reqId, []⟩)
    (fun items => ⟨tag, some version, some reqId, [] ++ items⟩)
    (wellCounted_array (fun item => item.fills.wellCounted) items)
    (.array items fun item _ => item.reads) fun _ => rfl
  have hall := htag.append ((hversion.append hreqId).append hitems)
  rw [show BasketResponse.count ⟨experimentTag, version, reqId, items⟩ =
    experimentTag.isSome.toNat + (1 + 1 + 1) from Nat.add_comm _ _]
  exact hall

/-- A response reads back with the experiment tag that its tags name. -/
theorem BasketResponse.reads (response : BasketResponse) (tags : List UInt64) :
    Reads BasketResponse.fromCbor (tags.map .tag ++ response.toCbor)
      { response with experimentTag := experimentTagOf tags } := by
  have hfields : Reads (map BasketResponse.entry fun tags => { experimentTag := experimentTagOf tags })
      (tags.map .tag ++ response.toCbor) _ := (response.fills _).map tags
  exact hfields.bind_pure rfl

/-- The announced counts are those of the entries, at every level of a message, and a message reads
back as it was written exactly when it carries no experiment tag. -/
theorem round_trip_iff (request : BasketRequest) (response : BasketResponse) :
    ((decode BasketRequest.fromCbor request.toCbor = .ok request ∧ WellCounted request.toCbor) ↔
      request.experimentTag = none) ∧
    ((decode BasketResponse.fromCbor response.toCbor = .ok response ∧
        WellCounted response.toCbor) ↔
      response.experimentTag = none) := by
  constructor
  · have hread : decode BasketRequest.fromCbor request.toCbor =
        .ok { request with experimentTag := none } := (request.reads []).decode
    have hcounted : WellCounted request.toCbor := (request.fills none).wellCounted
    rw [hread, and_iff_left hcounted]
    constructor
    · intro h
      exact (congrArg BasketRequest.experimentTag (Except.ok.inj h)).symm
    · intro h
      rw [← h]
  · have hread : decode BasketResponse.fromCbor response.toCbor =
        .ok { response with experimentTag := none } := (response.reads []).decode
    have hcounted : WellCounted response.toCbor := (response.fills none).wellCounted
    rw [hread, and_iff_left hcounted]
    constructor
    · intro h
      exact (congrArg BasketResponse.experimentTag (Except.ok.inj h)).symm
    · intro h
      rw [← h]

/-- The tag of a request is written under key -1, and the reader drops it. -/
theorem experiment_tag_is_dropped :
    decode BasketRequest.fromCbor (BasketRequest.toCbor
      { experimentTag := some 44444, version := 1, reqId := "req-123", replyTo := none,
        defaultLifetime := none, items := [] }) ≠
      .ok { experimentTag := some 44444, version := 1, reqId := "req-123", replyTo := none,
            defaultLifetime := none, items := [] } := by
  intro h
  have hread : decode BasketRequest.fromCbor (BasketRequest.toCbor
      { experimentTag := some 44444, version := 1, reqId := "req-123", replyTo := none,
        defaultLifetime := none, items := [] }) =
      .ok { experimentTag := none, version := 1, reqId := "req-123", replyTo := none,
            defaultLifetime := none, items := [] } := rfl
  rw [hread] at h
  exact nomatch congrArg BasketRequest.experimentTag (Except.ok.inj h)

/-- A message sent under the basket tag reads back as it was written exactly when its own experiment
tag is that one. -/
theorem tagged_round_trip_iff (request : BasketRequest) :
    decode BasketRequest.fromCbor (.tag basketTag :: request.toCbor) = .ok request ↔
      request.experimentTag = some basketTag := by
  have hread : decode BasketRequest.fromCbor (.tag basketTag :: request.toCbor) =
      .ok { request with experimentTag := some basketTag } := (request.reads [basketTag]).decode
  rw [hread]
  constructor
  · intro h
    exact (congrArg BasketRequest.experimentTag (Except.ok.inj h)).symm
  · intro h
    rw [← h]

end HdyUtils.Basket
