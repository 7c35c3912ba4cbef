import HdyUtils.Ham.HexDump
import HdyUtils.Ham.Retention
import HdyUtils.Lib.Paths
import HdyUtils.Lib.Results
import HdyUtils.Lib.Trace

/-! The bundles of the agent as the web interface shows and deletes them (`bundle_inspector.rs`): rows of
the agent's database, and beside them files whose names the rows give. -/

namespace HdyUtils.Ham

open Security Trace

/-! ### What is stored -/

/-- A JSON value, as far as it is read. -/
inductive JsonValue
  | null
  | string (s : String)
  | natural (n : UInt64)
  | object (members : List (String × JsonValue))
  | other

namespace JsonValue

/-- `value[member]`. -/
def get (value : JsonValue) (member : String) : JsonValue :=
  match value with
  | .object members => (members.lookup member).getD .null
  | _ => .null

def asStr : JsonValue → Option String
  | .string s => some s
  | _ => none

def asU64 : JsonValue → Option UInt64
  | .natural n => some n
  | _ => none

def asObject : JsonValue → Option (List (String × JsonValue))
  | .object members => some members
  | _ => none

end JsonValue

/-- The id of a bundle, as it is shown. -/
structure BundleId where
  key : String
  source : String
  /-- In nanoseconds. -/
  datetime : Option Int
  millisecs : Option UInt64

structure BundleRow where
  bundleId : Bytes
  bundle : Option Bytes
  statusCode : Option Int64

inductive Node
  | file (content : Bytes)
  | directory
deriving DecidableEq

/-- The database of the agent, with its rows in the order of their row ids, and the disk. -/
structure BundleStore where
  present : Bool
  rows : List BundleRow
  disk : List String → Option Node

/-- What is taken from the crates and from the configuration. -/
structure Inspector (E : Type) where
  platform : Platform E
  /-- `serde_json::from_slice`, for ids and for values. -/
  parseId : Bytes → Option BundleId
  parseJson : Bytes → Option JsonValue
  cwd : List String
  payloadDir : String

/-- What goes wrong during a call. -/
structure StoreFaults where
  database : Option String
  unreadable : List String → Option String
  stuck : List String → Bool

structure BundleSummary where
  id : String
  source : String
  destination : String
  creationTime : UInt64
  createdAt : String
  lifetimeSecs : UInt64
  size : UInt64
  status : String

structure BundleDetail where
  summary : BundleSummary
  mimeType : String
  isBinary : Bool
  payloadSize : Nat
  storageName : Option String
  payloadPreview : Option String
  hexDump : Option String

/-- Verifies that a storage filename is safe and contains no path traversal components. -/
def safePayloadPath (payloadDir storageName : String) : Except String String :=
  let message := "Invalid storage_name path traversal attempt: " ++ storageName.quote
  if '\\' ∈ storageName.toList then .error message
  else if Paths.isAbsolute storageName then .error message
  else if (Paths.components storageName).all fun c => c matches .normal _ then
    .ok (Paths.join payloadDir storageName)
  else .error message

namespace BundleStore

variable {E : Type} (x : Inspector E) (s : BundleStore) (f : StoreFaults)

/-- The place of the directory of the payloads. -/
def root : List String := Paths.place x.cwd x.payloadDir

def statusText (code : Int64) : String :=
  if code = 0 then "New"
  else if code = 1 then "Waiting"
  else if code = 2 then "ForwardPending"
  else if code = 3 then "AduFragment"
  else if code = 4 then "Dispatching"
  else if code = 5 then "WaitingForService"
  else "Stored"

/-- The greatest end of a block. -/
def extentsEnd (blocks : List (String × JsonValue)) : UInt64 :=
  ((blocks.filterMap fun b => ((b.2.get "extent").get "end").asU64).map UInt64.toNat).max?.elim 0
    UInt64.ofNat

/-- What is shown of the bundle of a row: destination, lifetime, size and status. -/
def bundleFields (row : BundleRow) : Option (String × UInt64 × UInt64 × String) :=
  match row.bundle with
  | none => some ("-", 3600, 0, "Completed")
  | some bytes => (x.parseJson bytes).map fun json =>
    let bpv7 := json.get "bpv7"
    let primary := bpv7.get "primary"
    ((primary.get "destination").asStr.getD "dtn:none",
      (primary.get "lifetime").asU64.getD 3600,
      (bpv7.get "blocks").asObject.elim 0 extentsEnd,
      statusText (row.statusCode.getD 0))

/-- The summary of a row, unless it cannot be read. -/
def summaryOf (row : BundleRow) : Option BundleSummary :=
  (x.parseId row.bundleId).bind fun id =>
    (bundleFields x row).map fun (destination, lifetimeSecs, size, status) =>
      { id := id.key
        source := id.source
        destination := destination
        creationTime := id.millisecs.getD 0
        createdAt := id.datetime.elim "Clockless" x.platform.rfc3339
        lifetimeSecs := lifetimeSecs
        size := size
        status := status }

/-- Lists all stored bundles from the database, the newest row first. -/
def listBundlesFromDb : Except String (List BundleSummary) :=
  if !s.present then .ok []
  else
    match f.database with
    | some e => .error e
    | none => .ok (s.rows.reverse.filterMap (summaryOf x))

def hasKey (bundleKey : String) (row : BundleRow) : Bool :=
  (x.parseId row.bundleId).any fun id => id.key = bundleKey

def storageName (row : BundleRow) : Option String :=
  row.bundle.bind fun bytes =>
    ((((x.parseJson bytes).getD .null).get "metadata").get "storage_name").asStr

/-- Looks up a bundle's raw id and its storage filename. -/
def lookupBundleStorageInfo (bundleKey : String) :
    Except String (Option (Bytes × Option String)) :=
  if !s.present then .ok none
  else
    match f.database with
    | some e => .error e
    | none => .ok ((s.rows.reverse.find? (hasKey x bundleKey)).map fun row =>
        (row.bundleId, storageName x row))

/-- Deletes a bundle row by id. -/
def deleteBundleDbRecord (idBytes : Bytes) : Except String Bool × BundleStore :=
  if !s.present then (.ok false, s)
  else
    match f.database with
    | some e => (.error e, s)
    | none =>
      let kept := s.rows.filter fun row => row.bundleId ≠ idBytes
      (.ok (decide (kept.length < s.rows.length)), { s with rows := kept })

/-- The payload of a bundle and its type. -/
def getBundlePayload (bundleKey : String) : Except String (Option (Bytes × String)) := do
  match ← s.lookupBundleStorageInfo x f bundleKey with
  | none => return none
  | some (_, none) => return none
  | some (_, some name) =>
    let payloadPath ← safePayloadPath x.payloadDir name
    let place := Paths.place x.cwd payloadPath
    match s.disk place with
    | none => return none
    | some .directory => throw "Is a directory (os error 21)"
    | some (.file rawBytes) =>
      match f.unreadable place with
      | some e => throw e
      | none =>
        match (x.platform.hardy.parse rawBytes).toOption.bind Parsed.payload with
        | some payload => return some (payload, (inferMimeType x.platform payload).1)
        | none => return some (rawBytes, (inferMimeType x.platform rawBytes).1)

/-- Retrieves detailed bundle metadata, type, and formatted preview. -/
def getBundleDetail (bundleKey : String) : Except String (Option BundleDetail) := do
  if !s.present then return none
  let summaries ← s.listBundlesFromDb x f
  match summaries.find? fun summary => summary.id = bundleKey with
  | none => return none
  | some summary =>
    let storageName := (← s.lookupBundleStorageInfo x f bundleKey).bind Prod.snd
    let payloadBytes := (← s.getBundlePayload x f bundleKey).elim [] Prod.fst
    let completed := summary.status = "Completed"
    let (mimeType, isBinary) :=
      if completed then ("text/plain", false) else inferMimeType x.platform payloadBytes
    return some {
      summary := summary
      mimeType := mimeType
      isBinary := isBinary
      payloadSize := payloadBytes.length
      storageName := storageName
      payloadPreview :=
        if completed then
          some "[Payload released: bundle forwarding or local delivery completed successfully]"
        else if !isBinary then String.fromUTF8? ⟨(payloadBytes.take (16 * 1024)).toArray⟩
        else none
      hexDump :=
        if isBinary ∧ payloadBytes ≠ [] then some (formatHexDump (payloadBytes.take (4 * 1024)))
        else none }

/-- Removes a file, unless it cannot be removed. -/
def removeFile (place : List String) : BundleStore :=
  match s.disk place with
  | some (.file _) =>
    if f.stuck place then s else { s with disk := Function.update s.disk place none }
  | _ => s

/-- Deletes a bundle and its payload file from storage. -/
def deleteBundleFromStorage (bundleKey : String) : Except String Bool × BundleStore :=
  match s.lookupBundleStorageInfo x f bundleKey with
  | .error e => (.error e, s)
  | .ok none => (.ok false, s)
  | .ok (some (idBytes, name)) =>
    let removed :=
      match name.map (safePayloadPath x.payloadDir) with
      | some (.ok payloadFile) => s.removeFile f (Paths.place x.cwd payloadFile)
      | _ => s
    removed.deleteBundleDbRecord f idBytes

end BundleStore

/-! ### Requests -/

/-- What the web interface is asked for, and what the agent does in between: it changes its rows, and a
place under the directory of the payloads. -/
inductive Request
  | list
  | detail (bundleKey : String)
  | payload (bundleKey : String)
  | delete (bundleKey : String)
  | agent (rows : List BundleRow) (sub : List String) (node : Option Node)

inductive Answer
  | listed (answer : Except String (List BundleSummary))
  | detailed (answer : Except String (Option BundleDetail))
  | served (answer : Except String (Option (Bytes × String)))
  | deleted (answer : Except String Bool)
  | none

namespace BundleStore

variable {E : Type} (x : Inspector E)

def step (s : BundleStore) (c : Request × StoreFaults) : BundleStore :=
  match c.1 with
  | .delete bundleKey => (s.deleteBundleFromStorage x c.2 bundleKey).2
  | .agent rows sub node =>
    { s with rows := rows, disk := Function.update s.disk (root x ++ sub) node }
  | .list | .detail _ | .payload _ => s

def answer (s : BundleStore) (c : Request × StoreFaults) : Answer :=
  match c.1 with
  | .list => .listed (s.listBundlesFromDb x c.2)
  | .detail bundleKey => .detailed (s.getBundleDetail x c.2 bundleKey)
  | .payload bundleKey => .served (s.getBundlePayload x c.2 bundleKey)
  | .delete bundleKey => .deleted (s.deleteBundleFromStorage x c.2 bundleKey).1
  | .agent .. => .none

/-- The answers to requests one after another. -/
def answers (s : BundleStore) : List (Request × StoreFaults) → List Answer
  | [] => []
  | c :: cs => s.answer x c :: (s.step x c).answers cs

/-- The stores have the same rows and the same files under the directory of the payloads. -/
structure Alike (s s' : BundleStore) : Prop where
  present : s'.present = s.present
  rows : s'.rows = s.rows
  disk : ∀ sub, s'.disk (root x ++ sub) = s.disk (root x ++ sub)

/-! ### Payload files are in their directory -/

theorem exists_place_of_safe {name path : String} (h : safePayloadPath x.payloadDir name = .ok path) :
    ∃ sub, Paths.place x.cwd path = root x ++ sub := by
  unfold safePayloadPath at h
  simp only at h
  split at h
  · cases h
  · split at h
    · cases h
    · split at h
      · next hnormal =>
        cases h
        have hnames : ∀ c ∈ Paths.components name, ∃ n, c = .normal n := by
          intro c hc
          have hmatch := List.all_eq_true.mp hnormal c hc
          cases c with
          | normal n => exact ⟨n, rfl⟩
          | rootDir | curDir | parentDir => cases hmatch
        obtain ⟨habsolute, hup⟩ := Paths.notMem_of_components hnames
        exact ⟨_, (Paths.place_join habsolute).trans (Paths.resolve_eq_append hup _)⟩
      · cases h

variable {x} {s s' : BundleStore}

theorem Alike.lookup (h : s.Alike x s') (f : StoreFaults) (bundleKey : String) :
    s'.lookupBundleStorageInfo x f bundleKey = s.lookupBundleStorageInfo x f bundleKey := by
  simp only [lookupBundleStorageInfo, h.present, h.rows]

theorem Alike.list (h : s.Alike x s') (f : StoreFaults) :
    s'.listBundlesFromDb x f = s.listBundlesFromDb x f := by
  simp only [listBundlesFromDb, h.present, h.rows]

theorem Alike.payload (h : s.Alike x s') (f : StoreFaults) (bundleKey : String) :
    s'.getBundlePayload x f bundleKey = s.getBundlePayload x f bundleKey := by
  unfold getBundlePayload
  rw [h.lookup]
  refine bind_congr fun found => ?_
  match found with
  | none | some (_, none) => rfl
  | some (_, some name) =>
    cases hpath : safePayloadPath x.payloadDir name with
    | error e => simp only [hpath, Results.error_bind]
    | ok path =>
      obtain ⟨sub, hplace⟩ := exists_place_of_safe x hpath
      simp only [hpath, Results.ok_bind, hplace, h.disk]

theorem Alike.detail (h : s.Alike x s') (f : StoreFaults) (bundleKey : String) :
    s'.getBundleDetail x f bundleKey = s.getBundleDetail x f bundleKey := by
  simp only [getBundleDetail, h.present, h.list, h.lookup, h.payload]

theorem removeFile_rows (s : BundleStore) (f : StoreFaults) (place : List String) :
    (s.removeFile f place).present = s.present ∧ (s.removeFile f place).rows = s.rows := by
  unfold removeFile
  split
  · split <;> exact ⟨rfl, rfl⟩
  · exact ⟨rfl, rfl⟩

/-- A removal is seen at its own place only. -/
theorem removeFile_disk (s : BundleStore) (f : StoreFaults) (place place' : List String) :
    (s.removeFile f place).disk place' =
      if place' = place ∧ f.stuck place = false ∧ s.disk place ≠ some .directory then none
      else s.disk place' := by
  unfold removeFile
  split
  · next content hfile =>
    cases hstuck : f.stuck place
    · simp only [Bool.false_eq_true, if_false, Function.update_apply, hfile]
      simp
    · simp
  · next hother =>
    split
    · next hremoved =>
      obtain ⟨rfl, -, hdirectory⟩ := hremoved
      cases hnode : s.disk place' with
      | none => rfl
      | some node =>
        cases node with
        | file content => exact absurd hnode (hother content)
        | directory => exact absurd hnode hdirectory
    · rfl

theorem deleteBundleDbRecord_disk (s : BundleStore) (f : StoreFaults) (idBytes : Bytes) :
    (s.deleteBundleDbRecord f idBytes).2.disk = s.disk := by
  unfold deleteBundleDbRecord
  split
  · rfl
  · split <;> rfl

theorem Alike.deleteRecord (h : s.Alike x s') (f : StoreFaults) (idBytes : Bytes) :
    (s'.deleteBundleDbRecord f idBytes).1 = (s.deleteBundleDbRecord f idBytes).1 ∧
      (s.deleteBundleDbRecord f idBytes).2.Alike x (s'.deleteBundleDbRecord f idBytes).2 := by
  unfold deleteBundleDbRecord
  rw [h.present, h.rows]
  split
  · exact ⟨rfl, h⟩
  · split
    · exact ⟨rfl, h⟩
    · exact ⟨rfl, rfl, rfl, h.disk⟩

theorem Alike.removeFile (h : s.Alike x s') (f : StoreFaults) (sub : List String) :
    (s.removeFile f (root x ++ sub)).Alike x (s'.removeFile f (root x ++ sub)) where
  present := by rw [(removeFile_rows _ _ _).1, (removeFile_rows _ _ _).1, h.present]
  rows := by rw [(removeFile_rows _ _ _).2, (removeFile_rows _ _ _).2, h.rows]
  disk := by
    intro sub'
    rw [removeFile_disk, removeFile_disk, h.disk, h.disk]

theorem Alike.delete (h : s.Alike x s') (f : StoreFaults) (bundleKey : String) :
    (s'.deleteBundleFromStorage x f bundleKey).1 = (s.deleteBundleFromStorage x f bundleKey).1 ∧
      (s.deleteBundleFromStorage x f bundleKey).2.Alike x
        (s'.deleteBundleFromStorage x f bundleKey).2 := by
  unfold deleteBundleFromStorage
  rw [h.lookup]
  match s.lookupBundleStorageInfo x f bundleKey with
  | .error e => exact ⟨rfl, h⟩
  | .ok none => exact ⟨rfl, h⟩
  | .ok (some (idBytes, name)) =>
    match hpath : name.map (safePayloadPath x.payloadDir) with
    | none =>
      simp only [hpath]
      exact h.deleteRecord f idBytes
    | some (.error e) =>
      simp only [hpath]
      exact h.deleteRecord f idBytes
    | some (.ok path) =>
      obtain ⟨n, -, hsafe⟩ := Option.map_eq_some_iff.mp hpath
      obtain ⟨sub, hplace⟩ := exists_place_of_safe x hsafe
      simp only [hpath, hplace]
      exact (h.removeFile f sub).deleteRecord f idBytes

/-- Stores that are alike answer alike, and stay so. -/
theorem Alike.step (h : s.Alike x s') (c : Request × StoreFaults) :
    s'.answer x c = s.answer x c ∧ (s.step x c).Alike x (s'.step x c) := by
  obtain ⟨request, f⟩ := c
  cases request with
  | list => exact ⟨congrArg _ (h.list f), h⟩
  | detail bundleKey => exact ⟨congrArg _ (h.detail f bundleKey), h⟩
  | payload bundleKey => exact ⟨congrArg _ (h.payload f bundleKey), h⟩
  | delete bundleKey =>
    obtain ⟨hanswer, halike⟩ := h.delete f bundleKey
    exact ⟨congrArg _ hanswer, halike⟩
  | agent rows sub node =>
    refine ⟨rfl, h.present, rfl, fun sub' => ?_⟩
    show Function.update s'.disk _ node _ = Function.update s.disk _ node _
    rw [Function.update_apply, Function.update_apply, h.disk]

/-- Nothing changes outside the directory of the payloads. -/
theorem disk_step {place : List String} (hout : ¬ root x <+: place) (s : BundleStore)
    (c : Request × StoreFaults) : (s.step x c).disk place = s.disk place := by
  have hne : ∀ sub, place ≠ root x ++ sub := fun sub heq => hout (heq ▸ List.prefix_append _ _)
  obtain ⟨request, f⟩ := c
  cases request with
  | list | detail bundleKey | payload bundleKey => rfl
  | agent rows sub node => exact Function.update_of_ne (hne sub) _ _
  | delete bundleKey =>
    show (s.deleteBundleFromStorage x f bundleKey).2.disk place = s.disk place
    unfold deleteBundleFromStorage
    match s.lookupBundleStorageInfo x f bundleKey with
    | .error e => rfl
    | .ok none => rfl
    | .ok (some (idBytes, name)) =>
      simp only [deleteBundleDbRecord_disk]
      match hpath : name.map (safePayloadPath x.payloadDir) with
      | none => rfl
      | some (.error e) => rfl
      | some (.ok path) =>
        obtain ⟨n, -, hsafe⟩ := Option.map_eq_some_iff.mp hpath
        obtain ⟨sub, hplace⟩ := exists_place_of_safe x hsafe
        simp only [hplace]
        rw [removeFile_disk, if_neg fun hthis => hne sub hthis.1]

/-- The rest of the disk is out of reach.  Whatever names the rows give their files, whatever is asked for
and whatever the agent does in between, the answers do not depend on what the disk has outside the
directory of the payloads, and nothing is changed there. -/
theorem rest_out_of_reach {E : Type} (x : Inspector E) {s s' : BundleStore} (h : s.Alike x s')
    (requests : List (Request × StoreFaults)) :
    s'.answers x requests = s.answers x requests ∧
      ∀ place, ¬ root x <+: place → (run (step x) s requests).disk place = s.disk place := by
  refine ⟨?_, fun place hout => ?_⟩
  · induction requests generalizing s s' with
    | nil => rfl
    | cons c requests ih =>
      obtain ⟨hanswer, halike⟩ := h.step c
      rw [answers, answers, hanswer, ih halike]
  · exact @run_invariant _ _ (step x) s (fun t => t.disk place = s.disk place)
      (fun t c ht => (disk_step hout t c).trans ht) requests rfl

/-- An inspector of rows whose files have all the same name. -/
def plainInspector (name : String) : Inspector String where
  platform := plainPlatform
  parseId := fun bytes => some ⟨toString bytes.length, "dtn://f4jxq/", none, none⟩
  parseJson := fun _ => some (.object [("metadata", .object [("storage_name", .string name)])])
  cwd := []
  payloadDir := "/var/payloads"

/-- A row that names a file of the system. -/
theorem rest_out_of_reach_passwd :
    let x := plainInspector "../../etc/passwd"
    let s : BundleStore := ⟨true, [⟨[1], some [], none⟩], fun _ => none⟩
    let s' := { s with disk := Function.update s.disk ["etc", "passwd"] (some (.file [1, 2])) }
    let requests := [(Request.payload "1", (⟨none, fun _ => none, fun _ => false⟩ : StoreFaults)),
      (.delete "1", ⟨none, fun _ => none, fun _ => false⟩)]
    s'.answers x requests = s.answers x requests := by
  intro x s s' requests
  have hroot : root x = ["var", "payloads"] := by decide +kernel
  have halike : s.Alike x s' := by
    refine ⟨rfl, rfl, fun sub => Function.update_of_ne ?_ _ _⟩
    rw [hroot]
    intro heq
    exact absurd (List.cons.inj heq).1 (by decide)
  exact (rest_out_of_reach x halike requests).1

/-! ### Deletions -/

/-- Rows with one key have one id. -/
def KeysDiffer (x : Inspector E) (rows : List BundleRow) : Prop :=
  ∀ row ∈ rows, ∀ row' ∈ rows, ∀ id id', x.parseId row.bundleId = some id →
    x.parseId row'.bundleId = some id' → id.key = id'.key → row.bundleId = row'.bundleId

/-- No row has this key. -/
def Lacks (x : Inspector E) (rows : List BundleRow) (bundleKey : String) : Prop :=
  ∀ row ∈ rows, hasKey x bundleKey row = false

theorem id_of_summaryOf {row : BundleRow} {summary : BundleSummary}
    (h : summaryOf x row = some summary) (bundleKey : String) :
    hasKey x bundleKey row = decide (summary.id = bundleKey) := by
  unfold summaryOf at h
  obtain ⟨id, hid, h⟩ := Option.bind_eq_some_iff.mp h
  obtain ⟨fields, -, rfl⟩ := Option.map_eq_some_iff.mp h
  unfold hasKey
  rw [hid]
  rfl

section Lacks

variable {f : StoreFaults} {bundleKey : String}

theorem Lacks.lookup (h : Lacks x s.rows bundleKey) (hdatabase : f.database = none) :
    s.lookupBundleStorageInfo x f bundleKey = .ok none := by
  unfold lookupBundleStorageInfo
  rw [hdatabase]
  split
  · rfl
  · have hnone : s.rows.reverse.find? (hasKey x bundleKey) = none := by
      rw [List.find?_eq_none]
      intro row hrow
      rw [h row (List.mem_reverse.mp hrow)]
      exact Bool.false_ne_true
    rw [hnone]
    rfl

theorem Lacks.list (h : Lacks x s.rows bundleKey) (hdatabase : f.database = none) :
    ∃ list, s.listBundlesFromDb x f = .ok list ∧ ∀ summary ∈ list, summary.id ≠ bundleKey := by
  unfold listBundlesFromDb
  rw [hdatabase]
  split
  · exact ⟨[], rfl, nofun⟩
  · refine ⟨_, rfl, fun summary hsummary => ?_⟩
    obtain ⟨row, hrow, hof⟩ := List.mem_filterMap.mp hsummary
    have hlacks := h row (List.mem_reverse.mp hrow)
    rw [id_of_summaryOf hof] at hlacks
    exact of_decide_eq_false hlacks

theorem Lacks.payload (h : Lacks x s.rows bundleKey) (hdatabase : f.database = none) :
    s.getBundlePayload x f bundleKey = .ok none := by
  unfold getBundlePayload
  rw [h.lookup hdatabase]
  rfl

theorem Lacks.detail (h : Lacks x s.rows bundleKey) (hdatabase : f.database = none) :
    s.getBundleDetail x f bundleKey = .ok none := by
  obtain ⟨list, hlist, hids⟩ := h.list hdatabase
  have hfind : list.find? (fun summary => decide (summary.id = bundleKey)) = none := by
    rw [List.find?_eq_none]
    intro summary hsummary
    simpa using hids summary hsummary
  unfold getBundleDetail
  rw [hlist]
  cases s.present with
  | false => rfl
  | true =>
    simp only [Bool.not_true, Bool.false_eq_true, if_false, Results.ok_bind, hfind]
    rfl

theorem Lacks.delete (h : Lacks x s.rows bundleKey) (hdatabase : f.database = none) :
    s.deleteBundleFromStorage x f bundleKey = (.ok false, s) := by
  simp only [deleteBundleFromStorage, h.lookup hdatabase]

end Lacks

/-- What a deletion does to the rows: those with the id of the first that is found go. -/
theorem rows_delete {f : StoreFaults} {bundleKey : String}
    (h : (s.deleteBundleFromStorage x f bundleKey).1 = .ok true) :
    ∃ row ∈ s.rows, hasKey x bundleKey row = true ∧
      (s.deleteBundleFromStorage x f bundleKey).2.rows =
        s.rows.filter fun row' => decide (row'.bundleId ≠ row.bundleId) := by
  unfold deleteBundleFromStorage at h ⊢
  unfold lookupBundleStorageInfo at h ⊢
  cases hpresent : s.present with
  | false => simp [hpresent] at h
  | true =>
    cases hdatabase : f.database with
    | some e => simp [hpresent, hdatabase] at h
    | none =>
      cases hfind : s.rows.reverse.find? (hasKey x bundleKey) with
      | none => simp [hpresent, hdatabase, hfind] at h
      | some row =>
        refine ⟨row, List.mem_reverse.mp (List.mem_of_find?_eq_some hfind),
          List.find?_some hfind, ?_⟩
        have hremoved : ∀ t : BundleStore, t.present = s.present → t.rows = s.rows →
            (t.deleteBundleDbRecord f row.bundleId).2.rows =
              s.rows.filter fun row' => decide (row'.bundleId ≠ row.bundleId) := by
          intro t ht hrows
          simp only [deleteBundleDbRecord, ht, hpresent, hdatabase, hrows, Bool.not_true,
            Bool.false_eq_true, if_false]
        simp only [Bool.not_true, Bool.false_eq_true, if_false, Option.map_some]
        split
        · exact hremoved _ (removeFile_rows _ _ _).1 (removeFile_rows _ _ _).2
        · exact hremoved s rfl rfl

/-- Where keys differ, the rows that go are those with the key. -/
theorem rows_delete_eq {f : StoreFaults} {bundleKey : String} (hkeys : KeysDiffer x s.rows)
    (h : (s.deleteBundleFromStorage x f bundleKey).1 = .ok true) :
    (s.deleteBundleFromStorage x f bundleKey).2.rows =
      s.rows.filter fun row => !hasKey x bundleKey row := by
  obtain ⟨row, hrow, hkey, hrows⟩ := rows_delete h
  rw [hrows]
  refine List.filter_congr fun row' hrow' => ?_
  have hsame : row'.bundleId = row.bundleId ↔ hasKey x bundleKey row' = true := by
    unfold hasKey at *
    obtain ⟨id, hid, hthis⟩ := (Option.any_eq_true _ _).mp hkey
    constructor
    · intro heq
      rw [heq]
      exact hkey
    · intro hkey'
      obtain ⟨id', hid', hthis'⟩ := (Option.any_eq_true _ _).mp hkey'
      exact hkeys row' hrow' row hrow id' id hid' hid
        ((of_decide_eq_true hthis').trans (of_decide_eq_true hthis).symm)
  cases hhas : hasKey x bundleKey row' with
  | true => simp [hsame.mpr hhas]
  | false =>
    have hne : row'.bundleId ≠ row.bundleId := fun heq => by
      rw [hsame.mp heq] at hhas
      cases hhas
    simp [hne]

/-- Without new rows with the key, none comes back. -/
theorem lacks_step {bundleKey : String} (h : Lacks x s.rows bundleKey) {c : Request × StoreFaults}
    (hagent : ∀ rows sub node, c.1 = .agent rows sub node → Lacks x rows bundleKey) :
    Lacks x (s.step x c).rows bundleKey := by
  obtain ⟨request, f⟩ := c
  cases request with
  | list | detail key | payload key => exact h
  | agent rows sub node => exact hagent rows sub node rfl
  | delete key =>
    show Lacks x (s.deleteBundleFromStorage x f key).2.rows bundleKey
    have hrecord : ∀ (t : BundleStore) (idBytes : Bytes), t.rows = s.rows →
        Lacks x (t.deleteBundleDbRecord f idBytes).2.rows bundleKey := by
      intro t idBytes ht
      unfold deleteBundleDbRecord
      split
      · exact ht ▸ h
      · split
        · exact ht ▸ h
        · exact fun row hrow => h row (ht ▸ List.mem_of_mem_filter hrow)
    unfold deleteBundleFromStorage
    split
    · exact h
    · exact h
    · simp only
      split
      · exact hrecord _ _ (removeFile_rows _ _ _).2
      · exact hrecord s _ rfl

/-- A bundle that was deleted is gone, and no other.  The list is what it was without it; and as long as
the agent does not store it again, whatever else is asked for, it is not listed, found or served, and to
delete it again changes nothing. -/
theorem deleted_bundle_gone {E : Type} (x : Inspector E) (s : BundleStore) (f : StoreFaults)
    (bundleKey : String) (hkeys : KeysDiffer x s.rows)
    (hdone : (s.deleteBundleFromStorage x f bundleKey).1 = .ok true)
    (requests : List (Request × StoreFaults))
    (hagent : ∀ c ∈ requests, ∀ rows sub node, c.1 = .agent rows sub node → Lacks x rows bundleKey) :
    let deleted := (s.deleteBundleFromStorage x f bundleKey).2
    (deleted.rows.reverse.filterMap (summaryOf x) =
      (s.rows.reverse.filterMap (summaryOf x)).filter fun summary =>
        decide (summary.id ≠ bundleKey)) ∧
    ∀ f', f'.database = none →
      let later := run (step x) deleted requests
      (∃ list, later.listBundlesFromDb x f' = .ok list ∧ ∀ summary ∈ list, summary.id ≠ bundleKey) ∧
        later.getBundleDetail x f' bundleKey = .ok none ∧
        later.getBundlePayload x f' bundleKey = .ok none ∧
        later.deleteBundleFromStorage x f' bundleKey = (.ok false, later) := by
  intro deleted
  have hrows : deleted.rows = s.rows.filter fun row => !hasKey x bundleKey row :=
    rows_delete_eq hkeys hdone
  have hlacks : Lacks x deleted.rows bundleKey := by
    intro row hrow
    rw [hrows] at hrow
    simpa using (List.mem_filter.mp hrow).2
  refine ⟨?_, fun f' hdatabase => ?_⟩
  · rw [hrows, ← List.filter_reverse, List.filterMap_filter, List.filter_filterMap]
    refine List.filterMap_congr fun row _ => ?_
    cases hsummary : summaryOf x row with
    | none => simp
    | some summary =>
      rw [id_of_summaryOf hsummary]
      simp [Option.filter]
  · have hlater : Lacks x (run (step x) deleted requests).rows bundleKey := by
      have hok : Along (step x) (fun _ c => ∀ rows sub node, c.1 = .agent rows sub node →
          Lacks x rows bundleKey) deleted requests :=
        along_of_forall_mem fun c hc _ => hagent c hc
      exact @Along.invariant _ _ (step x) _ _ (fun t => Lacks x t.rows bundleKey)
        (fun t c ht hc => lacks_step ht hc) _ hok hlacks
    exact ⟨hlater.list hdatabase, hlater.detail hdatabase, hlater.payload hdatabase,
      hlater.delete hdatabase⟩

/-- One of two bundles is deleted, and the other one is asked for. -/
theorem deleted_bundle_gone_first :
    let x := plainInspector "aa"
    let s : BundleStore := ⟨true, [⟨[1], none, none⟩, ⟨[1, 1], none, none⟩], fun _ => none⟩
    let f : StoreFaults := ⟨none, fun _ => none, fun _ => false⟩
    let later := run (step x) (s.deleteBundleFromStorage x f "1").2 [(.payload "2", f)]
    later.getBundlePayload x f "1" = .ok none := by
  intro x s f later
  have hkeys : KeysDiffer x s.rows := by
    intro row hrow row' hrow' id id' hid hid' hkey
    simp only [s, List.mem_cons, List.not_mem_nil, or_false] at hrow hrow'
    rcases hrow with rfl | rfl <;> rcases hrow' with rfl | rfl
    · rfl
    · cases hid
      cases hid'
      exact absurd hkey (by decide)
    · cases hid
      cases hid'
      exact absurd hkey (by decide)
    · rfl
  have hagent : ∀ c ∈ [((.payload "2", f) : Request × StoreFaults)], ∀ rows sub node,
      c.1 = .agent rows sub node → Lacks x rows "1" := by
    intro c hc rows sub node heq
    rw [List.mem_singleton.mp hc] at heq
    cases heq
  exact ((deleted_bundle_gone x s f "1" hkeys (by rfl) _ hagent).2 f rfl).2.2.1

end BundleStore

end HdyUtils.Ham
