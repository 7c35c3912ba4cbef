import HdyUtils.Basket.Fetch

/-! What the basket service makes of an item (`fetch_and_hash_item`, `handle_search` and `handle_list`
in `dtnbasket.rs`), and the requests that it answers so. -/

namespace HdyUtils.Basket

namespace CoapStatus

def content : UInt8 := 69
def forbidden : UInt8 := 131
def notAcceptable : UInt8 := 134
def requestEntityTooLarge : UInt8 := 141

end CoapStatus

def searchResultInlineLimit : Nat := 50

/-- The length of a file, and when it was modified, in seconds since the epoch. -/
structure Metadata where
  len : UInt64
  modified : Option UInt64

inductive FileKind
  | dir
  | file
  | other
deriving DecidableEq

/-- What the file system answers at one moment. -/
structure Files where
  read : String → Option Bytes
  metadata : String → Option Metadata

/-- All that the work on one item meets. -/
structure Surroundings (Url : Type) where
  world : World Url
  /-- The channel changes before the fetch is done. -/
  interrupted : Bool
  /-- The entries of a directory that can be read, with their paths. -/
  readDir : String → Option (List (String × FileKind))
  /-- The files when a search comes to each of its results. -/
  files : Nat → Files
  /-- The value in the channel when a search comes to each of its results. -/
  cancelled : Nat → Bool
  now : UInt64

structure Service where
  config : Config
  sha256 : Bytes → Bytes
  /-- The `regex` crate, without regard to case. -/
  regex : String → Option (String → Bool)

def Files.modified (files : Files) (path : String) : Option UInt64 :=
  (files.metadata path).bind Metadata.modified

/-! ### Search -/

section Search

variable (config : Config) (isMatch : String → Bool)
  (readDir : String → Option (List (String × FileKind)))

/-- A directory that a search passes over. -/
def isHidden (path : String) : Bool :=
  let name := (fileName path).getD ""
  Text.startsWith name "." || name = "target" || name = "node_modules"

/-- The directories to visit, the next one first, and the results, after an entry of a directory. -/
def lookAt (depth : Nat) (found : List (String × Nat) × List (String × String)) :
    String × FileKind → List (String × Nat) × List (String × String)
  | (path, .dir) => if isHidden path then found else ((path, depth + 1) :: found.1, found.2)
  | (path, .file) =>
    if isMatch ((fileName path).getD "") then
      let uri := "file://" ++ path
      if found.2.any fun result => result.1 = uri then found
      else (found.1, found.2 ++ [(uri, path)])
    else found
  | (_, .other) => found

/-- How many directories a search may visit below a directory, for some levels. -/
def visits : Nat → String → Nat
  | 0, _ => 1
  | levels + 1, dir => 1 + (((readDir dir).getD []).map fun entry => visits levels entry.1).sum

/-- How many directories a search may visit that has these to visit. -/
def visitsAll (dirsToVisit : List (String × Nat)) : Nat :=
  (dirsToVisit.map fun dir => visits readDir (config.maxSearchDepth + 1 - dir.2) dir.1).sum

theorem visits_pos (levels : Nat) (dir : String) : 0 < visits readDir levels dir := by
  cases levels <;> simp [visits]

theorem visitsAll_lookAt (depth : Nat) (entries : List (String × FileKind))
    (found : List (String × Nat) × List (String × String)) :
    visitsAll config readDir (entries.foldl (lookAt isMatch depth) found).1 ≤
      (entries.map fun entry =>
        visits readDir (config.maxSearchDepth + 1 - (depth + 1)) entry.1).sum +
        visitsAll config readDir found.1 := by
  induction entries generalizing found with
  | nil => simp
  | cons entry entries ih =>
    have hone : visitsAll config readDir (lookAt isMatch depth found entry).1 ≤
        visits readDir (config.maxSearchDepth + 1 - (depth + 1)) entry.1 +
          visitsAll config readDir found.1 := by
      obtain ⟨path, kind⟩ := entry
      cases kind with
      | dir =>
        simp only [lookAt]
        split
        · omega
        · exact Nat.le_refl _
      | file =>
        simp only [lookAt]
        split_ifs
        · omega
        · exact Nat.le_add_left _ _
        · omega
      | other =>
        simp only [lookAt]
        omega
    have hrest := ih (lookAt isMatch depth found entry)
    rw [List.foldl_cons, List.map_cons, List.sum_cons]
    omega

/-- Visits directories until none is left. -/
def visitDirs (dirsToVisit : List (String × Nat)) (results : List (String × String)) :
    List (String × String) :=
  match dirsToVisit with
  | [] => results
  | (currentDir, depth) :: dirsToVisit =>
    if _h : depth > config.maxSearchDepth then visitDirs dirsToVisit results
    else
      match _hread : readDir currentDir with
      | none => visitDirs dirsToVisit results
      | some entries =>
        let found := entries.foldl (lookAt isMatch depth) (dirsToVisit, results)
        visitDirs found.1 found.2
termination_by visitsAll config readDir dirsToVisit
decreasing_by
  · have hpos := visits_pos readDir (config.maxSearchDepth + 1 - depth) currentDir
    simp only [visitsAll, List.map_cons, List.sum_cons]
    omega
  · have hpos := visits_pos readDir (config.maxSearchDepth + 1 - depth) currentDir
    simp only [visitsAll, List.map_cons, List.sum_cons]
    omega
  · have hfound := visitsAll_lookAt config isMatch readDir depth entries (dirsToVisit, results)
    have hlevels : config.maxSearchDepth + 1 - depth =
        (config.maxSearchDepth + 1 - (depth + 1)) + 1 := by omega
    have hvisits : visits readDir (config.maxSearchDepth + 1 - depth) currentDir =
        1 + (entries.map fun entry =>
          visits readDir (config.maxSearchDepth + 1 - (depth + 1)) entry.1).sum := by
      rw [hlevels, visits, _hread, Option.getD_some]
    simp only [visitsAll, List.map_cons, List.sum_cons] at hfound ⊢
    omega

end Search

namespace Service

variable {Url : Type} (service : Service)

/-- The resources that match a query, with their paths: the mappings, then the files. -/
def performSearch (readDir : String → Option (List (String × FileKind))) (query : String) :
    List (String × String) :=
  match service.regex query with
  | none => []
  | some isMatch =>
    let mapped := service.config.mappings.filter fun mapping =>
      isMatch mapping.1 || isMatch ((fileName mapping.2).getD "")
    service.config.allowedDirs.foldl (fun results dir =>
      visitDirs service.config isMatch readDir [(dir, 0)] results) mapped

/-- What the index says about a resource. -/
def listEntry (files : Files) (uri path : String) : String :=
  let filename := (fileName path).getD "Unknown"
  let size := ((files.metadata path).map Metadata.len).getD 0
  let posixDate := (files.modified path).getD 0
  let hashHex := ((files.read path).map fun bytes => hexEncode (service.sha256 bytes)).getD ""
  "### " ++ filename ++ "\n\n" ++
    "- **Title**: " ++ filename ++ "\n" ++
    "- **Author**: Local System Proxy\n" ++
    "- **MIME**: " ++ guessMimeType path ++ "\n" ++
    "- **Size**: " ++ toString size.toNat ++ " bytes\n" ++
    "- **POSIX Date**: " ++ toString posixDate.toNat ++ "\n" ++
    "- **SHA-256**: " ++ hashHex ++ "\n" ++
    "- **URI**: " ++ uri ++ "\n\n"

def compileListDocument (files : Nat → Files) (query : String)
    (results : List (String × String)) : String :=
  "# Bibliographic Index: " ++ query ++ "\n\n" ++
    String.join (results.mapIdx fun n result => service.listEntry (files n) result.1 result.2)

/-! ### Responses -/

def itemMetadata (body : Bytes) (mime uri : String) (lastModified : Option UInt64) : ItemMetadata where
  hash := service.sha256 body
  size := some (.ofNat body.length)
  mimeType := some mime
  uri := some uri
  lastModified := lastModified

/-- A response without metadata. -/
def plainResponse (idx : Nat) (coapStatus : UInt8) (diagnostic : String) : ItemResponse where
  itemIdx := .ofNat idx
  coapStatus := coapStatus
  metadata := none
  diagnostic := some diagnostic

def contentResponse (idx : Nat) (metadata : ItemMetadata) (diagnostic : Option String) :
    ItemResponse where
  itemIdx := .ofNat idx
  coapStatus := CoapStatus.content
  metadata := some metadata
  diagnostic := diagnostic

def maxSize (item : RequestItem) : Nat := (item.maxSize.getD (50 * 1024 * 1024)).toNat

def fetchStatus : FetchError → UInt8
  | .payloadTooLarge => CoapStatus.requestEntityTooLarge
  | .forbidden _ => CoapStatus.forbidden
  | .notFound _ | .other _ => CoapStatus.notFound

/-- An item without formats, or with none, accepts all. -/
def accepts (item : RequestItem) (mime : String) : Bool :=
  match item.acceptedFormats with
  | none => true
  | some formats =>
    formats.isEmpty || formats.any fun format => format = "*/*" || Text.contains mime format

/-- When the file behind a URI was modified. -/
def lastModified (files : Files) (uri : String) : Option UInt64 :=
  match Text.stripStart uri "file://" with
  | some path => files.modified path
  | none => (service.config.mappings.lookup uri).bind files.modified

section Item

variable (surroundings : Surroundings Url) (item : RequestItem) (idx : Nat)
  (defaultLifetime : UInt64)

def fetchAndHashItem : Outcome :=
  if surroundings.interrupted then .cancelled
  else
    match (fetchResource surroundings.world service.config (maxSize item) [] item.uri).1 with
    | .error error => .fetched (plainResponse idx (fetchStatus error) error.toString) none
    | .ok (body, mime) =>
      if !accepts item mime then
        .fetched (plainResponse idx CoapStatus.notAcceptable
          ("MIME type " ++ mime ++ " not accepted")) none
      else
        let metadata := service.itemMetadata body mime item.uri
          (service.lastModified (surroundings.files 0) item.uri)
        .fetched (contentResponse idx metadata none) (some (body, service.sha256 body))

/-- The response and the bundle for an index of the results. -/
def indexDocument (results : List (String × String)) (diagnostic : Option String) :
    ItemResponse × RawBundle :=
  let document := service.compileListDocument surroundings.files item.uri results
  let bytes := document.toUTF8.toList
  let metadata := service.itemMetadata bytes "text/markdown; charset=utf-8" item.uri
    (some surroundings.now)
  (contentResponse idx metadata diagnostic,
    ⟨bytes, service.sha256 bytes, item.lifetimeOverride.getD defaultLifetime⟩)

/-- A client that has one of the hashes, or the start of it, has the content. -/
def alreadyOwned (hash : Bytes) : Bool :=
  item.haveHashes.any fun owned => owned.any fun h => h.isPrefixOf hash

/-- The responses and the bundles for the results of a search from the `n`-th one on, and whether the
search saw that the request is cancelled. -/
def searchInline (n : Nat) :
    List (String × String) → List ItemResponse × List RawBundle × Bool
  | [] => ([], [], false)
  | (uri, path) :: results =>
    if surroundings.cancelled n then ([], [], true)
    else
      let (responses, raws, stopped) := searchInline (n + 1) results
      match (surroundings.files n).read path with
      | none => (responses, raws, stopped)
      | some bytes =>
        if bytes.length > maxSize item then
          (plainResponse idx CoapStatus.requestEntityTooLarge
            ("Resource " ++ uri ++ " exceeds max size limit") :: responses, raws, stopped)
        else
          let hash := service.sha256 bytes
          let metadata := service.itemMetadata bytes (guessMimeType path) uri
            ((surroundings.files n).modified path)
          let response := contentResponse idx metadata none
          if alreadyOwned item hash then (response :: responses, raws, stopped)
          else
            (response :: responses,
              ⟨bytes, hash, item.lifetimeOverride.getD defaultLifetime⟩ :: raws, stopped)

def handleSearch : Outcome :=
  let results := service.performSearch surroundings.readDir item.uri
  if results.length = 0 then
    .searched (.ok ([plainResponse idx CoapStatus.notFound "No matching resources found"], [])) false
  else if results.length > searchResultInlineLimit then
    let (response, raw) := service.indexDocument surroundings item idx defaultLifetime results
      (some ("Result size exceeded " ++ toString searchResultInlineLimit ++
        ", index document returned"))
    .searched (.ok ([response], [raw])) false
  else
    let (responses, raws, stopped) :=
      service.searchInline surroundings item idx defaultLifetime 0 results
    .searched (.ok (responses, raws)) stopped

def handleList : Outcome :=
  let results := service.performSearch surroundings.readDir item.uri
  if results.isEmpty then
    .listed (.ok (plainResponse idx CoapStatus.notFound "No matching resources found", none))
  else
    let (response, raw) := service.indexDocument surroundings item idx defaultLifetime results none
    .listed (.ok (response, some raw))

/-- What comes of an item that is fetched, searched or listed. -/
def carryOut : Outcome :=
  match item.op with
  | 0 | 1 => service.fetchAndHashItem surroundings item idx
  | 2 => service.handleSearch surroundings item idx defaultLifetime
  | _ => service.handleList surroundings item idx defaultLifetime

variable {item}

theorem carryOut_fetch (hop : item.op = 0 ∨ item.op = 1) :
    service.carryOut surroundings item idx defaultLifetime =
      service.fetchAndHashItem surroundings item idx := by
  rcases hop with hop | hop <;> simp only [carryOut, hop]

theorem carryOut_search (hop : item.op = 2) :
    service.carryOut surroundings item idx defaultLifetime =
      service.handleSearch surroundings item idx defaultLifetime := by
  simp only [carryOut, hop]

theorem carryOut_list (hop : item.op = 4) :
    service.carryOut surroundings item idx defaultLifetime =
      service.handleList surroundings item idx defaultLifetime := by
  unfold carryOut
  rw [hop]
  rfl

end Item

end Service

/-! ### The tasks -/

variable {E Url : Type}

/-- What happens to the service. -/
inductive Happening (E Url : Type)
  | arrive (source : E) (payload : List Cbor.Token)
  | proceed (i : Nat)
  /-- A task carries out its item. -/
  | perform (i : Nat) (surroundings : Surroundings Url)

namespace Service

variable (service : Service)

/-- The item that a task works on, with its task. -/
def current (s : Tasks E) (i : Nat) : Option (Run E × Nat × RequestItem) :=
  match s.runs[i]? with
  | some run =>
    match run.stage with
    | .working idx => (run.request.items[idx]?).map fun item => (run, idx, item)
    | .looping _ | .leaving | .finished => none
  | none => none

def step (s : Tasks E) : Happening E Url → Tasks E
  | .arrive source payload => s.step (.arrive source payload)
  | .proceed i => s.step (.proceed i)
  | .perform i surroundings =>
    match current s i with
    | some (run, idx, item) =>
      s.step (.perform i (service.carryOut surroundings item idx run.defaultLifetime))
    | none => s

/-- The tasks after all that has happened. -/
def after (happenings : List (Happening E Url)) : Tasks E :=
  Trace.run service.step .new happenings

end Service

/-! ### The reply -/

inductive Payload
  | control (tokens : List Cbor.Token)
  | content (bytes : Bytes)

structure Bundle (E : Type) where
  dest : E
  payload : Payload
  lifetime : UInt64

namespace Run

variable (run : Run E) (parseEid : String → Option E)

def replyDest : E := (run.request.replyTo.bind parseEid).getD run.source

def response : BasketResponse where
  experimentTag := run.request.experimentTag
  version := 1
  reqId := run.request.reqId
  items := run.itemResponses

def controlBundle : Bundle E :=
  ⟨run.replyDest parseEid, .control (.tag basketTag :: run.response.toCbor), run.defaultLifetime⟩

def rawBundle (raw : RawBundle) : Bundle E :=
  ⟨run.replyDest parseEid, .content raw.body, raw.lifetime⟩

/-- Sends the content bundles; `sending n` is what comes of building, signing and sending the `n`-th
bundle. -/
def sendRaws (sending : Nat → Except String Unit) :
    Nat → List RawBundle → List (Bundle E) × Except String Unit
  | _, [] => ([], .ok ())
  | n, raw :: raws =>
    match sending n with
    | .error error => ([], .error error)
    | .ok () =>
      let (sent, result) := sendRaws sending (n + 1) raws
      (run.rawBundle parseEid raw :: sent, result)

/-- The bundles that a task sends for its request, and whether it failed. -/
def reply (sending : Nat → Except String Unit) : List (Bundle E) × Except String Unit :=
  match sending 0 with
  | .error error => ([], .error error)
  | .ok () =>
    let (sent, result) := run.sendRaws parseEid sending 1 run.rawBundlesToSend
    (run.controlBundle parseEid :: sent, result)

end Run

end HdyUtils.Basket
