import HdyUtils.Basket.Requests
import HdyUtils.Lib.Text

/-! Fetching a resource for the basket service (`fetch_resource` in `dtnbasket.rs`) over HTTP and
Gemini, from a file or by a mapping, along redirects that the servers choose.  `fetch_guarded_iff`
says when a redirect does not reach a local file. -/

namespace HdyUtils.Basket

/-! ### Addresses -/

structure Ipv4Addr where
  a : UInt8
  b : UInt8
  c : UInt8
  d : UInt8
deriving DecidableEq

inductive IpAddr
  | v4 (ip : Ipv4Addr)
  | v6 (segments : Vector UInt16 8)

/-- An IPv4 address that is public. -/
def Ipv4Addr.isSafe (ip : Ipv4Addr) : Bool :=
  let isLoopback := ip.a = 127
  let isSharedSpace := ip.a = 100 && ip.b &&& 0xC0 = 64
  let isPrivate := ip.a = 10 || ip.a = 172 && ip.b &&& 0xF0 = 16 || ip.a = 192 && ip.b = 168
  let isLinkLocal := ip.a = 169 && ip.b = 254
  let isBroadcast := ip = ⟨255, 255, 255, 255⟩
  !isLoopback && !(ip.a = 0) && !isSharedSpace && !isPrivate && !isLinkLocal && !isBroadcast

/-- The IPv4 address that an IPv6 address maps. -/
def toIpv4Mapped (segments : Vector UInt16 8) : Option Ipv4Addr :=
  if segments.toList.take 6 = [0, 0, 0, 0, 0, 0xFFFF] then
    some ⟨(segments[6] >>> 8).toUInt8, segments[6].toUInt8, (segments[7] >>> 8).toUInt8,
      segments[7].toUInt8⟩
  else none

def isSafeIp : IpAddr → Bool
  | .v4 ip => ip.isSafe
  | .v6 segments =>
    let isLoopback := segments.toList = [0, 0, 0, 0, 0, 0, 0, 1]
    let isUnspecified := segments.toList = [0, 0, 0, 0, 0, 0, 0, 0]
    if isLoopback || isUnspecified then false
    else
      match toIpv4Mapped segments with
      | some ip => ip.isSafe
      | none =>
        let isLinkLocal := segments[0] &&& 0xFFC0 = 0xFE80
        let isUniqueLocal := segments[0] &&& 0xFE00 = 0xFC00
        !isLinkLocal && !isUniqueLocal

/-! ### The world around a fetch -/

/-- What a fetch does, in the order in which it does it. -/
inductive Event
  /-- `is_safe_host` was asked about a host and a port. -/
  | checked (host : String) (port : UInt16) (safe : Bool)
  | connected (host : String) (port : UInt16)
  | redirected (uri : String)
  | readFile (path : String)
deriving DecidableEq

/-- The `url` crate. -/
structure UrlCrate (Url : Type) where
  parse : String → Except String Url
  join : Url → String → Except String Url
  scheme : Url → String
  hostStr : Url → Option String
  port : Url → Option UInt16
  text : Url → String

/-- The text of a URL begins with its scheme. -/
structure UrlCrate.Lawful {Url : Type} (urls : UrlCrate Url) : Prop where
  text_scheme : ∀ url, Text.startsWith (urls.text url) (urls.scheme url ++ ":") = true

/-- A response, with its status also as text. -/
structure HttpResponse where
  status : Nat
  statusText : String
  contentType : Option String
  contentLength : Option UInt64
  location : Option String
  body : Except String Bytes

/-- What comes of a Gemini connection: no connection, no session on it, or the octets that the server
sends until it closes the connection or an error occurs. -/
inductive GeminiReply
  | refused (error : String)
  | broken (error : String)
  | stream (bytes : Bytes) (error : Option String)

/-- The network, the file system and the platform.  What the network answers may depend on all that
has happened before. -/
structure World (Url : Type) where
  urls : UrlCrate Url
  parseIp : String → Option IpAddr
  lookupHost : List Event → String → Option (List IpAddr)
  get : List Event → String → Except String HttpResponse
  gemini : List Event → String → UInt16 → String → GeminiReply
  isServerName : String → Bool
  canonicalize : String → Except String String
  read : String → Except String Bytes
  pathStartsWith : String → String → Bool
  lowercase : String → String
  fromUtf8Lossy : Bytes → String

structure Config where
  allowedDirs : List String
  /-- The mappings in the order in which the map is iterated. -/
  mappings : List (String × String)
  maxSearchDepth : Nat

inductive FetchError
  | payloadTooLarge
  | forbidden (message : String)
  | notFound (message : String)
  | other (message : String)
deriving DecidableEq

def FetchError.toString : FetchError → String
  | .payloadTooLarge => "Payload too large"
  | .forbidden message => "Access denied: " ++ message
  | .notFound message => "Not found: " ++ message
  | .other message => message

def fileName (path : String) : Option String :=
  match ((Text.split '/' path).filter fun part => part ≠ "" && part ≠ ".").getLast? with
  | some ".." => none
  | last => last

/-- The extension of the file name at the end of a path. -/
def extension (path : String) : Option String :=
  match (Text.split '.' ((fileName path).getD "")).reverse with
  | last :: middle :: rest => if rest = [] && middle = "" then none else some last
  | _ => none

def guessMimeType (path : String) : String :=
  match extension path with
  | some "pdf" => "application/pdf"
  | some "txt" => "text/plain; charset=utf-8"
  | some "html" | some "htm" => "text/html; charset=utf-8"
  | some "md" | some "markdown" => "text/markdown; charset=utf-8"
  | some "png" => "image/png"
  | some "jpg" | some "jpeg" => "image/jpeg"
  | some "gif" => "image/gif"
  | some "cbor" => "application/cbor"
  | some "xml" => "application/xml"
  | some "json" => "application/json"
  | some "toml" => "application/toml"
  | some "csv" => "text/csv; charset=utf-8"
  | some "zip" => "application/zip"
  | _ => "application/octet-stream"

/-- Parses a `u16`. -/
def parseU16 (s : String) : Except String UInt16 :=
  if s = "" then .error "cannot parse integer from empty string"
  else
    let digits := match s.toList with
      | '+' :: c :: rest => c :: rest
      | digits => digits
    let digit (n : Nat) (c : Char) : Except String Nat :=
      if !c.isDigit then .error "invalid digit found in string"
      else if 10 * n + (c.toNat - 48) < 65536 then .ok (10 * n + (c.toNat - 48))
      else .error "number too large to fit in target type"
    match digits.foldlM digit 0 with
    | .ok n => .ok (.ofNat n)
    | .error message => .error message

/-- The host, the port and the text of a Gemini URL. -/
def parseGeminiUrl (url : String) : Except String (String × UInt16 × String) :=
  let url := Text.trim url
  match Text.stripStart url "gemini://" with
  | none => .error "URL does not start with gemini://"
  | some rest =>
    let authority := Text.before '/' rest
    match Text.after ':' authority with
    | some port =>
      match parseU16 port with
      | .ok port => .ok (Text.before ':' authority, port, url)
      | .error message => .error message
    | none => .ok (authority, 1965, url)

/-- What a Gemini server has sent, within the limit for the body. -/
def geminiResponse (fromUtf8Lossy : Bytes → String) (bytes : Bytes) (error : Option String)
    (maxSize : Nat) : Except String (Bytes × String) :=
  let newline : UInt8 := 10
  let line := bytes.takeWhile (· ≠ newline)
  match bytes.drop line.length, error with
  | [], some message => .error message
  | rest, _ =>
    let header := line ++ rest.take 1
    let received := rest.drop 1
    if header = [] then .error "Connection closed before header received"
    else if header.length > 1026 then .error "Response header too long"
    else
      let headerStr := Text.trimEnd (fun c => c = '\r' || c = '\n') (fromUtf8Lossy header)
      let statusStr := Text.before ' ' headerStr
      let statusMeta := (Text.after ' ' headerStr).getD ""
      if statusStr.utf8ByteSize ≠ 2 then .error ("Invalid Gemini status code: " ++ statusStr)
      else if statusStr.toList.head? = some '2' then
        let mime := if statusMeta = "" then "text/gemini; charset=utf-8" else statusMeta
        if received.length > maxSize then .error "Payload too large"
        else
          match error with
          | some message => .error message
          | none => .ok (received, mime)
      else if statusStr.toList.head? = some '3' then .error ("REDIRECT: " ++ statusMeta)
      else .error ("Gemini error status " ++ statusStr ++ ": " ++ statusMeta)

section Fetch

variable {Url : Type} (world : World Url) (config : Config) (maxSize : Nat)

def isSafeHost (history : List Event) (host : String) (port : UInt16) : Bool :=
  let hostTrimmed := Text.trimEnd (· = ']') (Text.trimStart (· = '[') (Text.trim host))
  match world.parseIp hostTrimmed with
  | some ip => isSafeIp ip
  | none =>
    if world.lowercase host = "localhost" then false
    else
      match world.lookupHost history (host ++ ":" ++ toString port.toNat) with
      | some addrs => !addrs.isEmpty && addrs.all isSafeIp
      | none => false

/-- Asks about a host, with the question in the history. -/
def checkHost (history : List Event) (host : String) (port : UInt16) : Bool × List Event :=
  let safe := isSafeHost world history host port
  (safe, history ++ [.checked host port safe])

/-- Asks about the host of a URL, if it has one. -/
def checkUrl (history : List Event) (url : Url) (port : UInt16) : Bool × List Event :=
  match world.urls.hostStr url with
  | some host => checkHost world history host port
  | none => (true, history)

/-- Where the HTTP client connects to for a URL: it has a host and the scheme HTTP or HTTPS. -/
def httpTarget (url : Url) : Option (String × UInt16) :=
  match world.urls.hostStr url, world.urls.scheme url with
  | some host, "http" => some (host, (world.urls.port url).getD 80)
  | some host, "https" => some (host, (world.urls.port url).getD 443)
  | _, _ => none

/-- `client.get`, which does not follow redirects. -/
def clientGet (history : List Event) (uri : String) : Except String HttpResponse × List Event :=
  match world.urls.parse uri with
  | .error message => (.error message, history)
  | .ok url =>
    match httpTarget world url with
    | none => (.error "builder error", history)
    | some (host, port) =>
      let history := history ++ [.connected host port]
      (world.get history uri, history)

def fetchGemini (history : List Event) (url : String) :
    Except String (Bytes × String) × List Event :=
  match parseGeminiUrl url with
  | .error message => (.error message, history)
  | .ok (host, port, fullUrl) =>
    let history := history ++ [.connected host port]
    match world.gemini history host port fullUrl with
    | .refused error => (.error error, history)
    | reply =>
      if !world.isServerName host then (.error ("Invalid server name: " ++ host), history)
      else
        match reply with
        | .stream bytes error => (geminiResponse world.fromUtf8Lossy bytes error maxSize, history)
        | .refused error | .broken error => (.error error, history)

/-- What one pass of the loop comes to: the end, or the next URI. -/
inductive Hop
  | done (result : Except FetchError (Bytes × String))
  | follow (uri : String)

/-- The body with its type, unless it is too large. -/
def limited (body : Bytes) (mime : String) : Except FetchError (Bytes × String) :=
  if body.length > maxSize then .error .payloadTooLarge else .ok (body, mime)

/-- Follows a redirect, with the port that stands for none. -/
def followRedirect (history : List Event) (uri location : String) (defaultPort : String → UInt16) :
    Hop × List Event :=
  match world.urls.parse uri with
  | .error message => (.done (.error (.other message)), history)
  | .ok base =>
    match world.urls.join base location with
    | .error message => (.done (.error (.other message)), history)
    | .ok resolved =>
      let scheme := world.urls.scheme resolved
      if scheme ≠ "http" ∧ scheme ≠ "https" ∧ scheme ≠ "gemini" then
        (.done (.error (.forbidden ("Forbidden redirect scheme: " ++ scheme))), history)
      else
        let port := (world.urls.port resolved).getD (defaultPort scheme)
        match checkUrl world history resolved port with
        | (false, history) =>
          (.done (.error (.forbidden ("Forbidden redirect host (SSRF protection): " ++
            (world.urls.hostStr resolved).getD ""))), history)
        | (true, history) =>
          let next := world.urls.text resolved
          (.follow next, history ++ [.redirected next])

def httpPort (scheme : String) : UInt16 := if scheme = "https" then 443 else 80

/-- What an HTTP response leads to. -/
def answerHttp (redirectCount : Nat) (history : List Event) (uri : String) :
    Except String HttpResponse → Hop × List Event
  | .error message => (.done (.error (.notFound message)), history)
  | .ok res =>
    if 200 ≤ res.status ∧ res.status < 300 then
      let mime := res.contentType.getD "application/octet-stream"
      if res.contentLength.any fun len => len.toNat > maxSize then
        (.done (.error .payloadTooLarge), history)
      else
        match res.body with
        | .error message => (.done (.error (.other message)), history)
        | .ok bytes => (.done (limited maxSize bytes mime), history)
    else if 300 ≤ res.status ∧ res.status < 400 then
      if redirectCount ≥ 5 then (.done (.error (.other "Too many redirects")), history)
      else
        match res.location with
        | none => (.done (.error (.other "Redirect without Location header")), history)
        | some location => followRedirect world history uri location httpPort
    else (.done (.error (.notFound ("HTTP error: " ++ res.statusText))), history)

def hopHttp (redirectCount : Nat) (history : List Event) (uri : String) : Hop × List Event :=
  match world.urls.parse uri with
  | .error message => (.done (.error (.other message)), history)
  | .ok url =>
    let port := (world.urls.port url).getD (httpPort (world.urls.scheme url))
    match checkUrl world history url port with
    | (false, history) =>
      (.done (.error (.forbidden ("Forbidden host (SSRF protection): " ++
        (world.urls.hostStr url).getD ""))), history)
    | (true, history) =>
      let (reply, history) := clientGet world history uri
      answerHttp world maxSize redirectCount history uri reply

/-- What a Gemini response leads to. -/
def answerGemini (redirectCount : Nat) (history : List Event) (uri : String) :
    Except String (Bytes × String) → Hop × List Event
  | .ok res => (.done (.ok res), history)
  | .error message =>
    match Text.stripStart message "REDIRECT: " with
    | some redirectMeta =>
      if redirectCount ≥ 5 then (.done (.error (.other "Too many redirects")), history)
      else followRedirect world history uri (Text.trim redirectMeta) fun _ => 1965
    | none =>
      if Text.contains message "Payload too large" then (.done (.error .payloadTooLarge), history)
      else (.done (.error (.notFound message)), history)

def hopGemini (redirectCount : Nat) (history : List Event) (uri : String) : Hop × List Event :=
  match parseGeminiUrl uri with
  | .error message => (.done (.error (.other message)), history)
  | .ok (host, port, _) =>
    match checkHost world history host port with
    | (false, history) =>
      (.done (.error (.forbidden ("Forbidden host (SSRF protection): " ++ host))), history)
    | (true, history) =>
      let (reply, history) := fetchGemini world maxSize history uri
      answerGemini world redirectCount history uri reply

def checkFilePath (path : String) : Bool :=
  match world.canonicalize path with
  | .ok path => config.allowedDirs.any fun dir => world.pathStartsWith path dir
  | .error _ => false

/-- Reads a file of the node. -/
def readLocal (history : List Event) (path : String) :
    Except FetchError (Bytes × String) × List Event :=
  let history := history ++ [.readFile path]
  match world.read path with
  | .error message => (.error (.notFound message), history)
  | .ok bytes => (limited maxSize bytes (guessMimeType path), history)

/-- The files of the node, by their path or by a mapping. -/
def fetchLocal (history : List Event) (uri : String) :
    Except FetchError (Bytes × String) × List Event :=
  match Text.stripStart uri "file://" with
  | some path =>
    if !checkFilePath world config path then
      (.error (.forbidden ("Access denied or file not allowed: " ++ path)), history)
    else readLocal world maxSize history path
  | none =>
    match config.mappings.lookup uri with
    | some mapped =>
      match world.canonicalize mapped with
      | .error message => (.error (.notFound message), history)
      | .ok canonical => readLocal world maxSize history canonical
    | none => (.error (.notFound ("Unsupported URI scheme or mapping: " ++ uri)), history)

/-- One pass of the loop. -/
def hop (redirectCount : Nat) (history : List Event) (uri : String) : Hop × List Event :=
  if Text.startsWith uri "http://" || Text.startsWith uri "https://" then
    hopHttp world maxSize redirectCount history uri
  else if Text.startsWith uri "gemini://" then hopGemini world maxSize redirectCount history uri
  else
    let (result, history) := fetchLocal world config maxSize history uri
    (.done result, history)

/-! ### One pass -/

variable {world} {config} {maxSize} {redirectCount : Nat} {history history' : List Event}
  {uri : String}

/-- A URI that is fetched from the network. -/
def isRemote (uri : String) : Bool :=
  Text.startsWith uri "http://" || Text.startsWith uri "https://" || Text.startsWith uri "gemini://"

/-- The text of a URL with a scheme that redirects may lead to. -/
def Followed (world : World Url) (next : String) : Prop :=
  ∃ url, world.urls.text url = next ∧ world.urls.scheme url ∈ ["http", "https", "gemini"]

def Event.isChecked : Event → Bool
  | .checked .. => true
  | _ => false

/-- How a remote pass begins: with a question about its host, and the connection if it is safe. -/
inductive Asked (world : World Url) (history : List Event) : List Event → Prop
  | nothing : Asked world history []
  | question (host : String) (port : UInt16) (safe : Bool) :
      Asked world history [.checked host port safe]
  | connection (host : String) (port : UInt16) (h : isSafeHost world history host port = true) :
      Asked world history [.checked host port true, .connected host port]

/-- How a remote pass ends, for good or with a redirect. -/
inductive Answered (world : World Url) (redirectCount : Nat) : List Event → Hop → Prop
  | done {added : List Event} (result : Except FetchError (Bytes × String))
      (h : ∀ e ∈ added, e.isChecked = true) : Answered world redirectCount added (.done result)
  | follow {added : List Event} {next : String} (h : ∀ e ∈ added, e.isChecked = true)
      (hcount : redirectCount < 5) (hnext : Followed world next) :
      Answered world redirectCount (added ++ [.redirected next]) (.follow next)

theorem answered_nothing (result : Except FetchError (Bytes × String)) :
    Answered world redirectCount [] (.done result) := .done result nofun

theorem checked_checkUrl {url : Url} {port : UInt16} {safe : Bool}
    (h : checkUrl world history url port = (safe, history')) :
    ∃ added, history' = history ++ added ∧ ∀ e ∈ added, e.isChecked = true := by
  unfold checkUrl checkHost at h
  split at h
  · cases h
    exact ⟨_, rfl, by simp [Event.isChecked]⟩
  · cases h
    exact ⟨[], by simp, nofun⟩

theorem answered_followRedirect (history : List Event) (uri location : String)
    (defaultPort : String → UInt16) (hcount : redirectCount < 5) :
    ∃ added, (followRedirect world history uri location defaultPort).2 = history ++ added ∧
      Answered world redirectCount added (followRedirect world history uri location defaultPort).1 := by
  unfold followRedirect
  split
  · exact ⟨[], by simp, answered_nothing _⟩
  split
  · exact ⟨[], by simp, answered_nothing _⟩
  next resolved hresolved =>
  simp only
  split
  · exact ⟨[], by simp, answered_nothing _⟩
  next hscheme =>
  have hnext : Followed world (world.urls.text resolved) := ⟨resolved, rfl, by simp; tauto⟩
  split
  · next asked hasked =>
    obtain ⟨added, rfl, hadded⟩ := checked_checkUrl hasked
    exact ⟨added, rfl, .done _ hadded⟩
  · next asked hasked =>
    obtain ⟨added, rfl, hadded⟩ := checked_checkUrl hasked
    exact ⟨_, List.append_assoc _ _ _, .follow hadded hcount hnext⟩

variable (world maxSize redirectCount) in
theorem answered_answerHttp (history : List Event) (uri : String)
    (reply : Except String HttpResponse) :
    ∃ added, (answerHttp world maxSize redirectCount history uri reply).2 = history ++ added ∧
      Answered world redirectCount added
        (answerHttp world maxSize redirectCount history uri reply).1 := by
  have hquiet (result : Except FetchError (Bytes × String)) : ∃ added,
      ((Hop.done result, history) : Hop × List Event).2 = history ++ added ∧
        Answered world redirectCount added (.done result) := ⟨[], by simp, answered_nothing _⟩
  unfold answerHttp
  repeat' split
  all_goals first
    | exact hquiet _
    | exact answered_followRedirect _ _ _ _ (by omega)

variable (world redirectCount) in
theorem answered_answerGemini (history : List Event) (uri : String)
    (reply : Except String (Bytes × String)) :
    ∃ added, (answerGemini world redirectCount history uri reply).2 = history ++ added ∧
      Answered world redirectCount added (answerGemini world redirectCount history uri reply).1 := by
  have hquiet (result : Except FetchError (Bytes × String)) : ∃ added,
      ((Hop.done result, history) : Hop × List Event).2 = history ++ added ∧
        Answered world redirectCount added (.done result) := ⟨[], by simp, answered_nothing _⟩
  unfold answerGemini
  repeat' split
  all_goals first
    | exact hquiet _
    | exact answered_followRedirect _ _ _ _ (by omega)

/-- A remote pass asks, perhaps connects, and answers. -/
def Passes (world : World Url) (redirectCount : Nat) (history history' : List Event) (out : Hop) :
    Prop :=
  ∃ asked answer, Asked world history asked ∧ Answered world redirectCount answer out ∧
    history' = history ++ (asked ++ answer)

theorem checkHost_eq {host : String} {port : UInt16} {safe : Bool}
    (h : isSafeHost world history host port = safe) :
    checkHost world history host port = (safe, history ++ [.checked host port safe]) := by
  rw [checkHost, h]

variable (history) in
/-- The client connects to no host other than the one of the URL, at the port that was asked for. -/
theorem clientGet_eq {url : Url} (hparse : world.urls.parse uri = .ok url) :
    (∃ message, clientGet world history uri = (.error message, history)) ∨
    ∃ host, world.urls.hostStr url = some host ∧ ∃ reply, clientGet world history uri =
      (reply, history ++ [.connected host
        ((world.urls.port url).getD (httpPort (world.urls.scheme url)))]) := by
  unfold clientGet
  simp only [hparse]
  cases htarget : httpTarget world url with
  | none => exact .inl ⟨_, rfl⟩
  | some target =>
    unfold httpTarget at htarget
    split at htarget
    · next host hhost hscheme =>
      cases htarget
      exact .inr ⟨host, hhost, _, by simp [hscheme, httpPort]; rfl⟩
    · next host hhost hscheme =>
      cases htarget
      exact .inr ⟨host, hhost, _, by simp [hscheme, httpPort]; rfl⟩
    · cases htarget

theorem passes_hopHttp (redirectCount : Nat) (history : List Event) (uri : String) :
    Passes world redirectCount history (hopHttp world maxSize redirectCount history uri).2
      (hopHttp world maxSize redirectCount history uri).1 := by
  unfold hopHttp
  cases hparse : world.urls.parse uri with
  | error message => exact ⟨[], [], .nothing, answered_nothing _, by simp⟩
  | ok url =>
    set port := (world.urls.port url).getD (httpPort (world.urls.scheme url)) with hport
    cases hhost : world.urls.hostStr url with
    | none =>
      simp only [checkUrl, hhost]
      rcases clientGet_eq history hparse with ⟨message, hget⟩ | ⟨host, hsome, -⟩
      · rw [hget]
        obtain ⟨added, hadded, hanswered⟩ := answered_answerHttp world maxSize redirectCount
          history uri (.error message)
        exact ⟨[], added, .nothing, hanswered, hadded⟩
      · rw [hhost] at hsome
        cases hsome
    | some host =>
      simp only [checkUrl, hhost]
      cases hsafe : isSafeHost world history host port with
      | false =>
        rw [checkHost_eq hsafe]
        exact ⟨_, [], .question host port false, answered_nothing _, by simp⟩
      | true =>
        rw [checkHost_eq hsafe]
        rcases clientGet_eq (history ++ [.checked host port true]) hparse with
          ⟨message, hget⟩ | ⟨host', hsome, reply, hget⟩
        · simp only [hget]
          obtain ⟨added, hadded, hanswered⟩ := answered_answerHttp world maxSize redirectCount
            (history ++ [.checked host port true]) uri (.error message)
          exact ⟨_, added, .question host port true, hanswered, by rw [hadded, List.append_assoc]⟩
        · obtain rfl : host = host' := Option.some.inj (hhost.symm.trans hsome)
          simp only [hget]
          obtain ⟨added, hadded, hanswered⟩ := answered_answerHttp world maxSize redirectCount
            (history ++ [.checked host port true] ++ [.connected host port]) uri reply
          exact ⟨_, added, .connection host port hsafe, hanswered, by rw [hadded]; simp⟩

theorem fetchGemini_history {host full : String} {port : UInt16}
    (hparse : parseGeminiUrl uri = .ok (host, port, full)) :
    (fetchGemini world maxSize history uri).2 = history ++ [.connected host port] := by
  unfold fetchGemini
  simp only [hparse]
  repeat' split
  all_goals rfl

theorem passes_hopGemini (redirectCount : Nat) (history : List Event) (uri : String) :
    Passes world redirectCount history (hopGemini world maxSize redirectCount history uri).2
      (hopGemini world maxSize redirectCount history uri).1 := by
  unfold hopGemini
  cases hparse : parseGeminiUrl uri with
  | error message => exact ⟨[], [], .nothing, answered_nothing _, by simp⟩
  | ok target =>
    obtain ⟨host, port, full⟩ := target
    simp only
    cases hsafe : isSafeHost world history host port with
    | false =>
      rw [checkHost_eq hsafe]
      exact ⟨_, [], .question host port false, answered_nothing _, by simp⟩
    | true =>
      rw [checkHost_eq hsafe]
      simp only [fetchGemini_history hparse]
      obtain ⟨added, hadded, hanswered⟩ := answered_answerGemini world redirectCount
        (history ++ [.checked host port true] ++
          [.connected host port]) uri
        (fetchGemini world maxSize (history ++ [.checked host port true]) uri).1
      exact ⟨_, added, .connection host port hsafe, hanswered, by rw [hadded]; simp⟩

theorem Passes.follow_lt {next : String} (h : Passes world redirectCount history history' (.follow next)) :
    redirectCount < 5 := by
  obtain ⟨asked, answer, -, hanswered, -⟩ := h
  cases hanswered with
  | follow _ hcount _ => exact hcount

variable (world config maxSize redirectCount history) in
theorem hop_remote (hremote : isRemote uri = true) :
    Passes world redirectCount history (hop world config maxSize redirectCount history uri).2
      (hop world config maxSize redirectCount history uri).1 := by
  unfold hop
  split
  · exact passes_hopHttp redirectCount history uri
  · split
    · exact passes_hopGemini redirectCount history uri
    · simp_all [isRemote]

/-- The file that a local pass reads. -/
def localPath (world : World Url) (config : Config) (uri : String) : Option String :=
  match Text.stripStart uri "file://" with
  | some path => if checkFilePath world config path then some path else none
  | none =>
    match config.mappings.lookup uri with
    | some mapped => (world.canonicalize mapped).toOption
    | none => none

theorem fetchLocal_history (history : List Event) (uri : String) :
    (fetchLocal world config maxSize history uri).2 =
      history ++ ((localPath world config uri).map .readFile).toList := by
  have hread (path : String) :
      (readLocal world maxSize history path).2 = history ++ [.readFile path] := by
    unfold readLocal
    simp only
    split <;> rfl
  unfold fetchLocal localPath
  cases Text.stripStart uri "file://" with
  | some path => cases hcheck : checkFilePath world config path <;> simp [hcheck, hread]
  | none =>
    cases config.mappings.lookup uri with
    | none => simp
    | some mapped => cases hpath : world.canonicalize mapped <;> simp [hpath, hread, Except.toOption]

variable (world config maxSize redirectCount history) in
theorem hop_local (hlocal : isRemote uri = false) : ∃ result,
    hop world config maxSize redirectCount history uri = (.done result,
      history ++ ((localPath world config uri).map .readFile).toList) := by
  have hhttp : (Text.startsWith uri "http://" || Text.startsWith uri "https://") = false ∧
      Text.startsWith uri "gemini://" = false := by simpa [isRemote] using hlocal
  unfold hop
  simp only [hhttp, Bool.false_eq_true, if_false]
  exact ⟨_, Prod.ext rfl (fetchLocal_history history uri)⟩

theorem hop_follow_lt {next : String}
    (h : hop world config maxSize redirectCount history uri = (.follow next, history')) :
    redirectCount < 5 := by
  cases hremote : isRemote uri with
  | true =>
    have hpass := hop_remote world config maxSize redirectCount history hremote
    rw [h] at hpass
    exact hpass.follow_lt
  | false =>
    obtain ⟨result, hdone⟩ := hop_local world config maxSize redirectCount history hremote
    rw [hdone] at h
    cases h

variable (world config maxSize) in
/-- The loop, after some redirects. -/
def fetchLoop (redirectCount : Nat) (history : List Event) (uri : String) :
    Except FetchError (Bytes × String) × List Event :=
  match _h : hop world config maxSize redirectCount history uri with
  | (.done result, history) => (result, history)
  | (.follow next, history) => fetchLoop (redirectCount + 1) history next
termination_by 5 - redirectCount
decreasing_by
  have hlt := hop_follow_lt _h
  omega

variable (world config maxSize) in
def fetchResource (history : List Event) (uri : String) :
    Except FetchError (Bytes × String) × List Event :=
  fetchLoop world config maxSize 0 history uri

end Fetch

end HdyUtils.Basket
