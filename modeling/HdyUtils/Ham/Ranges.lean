import HdyUtils.Lib.Numerals
import HdyUtils.Lib.Text
import HdyUtils.Lib.Tilings
import HdyUtils.Security.Hardy

/-! Serving a payload over HTTP (`web/routes/mod.rs`): the whole of it, or the first of the ranges that
the request names.  The texts that come from outside, the name of the file and the type of the payload,
go into headers. -/

namespace HdyUtils.Ham

open Security

inductive StatusCode
  | ok
  | partialContent
  | rangeNotSatisfiable
deriving DecidableEq

structure Response where
  status : StatusCode
  headers : List (String × String)
  body : Bytes

/-- `OggS`. -/
def oggMagic : Bytes := [0x4F, 0x67, 0x67, 0x53]

/-- `OpusHead`. -/
def opusHead : Bytes := [0x4F, 0x70, 0x75, 0x73, 0x48, 0x65, 0x61, 0x64]

/-- The first page of an Ogg stream holds an Opus header. -/
def hasOpusHead (bytes : Bytes) : Bool :=
  decide (36 ≤ bytes.length) && bytes.take 4 == oggMagic &&
    let pageSegments := (bytes.getD 26 0).toNat
    let packetOffset := 27 + pageSegments
    decide (packetOffset + 8 ≤ bytes.length) && (bytes.drop packetOffset).take 8 == opusHead

/-- The type of the payload, more exact for Opus. -/
def refineMime (rawMime : String) (bytes : Bytes) : String :=
  if (rawMime = "audio/ogg" ∨ rawMime = "audio/opus" ∨ rawMime = "") ∧ hasOpusHead bytes = true then
    "audio/ogg; codecs=opus"
  else rawMime

/-- The types that a browser may show inline. -/
def safeInlineMimes : List String :=
  ["image/png", "image/jpeg", "image/gif", "image/webp", "audio/", "video/", "text/plain",
    "text/markdown"]

def isSafeInlineMime (mimeType : String) : Bool := safeInlineMimes.any (Text.startsWith mimeType)

/-- The name of the file without what could end the header or the quoted text. -/
def sanitizeFilename (filename : String) : String :=
  let safe := String.ofList
    (filename.toList.filter fun c => !(c == '"' || c == '\r' || c == '\n' || c == '\\'))
  if safe = "" then "payload.bin" else safe

def dispositionType (mimeType : String) (isDownload : Bool) : String :=
  if isDownload || !isSafeInlineMime mimeType then "attachment" else "inline"

/-- The text of the disposition header. -/
def disposition (mimeType filename : String) (isDownload : Bool) : String :=
  dispositionType mimeType isDownload ++ "; filename=\"" ++ sanitizeFilename filename ++ "\""

/-- The first range of the header, its text split at the first minus sign. -/
def firstRange (header : String) : Option (String × String) :=
  match Text.stripStart header "bytes=" with
  | none => none
  | some spec =>
    let first := Text.trim (Text.before ',' spec)
    match Text.after '-' first with
    | some stop => some (Text.before '-' first, stop)
    | none => none

/-- Parses a `usize`. -/
def parseUsize (s : String) : Option Nat := Numerals.parse (2 ^ 64) s

/-- The first and the last position of a range in a payload that is not empty. -/
def byteRange (total : Nat) (start stop : String) : Option (Nat × Nat) :=
  if start = "" then
    match parseUsize stop with
    | some suffix => if suffix = 0 then none else some (total - suffix, total - 1)
    | none => none
  else
    match parseUsize start with
    | some first =>
      if first < total then
        let last := if stop = "" then total - 1 else min ((parseUsize stop).getD (total - 1)) (total - 1)
        if first ≤ last then some (first, last) else none
      else none
    | none => none

section Serve

-- Whether `HeaderValue::from_str` takes a text.
variable (isHeaderValue : String → Bool)

/-- A header with the value, or with another one if it is not allowed. -/
def headerOr (name value other : String) : String × String :=
  (name, if isHeaderValue value then value else other)

/-- The headers of every response. -/
def payloadHeaders (mimeType filename : String) (isDownload : Bool) : List (String × String) :=
  [headerOr isHeaderValue "content-type" mimeType "application/octet-stream",
    headerOr isHeaderValue "content-disposition" (disposition mimeType filename isDownload) "inline",
    ("accept-ranges", "bytes"), ("x-content-type-options", "nosniff"),
    ("content-security-policy", "default-src 'none'; sandbox")]

/-- The header that says which part of the payload the body is, if its value is allowed. -/
def contentRange (value : String) : List (String × String) :=
  if isHeaderValue value then [("content-range", value)] else []

/-- Serves a payload, or the part of it that the request asks for. -/
def servePayloadWithRange (bytes : Bytes) (rawMime filename : String) (isDownload : Bool)
    (rangeHeader : Option String) : Response :=
  let totalLen := bytes.length
  let headers := payloadHeaders isHeaderValue (refineMime rawMime bytes) filename isDownload
  let whole : Response := ⟨.ok, headers ++ [("content-length", totalLen.repr)], bytes⟩
  match rangeHeader.bind firstRange with
  | none => whole
  | some (start, stop) =>
    if totalLen = 0 then whole
    else
      match byteRange totalLen start stop with
      | some (first, last) =>
        ⟨.partialContent,
          headers ++ contentRange isHeaderValue
            ("bytes " ++ first.repr ++ "-" ++ last.repr ++ "/" ++ totalLen.repr) ++
            [("content-length", (last - first + 1).repr)],
          Runs.slice bytes ⟨first, last + 1⟩⟩
      | none =>
        ⟨.rangeNotSatisfiable,
          headers ++ contentRange isHeaderValue ("bytes */" ++ totalLen.repr), []⟩

end Serve

/-! ### The ranges that a request names -/

theorem toNat_of_isDigit {c : Char} (h : c.isDigit = true) : 48 ≤ c.toNat ∧ c.toNat ≤ 57 := by
  simp only [Char.isDigit, Bool.and_eq_true, decide_eq_true_eq] at h
  exact ⟨UInt32.le_iff_toNat_le.mp h.1, UInt32.le_iff_toNat_le.mp h.2⟩

theorem isWhitespace_of_isDigit {c : Char} (h : c.isDigit = true) : Text.isWhitespace c = false := by
  have hrange := toNat_of_isDigit h
  unfold Text.isWhitespace
  simp only [Bool.or_eq_false_iff, decide_eq_false_iff_not, beq_eq_false_iff_ne]
  omega

/-- The positions of the range in a request are read back. -/
theorem firstRange_digits {start stop : String} (hstart : ∀ c ∈ start.toList, c.isDigit = true)
    (hstop : ∀ c ∈ stop.toList, c.isDigit = true) :
    firstRange ("bytes=" ++ (start ++ "-" ++ stop)) = some (start, stop) := by
  have hmem : ∀ c ∈ (start ++ "-" ++ stop).toList, c.isDigit = true ∨ c = '-' := by
    intro c hc
    simp only [String.toList_append, List.mem_append] at hc
    rcases hc with (hc | hc) | hc
    · exact .inl (hstart c hc)
    · exact .inr (by simpa using hc)
    · exact .inl (hstop c hc)
  have hcomma : ',' ∉ (start ++ "-" ++ stop).toList := fun hc => by
    have habsent := hmem ',' hc
    revert habsent
    decide
  have hplain : ∀ c ∈ (start ++ "-" ++ stop).toList, Text.isWhitespace c = false := by
    intro c hc
    rcases hmem c hc with hdigit | rfl
    · exact isWhitespace_of_isDigit hdigit
    · decide
  have hminus : '-' ∉ start.toList := fun hc => absurd (hstart _ hc) (by decide)
  have hbefore : Text.before '-' (start ++ "-" ++ stop) = start := by
    rw [String.append_assoc]
    exact Text.before_append hminus (by simp)
  unfold firstRange
  rw [Text.stripStart_append]
  simp only
  rw [Text.before_of_notMem hcomma, Text.trim_of_forall hplain,
    Text.after_append (by rfl) hminus, hbefore]

theorem parseUsize_repr {n : Nat} (h : n < 2 ^ 64) : parseUsize n.repr = some n :=
  (Numerals.parse_repr _ n).trans (if_pos h)

section ByteRange

variable {total first last : Nat} {start stop : String}

/-- A range is not empty and ends within the payload. -/
theorem bounds_of_byteRange (htotal : 0 < total) (h : byteRange total start stop = some (first, last)) :
    first ≤ last ∧ last < total := by
  unfold byteRange at h
  split at h
  · split at h
    · split at h
      · cases h
      · cases h
        omega
    · cases h
  · split at h
    · split at h
      · simp only [Option.ite_none_right_eq_some, Option.some.injEq, Prod.mk.injEq] at h
        obtain ⟨hle, rfl, rfl⟩ := h
        refine ⟨hle, ?_⟩
        split <;> omega
      · cases h
    · cases h

theorem byteRange_closed (hle : first ≤ last) (hlast : last < total) (htotal : total < 2 ^ 64) :
    byteRange total first.repr last.repr = some (first, last) := by
  unfold byteRange
  rw [if_neg (Numerals.repr_ne_empty first), parseUsize_repr (by omega), parseUsize_repr (by omega),
    if_neg (Numerals.repr_ne_empty last)]
  simp only [Option.getD_some]
  rw [if_pos (by omega), Nat.min_eq_left (by omega), if_pos hle]

theorem byteRange_open (hfirst : first < total) (htotal : total < 2 ^ 64) :
    byteRange total first.repr "" = some (first, total - 1) := by
  unfold byteRange
  rw [if_neg (Numerals.repr_ne_empty first), parseUsize_repr (by omega)]
  simp only [if_true]
  rw [if_pos hfirst, if_pos (by omega)]

theorem byteRange_beyond (hfirst : total ≤ first) : byteRange total first.repr stop = none := by
  unfold byteRange parseUsize
  rw [if_neg (Numerals.repr_ne_empty first), Numerals.parse_repr]
  by_cases hlt : first < 2 ^ 64
  · rw [if_pos hlt]
    exact if_neg (by omega)
  · rw [if_neg hlt]

/-- The end of the payload that is asked for, or all of the payload if it is shorter. -/
theorem byteRange_suffix {n : Nat} (hn : 0 < n) (hlt : n < 2 ^ 64) :
    byteRange total "" n.repr = some (total - n, total - 1) := by
  unfold byteRange
  rw [if_pos rfl, parseUsize_repr hlt]
  exact if_neg (by omega)

theorem byteRange_suffix_zero : byteRange total "" (0 : Nat).repr = none := by
  unfold byteRange
  rw [if_pos rfl, parseUsize_repr (by decide)]
  rfl

end ByteRange

/-! ### What is served -/

/-- The value of a header. -/
def Response.header (r : Response) (name : String) : Option String := r.headers.lookup name

/-- A response that is true to a payload: it has all of it, or the part that its headers name, or
nothing. -/
inductive Truthful (bytes : Bytes) (r : Response) : Prop
  | whole (status : r.status = .ok) (body : r.body = bytes) (range : r.header "content-range" = none)
      (length : r.header "content-length" = some bytes.length.repr)
  | part (first last : Nat) (status : r.status = .partialContent) (le : first ≤ last)
      (lt : last < bytes.length) (body : r.body = Runs.slice bytes ⟨first, last + 1⟩)
      (range : r.header "content-range" =
        some ("bytes " ++ first.repr ++ "-" ++ last.repr ++ "/" ++ bytes.length.repr))
      (length : r.header "content-length" = some r.body.length.repr)
  | none (status : r.status = .rangeNotSatisfiable) (body : r.body = [])
      (range : r.header "content-range" = some ("bytes */" ++ bytes.length.repr))
      (length : r.header "content-length" = Option.none)

section Served

variable {isHeaderValue : String → Bool} {bytes : Bytes} {rawMime filename : String}
  {isDownload : Bool} {header : Option String}

/-- The headers of every response say nothing about its length. -/
theorem lookup_payloadHeaders {name : String} (mimeType : String) (more : List (String × String))
    (hname : name = "content-range" ∨ name = "content-length") :
    (payloadHeaders isHeaderValue mimeType filename isDownload ++ more).lookup name =
      more.lookup name := by
  rcases hname with rfl | rfl <;> rfl

/-- A text of visible characters of ASCII. -/
def visible (s : String) : Bool := s.toList.all fun c => decide (0x20 ≤ c.toNat ∧ c.toNat < 0x7F)

/-- Every text of visible characters may be the value of a header. -/
def TakesVisible (isHeaderValue : String → Bool) : Prop :=
  ∀ s, visible s = true → isHeaderValue s = true

@[simp] theorem visible_append (s t : String) : visible (s ++ t) = (visible s && visible t) := by
  unfold visible
  rw [String.toList_append, List.all_append]

@[simp] theorem visible_repr (n : Nat) : visible n.repr = true := by
  refine List.all_eq_true.mpr fun c hc => decide_eq_true ?_
  have hrange := toNat_of_isDigit (Numerals.isDigit_of_mem_repr hc)
  omega

theorem visible_part (first last total : Nat) :
    visible ("bytes " ++ first.repr ++ "-" ++ last.repr ++ "/" ++ total.repr) = true := by
  have hbytes : visible "bytes " = true := by decide
  have hminus : visible "-" = true := by decide
  have hslash : visible "/" = true := by decide
  simp [hbytes, hminus, hslash]

theorem visible_none (total : Nat) : visible ("bytes */" ++ total.repr) = true := by
  have hbytes : visible "bytes */" = true := by decide
  simp [hbytes]

theorem contentRange_visible (h : TakesVisible isHeaderValue) {s : String} (hs : visible s = true) :
    contentRange isHeaderValue s = [("content-range", s)] := if_pos (h s hs)

theorem length_slice_bytes {first last : Nat} (hle : first ≤ last) (hlast : last < bytes.length) :
    (Runs.slice bytes ⟨first, last + 1⟩).length = last - first + 1 := by
  unfold Runs.slice
  simp only [List.length_take, List.length_drop]
  omega

/-- Every response is true to the payload. -/
theorem servePayloadWithRange_truthful (h : TakesVisible isHeaderValue) :
    Truthful bytes
      (servePayloadWithRange isHeaderValue bytes rawMime filename isDownload header) := by
  have hwhole : ∀ mimeType, Truthful bytes
      ⟨.ok, payloadHeaders isHeaderValue mimeType filename isDownload ++
        [("content-length", bytes.length.repr)], bytes⟩ := fun mimeType =>
    .whole rfl rfl (lookup_payloadHeaders mimeType _ (.inl rfl))
      (lookup_payloadHeaders mimeType _ (.inr rfl))
  unfold servePayloadWithRange
  split
  · exact hwhole _
  · next start stop _ =>
    simp only
    split
    · exact hwhole _
    · next hpos =>
      split
      · next first last hrange =>
        obtain ⟨hle, hlast⟩ := bounds_of_byteRange (Nat.pos_of_ne_zero hpos) hrange
        refine .part first last rfl hle hlast rfl ?_ ?_
        · simp only [Response.header, List.append_assoc, contentRange_visible h (visible_part _ _ _)]
          exact lookup_payloadHeaders _ _ (.inl rfl)
        · rw [length_slice_bytes hle hlast]
          simp only [Response.header, List.append_assoc, contentRange_visible h (visible_part _ _ _)]
          exact lookup_payloadHeaders _ _ (.inr rfl)
      · refine .none rfl rfl ?_ ?_
        · simp only [Response.header, contentRange_visible h (visible_none _)]
          exact lookup_payloadHeaders _ _ (.inl rfl)
        · simp only [Response.header, contentRange_visible h (visible_none _)]
          exact lookup_payloadHeaders _ _ (.inr rfl)

/-- What the body is, when the range of the request has been read. -/
def partBody (bytes : Bytes) : Option (Nat × Nat) → Bytes
  | some (first, last) => Runs.slice bytes ⟨first, last + 1⟩
  | none => []

theorem body_servePayloadWithRange {start stop : String} (hstart : ∀ c ∈ start.toList, c.isDigit = true)
    (hstop : ∀ c ∈ stop.toList, c.isDigit = true) :
    (servePayloadWithRange isHeaderValue bytes rawMime filename isDownload
      (some ("bytes=" ++ (start ++ "-" ++ stop)))).body =
      if bytes.length = 0 then [] else partBody bytes (byteRange bytes.length start stop) := by
  unfold servePayloadWithRange
  rw [Option.bind_some, firstRange_digits hstart hstop]
  simp only
  split
  · next hzero => exact List.length_eq_zero_iff.mp hzero
  · cases byteRange bytes.length start stop <;> rfl

end Served

/-- The request for a run of positions. -/
def rangeOf (r : Runs.Run Nat) : String := "bytes=" ++ (r.start.repr ++ "-" ++ (r.stop - 1).repr)

/-- The request for all from a position on. -/
def rangeFrom (k : Nat) : String := "bytes=" ++ (k.repr ++ "-" ++ "")

/-- The request for the last `n` octets. -/
def rangeLast (n : Nat) : String := "bytes=" ++ ("" ++ "-" ++ n.repr)

section Downloads

variable {isHeaderValue : String → Bool} {bytes : Bytes} {rawMime filename : String}
  {isDownload : Bool}

theorem isDigit_of_mem_empty : ∀ c ∈ "".toList, c.isDigit = true := nofun

theorem serve_run {r : Runs.Run Nat} (hlt : r.start < r.stop) (hstop : r.stop ≤ bytes.length)
    (hlen : bytes.length < 2 ^ 64) :
    (servePayloadWithRange isHeaderValue bytes rawMime filename isDownload (some (rangeOf r))).body =
      Runs.slice bytes r := by
  obtain ⟨start, stop⟩ := r
  simp only at hlt hstop
  rw [rangeOf, body_servePayloadWithRange (fun c => Numerals.isDigit_of_mem_repr)
    (fun c => Numerals.isDigit_of_mem_repr), if_neg (by omega)]
  simp only
  rw [byteRange_closed (by omega) (by omega) hlen, partBody, Nat.sub_add_cancel (by omega)]

theorem serve_from (k : Nat) (hlen : bytes.length < 2 ^ 64) :
    (servePayloadWithRange isHeaderValue bytes rawMime filename isDownload (some (rangeFrom k))).body =
      bytes.drop k := by
  rw [rangeFrom, body_servePayloadWithRange (fun c => Numerals.isDigit_of_mem_repr)
    isDigit_of_mem_empty]
  rcases Nat.lt_or_ge k bytes.length with hlt | hge
  · rw [if_neg (by omega), byteRange_open hlt hlen, partBody, Runs.slice,
      List.take_of_length_le (by simp only [List.length_drop]; omega)]
  · rw [byteRange_beyond hge, List.drop_of_length_le hge]
    split <;> rfl

theorem serve_last {n : Nat} (hn : n < 2 ^ 64) :
    (servePayloadWithRange isHeaderValue bytes rawMime filename isDownload (some (rangeLast n))).body =
      bytes.drop (bytes.length - n) := by
  rw [rangeLast, body_servePayloadWithRange isDigit_of_mem_empty
    (fun c => Numerals.isDigit_of_mem_repr)]
  split
  · next hzero => simp [List.length_eq_zero_iff.mp hzero]
  · next hne =>
    rcases Nat.eq_zero_or_pos n with rfl | hpos
    · rw [byteRange_suffix_zero, partBody, Nat.sub_zero, List.drop_length]
    · rw [byteRange_suffix hpos hn, partBody, Runs.slice,
        List.take_of_length_le (by simp only [List.length_drop]; omega)]

/-- A payload is served as it is: each response is true to it, the parts of a download are the payload
in order whatever parts are asked for, and a download that broke off goes on where it was. -/
theorem payload_served (h : TakesVisible isHeaderValue) (bytes : Bytes)
    (hlen : bytes.length < 2 ^ 64) (rawMime filename : String) (isDownload : Bool) :
    let serve := servePayloadWithRange isHeaderValue bytes rawMime filename isDownload
    (∀ header, Truthful bytes (serve header)) ∧
    (∀ parts, Runs.Tiles 0 bytes.length parts →
      (parts.map fun r => (serve (some (rangeOf r))).body).flatten = bytes) ∧
    (∀ k, bytes.take k ++ (serve (some (rangeFrom k))).body = bytes) ∧
    ∀ n, n < 2 ^ 64 → (serve (some (rangeLast n))).body = bytes.drop (bytes.length - n) := by
  intro serve
  refine ⟨fun header => servePayloadWithRange_truthful h, ?_, ?_, fun n hn => serve_last hn⟩
  · intro parts hparts
    have hslices : parts.map (fun r => (serve (some (rangeOf r))).body) =
        parts.map (Runs.slice bytes) := by
      apply List.map_congr_left
      intro r hr
      obtain ⟨-, hlt, hstop⟩ := hparts.bounds hr
      exact serve_run hlt hstop hlen
    rw [hslices, hparts.flatten_slices]
    simp [Runs.slice]
  · intro k
    rw [serve_from k hlen, List.take_append_drop]

/-- A payload of five octets in three parts. -/
theorem payload_served_parts :
    (([⟨0, 2⟩, ⟨2, 3⟩, ⟨3, 5⟩] : List (Runs.Run Nat)).map fun r =>
      (servePayloadWithRange visible [1, 2, 3, 4, 5] "text/plain" "a.txt" false
        (some (rangeOf r))).body).flatten = [1, 2, 3, 4, 5] :=
  (payload_served (show TakesVisible visible from fun _ hs => hs) [1, 2, 3, 4, 5] (by decide)
    "text/plain" "a.txt" false).2.1 _
    ⟨rfl, by decide, rfl, by decide, rfl, by decide, rfl⟩

end Downloads

end HdyUtils.Ham
