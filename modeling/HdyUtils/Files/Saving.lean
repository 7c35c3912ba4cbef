import HdyUtils.Basket.Codec
import HdyUtils.Ham.Storage
import HdyUtils.Lib.Paths
import HdyUtils.Lib.Trace
import HdyUtils.Security.Keys

/-! The tool that saves payloads as files (`dtnfiles.rs`).  `files_saved` says what is on the disk after
any deliveries: nothing has changed outside the directory, and in it each file is what the last bundle
that was let through has left there. -/

namespace HdyUtils.Files

open Security Ham Trace

abbrev Disk := List String → Option Bytes

/-- The fields of a metadata file. -/
structure Metadata where
  bundleId : String
  source : String
  destination : String
  reportTo : String
  creationTime : Option String
  sequenceNumber : Nat
  lifetimeSeconds : Nat
  isFragment : Bool
  fragmentOffset : Option Nat
  totalAduLength : Option Nat

/-- The service, with what it takes from the crates and the directory that it runs in. -/
structure FilesService (E : Type) where
  platform : Platform E
  sha256 : Bytes → String
  prettyResponse : Basket.BasketResponse → Option String
  prettyMetadata : Metadata → Option String
  cwd : List String
  dir : String
  keystore : KeyStore
  policy : VerifyPolicy
  metadata : Bool

/-- A bundle that is delivered, and how the writes of its files end. -/
structure Delivery where
  data : Bytes
  write : Write
  metadataWrite : Write

namespace FilesService

/-! ### The names of the files -/

/-- The extensions of the formats that are told by the first octets. -/
def magic (data : Bytes) : Option String :=
  let len := data.length
  let sync := data.getD 0 0 = 0xFF ∧ data.getD 1 0 &&& 0xE0 = 0xE0
  if 4 ≤ len then
    if data.take 4 = [0x89, 0x50, 0x4E, 0x47] then some "png"
    else if data.take 3 = [0xFF, 0xD8, 0xFF] then some "jpg"
    else if data.take 3 = [0x47, 0x49, 0x46] then some "gif"
    else if data.take 4 = [0x50, 0x4B, 0x03, 0x04] then some "zip"
    else if 12 ≤ len ∧ data.take 4 = ascii "RIFF" ∧ (data.drop 8).take 4 = ascii "WEBP" then some "webp"
    else if data.take 2 = [0x42, 0x4D] then some "bmp"
    else if data.take 4 = [0x4F, 0x67, 0x67, 0x53] then some "ogg"
    else if data.take 3 = ascii "ID3" ∨ sync then some "mp3"
    else if data.take 2 = [0x1F, 0x8B] then some "tar.gz"
    else if 8 ≤ len ∧ (data.drop 4).take 4 = ascii "ftyp" then some "m4a"
    else none
  else if 3 ≤ len then
    if data.take 3 = [0xFF, 0xD8, 0xFF] then some "jpg"
    else if data.take 3 = [0x47, 0x49, 0x46] then some "gif"
    else if data.take 3 = ascii "ID3" then some "mp3"
    else if data.take 2 = [0x42, 0x4D] then some "bmp"
    else if data.take 2 = [0x1F, 0x8B] then some "tar.gz"
    else if sync then some "mp3"
    else none
  else if 2 ≤ len then
    if data.take 2 = [0x42, 0x4D] then some "bmp"
    else if data.take 2 = [0x1F, 0x8B] then some "tar.gz"
    else if sync then some "mp3"
    else none
  else none

variable {E : Type} (service : FilesService E)

def basketResponse (data : Bytes) : Option Basket.BasketResponse :=
  (Cbor.decode Basket.BasketResponse.fromCbor (service.platform.hardy.tokens data)).toOption

def detectExtension (data : Bytes) : String :=
  if (service.basketResponse data).isSome then "basket.json"
  else
    (magic data).getD <|
      (String.fromUTF8? ⟨data.toArray⟩).elim "bin" fun text =>
        if Text.startsWith text "#" || containsText text "**" || containsText text "* " then "md"
        else "txt"

/-- The bundle id as a file name. -/
def safeBundleId (bundleId : String) : String :=
  Text.map (fun c => if c = '/' ∨ c = '\\' then '_' else c) bundleId

def filename (bundleId ext : String) : String := safeBundleId bundleId ++ ("." ++ ext)

def metadataFilename (bundleId : String) : String := safeBundleId bundleId ++ "-metadata.json"

/-! ### A delivery -/

/-- The id of a bundle, or the hash of what is none. -/
def bundleId (data : Bytes) : String :=
  match service.platform.hardy.parse data with
  | .ok parsed => service.platform.toKey parsed.bundle.primary
  | .error _ => service.sha256 data

/-- What is saved of a bundle: its payload, or else all of it. -/
def payload (data : Bytes) : Bytes :=
  match service.platform.hardy.parse data with
  | .ok parsed => parsed.payload.getD data
  | .error _ => data

def metadataOf (primary : PrimaryBlock E) : Metadata where
  bundleId := service.platform.toKey primary
  source := service.platform.hardy.eidString primary.source
  destination := service.platform.hardy.eidString primary.destination
  reportTo := service.platform.hardy.eidString primary.reportTo
  creationTime := primary.timestamp.datetime.map service.platform.rfc3339
  sequenceNumber := primary.timestamp.sequence
  lifetimeSeconds := primary.lifetime / Duration.fromSecs 1
  isFragment := primary.fragment.isSome
  fragmentOffset := primary.fragment.map (·.offset)
  totalAduLength := primary.fragment.map (·.totalLength)

/-- The text of the metadata file, if there is to be one. -/
def metadataText (data : Bytes) : Option String :=
  match service.platform.hardy.parse data with
  | .ok parsed =>
    if service.metadata then service.prettyMetadata (service.metadataOf parsed.bundle.primary) else none
  | .error _ => none

/-- The policy drops the bundle. -/
def drops (data : Bytes) : Bool :=
  if service.policy = .ignore then false
  else
    match verifyBundle service.platform.hardy service.keystore data with
    | .valid => false
    | .invalid _ | .unsigned => service.policy = .strict

/-- What is written of a payload: a response of a basket as JSON, another one as it is. -/
def toWrite (payload : Bytes) : Bytes :=
  if service.detectExtension payload = "basket.json" then
    (((service.basketResponse payload).bind service.prettyResponse).map fun text =>
      text.toUTF8.toList).getD payload
  else payload

/-- The place of a file of the directory. -/
def placeOf (name : String) : List String := Paths.place service.cwd (Paths.join service.dir name)

def payloadPlace (data : Bytes) : List String :=
  service.placeOf (filename (service.bundleId data) (service.detectExtension (service.payload data)))

def metadataPlace (data : Bytes) : List String :=
  service.placeOf (metadataFilename (service.bundleId data))

/-- Saves the payload, and then the metadata.  A write that fails is logged. -/
def onDeliver (disk : Disk) (d : Delivery) : Disk :=
  if service.drops d.data then disk
  else
    let content := d.write.left (service.toWrite (service.payload d.data))
    let saved := content.elim disk fun content =>
      Function.update disk (service.payloadPlace d.data) (some content)
    if d.write = .done then
      let text := (service.metadataText d.data).bind fun text => d.metadataWrite.left text.toUTF8.toList
      text.elim saved fun text => Function.update saved (service.metadataPlace d.data) (some text)
    else saved

/-! ### Where the files are -/

/-- The place of the directory. -/
def root : List String := Paths.place service.cwd service.dir

def extensions : List String :=
  ["basket.json", "png", "jpg", "gif", "zip", "webp", "bmp", "ogg", "mp3", "tar.gz", "m4a", "md", "txt",
    "bin"]

def Known (ext : Option String) : Prop := ext.all (fun ext => decide (ext ∈ extensions)) = true

theorem Known.ite {c : Prop} [Decidable c] {a b : Option String} (ha : Known a) (hb : Known b) :
    Known (if c then a else b) := by
  split
  · exact ha
  · exact hb

theorem known_magic (data : Bytes) : Known (magic data) := by
  unfold magic
  dsimp only
  repeat' apply Known.ite
  all_goals
    unfold Known
    decide

theorem detectExtension_mem (data : Bytes) : service.detectExtension data ∈ extensions := by
  unfold detectExtension
  split
  · decide
  · cases hmagic : magic data with
    | some ext =>
      have hknown : Known (some ext) := hmagic ▸ known_magic data
      exact of_decide_eq_true hknown
    | none =>
      cases String.fromUTF8? ⟨data.toArray⟩ with
      | none => show "bin" ∈ extensions; decide
      | some text =>
        show (if _ then "md" else "txt") ∈ extensions
        split <;> decide

/-- A name of a file, and not of a directory or of a file elsewhere. -/
structure PlainName (name : String) : Prop where
  slash : '/' ∉ name.toList
  last : ∃ c, name.toList.getLast? = some c ∧ c ≠ '.'

theorem notMem_safeBundleId (bundleId : String) : '/' ∉ (safeBundleId bundleId).toList := by
  unfold safeBundleId Text.map
  rw [String.toList_ofList]
  intro hmem
  obtain ⟨c, -, hc⟩ := List.mem_map.mp hmem
  split at hc
  · cases hc
  · next hne => exact hne (.inl hc)

theorem plainName_append (bundleId : String) {ending : String} (h : PlainName ending) :
    PlainName (safeBundleId bundleId ++ ending) where
  slash := by
    rw [String.toList_append]
    intro hmem
    rcases List.mem_append.mp hmem with hid | hending
    · exact notMem_safeBundleId bundleId hid
    · exact h.slash hending
  last := by
    obtain ⟨c, hlast, hc⟩ := h.last
    refine ⟨c, ?_, hc⟩
    rw [String.toList_append, List.getLast?_append, hlast]
    rfl

theorem plainName_filename (bundleId : String) {ext : String} (h : ext ∈ extensions) :
    PlainName (filename bundleId ext) := by
  have hall : ∀ ext ∈ extensions, '/' ∉ ("." ++ ext).toList ∧
      (("." ++ ext).toList.getLast?.any fun c => c ≠ '.') = true := by decide
  obtain ⟨hslash, hlast⟩ := hall ext h
  refine plainName_append bundleId ⟨hslash, ?_⟩
  obtain ⟨c, hc, hdot⟩ := (Option.any_eq_true _ _).mp hlast
  exact ⟨c, hc, of_decide_eq_true hdot⟩

example : filename "dtn://a/../../etc/passwd" "txt" = "dtn:__a_.._.._etc_passwd.txt" := by decide

theorem plainName_metadataFilename (bundleId : String) : PlainName (metadataFilename bundleId) :=
  plainName_append bundleId ⟨by decide, 'n', by decide, by decide⟩

/-- A file is at its name in the directory. -/
theorem placeOf_plain {name : String} (h : PlainName name) :
    service.placeOf name = service.root ++ [name] := by
  obtain ⟨c, hlast, hc⟩ := h.last
  have hne : name ≠ "" := by
    rintro rfl
    cases hlast
  have hdot : name ≠ "." := by
    rintro rfl
    exact hc (Option.some.inj hlast).symm
  have hdots : name ≠ ".." := by
    rintro rfl
    exact hc (Option.some.inj hlast).symm
  have habsolute : Paths.isAbsolute name = false := by
    unfold Paths.isAbsolute Text.startsWith
    cases hchars : name.toList with
    | nil => rfl
    | cons first rest =>
      have hfirst : first ≠ '/' := fun heq =>
        h.slash (hchars ▸ heq ▸ List.mem_cons_self)
      have hslash : "/".toList = ['/'] := rfl
      rw [hslash, List.isPrefixOf_cons_cons]
      simp [hfirst.symm]
  have hparts : Paths.parts name = [name] := Text.split_of_notMem h.slash
  unfold placeOf
  rw [Paths.place_join habsolute, hparts, Paths.resolve, if_neg (by simp [hne, hdot]), if_neg hdots]
  rfl

/-- No payload file has the name of a metadata file. -/
theorem filename_ne_metadataFilename (bundleId bundleId' : String) {ext : String}
    (h : ext ∈ extensions) : filename bundleId ext ≠ metadataFilename bundleId' := by
  have hall : ∀ ext ∈ extensions, ¬("." ++ ext).toList <:+ "-metadata.json".toList ∧
      ¬"-metadata.json".toList <:+ ("." ++ ext).toList := by decide
  intro heq
  have hleft : ("." ++ ext).toList <:+ (filename bundleId ext).toList := by
    unfold filename
    rw [String.toList_append (s := safeBundleId bundleId)]
    exact List.suffix_append _ _
  have hright : "-metadata.json".toList <:+ (filename bundleId ext).toList := by
    rw [heq]
    unfold metadataFilename
    rw [String.toList_append]
    exact List.suffix_append _ _
  obtain ⟨hnot, hnot'⟩ := hall ext h
  rcases List.suffix_or_suffix_of_suffix hleft hright with hin | hin
  · exact hnot hin
  · exact hnot' hin

theorem payloadPlace_eq (data : Bytes) : ∃ ext ∈ extensions,
    service.payloadPlace data = service.root ++ [filename (service.bundleId data) ext] :=
  ⟨_, service.detectExtension_mem _,
    service.placeOf_plain (plainName_filename _ (service.detectExtension_mem _))⟩

theorem metadataPlace_eq (data : Bytes) :
    service.metadataPlace data = service.root ++ [metadataFilename (service.bundleId data)] :=
  service.placeOf_plain (plainName_metadataFilename _)

theorem payloadPlace_ne_metadataPlace (data data' : Bytes) :
    service.payloadPlace data ≠ service.metadataPlace data' := by
  obtain ⟨ext, hext, hplace⟩ := service.payloadPlace_eq data
  rw [hplace, metadataPlace_eq]
  intro heq
  have hname := List.append_cancel_left heq
  exact filename_ne_metadataFilename _ _ hext (List.cons.inj hname).1

/-! ### What is on the disk -/

/-- What a delivery leaves at a place, if it changes it. -/
def leaves (d : Delivery) (place : List String) : Option Bytes :=
  if service.drops d.data then none
  else if place = service.payloadPlace d.data then
    d.write.left (service.toWrite (service.payload d.data))
  else if d.write = .done ∧ place = service.metadataPlace d.data then
    (service.metadataText d.data).bind fun text => d.metadataWrite.left text.toUTF8.toList
  else none

theorem update_elim {disk : Disk} {place place' : List String} {content : Option Bytes} :
    (content.elim disk fun bytes => Function.update disk place (some bytes)) place' =
      if place' = place then content.or (disk place') else disk place' := by
  cases content with
  | none => exact (ite_self _).symm
  | some bytes => exact Function.update_apply disk place (some bytes) place'

theorem onDeliver_place (disk : Disk) (d : Delivery) (place : List String) :
    service.onDeliver disk d place = (service.leaves d place).or (disk place) := by
  have hapart := service.payloadPlace_ne_metadataPlace d.data d.data
  unfold onDeliver leaves
  cases service.drops d.data with
  | true => rfl
  | false =>
    rw [if_neg Bool.false_ne_true, if_neg Bool.false_ne_true]
    by_cases hwrite : d.write = .done
    · rw [if_pos hwrite, update_elim, update_elim]
      by_cases hpayload : place = service.payloadPlace d.data
      · rw [if_neg (hpayload ▸ hapart), if_pos hpayload, if_pos hpayload]
      · by_cases hmetadata : place = service.metadataPlace d.data
        · rw [if_pos hmetadata, if_neg hpayload, if_neg hpayload, if_pos ⟨hwrite, hmetadata⟩]
        · rw [if_neg hmetadata, if_neg hpayload, if_neg hpayload, if_neg fun h => hmetadata h.2]
          rfl
    · rw [if_neg hwrite, update_elim, if_neg (c := d.write = .done ∧ _) fun h => hwrite h.1]
      split <;> rfl

/-- A place has what the last delivery that changed it left there, or else what it had. -/
theorem run_cases (disk : Disk) (ds : List Delivery) (place : List String) :
    (run service.onDeliver disk ds place = disk place ∧ ∀ d ∈ ds, service.leaves d place = none) ∨
      ∃ front d rest content, ds = front ++ d :: rest ∧ service.leaves d place = some content ∧
        (∀ later ∈ rest, service.leaves later place = none) ∧
        run service.onDeliver disk ds place = some content := by
  induction ds generalizing disk with
  | nil => exact .inl ⟨rfl, nofun⟩
  | cons d ds ih =>
    rcases ih (service.onDeliver disk d) with ⟨hsame, hnone⟩ | ⟨front, d', rest, content, rfl, hrun⟩
    · rw [onDeliver_place] at hsame
      cases hleaves : service.leaves d place with
      | none =>
        rw [hleaves] at hsame
        exact .inl ⟨hsame, List.forall_mem_cons.mpr ⟨hleaves, hnone⟩⟩
      | some content =>
        rw [hleaves] at hsame
        exact .inr ⟨[], d, ds, content, rfl, hleaves, hnone, hsame⟩
    · exact .inr ⟨d :: front, d', rest, content, rfl, hrun⟩

/-- What the service has done to the disk.  Outside the directory nothing has changed.  What has changed
in it is the payload file or the metadata file of a bundle that the policy let through, as that bundle
and its write left it.  A payload that was saved whole is still there, unless a later bundle that was let
through has the same file name; the metadata of no bundle takes its place. -/
structure Saved (disk after : Disk) (ds : List Delivery) : Prop where
  outside : ∀ place, (∀ name, place ≠ service.root ++ [name]) → after place = disk place
  origin : ∀ place, after place ≠ disk place → ∃ d ∈ ds,
    (service.policy = .strict →
      verifyBundle service.platform.hardy service.keystore d.data = .valid) ∧
    ((place = service.payloadPlace d.data ∧
        after place = d.write.left (service.toWrite (service.payload d.data))) ∨
      (place = service.metadataPlace d.data ∧ ∃ text, service.metadataText d.data = some text ∧
        after place = d.metadataWrite.left text.toUTF8.toList))
  kept : ∀ front d rest, ds = front ++ d :: rest → service.drops d.data = false → d.write = .done →
    (∀ later ∈ rest, service.drops later.data = false →
      service.payloadPlace later.data ≠ service.payloadPlace d.data) →
    after (service.payloadPlace d.data) = some (service.toWrite (service.payload d.data))

variable {service}

theorem valid_of_admitted {data : Bytes} (h : service.drops data = false)
    (hstrict : service.policy = .strict) :
    verifyBundle service.platform.hardy service.keystore data = .valid := by
  unfold drops at h
  rw [hstrict, if_neg (by decide)] at h
  split at h
  · assumption
  · cases h
  · cases h

theorem leaves_eq_some {d : Delivery} {place : List String} {content : Bytes}
    (h : service.leaves d place = some content) : service.drops d.data = false ∧
      ((place = service.payloadPlace d.data ∧
          some content = d.write.left (service.toWrite (service.payload d.data))) ∨
        (place = service.metadataPlace d.data ∧ ∃ text, service.metadataText d.data = some text ∧
          some content = d.metadataWrite.left text.toUTF8.toList)) := by
  unfold leaves at h
  split at h
  · cases h
  · next hdrops =>
    refine ⟨Bool.eq_false_iff.mpr hdrops, ?_⟩
    split at h
    · next hpayload => exact .inl ⟨hpayload, h.symm⟩
    · split at h
      · next hmetadata =>
        obtain ⟨text, htext, hleft⟩ := Option.bind_eq_some_iff.mp h
        exact .inr ⟨hmetadata.2, text, htext, hleft.symm⟩
      · cases h

/-- A place in the directory holds files of the directory only. -/
theorem exists_name_of_leaves {d : Delivery} {place : List String} {content : Bytes}
    (h : service.leaves d place = some content) : ∃ name, place = service.root ++ [name] := by
  rcases (leaves_eq_some h).2 with ⟨hplace, -⟩ | ⟨hplace, -⟩
  · obtain ⟨ext, -, hname⟩ := service.payloadPlace_eq d.data
    exact ⟨_, hplace.trans hname⟩
  · exact ⟨_, hplace.trans (service.metadataPlace_eq d.data)⟩

/-- Only a bundle with this file name, which the policy lets through, changes a payload file. -/
theorem leaves_payloadPlace {later : Delivery} {data : Bytes}
    (h : service.drops later.data = false →
      service.payloadPlace later.data ≠ service.payloadPlace data) :
    service.leaves later (service.payloadPlace data) = none := by
  unfold leaves
  cases hdrops : service.drops later.data with
  | true => rfl
  | false =>
    rw [if_neg Bool.false_ne_true, if_neg (h hdrops).symm,
      if_neg fun hthis => service.payloadPlace_ne_metadataPlace data later.data hthis.2]

end FilesService

open FilesService

/-- Whatever is delivered, in whatever order, and however the writes end, the service has saved what the
policy let through, and nothing else. -/
theorem files_saved {E : Type} (service : FilesService E) (disk : Disk) (ds : List Delivery) :
    service.Saved disk (run service.onDeliver disk ds) ds where
  outside := by
    intro place hout
    rcases service.run_cases disk ds place with ⟨hsame, -⟩ | ⟨-, d, -, content, -, hleaves, -⟩
    · exact hsame
    · obtain ⟨name, hname⟩ := exists_name_of_leaves hleaves
      exact absurd hname (hout name)
  origin := by
    intro place hchanged
    rcases service.run_cases disk ds place with
      ⟨hsame, -⟩ | ⟨front, d, rest, content, rfl, hleaves, -, hrun⟩
    · exact absurd hsame hchanged
    · obtain ⟨hdrops, hfiles⟩ := leaves_eq_some hleaves
      rw [hrun]
      exact ⟨d, List.mem_append_right _ List.mem_cons_self, valid_of_admitted hdrops, hfiles⟩
  kept := by
    rintro front d rest rfl hdrops hwrite hlater
    have hleaves : service.leaves d (service.payloadPlace d.data) =
        some (service.toWrite (service.payload d.data)) := by
      unfold leaves
      rw [hdrops, if_neg Bool.false_ne_true, if_pos rfl, hwrite]
      rfl
    rw [run_append, run_cons]
    rcases service.run_cases (service.onDeliver (run service.onDeliver disk front) d) rest
      (service.payloadPlace d.data) with ⟨hsame, -⟩ | ⟨front', d', rest', content, rfl, hleaves', -⟩
    · rw [hsame, onDeliver_place, hleaves]
      rfl
    · rw [leaves_payloadPlace (hlater d' (List.mem_append_right _ List.mem_cons_self))] at hleaves'
      cases hleaves'

end HdyUtils.Files
