import HdyUtils.Basket.Fetch

/-! The redirects of a fetch.  Every connection follows a question about its own host and port, there
are at most six, and no redirect reaches a local file unless it leads to a mapping of a URL without a
host: `fetch_guarded_iff`. -/

namespace HdyUtils.Basket

section Redirects

variable {Url : Type} {world : World Url} {config : Config} {maxSize redirectCount : Nat}
  {history history' added : List Event} {uri : String} {out : Hop}

/-! ### Connections -/

def Event.isConnected : Event → Bool
  | .connected .. => true
  | _ => false

/-- A connection is opened right after its host and port were found safe. -/
def Guarded (world : World Url) (history : List Event) : Prop :=
  ∀ before host port rest, history = before ++ .connected host port :: rest →
    ∃ earlier, before = earlier ++ [.checked host port true] ∧
      isSafeHost world earlier host port = true

/-- The number of connections of a history. -/
def connections (history : List Event) : Nat := history.countP Event.isConnected

theorem guarded_nil : Guarded world [] := by
  intro before host port rest heq
  simp at heq

theorem Guarded.append (h : Guarded world history)
    (hadded : ∀ e ∈ added, e.isConnected = false) : Guarded world (history ++ added) := by
  intro before host port rest heq
  rcases List.append_eq_append_iff.mp heq with ⟨middle, -, hmem⟩ | ⟨middle, hhistory, hmem⟩
  · have hconnected := hadded (.connected host port) (by simp [hmem])
    simp [Event.isConnected] at hconnected
  · cases middle with
    | nil =>
      have hin : Event.connected host port ∈ [] ++ added := hmem ▸ List.mem_cons_self
      have hconnected := hadded _ hin
      simp [Event.isConnected] at hconnected
    | cons e middle =>
      obtain ⟨rfl, -⟩ := List.cons.inj hmem
      exact h before host port middle hhistory

theorem Guarded.connect {host : String} {port : UInt16} (h : Guarded world history)
    (hsafe : isSafeHost world history host port = true) :
    Guarded world (history ++ [.checked host port true, .connected host port]) := by
  have hchecked : Guarded world (history ++ [.checked host port true]) :=
    h.append (by simp [Event.isConnected])
  intro before host' port' rest heq
  rcases List.eq_nil_or_concat rest with rfl | ⟨rest, last, rfl⟩
  · have hsplit : history ++ [.checked host port true] ++ [.connected host port] =
        before ++ [.connected host' port'] := by simpa using heq
    obtain ⟨rfl, hlast⟩ := List.append_inj' hsplit rfl
    obtain ⟨rfl, rfl⟩ : host = host' ∧ port = port' := by simpa using hlast
    exact ⟨history, rfl, hsafe⟩
  · have hsplit : history ++ [.checked host port true] ++ [.connected host port] =
        before ++ .connected host' port' :: rest ++ [last] := by simpa using heq
    obtain ⟨hbefore, -⟩ := List.append_inj' hsplit rfl
    exact hchecked before host' port' rest hbefore

theorem Answered.quiet (h : Answered world redirectCount added out) :
    ∀ e ∈ added, e.isConnected = false ∧ ∀ path, e ≠ .readFile path := by
  have hchecked : ∀ e : Event, e.isChecked = true →
      e.isConnected = false ∧ ∀ path, e ≠ .readFile path := by
    intro e he
    cases e <;> simp_all [Event.isChecked, Event.isConnected]
  cases h with
  | done _ h => exact fun e he => hchecked e (h e he)
  | follow h _ _ =>
    intro e he
    rcases List.mem_append.mp he with hmem | hmem
    · exact hchecked e (h e hmem)
    · rw [List.mem_singleton.mp hmem]
      exact ⟨rfl, by simp⟩

theorem Passes.guarded (h : Passes world redirectCount history history' out)
    (hhistory : Guarded world history) : Guarded world history' := by
  obtain ⟨asked, answer, hasked, hanswered, rfl⟩ := h
  have hguarded : Guarded world (history ++ asked) := by
    cases hasked with
    | nothing => exact hhistory.append nofun
    | question host port safe => exact hhistory.append (by simp [Event.isConnected])
    | connection host port hsafe => exact hhistory.connect hsafe
  rw [← List.append_assoc]
  exact hguarded.append fun e he => (hanswered.quiet e he).1

theorem Passes.connections (h : Passes world redirectCount history history' out) :
    connections history' ≤ connections history + 1 := by
  obtain ⟨asked, answer, hasked, hanswered, rfl⟩ := h
  have hquiet : answer.countP Event.isConnected = 0 :=
    List.countP_eq_zero.mpr fun e he => by simp [(hanswered.quiet e he).1]
  simp only [Basket.connections, List.countP_append, hquiet]
  cases hasked <;> simp [Event.isConnected]

variable (world config maxSize redirectCount uri) in
theorem hop_guarded (h : Guarded world history) :
    Guarded world (hop world config maxSize redirectCount history uri).2 := by
  cases hremote : isRemote uri with
  | true => exact (hop_remote world config maxSize redirectCount history hremote).guarded h
  | false =>
    obtain ⟨result, hdone⟩ := hop_local world config maxSize redirectCount history hremote
    rw [hdone]
    refine h.append fun e he => ?_
    obtain ⟨path, -, rfl⟩ : ∃ path, localPath world config uri = some path ∧ .readFile path = e := by
      simpa using he
    rfl

variable (world config maxSize redirectCount history uri) in
theorem hop_connections :
    connections (hop world config maxSize redirectCount history uri).2 ≤
      connections history + 1 := by
  cases hremote : isRemote uri with
  | true => exact (hop_remote world config maxSize redirectCount history hremote).connections
  | false =>
    obtain ⟨result, hdone⟩ := hop_local world config maxSize redirectCount history hremote
    rw [hdone]
    simp only [connections, List.countP_append]
    cases localPath world config uri <;> simp [Event.isConnected]

/-- All connections of a fetch are guarded. -/
theorem fetchLoop_guarded (h : Guarded world history) :
    Guarded world (fetchLoop world config maxSize redirectCount history uri).2 := by
  fun_induction fetchLoop world config maxSize redirectCount history uri with
  | case1 redirectCount history uri result history' hhop =>
    have hguarded := hop_guarded world config maxSize redirectCount uri h
    rwa [hhop] at hguarded
  | case2 redirectCount history uri next history' hhop ih =>
    have hguarded := hop_guarded world config maxSize redirectCount uri h
    rw [hhop] at hguarded
    exact ih hguarded

/-- A fetch opens at most as many connections as are left, and one more. -/
theorem fetchLoop_connections (hcount : redirectCount ≤ 5) :
    connections (fetchLoop world config maxSize redirectCount history uri).2 + redirectCount ≤
      connections history + 6 := by
  fun_induction fetchLoop world config maxSize redirectCount history uri with
  | case1 redirectCount history uri result history' hhop =>
    have hone := hop_connections world config maxSize redirectCount history uri
    rw [hhop] at hone
    simp only at hone ⊢
    omega
  | case2 redirectCount history uri next history' hhop ih =>
    have hone := hop_connections world config maxSize redirectCount history uri
    have hlt := hop_follow_lt hhop
    have hrest := ih (by omega)
    rw [hhop] at hone
    simp only at hone ⊢
    omega

/-! ### Local files -/

/-- A mapping of this URI, which is not fetched from the network, to a file that exists. -/
def Mapped (world : World Url) (config : Config) (uri : String) : Prop :=
  isRemote uri = false ∧ ∃ mapped canonical, config.mappings.lookup uri = some mapped ∧
    world.canonicalize mapped = .ok canonical

theorem startsWith_iff {s start : String} :
    Text.startsWith s start = true ↔ start.toList <+: s.toList := List.isPrefixOf_iff_prefix

/-- No redirect is followed to a file by its path. -/
theorem Followed.not_file (hlaw : world.urls.Lawful) (h : Followed world uri) :
    Text.stripStart uri "file://" = none := by
  obtain ⟨url, rfl, hscheme⟩ := h
  have htext := hlaw.text_scheme url
  unfold Text.stripStart
  rw [if_neg]
  intro hfile
  rw [startsWith_iff] at htext hfile
  have hstartes := List.prefix_or_prefix_of_prefix htext hfile
  simp only [List.mem_cons, List.not_mem_nil, or_false] at hscheme
  rcases hscheme with hscheme | hscheme | hscheme <;> rw [hscheme] at hstartes <;>
    exact absurd hstartes (by decide)

variable (config) in
theorem Followed.localPath_iff (hlaw : world.urls.Lawful) (h : Followed world uri)
    (hlocal : isRemote uri = false) :
    (∃ path, localPath world config uri = some path) ↔ Mapped world config uri := by
  unfold localPath Mapped
  rw [h.not_file hlaw]
  cases config.mappings.lookup uri with
  | none => simp
  | some mapped => cases hpath : world.canonicalize mapped <;> simp [hlocal, hpath, Except.toOption]

theorem Passes.reads (h : Passes world redirectCount history history' out) {path : String}
    (hmem : .readFile path ∈ history') : .readFile path ∈ history := by
  obtain ⟨asked, answer, hasked, hanswered, rfl⟩ := h
  rcases List.mem_append.mp hmem with hmem | hmem
  · exact hmem
  · rcases List.mem_append.mp hmem with hmem | hmem
    · cases hasked <;> simp at hmem
    · exact absurd rfl ((hanswered.quiet _ hmem).2 path)

theorem Passes.redirects (h : Passes world redirectCount history history' out) {next : String}
    (hmem : .redirected next ∈ history') : .redirected next ∈ history ∨ out = .follow next := by
  obtain ⟨asked, answer, hasked, hanswered, rfl⟩ := h
  rcases List.mem_append.mp hmem with hmem | hmem
  · exact .inl hmem
  · rcases List.mem_append.mp hmem with hmem | hmem
    · cases hasked <;> simp at hmem
    · cases hanswered with
      | done _ h =>
        have hchecked := h _ hmem
        cases hchecked
      | follow h _ _ =>
        rcases List.mem_append.mp hmem with hmem | hmem
        · have hchecked := h _ hmem
          cases hchecked
        · cases List.mem_singleton.mp hmem
          exact .inr rfl

theorem Passes.follow {next : String} (h : Passes world redirectCount history history' (.follow next)) :
    Followed world next ∧ .redirected next ∈ history' ∧ history <+: history' := by
  obtain ⟨asked, answer, hasked, hanswered, rfl⟩ := h
  cases hanswered with
  | follow _ _ hnext => exact ⟨hnext, by simp, List.prefix_append _ _⟩

/-- A pass with a redirect is remote. -/
theorem passes_of_follow {next : String}
    (h : hop world config maxSize redirectCount history uri = (.follow next, history')) :
    isRemote uri = true ∧ Passes world redirectCount history history' (.follow next) := by
  cases hremote : isRemote uri with
  | true =>
    have hpass := hop_remote world config maxSize redirectCount history hremote
    rw [h] at hpass
    exact ⟨rfl, hpass⟩
  | false =>
    obtain ⟨result, hdone⟩ := hop_local world config maxSize redirectCount history hremote
    rw [hdone] at h
    cases h

/-- After a redirect, a file is read exactly if a redirect leads to a mapping. -/
theorem fetchLoop_reads (hlaw : world.urls.Lawful) (huri : Followed world uri)
    (hmem : .redirected uri ∈ history) (hreads : ∀ path, .readFile path ∉ history)
    (hpassed : ∀ u, .redirected u ∈ history → u = uri ∨ ¬Mapped world config u) :
    (∃ path, .readFile path ∈ (fetchLoop world config maxSize redirectCount history uri).2) ↔
      ∃ u, .redirected u ∈ (fetchLoop world config maxSize redirectCount history uri).2 ∧
        Mapped world config u := by
  fun_induction fetchLoop world config maxSize redirectCount history uri with
  | case1 redirectCount history uri result history' hhop =>
    cases hremote : isRemote uri with
    | true =>
      have hpass := hop_remote world config maxSize redirectCount history hremote
      rw [hhop] at hpass
      constructor
      · rintro ⟨path, hpath⟩
        exact absurd (hpass.reads hpath) (hreads path)
      · rintro ⟨u, hu, hmapped⟩
        rcases hpass.redirects hu with hu | hfollow
        · rcases hpassed u hu with rfl | hnot
          · rw [hmapped.1] at hremote
            cases hremote
          · exact absurd hmapped hnot
        · cases hfollow
    | false =>
      obtain ⟨result', hdone⟩ := hop_local world config maxSize redirectCount history hremote
      rw [hhop] at hdone
      obtain ⟨-, rfl⟩ := Prod.mk.inj hdone
      have hmapped := huri.localPath_iff config hlaw hremote
      have hread : (∃ path, Event.readFile path ∈
          history ++ ((localPath world config uri).map .readFile).toList) ↔
          ∃ path, localPath world config uri = some path := by simp [hreads]
      rw [hread, hmapped]
      constructor
      · intro h
        exact ⟨uri, List.mem_append_left _ hmem, h⟩
      · rintro ⟨u, hu, h⟩
        have hold : Event.redirected u ∈ history := by simpa using hu
        rcases hpassed u hold with rfl | hnot
        · exact h
        · exact absurd h hnot
  | case2 redirectCount history uri next history' hhop ih =>
    obtain ⟨hremote, hpass⟩ := passes_of_follow hhop
    obtain ⟨hnext, hin, -⟩ := hpass.follow
    refine ih hnext hin (fun path hpath => hreads path (hpass.reads hpath)) fun u hu => ?_
    rcases hpass.redirects hu with hu | hfollow
    · rcases hpassed u hu with rfl | hnot
      · exact .inr fun hmapped => by rw [hmapped.1] at hremote; cases hremote
      · exact .inr hnot
    · cases hfollow
      exact .inl rfl

theorem prefix_fetchLoop :
    history <+: (fetchLoop world config maxSize redirectCount history uri).2 := by
  fun_induction fetchLoop world config maxSize redirectCount history uri with
  | case1 redirectCount history uri result history' hhop =>
    cases hremote : isRemote uri with
    | true =>
      obtain ⟨asked, answer, -, -, heq⟩ :=
        hop_remote world config maxSize redirectCount history hremote
      rw [hhop] at heq
      exact ⟨_, heq.symm⟩
    | false =>
      obtain ⟨result', hdone⟩ := hop_local world config maxSize redirectCount history hremote
      rw [hhop] at hdone
      exact ⟨_, (Prod.mk.inj hdone).2.symm⟩
  | case2 redirectCount history uri next history' hhop ih =>
    exact (passes_of_follow hhop).2.follow.2.2.trans ih

/-- No file is read after a redirect. -/
def NoLocalAfterRedirect (history : List Event) : Prop :=
  ∀ before path rest, history = before ++ .readFile path :: rest →
    ∀ uri, .redirected uri ∉ before

theorem noLocalAfterRedirect_of_reads (h : ∀ path, .readFile path ∉ history) :
    NoLocalAfterRedirect history := by
  intro before path rest heq
  exact absurd (heq ▸ by simp) (h path)

theorem noLocalAfterRedirect_of_redirects (h : ∀ uri, .redirected uri ∉ history) :
    NoLocalAfterRedirect history := by
  intro before path rest heq uri hmem
  exact h uri (heq ▸ List.mem_append_left _ hmem)

/-- With a redirect before all reads, it is no read at all. -/
theorem noLocalAfterRedirect_iff {next : String} (hstart : history <+: history')
    (hnext : .redirected next ∈ history) (hreads : ∀ path, .readFile path ∉ history) :
    NoLocalAfterRedirect history' ↔ ¬∃ path, .readFile path ∈ history' := by
  constructor
  · rintro h ⟨path, hpath⟩
    obtain ⟨tail, rfl⟩ := hstart
    have htail := (List.mem_append.mp hpath).resolve_left (hreads path)
    obtain ⟨before, rest, rfl⟩ := List.append_of_mem htail
    exact h (history ++ before) path rest (by simp) next (List.mem_append_left _ hnext)
  · intro h
    apply noLocalAfterRedirect_of_reads
    intro path hpath
    exact h ⟨path, hpath⟩

/-- A last pass follows no redirect. -/
theorem redirects_of_done {result : Except FetchError (Bytes × String)}
    (h : hop world config maxSize redirectCount history uri = (.done result, history')) {next : String}
    (hmem : .redirected next ∈ history') : .redirected next ∈ history := by
  cases hremote : isRemote uri with
  | true =>
    have hpass := hop_remote world config maxSize redirectCount history hremote
    rw [h] at hpass
    rcases hpass.redirects hmem with hold | hfollow
    · exact hold
    · cases hfollow
  | false =>
    obtain ⟨result', hdone⟩ := hop_local world config maxSize redirectCount history hremote
    rw [h] at hdone
    obtain ⟨-, rfl⟩ := Prod.mk.inj hdone
    simpa using hmem

theorem fetchLoop_noLocal_iff (hlaw : world.urls.Lawful) :
    NoLocalAfterRedirect (fetchLoop world config maxSize 0 [] uri).2 ↔
      ∀ next, .redirected next ∈ (fetchLoop world config maxSize 0 [] uri).2 →
        ¬Mapped world config next := by
  unfold fetchLoop
  split
  · next result history' hhop =>
    have hnone (next : String) : .redirected next ∉ history' := fun hmem =>
      List.not_mem_nil (redirects_of_done hhop hmem)
    exact iff_of_true (noLocalAfterRedirect_of_redirects hnone) fun next hmem =>
      absurd hmem (hnone next)
  · next next history' hhop =>
    obtain ⟨hremote, hpass⟩ := passes_of_follow hhop
    obtain ⟨hfollowed, hmem, -⟩ := hpass.follow
    have hreads (path : String) : .readFile path ∉ history' := fun hpath =>
      List.not_mem_nil (hpass.reads hpath)
    have hpassed (u : String) (hu : .redirected u ∈ history') :
        u = next ∨ ¬Mapped world config u := by
      rcases hpass.redirects hu with hold | hfollow
      · cases hold
      · cases hfollow
        exact .inl rfl
    rw [noLocalAfterRedirect_iff prefix_fetchLoop hmem hreads,
      fetchLoop_reads hlaw hfollowed hmem hreads hpassed]
    push Not
    rfl

theorem fetchLoop_follow {next : String}
    (h : hop world config maxSize redirectCount history uri = (.follow next, history')) :
    fetchLoop world config maxSize redirectCount history uri =
      fetchLoop world config maxSize (redirectCount + 1) history' next := by
  rw [fetchLoop]
  split
  · next hdone =>
    rw [h] at hdone
    cases hdone
  · next hfollow =>
    rw [h] at hfollow
    cases hfollow
    rfl

theorem fetchLoop_done {result : Except FetchError (Bytes × String)}
    (h : hop world config maxSize redirectCount history uri = (.done result, history')) :
    fetchLoop world config maxSize redirectCount history uri = (result, history') := by
  rw [fetchLoop]
  split
  · next hdone =>
    rw [h] at hdone
    cases hdone
    rfl
  · next hfollow =>
    rw [h] at hfollow
    cases hfollow

/-- What a fetch does. -/
def fetchEvents (world : World Url) (config : Config) (maxSize : Nat) (uri : String) : List Event :=
  (fetchResource world config maxSize [] uri).2

/-- Every connection of a fetch follows its check, there are at most six of them, and no file is read
after a redirect, exactly if no redirect leads to a mapped URI that is not fetched from the network. -/
theorem fetch_guarded_iff (world : World Url) (config : Config) (maxSize : Nat) (uri : String)
    (hlaw : world.urls.Lawful) :
    Guarded world (fetchEvents world config maxSize uri) ∧
        connections (fetchEvents world config maxSize uri) ≤ 6 ∧
        NoLocalAfterRedirect (fetchEvents world config maxSize uri) ↔
      ∀ next, .redirected next ∈ fetchEvents world config maxSize uri →
        ¬Mapped world config next := by
  have hguarded : Guarded world (fetchEvents world config maxSize uri) :=
    fetchLoop_guarded guarded_nil
  have hconnections : connections (fetchEvents world config maxSize uri) + 0 ≤
      connections [] + 6 := fetchLoop_connections (by omega)
  have hlocal : NoLocalAfterRedirect (fetchEvents world config maxSize uri) ↔
      ∀ next, .redirected next ∈ fetchEvents world config maxSize uri → ¬Mapped world config next :=
    fetchLoop_noLocal_iff hlaw
  constructor
  · rintro ⟨-, -, h⟩
    exact hlocal.mp h
  · intro h
    exact ⟨hguarded, hconnections, hlocal.mpr h⟩

end Redirects

/-! ### A redirect to a mapping -/

/-- Absolute URLs in lower case and without a port, by their scheme and what follows it. -/
def absoluteUrls : UrlCrate (String × String) where
  parse s := match Text.after ':' s with
    | some rest => .ok (Text.before ':' s, rest)
    | none => .error "relative URL without a base"
  join _ location := match Text.after ':' location with
    | some rest => .ok (Text.before ':' location, rest)
    | none => .error "relative URL without a base"
  scheme url := url.1
  hostStr url := (Text.stripStart url.2 "//").map (Text.before '/')
  port _ := none
  text url := url.1 ++ ":" ++ url.2

theorem absoluteUrls_lawful : absoluteUrls.Lawful where
  text_scheme url := startsWith_iff.mpr (by simp [absoluteUrls])

/-- One public server that redirects every request to `gemini:news`. -/
def newsWorld : World (String × String) where
  urls := absoluteUrls
  parseIp _ := none
  lookupHost _ _ := some [.v4 ⟨93, 184, 216, 34⟩]
  get _ _ := .ok
    { status := 302
      statusText := "302 Found"
      contentType := none
      contentLength := none
      location := some "gemini:news"
      body := .ok [] }
  gemini _ _ _ _ := .refused "Connection refused"
  isServerName _ := true
  canonicalize path := .ok path
  read _ := .ok [110, 101, 119, 115]
  pathStartsWith path dir := Text.startsWith path dir
  lowercase s := s
  fromUtf8Lossy _ := ""

def newsConfig : Config where
  allowedDirs := []
  mappings := [("gemini:news", "/srv/news.txt")]
  maxSearchDepth := 5

theorem newsEvents_eq : fetchEvents newsWorld newsConfig 1024 "http://example.org/" =
    [.checked "example.org" 80 true, .connected "example.org" 80, .redirected "gemini:news",
      .readFile "/srv/news.txt"] := by
  have hfirst : hop newsWorld newsConfig 1024 0 [] "http://example.org/" = (.follow "gemini:news",
      [.checked "example.org" 80 true, .connected "example.org" 80, .redirected "gemini:news"]) := by
    rfl
  have hsecond : hop newsWorld newsConfig 1024 1
      [.checked "example.org" 80 true, .connected "example.org" 80, .redirected "gemini:news"]
      "gemini:news" = (.done (.ok ([110, 101, 119, 115], "text/plain; charset=utf-8")),
        [.checked "example.org" 80 true, .connected "example.org" 80, .redirected "gemini:news",
          .readFile "/srv/news.txt"]) := by
    rfl
  unfold fetchEvents fetchResource
  rw [fetchLoop_follow hfirst, fetchLoop_done hsecond]

/-- A redirect to a URL without a host reads the file of a mapping. -/
theorem redirect_reads_mapping :
    ¬∀ (world : World (String × String)) (config : Config) (maxSize : Nat) (uri : String),
      world.urls.Lawful →
        Guarded world (fetchEvents world config maxSize uri) ∧
          connections (fetchEvents world config maxSize uri) ≤ 6 ∧
          NoLocalAfterRedirect (fetchEvents world config maxSize uri) := by
  intro h
  obtain ⟨-, -, hlocal⟩ := h newsWorld newsConfig 1024 "http://example.org/" absoluteUrls_lawful
  rw [newsEvents_eq] at hlocal
  exact hlocal [.checked "example.org" 80 true, .connected "example.org" 80, .redirected "gemini:news"]
    "/srv/news.txt" [] rfl "gemini:news" (by simp)

/-- Without the mapping the same server redirects to nothing. -/
theorem fetch_guarded_unmapped :
    Guarded newsWorld (fetchEvents newsWorld ⟨[], [], 5⟩ 1024 "http://example.org/") ∧
      connections (fetchEvents newsWorld ⟨[], [], 5⟩ 1024 "http://example.org/") ≤ 6 ∧
      NoLocalAfterRedirect (fetchEvents newsWorld ⟨[], [], 5⟩ 1024 "http://example.org/") := by
  refine (fetch_guarded_iff newsWorld ⟨[], [], 5⟩ 1024 "http://example.org/"
    absoluteUrls_lawful).mpr ?_
  rintro next - ⟨-, mapped, canonical, hlookup, -⟩
  cases hlookup

end HdyUtils.Basket
