import HdyUtils.Basket.Handlers
import HdyUtils.Basket.Isolation
import HdyUtils.Lib.Sublists

/-! The content that a request is answered with, and the responses that announce it:
`sent_contents_announced`. -/

namespace HdyUtils.Basket

/-! ### The size of what is fetched -/

section Size

variable {Url : Type} {world : World Url} {config : Config} {maxSize redirectCount : Nat}
  {history history' : List Event} {uri : String}

/-- A body that was fetched is not longer than the limit. -/
def Within (maxSize : Nat) : Except FetchError (Bytes × String) → Prop
  | .ok (body, _) => body.length ≤ maxSize
  | .error _ => True

def Hop.Within (maxSize : Nat) : Hop → Prop
  | .done result => Basket.Within maxSize result
  | .follow _ => True

theorem within_limited (body : Bytes) (mime : String) : Within maxSize (limited maxSize body mime) := by
  unfold limited
  split
  · trivial
  · next hlen => exact Nat.not_lt.mp hlen

theorem geminiResponse_size {fromUtf8Lossy : Bytes → String} {bytes body : Bytes}
    {error : Option String} {mime : String}
    (h : geminiResponse fromUtf8Lossy bytes error maxSize = .ok (body, mime)) :
    body.length ≤ maxSize := by
  unfold geminiResponse at h
  simp only at h
  split at h
  · cases h
  · split_ifs at h with _ _ _ _ hlen
    all_goals
      split at h
      · cases h
      · cases h
        exact Nat.not_lt.mp hlen

theorem fetchGemini_size {body : Bytes} {mime : String}
    (h : (fetchGemini world maxSize history uri).1 = .ok (body, mime)) : body.length ≤ maxSize := by
  unfold fetchGemini at h
  split at h
  · cases h
  · simp only at h
    split at h
    · cases h
    · split_ifs at h
      split at h
      · exact geminiResponse_size h
      · cases h
      · cases h

theorem within_followRedirect (history : List Event) (uri location : String)
    (defaultPort : String → UInt16) :
    (followRedirect world history uri location defaultPort).1.Within maxSize := by
  unfold followRedirect
  split
  · trivial
  split
  · trivial
  simp only
  split
  · trivial
  split <;> trivial

theorem within_answerHttp (history : List Event) (uri : String)
    (reply : Except String HttpResponse) :
    (answerHttp world maxSize redirectCount history uri reply).1.Within maxSize := by
  unfold answerHttp
  repeat' split
  all_goals first
    | trivial
    | exact within_limited _ _
    | exact within_followRedirect _ _ _ _

theorem within_hopHttp (redirectCount : Nat) (history : List Event) (uri : String) :
    (hopHttp world maxSize redirectCount history uri).1.Within maxSize := by
  unfold hopHttp
  split
  · trivial
  · simp only
    split
    · trivial
    · exact within_answerHttp _ _ _

theorem within_hopGemini (redirectCount : Nat) (history : List Event) (uri : String) :
    (hopGemini world maxSize redirectCount history uri).1.Within maxSize := by
  unfold hopGemini
  split
  · trivial
  · simp only
    split
    · trivial
    · next history' _ =>
      unfold answerGemini
      split
      · next body mime hreply => exact fetchGemini_size hreply
      · repeat' split
        all_goals first
          | trivial
          | exact within_followRedirect _ _ _ _

theorem within_fetchLocal (history : List Event) (uri : String) :
    Within maxSize (fetchLocal world config maxSize history uri).1 := by
  have hread (path : String) : Within maxSize (readLocal world maxSize history path).1 := by
    unfold readLocal
    simp only
    split
    · trivial
    · exact within_limited _ _
  unfold fetchLocal
  repeat' split
  all_goals first
    | trivial
    | exact hread _

variable (world config maxSize redirectCount history uri) in
theorem within_hop : (hop world config maxSize redirectCount history uri).1.Within maxSize := by
  unfold hop
  split
  · exact within_hopHttp _ _ _
  · split
    · exact within_hopGemini _ _ _
    · exact within_fetchLocal _ _

theorem within_fetchLoop :
    Within maxSize (fetchLoop world config maxSize redirectCount history uri).1 := by
  fun_induction fetchLoop world config maxSize redirectCount history uri with
  | case1 redirectCount history uri result history' hhop =>
    have hwithin := within_hop world config maxSize redirectCount history uri
    rwa [hhop] at hwithin
  | case2 redirectCount history uri next history' hhop ih => exact ih

end Size

/-! ### The part of one item -/

/-- What one item adds to the responses and to the bundles. -/
structure Part where
  responses : List ItemResponse
  raws : List RawBundle

/-- A response with content, whose metadata have the hash and the size of the bundle's payload. -/
def Announces (sha256 : Bytes → Bytes) (raw : RawBundle) (response : ItemResponse) : Prop :=
  response.coapStatus = CoapStatus.content ∧ sha256 raw.body = raw.hash ∧
    ∃ metadata, response.metadata = some metadata ∧ metadata.hash = raw.hash ∧
      metadata.size = some (.ofNat raw.body.length)

section Part

variable {Url : Type} {service : Service} {surroundings : Surroundings Url} {item : RequestItem}
  {idx : Nat} {defaultLifetime : UInt64}

/-- What a search finds for an item. -/
def Service.found (service : Service) (surroundings : Surroundings Url) (item : RequestItem) :
    List (String × String) :=
  service.performSearch surroundings.readDir item.uri

/-- The part that an item should have. -/
structure Part.Due (service : Service) (surroundings : Surroundings Url) (item : RequestItem)
    (idx : Nat) (part : Part) : Prop where
  own : ∀ response ∈ part.responses, response.itemIdx = .ofNat idx
  announced : List.SublistForall₂ (Announces service.sha256) part.raws part.responses
  get : item.op = 0 → ∃ response, part.responses = [response] ∧
    (response.coapStatus = CoapStatus.content → ∃ raw, part.raws = [raw]) ∧
    (response.coapStatus ≠ CoapStatus.content → part.raws = [])
  silent : item.op = 1 ∨ item.op = 3 → part.raws = []
  inline : item.op = 2 → (service.found surroundings item).length ≤ 50 → part.raws.length ≤ 50
  index : item.op = 2 → 50 < (service.found surroundings item).length →
    ∃ raw response, part.raws = [raw] ∧ part.responses = [response] ∧
      raw.body = (service.compileListDocument surroundings.files item.uri
        (service.found surroundings item)).toUTF8.toList
  size : item.op = 0 ∨ item.op = 2 ∧ (service.found surroundings item).length ≤ 50 →
    ∀ raw ∈ part.raws, raw.body.length ≤ Service.maxSize item

variable (service idx) in
theorem announces_content (body : Bytes) (lifetime : UInt64) (mime uri : String)
    (lastModified : Option UInt64) (diagnostic : Option String) :
    Announces service.sha256 ⟨body, service.sha256 body, lifetime⟩ (Service.contentResponse idx
      (service.itemMetadata body mime uri lastModified) diagnostic) :=
  ⟨rfl, rfl, _, rfl, rfl, rfl⟩

/-- What comes of a fetch: no content, or one that the response announces. -/
inductive Fetched (service : Service) (item : RequestItem) (idx : Nat) : Outcome → Prop
  | cancelled : Fetched service item idx .cancelled
  | nothing (status : UInt8) (diagnostic : String) (h : status ≠ CoapStatus.content) :
      Fetched service item idx (.fetched (Service.plainResponse idx status diagnostic) none)
  | content (body : Bytes) (mime : String) (lastModified : Option UInt64)
      (h : body.length ≤ Service.maxSize item) :
      Fetched service item idx (.fetched (Service.contentResponse idx
        (service.itemMetadata body mime item.uri lastModified) none)
        (some (body, service.sha256 body)))

theorem fetchStatus_ne (error : FetchError) : Service.fetchStatus error ≠ CoapStatus.content := by
  unfold Service.fetchStatus
  split <;> decide

theorem fetched_fetchAndHashItem :
    Fetched service item idx (service.fetchAndHashItem surroundings item idx) := by
  unfold Service.fetchAndHashItem
  split
  · exact .cancelled
  split
  · next error _ => exact .nothing _ _ (fetchStatus_ne error)
  next body mime hfetch =>
  have hwithin : Within (Service.maxSize item) (fetchResource surroundings.world service.config
      (Service.maxSize item) [] item.uri).1 := within_fetchLoop
  rw [hfetch] at hwithin
  simp only
  split
  · exact .nothing _ _ (by decide)
  · exact .content body mime _ hwithin

/-- The results that a search looks at one after another. -/
structure Inline (service : Service) (item : RequestItem) (idx count : Nat)
    (responses : List ItemResponse) (raws : List RawBundle) : Prop where
  own : ∀ response ∈ responses, response.itemIdx = .ofNat idx
  announced : List.SublistForall₂ (Announces service.sha256) raws responses
  count : raws.length ≤ count
  size : ∀ raw ∈ raws, raw.body.length ≤ Service.maxSize item

variable (service surroundings item idx defaultLifetime) in
theorem inline_searchInline (n : Nat) (results : List (String × String)) :
    Inline service item idx results.length
      (service.searchInline surroundings item idx defaultLifetime n results).1
      (service.searchInline surroundings item idx defaultLifetime n results).2.1 := by
  induction results generalizing n with
  | nil => exact ⟨nofun, .nil, Nat.le_refl _, nofun⟩
  | cons result results ih =>
    obtain ⟨uri, path⟩ := result
    have hrest := ih (n + 1)
    have hcount : (service.searchInline surroundings item idx defaultLifetime (n + 1)
        results).2.1.length ≤ results.length + 1 := Nat.le_succ_of_le hrest.count
    unfold Service.searchInline
    split
    · exact ⟨nofun, .nil, Nat.zero_le _, nofun⟩
    simp only
    split
    · exact ⟨hrest.own, hrest.announced, hcount, hrest.size⟩
    next bytes _ =>
    split
    · exact ⟨List.forall_mem_cons.mpr ⟨rfl, hrest.own⟩, hrest.announced.cons_right, hcount,
        hrest.size⟩
    next hlen =>
    split
    · exact ⟨List.forall_mem_cons.mpr ⟨rfl, hrest.own⟩, hrest.announced.cons_right, hcount,
        hrest.size⟩
    · refine ⟨List.forall_mem_cons.mpr ⟨rfl, hrest.own⟩, .cons ?_ hrest.announced, ?_, ?_⟩
      · exact announces_content service idx bytes _ _ uri _ none
      · exact Nat.succ_le_succ hrest.count
      · exact List.forall_mem_cons.mpr ⟨Nat.not_lt.mp hlen, hrest.size⟩

/-- A response without content is all of a part, but for an item with an index document. -/
theorem due_plain {status : UInt8} (diagnostic : String) (hstatus : status ≠ CoapStatus.content)
    (hfew : item.op = 2 → (service.found surroundings item).length ≤ 50) :
    Part.Due service surroundings item idx ⟨[Service.plainResponse idx status diagnostic], []⟩ where
  own := by simp [Service.plainResponse]
  announced := .nil
  get _ := ⟨_, rfl, fun h => absurd h hstatus, fun _ => rfl⟩
  silent _ := rfl
  inline _ _ := Nat.zero_le _
  index hop hmany := absurd (hfew hop) (Nat.not_le.mpr hmany)
  size _ := nofun

variable (service surroundings item idx defaultLifetime) in
/-- The part of an item that is answered with an index document. -/
theorem due_indexDocument (diagnostic : Option String) (hfetch : item.op ≠ 0)
    (hsilent : item.op ≠ 1 ∧ item.op ≠ 3)
    (hmany : item.op = 2 → 50 < (service.found surroundings item).length) :
    ∃ response raw, service.indexDocument surroundings item idx defaultLifetime
        (service.found surroundings item) diagnostic = (response, raw) ∧
      Part.Due service surroundings item idx ⟨[response], [raw]⟩ := by
  refine ⟨_, _, rfl, ?_⟩
  exact {
    own := by simp [Service.contentResponse]
    announced := .cons (announces_content service idx _ _ _ _ _ diagnostic) .nil
    get := fun h => absurd h hfetch
    silent := fun h => absurd h (not_or.mpr hsilent)
    inline := fun h hfew => absurd hfew (Nat.not_le.mpr (hmany h))
    index := fun _ _ => ⟨_, _, rfl, rfl, rfl⟩
    size := by
      rintro (h | ⟨h, hfew⟩)
      · exact absurd h hfetch
      · exact absurd hfew (Nat.not_le.mpr (hmany h)) }

variable (service surroundings idx defaultLifetime) in
/-- What comes of a search. -/
theorem due_handleSearch (hop : item.op = 2) : ∃ (part : Part) (stopped : Bool),
    service.handleSearch surroundings item idx defaultLifetime =
      .searched (.ok (part.responses, part.raws)) stopped ∧
    part.Due service surroundings item idx := by
  have hfetch : item.op ≠ 0 := by rw [hop]; decide
  have hsilent : item.op ≠ 1 ∧ item.op ≠ 3 := by rw [hop]; decide
  unfold Service.handleSearch
  simp only
  split
  · next hnone =>
    refine ⟨⟨[_], []⟩, false, rfl, ?_⟩
    apply due_plain _ (by decide)
    intro _
    unfold Service.found
    omega
  split
  · next hmany =>
    obtain ⟨response, raw, hindex, hdue⟩ := due_indexDocument service surroundings item idx
      defaultLifetime _ hfetch hsilent fun _ => hmany
    unfold Service.found at hindex
    rw [hindex]
    exact ⟨⟨[response], [raw]⟩, false, rfl, hdue⟩
  · next hfew =>
    have hfew : (service.found surroundings item).length ≤ 50 := Nat.not_lt.mp hfew
    have hinline := inline_searchInline service surroundings item idx defaultLifetime 0
      (service.found surroundings item)
    refine ⟨⟨_, _⟩, _, rfl, ?_⟩
    exact {
      own := hinline.own
      announced := hinline.announced
      get := fun h => absurd h hfetch
      silent := fun h => absurd h (not_or.mpr hsilent)
      inline := fun _ _ => Nat.le_trans hinline.count hfew
      index := fun _ hmany => absurd hfew (Nat.not_le.mpr hmany)
      size := fun _ => hinline.size }

variable (service surroundings item idx defaultLifetime) in
/-- What comes of a list. -/
theorem due_handleList (hop : item.op ≠ 0 ∧ item.op ≠ 1 ∧ item.op ≠ 2 ∧ item.op ≠ 3) :
    ∃ response raw, service.handleList surroundings item idx defaultLifetime =
        .listed (.ok (response, raw)) ∧
      Part.Due service surroundings item idx ⟨[response], raw.toList⟩ := by
  obtain ⟨hfetch, hcheck, hsearch, hcancel⟩ := hop
  unfold Service.handleList
  simp only
  split
  · refine ⟨_, none, rfl, ?_⟩
    exact due_plain _ (by decide) fun h => absurd h hsearch
  · obtain ⟨response, raw, hindex, hdue⟩ := due_indexDocument service surroundings item idx
      defaultLifetime none hfetch ⟨hcheck, hcancel⟩ fun h => absurd h hsearch
    unfold Service.found at hindex
    rw [hindex]
    exact ⟨response, some raw, rfl, hdue⟩

end Part

/-! ### The steps of a task -/

/-- The item that a task is at. -/
def Stage.item : Stage → Option Nat
  | .looping idx | .working idx => some idx
  | .leaving | .finished => none

variable {E Url : Type} {run run' run'' : Run E} {service : Service} {idx : Nat}
  {surroundings : Surroundings Url} {item : RequestItem}

namespace Run

/-- Nothing is answered. -/
structure Quiet (run run' : Run E) : Prop where
  request : run'.request = run.request
  responses : run'.itemResponses = run.itemResponses
  raws : run'.rawBundlesToSend = run.rawBundlesToSend
  stage : run'.stage.item = run.stage.item ∨ run'.stage.item = none

/-- Item `idx` is answered with its part. -/
structure Answers (run run' : Run E) (idx : Nat) (part : Part) : Prop where
  request : run'.request = run.request
  responses : run'.itemResponses = run.itemResponses ++ part.responses
  raws : run'.rawBundlesToSend = run.rawBundlesToSend ++ part.raws
  stage : run'.stage = .looping (idx + 1)

theorem Quiet.refl (run : Run E) : run.Quiet run := ⟨rfl, rfl, rfl, .inl rfl⟩

theorem Quiet.trans (h : run.Quiet run') (h' : run'.Quiet run'') : run.Quiet run'' := by
  refine ⟨h'.request.trans h.request, h'.responses.trans h.responses, h'.raws.trans h.raws, ?_⟩
  rcases h'.stage with hstage | hstage
  · rw [hstage]
    exact h.stage
  · exact .inr hstage

theorem Quiet.answers {part : Part} (h : run.Quiet run') (h' : run'.Answers run'' idx part) :
    run.Answers run'' idx part :=
  ⟨h'.request.trans h.request, h.responses ▸ h'.responses, h.raws ▸ h'.raws, h'.stage⟩

theorem quiet_signal : run.Quiet run.signal := ⟨rfl, rfl, rfl, .inl rfl⟩

theorem quiet_dropSender : run.Quiet run.dropSender := ⟨rfl, rfl, rfl, .inl rfl⟩

theorem quiet_finish : run.Quiet run.finish := ⟨rfl, rfl, rfl, .inr rfl⟩

theorem quiet_nextItem (hstage : run.stage = .looping idx) : run.Quiet (run.nextItem idx) := by
  unfold nextItem
  split
  · exact ⟨rfl, rfl, rfl, .inr rfl⟩
  · split
    · exact ⟨rfl, rfl, rfl, .inr rfl⟩
    · exact ⟨rfl, rfl, rfl, .inl (by rw [hstage]; rfl)⟩

theorem answers_respond (responses : List ItemResponse) (raws : List RawBundle) :
    run.Answers (run.respond idx responses raws) idx ⟨responses, raws⟩ := ⟨rfl, rfl, rfl, rfl⟩

/-- The task waits, or has answered its item as it should. -/
def Carries (service : Service) (surroundings : Surroundings Url) (item : RequestItem) (idx : Nat)
    (run run' : Run E) : Prop :=
  run' = run ∨ ∃ part, run.Answers run' idx part ∧ Part.Due service surroundings item idx part

variable (surroundings) in
theorem carries_handleFetch {outcome : Outcome} (keep : Bool)
    (hop : item.op = if keep then 0 else 1) (h : Fetched service item idx outcome) :
    Carries service surroundings item idx run (run.handleFetch item idx keep outcome) := by
  have hsearch : item.op ≠ 2 := by rw [hop]; cases keep <;> decide
  cases h with
  | cancelled =>
    unfold handleFetch
    simp only
    split
    · refine .inr ⟨⟨[_], []⟩, ⟨rfl, rfl, rfl, rfl⟩, ?_⟩
      exact due_plain _ (by decide) fun h => absurd h hsearch
    · exact .inl rfl
  | nothing status diagnostic hstatus =>
    refine .inr ⟨_, answers_respond _ _, ?_⟩
    have hraws : (if keep then (run.rawOf item none).toList else []) = [] := by cases keep <;> rfl
    rw [hraws]
    exact due_plain _ hstatus fun h => absurd h hsearch
  | content body mime lastModified hsize =>
    refine .inr ⟨_, answers_respond _ _, ?_⟩
    cases keep with
    | true =>
      exact {
        own := by simp [Service.contentResponse]
        announced := .cons (announces_content service idx body _ _ _ _ none) .nil
        get := fun _ => ⟨_, rfl, fun _ => ⟨_, rfl⟩, fun h => absurd rfl h⟩
        silent := by rintro (h | h) <;> exact absurd (hop.symm.trans h) (by decide)
        inline := fun h => absurd h hsearch
        index := fun h => absurd h hsearch
        size := fun _ => List.forall_mem_singleton.mpr hsize }
    | false =>
      exact {
        own := by simp [Service.contentResponse]
        announced := .nil
        get := fun h => absurd (hop.symm.trans h) (by decide)
        silent := fun _ => rfl
        inline := fun h => absurd h hsearch
        index := fun h => absurd h hsearch
        size := fun _ => nofun }

theorem carries_handleSearch {part : Part} (stopped : Bool)
    (hdue : Part.Due service surroundings item idx part) :
    Carries service surroundings item idx run
      (run.handleSearch idx (.searched (.ok (part.responses, part.raws)) stopped)) := by
  unfold handleSearch
  simp only
  split
  · exact .inl rfl
  · exact .inr ⟨part, ⟨rfl, rfl, rfl, rfl⟩, hdue⟩

theorem carries_answer {status : UInt8} (diagnostic : String) (hstatus : status ≠ CoapStatus.content)
    (hsearch : item.op ≠ 2) :
    Carries service surroundings item idx run (run.answer idx status diagnostic) :=
  .inr ⟨_, answers_respond _ _, due_plain _ hstatus fun h => absurd h hsearch⟩

end Run

namespace Tasks

variable {s : Tasks E} {i j : Nat} {f : Run E → Run E}

theorem quiet_modify (hf : ∀ run, s.runs[j]? = some run → run.Quiet (f run))
    (h : (s.modify j f).runs[i]? = some run') :
    ∃ run, s.runs[i]? = some run ∧ run.Quiet run' := by
  obtain ⟨run, hrun, rfl⟩ := runs_modify_some h
  refine ⟨run, hrun, ?_⟩
  split
  · next hsame => exact hf run (hsame ▸ hrun)
  · exact .refl run

theorem quiet_remove {reqId : String} (h : (s.remove reqId).runs[i]? = some run') :
    ∃ run, s.runs[i]? = some run ∧ run.Quiet run' := by
  unfold remove at h
  split at h
  · exact quiet_modify (fun _ _ => Run.quiet_dropSender) h
  · exact ⟨run', h, .refl run'⟩

theorem quiet_afterCancel {target : String} (h : (s.afterCancel target).runs[i]? = some run') :
    ∃ run, s.runs[i]? = some run ∧ run.Quiet run' := by
  cases hj : s.activeTasks[target]? with
  | none =>
    rw [afterCancel_none hj] at h
    exact ⟨run', h, .refl run'⟩
  | some j =>
    rw [afterCancel_some hj] at h
    exact quiet_modify (s := s) (fun _ _ => Run.quiet_signal) h

/-- What a task carries out leaves the other tasks alone. -/
theorem carries_modify
    (hf : ∀ run, Run.Carries service surroundings item idx run (f run))
    (h : (s.modify j f).runs[i]? = some run') :
    ∃ run, s.runs[i]? = some run ∧ (run.Quiet run' ∨ ∃ part, i = j ∧ run.Answers run' idx part ∧
      Part.Due service surroundings item idx part) := by
  obtain ⟨run, hrun, rfl⟩ := runs_modify_some h
  refine ⟨run, hrun, ?_⟩
  split
  · next hsame =>
    rcases hf run with hsame' | ⟨part, hanswers, hdue⟩
    · rw [hsame']
      exact .inl (.refl run)
    · exact .inr ⟨part, hsame.symm, hanswers, hdue⟩
  · exact .inl (.refl run)

theorem runs_perform (defaultLifetime : UInt64)
    (h : (s.perform j idx item (service.carryOut surroundings item idx defaultLifetime)).runs[i]? =
      some run') :
    ∃ run, s.runs[i]? = some run ∧ (run.Quiet run' ∨ ∃ part, i = j ∧ run.Answers run' idx part ∧
      Part.Due service surroundings item idx part) := by
  unfold perform at h
  split at h
  · next hop =>
    refine carries_modify (fun _ => ?_) h
    rw [service.carryOut_fetch surroundings idx defaultLifetime (.inl hop)]
    exact Run.carries_handleFetch surroundings true hop fetched_fetchAndHashItem
  · next hop =>
    refine carries_modify (fun _ => ?_) h
    rw [service.carryOut_fetch surroundings idx defaultLifetime (.inr hop)]
    exact Run.carries_handleFetch surroundings false hop fetched_fetchAndHashItem
  · next hop =>
    refine carries_modify (fun _ => ?_) h
    obtain ⟨part, stopped, hsearched, hdue⟩ :=
      due_handleSearch service surroundings idx defaultLifetime hop
    rw [service.carryOut_search surroundings idx defaultLifetime hop, hsearched]
    exact Run.carries_handleSearch stopped hdue
  · next hop =>
    obtain ⟨status, diagnostic, hstatus, hcancel⟩ := s.cancel_eq j idx item.uri
    have hcontent : status ≠ CoapStatus.content := by
      rcases hstatus with rfl | rfl <;> decide
    have hsearch : item.op ≠ 2 := by rw [hop]; decide
    rw [hcancel] at h
    obtain ⟨signalled, hsignalled, hrest⟩ := carries_modify (s := s.afterCancel item.uri)
      (fun _ => Run.carries_answer diagnostic hcontent hsearch) h
    obtain ⟨old, hold, hquiet⟩ := quiet_afterCancel hsignalled
    refine ⟨old, hold, ?_⟩
    rcases hrest with hrest | ⟨part, heq, hanswers, hdue⟩
    · exact .inl (hquiet.trans hrest)
    · exact .inr ⟨part, heq, hquiet.answers hanswers, hdue⟩
  · next hop =>
    refine carries_modify (fun _ => ?_) h
    obtain ⟨response, raw, hlisted, hdue⟩ := due_handleList service surroundings item idx
      defaultLifetime (by rw [hop]; decide)
    rw [service.carryOut_list surroundings idx defaultLifetime hop, hlisted]
    exact .inr ⟨_, Run.answers_respond _ _, hdue⟩
  · next hget hcheck hsearch hcancel hlist =>
    refine carries_modify (fun _ => ?_) h
    exact Run.carries_answer _ (by decide) hsearch

theorem current_eq (h : Service.current s i = some (run, idx, item)) :
    s.runs[i]? = some run ∧ run.stage = .working idx ∧ run.request.items[idx]? = some item := by
  unfold Service.current at h
  split at h
  · next hrun =>
    split at h
    · next hstage =>
      obtain ⟨item, hitem, heq⟩ := Option.map_eq_some_iff.mp h
      cases heq
      exact ⟨hrun, hstage, hitem⟩
    · cases h
    · cases h
    · cases h
  · cases h

/-- A task carries out the item that it works on. -/
theorem step_perform (h : Service.current s i = some (run, idx, item))
    (surroundings : Surroundings Url) : service.step s (.perform i surroundings) =
      s.perform i idx item (service.carryOut surroundings item idx run.defaultLifetime) := by
  obtain ⟨hrun, hstage, hitem⟩ := current_eq h
  unfold Service.step step
  simp only [h, hrun, hstage, hitem]

/-- A task that works on no item carries out nothing. -/
theorem step_perform_none (h : Service.current s i = none) (surroundings : Surroundings Url) :
    service.step s (.perform i surroundings) = s := by
  unfold Service.step
  simp only [h]

theorem runs_arrive {source : E} {payload : List Cbor.Token}
    (h : (s.step (.arrive source payload)).runs[i]? = some run') :
    (run'.itemResponses = [] ∧ run'.rawBundlesToSend = [] ∧ run'.stage = .looping 0) ∨
      ∃ run, s.runs[i]? = some run ∧ run.Quiet run' := by
  unfold step at h
  simp only at h
  split at h
  · next request _ =>
    unfold register at h
    simp only [List.getElem?_append] at h
    split at h
    · exact .inr (quiet_remove h)
    · rw [List.getElem?_singleton] at h
      split at h
      · cases h
        exact .inl ⟨rfl, rfl, rfl⟩
      · cases h
  · exact .inr ⟨run', h, .refl run'⟩

theorem runs_proceed (h : (s.step (.proceed j)).runs[i]? = some run') :
    ∃ run, s.runs[i]? = some run ∧ run.Quiet run' := by
  unfold step at h
  simp only at h
  split at h
  · next run hrun =>
    split at h
    · next idx hstage =>
      refine quiet_modify (fun old hold => ?_) h
      rw [hrun] at hold
      cases hold
      exact Run.quiet_nextItem hstage
    · obtain ⟨between, hbetween, hfinish⟩ := quiet_modify (fun _ _ => Run.quiet_finish) h
      obtain ⟨old, hold, hremove⟩ := quiet_remove hbetween
      exact ⟨old, hold, hremove.trans hfinish⟩
    · exact ⟨run', h, .refl run'⟩
    · exact ⟨run', h, .refl run'⟩
  · exact ⟨run', h, .refl run'⟩

theorem runs_step {happening : Happening E Url}
    (h : (service.step s happening).runs[i]? = some run') :
    (run'.itemResponses = [] ∧ run'.rawBundlesToSend = [] ∧ run'.stage = .looping 0) ∨
    ∃ run, s.runs[i]? = some run ∧ (run.Quiet run' ∨
      ∃ surroundings idx item part, happening = .perform i surroundings ∧
        run.stage = .working idx ∧ run.request.items[idx]? = some item ∧
        run.Answers run' idx part ∧ Part.Due service surroundings item idx part) := by
  cases happening with
  | arrive source payload =>
    refine (runs_arrive h).imp_right ?_
    rintro ⟨run, hrun, hquiet⟩
    exact ⟨run, hrun, .inl hquiet⟩
  | proceed j =>
    obtain ⟨run, hrun, hquiet⟩ := runs_proceed h
    exact .inr ⟨run, hrun, .inl hquiet⟩
  | perform j surroundings =>
    cases hcurrent : Service.current s j with
    | some doing =>
      obtain ⟨working, idx, item⟩ := doing
      obtain ⟨hworking, hstage, hitem⟩ := current_eq hcurrent
      rw [step_perform hcurrent] at h
      obtain ⟨run, hrun, hrest⟩ := runs_perform _ h
      refine .inr ⟨run, hrun, hrest.imp_right ?_⟩
      rintro ⟨part, rfl, hanswers, hdue⟩
      obtain rfl : working = run := Option.some.inj (hworking.symm.trans hrun)
      exact ⟨surroundings, idx, item, part, rfl, hstage, hitem, hanswers, hdue⟩
    | none =>
      rw [step_perform_none hcurrent] at h
      exact .inr ⟨run', h, .inl (.refl run')⟩

end Tasks

/-! ### The parts of a request -/

/-- Task `i` carried out its item `k` in these surroundings. -/
def CarriedOut (service : Service) (happenings : List (Happening E Url)) (i k : Nat)
    (surroundings : Surroundings Url) : Prop :=
  ∃ earlier later, ∃ run : Run E, happenings = earlier ++ .perform i surroundings :: later ∧
    (service.after earlier).runs[i]? = some run ∧ run.stage = .working k

/-- The responses and the bundles of a task are the parts of its items, one after another. -/
structure Accounts (service : Service) (happenings : List (Happening E Url)) (i : Nat) (run : Run E)
    (parts : List Part) : Prop where
  responses : run.itemResponses = parts.flatMap Part.responses
  raws : run.rawBundlesToSend = parts.flatMap Part.raws
  count : ∀ k, run.stage.item = some k → parts.length = k
  due : ∀ (k : Nat) (part : Part), parts[k]? = some part →
    ∃ item surroundings, run.request.items[k]? = some item ∧
      CarriedOut service happenings i k surroundings ∧ part.Due service surroundings item k

section Accounts

variable {happenings : List (Happening E Url)} {happening : Happening E Url} {i k : Nat}
  {parts : List Part} {part : Part}

theorem CarriedOut.concat (h : CarriedOut service happenings i k surroundings) :
    CarriedOut service (happenings ++ [happening]) i k surroundings := by
  obtain ⟨earlier, later, run, rfl, hrun⟩ := h
  exact ⟨earlier, later ++ [happening], run, by simp, hrun⟩

theorem Accounts.quiet (h : Accounts service happenings i run parts) (hquiet : run.Quiet run') :
    Accounts service (happenings ++ [happening]) i run' parts := by
  refine ⟨hquiet.responses.trans h.responses, hquiet.raws.trans h.raws, ?_, ?_⟩
  · intro k hk
    rcases hquiet.stage with hstage | hstage
    · exact h.count k (hstage ▸ hk)
    · rw [hstage] at hk
      cases hk
  · intro k part hpart
    obtain ⟨item, surroundings, hitem, hcarried, hdue⟩ := h.due k part hpart
    exact ⟨item, surroundings, hquiet.request ▸ hitem, hcarried.concat, hdue⟩

theorem Accounts.answers (h : Accounts service happenings i run parts)
    (hrun : (service.after happenings).runs[i]? = some run) (hstage : run.stage = .working idx)
    (hitem : run.request.items[idx]? = some item) (hanswers : run.Answers run' idx part)
    (hdue : part.Due service surroundings item idx) :
    Accounts service (happenings ++ [.perform i surroundings]) i run' (parts ++ [part]) := by
  have hcount : parts.length = idx := h.count idx (by rw [hstage]; rfl)
  refine ⟨?_, ?_, ?_, ?_⟩
  · rw [hanswers.responses, h.responses]
    simp
  · rw [hanswers.raws, h.raws]
    simp
  · intro k hk
    rw [hanswers.stage] at hk
    cases hk
    simp [hcount]
  · intro k part' hpart
    rw [hanswers.request]
    rw [List.getElem?_append] at hpart
    split at hpart
    · obtain ⟨item, surroundings, hitem, hcarried, hdue⟩ := h.due k part' hpart
      exact ⟨item, surroundings, hitem, hcarried.concat, hdue⟩
    · rw [List.getElem?_singleton] at hpart
      split at hpart
      · cases hpart
        obtain rfl : k = idx := by omega
        exact ⟨item, surroundings, hitem, ⟨happenings, [], run, rfl, hrun, hstage⟩, hdue⟩
      · cases hpart

/-- Every task has its parts. -/
theorem exists_accounts (h : (service.after happenings).runs[i]? = some run) :
    ∃ parts, Accounts service happenings i run parts := by
  induction happenings using List.reverseRecOn generalizing run with
  | nil => cases h
  | append_singleton happenings happening ih =>
    unfold Service.after at h
    rw [Trace.run_append] at h
    rcases Tasks.runs_step h with ⟨hresponses, hraws, hstage⟩ | ⟨old, hold, hrest⟩
    · refine ⟨[], hresponses, hraws, ?_, nofun⟩
      intro k hk
      rw [hstage] at hk
      cases hk
      rfl
    · obtain ⟨parts, haccounts⟩ := ih hold
      rcases hrest with hquiet | ⟨surroundings, idx, item, part, rfl, hstage, hitem, hanswers, hdue⟩
      · exact ⟨parts, haccounts.quiet hquiet⟩
      · exact ⟨parts ++ [part], haccounts.answers hold hstage hitem hanswers hdue⟩

theorem Accounts.announced (h : Accounts service happenings i run parts) :
    List.SublistForall₂ (Announces service.sha256) run.rawBundlesToSend run.itemResponses := by
  rw [h.raws, h.responses]
  apply List.SublistForall₂.flatMap
  intro part hpart
  obtain ⟨k, hk⟩ := List.mem_iff_getElem?.mp hpart
  obtain ⟨item, surroundings, -, -, hdue⟩ := h.due k part hk
  exact hdue.announced

end Accounts

/-! ### What is sent -/

/-- The responses that a control bundle is read to hold. -/
def Bundle.responses (bundle : Bundle E) : List ItemResponse :=
  match bundle.payload with
  | .control tokens =>
    match Cbor.decode BasketResponse.fromCbor tokens with
    | .ok response => response.items
    | .error _ => []
  | .content _ => []

/-- The hash in the metadata of a response with content. -/
def contentHash (response : ItemResponse) : Option Bytes :=
  if response.coapStatus = CoapStatus.content then response.metadata.map ItemMetadata.hash else none

theorem Announces.contentHash {sha256 : Bytes → Bytes} {raw : RawBundle} {response : ItemResponse}
    (h : Announces sha256 raw response) : contentHash response = some raw.hash := by
  obtain ⟨hstatus, -, metadata, hmetadata, hhash, -⟩ := h
  unfold Basket.contentHash
  rw [if_pos hstatus, hmetadata, Option.map_some, hhash]

variable (run) in
theorem responses_controlBundle (parseEid : String → Option E) :
    (run.controlBundle parseEid).responses = run.itemResponses := by
  have hread : Cbor.decode BasketResponse.fromCbor (.tag basketTag :: run.response.toCbor) =
      .ok { run.response with experimentTag := some basketTag } :=
    (run.response.reads [basketTag]).decode
  unfold Bundle.responses Run.controlBundle
  simp only [hread]
  rfl

variable (run) in
theorem sendRaws_eq (parseEid : String → Option E) (sending : Nat → Except String Unit) (n : Nat)
    (raws : List RawBundle) : ∃ sent, sent <+: raws ∧
      (run.sendRaws parseEid sending n raws).1 = sent.map (run.rawBundle parseEid) ∧
      ((∀ n, sending n = .ok ()) → sent = raws) := by
  induction raws generalizing n with
  | nil => exact ⟨[], List.prefix_rfl, rfl, fun _ => rfl⟩
  | cons raw raws ih =>
    unfold Run.sendRaws
    split
    · next error herror =>
      refine ⟨[], List.nil_prefix, rfl, fun hall => ?_⟩
      rw [hall n] at herror
      cases herror
    · obtain ⟨sent, hstart, hsent, hall⟩ := ih (n + 1)
      refine ⟨raw :: sent, List.prefix_cons_iff.mpr (.inr ⟨sent, rfl, hstart⟩), ?_, fun h => ?_⟩
      · simp [hsent]
      · rw [hall h]

/-- The contents that a task sends after its control bundle are, in order, among those that the bundle
announces with their hashes and sizes, and each item has its part in both. -/
theorem sent_contents_announced (service : Service) (happenings : List (Happening E Url)) (i : Nat)
    (run : Run E) (h : (service.after happenings).runs[i]? = some run)
    (parseEid : String → Option E) (sending : Nat → Except String Unit) :
    (∃ sent, ((run.reply parseEid sending).1 = [] ∧ sent = [] ∨
          (run.reply parseEid sending).1 =
            run.controlBundle parseEid :: sent.map (run.rawBundle parseEid)) ∧
        sent <+: run.rawBundlesToSend ∧
        ((∀ n, sending n = .ok ()) → sent = run.rawBundlesToSend) ∧
        (sent.map RawBundle.hash).Sublist
          ((run.controlBundle parseEid).responses.filterMap contentHash) ∧
        List.SublistForall₂ (Announces service.sha256) sent (run.controlBundle parseEid).responses) ∧
      ∃ parts, Accounts service happenings i run parts := by
  obtain ⟨parts, haccounts⟩ := exists_accounts h
  refine ⟨?_, parts, haccounts⟩
  have hannounced (sent : List RawBundle) (hstart : sent <+: run.rawBundlesToSend) :
      List.SublistForall₂ (Announces service.sha256) sent run.itemResponses :=
    haccounts.announced.of_sublist hstart.sublist
  rw [responses_controlBundle]
  unfold Run.reply
  split
  · next error herror =>
    refine ⟨[], .inl ⟨rfl, rfl⟩, List.nil_prefix, fun hall => ?_, List.nil_sublist _, .nil⟩
    rw [hall 0] at herror
    cases herror
  · obtain ⟨sent, hstart, hsent, hall⟩ :=
      sendRaws_eq run parseEid sending 1 run.rawBundlesToSend
    have hsublist := hannounced sent hstart
    refine ⟨sent, .inr ?_, hstart, hall, ?_, hsublist⟩
    · simp [hsent]
    · exact hsublist.map_sublist fun _ _ => Announces.contentHash

/-- A node without a network. -/
def offlineWorld : World String where
  urls :=
    { parse := fun _ => .error "relative URL without a base"
      join := fun _ _ => .error "relative URL without a base"
      scheme := Text.before ':'
      hostStr := fun _ => none
      port := fun _ => none
      text := id }
  parseIp _ := none
  lookupHost _ _ := none
  get _ _ := .error "error sending request"
  gemini _ _ _ _ := .refused "Network is unreachable"
  isServerName _ := false
  canonicalize path := .ok path
  read _ := .ok []
  pathStartsWith path dir := Text.startsWith path dir
  lowercase s := s
  fromUtf8Lossy _ := ""

/-- One empty file, which is found by its name. -/
def noteService : Service where
  config := ⟨[], [("note", "/srv/note.txt")], 3⟩
  sha256 _ := [0xe3, 0xb0, 0xc4, 0x42, 0x98, 0xfc, 0x1c, 0x14, 0x9a, 0xfb, 0xf4, 0xc8, 0x99, 0x6f, 0xb9,
    0x24, 0x27, 0xae, 0x41, 0xe4, 0x64, 0x9b, 0x93, 0x4c, 0xa4, 0x95, 0x99, 0x1b, 0x78, 0x52, 0xb8, 0x55]
  regex query := some fun text => Text.contains text query

def noteSurroundings : Surroundings String where
  world := offlineWorld
  interrupted := false
  readDir _ := none
  files _ := ⟨fun _ => some [], fun _ => some ⟨0, none⟩⟩
  cancelled _ := false
  now := 0

/-- Node 1 searches for the file. -/
def noteSearch : List (Happening Nat String) :=
  [.arrive 1 (oneItem "r" 2 "note"), .proceed 0, .perform 0 noteSurroundings, .proceed 0, .proceed 0]

theorem note_announced : ∃ run : Run Nat, run.rawBundlesToSend.length = 1 ∧
    ∃ sent, ((run.reply (fun _ => none) fun _ => .ok ()).1 = [] ∧ sent = [] ∨
        (run.reply (fun _ => none) fun _ => .ok ()).1 =
          run.controlBundle (fun _ => none) :: sent.map (run.rawBundle fun _ => none)) ∧
      List.SublistForall₂ (Announces noteService.sha256) sent run.itemResponses := by
  have hraws : ((noteService.after noteSearch).runs[0]?.map fun run =>
      run.rawBundlesToSend.length) = some 1 := by
    decide +kernel
  obtain ⟨run, hrun, hone⟩ := Option.map_eq_some_iff.mp hraws
  obtain ⟨⟨sent, hsent, -, -, -, hannounced⟩, -⟩ :=
    sent_contents_announced noteService noteSearch 0 run hrun (fun _ => none) fun _ => .ok ()
  rw [responses_controlBundle] at hannounced
  exact ⟨run, hone, sent, hsent, hannounced⟩

end HdyUtils.Basket
