import HdyUtils.Basket.Correspondence
import HdyUtils.Lib.Parts

/-! The responses of a request against its items.  Every item has a response with its index, but for a
search whose results are all passed over because none of their files can be read. -/

namespace HdyUtils.Basket

open Parts

/-- There is a response for each item, exactly one unless it is a search, in the order of the items. -/
structure AnswersAll (items : List RequestItem) (responses : List ItemResponse) : Prop where
  each : ∀ k < items.length, ∃ response ∈ responses, response.itemIdx.toNat = k
  one : ∀ (k : Nat) item, items[k]? = some item → item.op ≠ 2 →
    (responses.filter fun response => response.itemIdx.toNat = k).length = 1
  below : ∀ response ∈ responses, response.itemIdx.toNat < items.length
  ordered : responses.Pairwise fun a b => a.itemIdx.toNat ≤ b.itemIdx.toNat

/-- The parts of the responses, one for each item, answer the items exactly if none is empty. -/
theorem answersAll_iff {items : List RequestItem} {parts : List (List ItemResponse)}
    (hnumbered : Numbered (fun response => response.itemIdx.toNat) parts)
    (hcount : parts.length = items.length)
    (hone : ∀ (k : Nat) item part, items[k]? = some item → parts[k]? = some part → item.op ≠ 2 →
      part.length = 1) :
    AnswersAll items parts.flatten ↔ ∀ part ∈ parts, part ≠ [] := by
  constructor
  · rintro hanswered part hpart rfl
    obtain ⟨k, hk⟩ := List.mem_iff_getElem?.mp hpart
    have hlt := (List.getElem?_eq_some_iff.mp hk).1
    obtain ⟨response, hmem, hidx⟩ := hanswered.each k (hcount ▸ hlt)
    obtain ⟨part, hpart, hin⟩ := hnumbered.mem_part hmem
    rw [hidx, hk] at hpart
    cases hpart
    exact List.not_mem_nil hin
  · intro hnonempty
    refine ⟨fun k hk => ?_, fun k item hitem hop => ?_, fun response hmem => ?_,
      hnumbered.pairwise⟩
    · have hpart := List.getElem?_eq_getElem (hcount ▸ hk : k < parts.length)
      obtain ⟨response, hin⟩ := List.exists_mem_of_ne_nil _
        (hnonempty _ (List.mem_of_getElem? hpart))
      exact ⟨response, mem_flatten_iff.mpr ⟨k, _, hpart, hin⟩, hnumbered k _ hpart response hin⟩
    · have hk := (List.getElem?_eq_some_iff.mp hitem).1
      have hpart := List.getElem?_eq_getElem (hcount ▸ hk : k < parts.length)
      rw [hnumbered.filter_eq hpart]
      exact hone k item _ hitem hpart hop
    · exact hcount ▸ hnumbered.tag_lt hmem

/-! ### The responses of one item -/

section Item

variable {Url : Type} {service : Service} {surroundings : Surroundings Url} {item : RequestItem}
  {idx : Nat} {defaultLifetime : UInt64}

/-- The search finds resources, few enough to look at, and none of their files can be read when it
comes to them. -/
def Service.Blank (service : Service) (surroundings : Surroundings Url) (item : RequestItem) : Prop :=
  service.found surroundings item ≠ [] ∧
    (service.found surroundings item).length ≤ searchResultInlineLimit ∧
    ∀ (n : Nat) result, (service.found surroundings item)[n]? = some result →
      surroundings.cancelled n = false ∧ (surroundings.files n).read result.2 = none

variable (service surroundings item idx defaultLifetime) in
/-- Looking at results gives no response exactly if it is not stopped and no file can be read. -/
theorem searchInline_blank_iff (n : Nat) (results : List (String × String)) :
    ((service.searchInline surroundings item idx defaultLifetime n results).2.2 = false ∧
      (service.searchInline surroundings item idx defaultLifetime n results).1 = []) ↔
    ∀ (m : Nat) result, results[m]? = some result →
      surroundings.cancelled (n + m) = false ∧ (surroundings.files (n + m)).read result.2 = none := by
  induction results generalizing n with
  | nil => simp [Service.searchInline]
  | cons result results ih =>
    obtain ⟨uri, path⟩ := result
    have hforall : (∀ (m : Nat) result, ((uri, path) :: results)[m]? = some result →
        surroundings.cancelled (n + m) = false ∧
          (surroundings.files (n + m)).read result.2 = none) ↔
        (surroundings.cancelled n = false ∧ (surroundings.files n).read path = none) ∧
        ∀ (m : Nat) result, results[m]? = some result →
          surroundings.cancelled (n + 1 + m) = false ∧
            (surroundings.files (n + 1 + m)).read result.2 = none := by
      constructor
      · intro h
        refine ⟨h 0 _ rfl, fun m result hm => ?_⟩
        rw [Nat.add_right_comm]
        exact h (m + 1) result hm
      · rintro ⟨hfirst, hrest⟩ m result hm
        cases m with
        | zero =>
          cases hm
          exact hfirst
        | succ m =>
          rw [Nat.add_comm m 1, ← Nat.add_assoc]
          exact hrest m result hm
    rw [hforall, ← ih (n + 1), Service.searchInline]
    cases surroundings.cancelled n with
    | true => simp
    | false =>
      cases (surroundings.files n).read path with
      | none => simp
      | some bytes =>
        simp only [Bool.false_eq_true, if_false]
        split_ifs <;> simp

variable (service surroundings idx defaultLifetime) in
/-- What comes of a search: responses for the item, of which there are none exactly if the search is
blank. -/
theorem handleSearch_blank_iff (hop : item.op = 2) : ∃ responses raws stopped,
    service.handleSearch surroundings item idx defaultLifetime =
      .searched (.ok (responses, raws)) stopped ∧
    (∀ response ∈ responses, response.itemIdx = .ofNat idx) ∧
    ((stopped = false ∧ responses = []) ↔ service.Blank surroundings item) := by
  obtain ⟨⟨responses, raws⟩, stopped, houtcome, hdue⟩ :=
    due_handleSearch service surroundings idx defaultLifetime hop
  refine ⟨responses, raws, stopped, houtcome, hdue.own, ?_⟩
  unfold Service.handleSearch at houtcome
  simp only at houtcome
  unfold Service.Blank Service.found
  split at houtcome
  · next hnone =>
    cases houtcome
    refine iff_of_false (fun h => ?_) fun h => h.1 (List.length_eq_zero_iff.mp hnone)
    exact List.cons_ne_nil _ _ h.2
  split at houtcome
  · next hmany =>
    cases houtcome
    refine iff_of_false (fun h => ?_) fun h => absurd h.2.1 (Nat.not_le.mpr hmany)
    exact List.cons_ne_nil _ _ h.2
  · next hsome hfew =>
    cases houtcome
    have hblank := searchInline_blank_iff service surroundings item idx defaultLifetime 0
      (service.performSearch surroundings.readDir item.uri)
    simp only [Nat.zero_add] at hblank
    rw [hblank, and_iff_right (Nat.not_lt.mp hfew), and_iff_right]
    exact fun hnil => hsome (List.length_eq_zero_iff.mpr hnil)

end Item

/-! ### The steps of a task -/

variable {E Url : Type} {service : Service} {run run' run'' : Run E} {idx : Nat} {item : RequestItem}
  {surroundings : Surroundings Url} {mine : Option (Surroundings Url)}

/-- The surroundings in which task `i` carries out its item. -/
def Happening.performedBy (i : Nat) : Happening E Url → Option (Surroundings Url)
  | .perform j surroundings => if j = i then some surroundings else none
  | .arrive .. | .proceed _ => none

namespace Run

/-- The task has the same request, which stays cancelled if it is. -/
structure Continues (run run' : Run E) : Prop where
  request : run'.request = run.request
  value : run'.cancelRx.value = false → run.cancelRx.value = false

/-- What a task adds to its responses in a step in which it carries out an item in the surroundings
`mine`, if it does. -/
inductive Goes (service : Service) (run : Run E) : Option (Surroundings Url) → Run E → Prop
  | waits (mine : Option (Surroundings Url)) (run' : Run E) (stage : run'.stage = run.stage)
      (responses : run'.itemResponses = run.itemResponses)
      (blank : ∀ surroundings idx item, mine = some surroundings → run.stage = .working idx →
        run.request.items[idx]? = some item → item.op = 2 → ¬service.Blank surroundings item) :
      Goes service run mine run'
  | takes (mine : Option (Surroundings Url)) (run' : Run E) (idx : Nat)
      (looping : run.stage = .looping idx) (working : run'.stage = .working idx)
      (responses : run'.itemResponses = run.itemResponses) : Goes service run mine run'
  | leaves (mine : Option (Surroundings Url)) (run' : Run E) (idx : Nat)
      (looping : run.stage = .looping idx) (left : run'.stage.item = none)
      (responses : run'.itemResponses = run.itemResponses)
      (all : run'.cancelRx.value = false → run.request.items.length ≤ idx) :
      Goes service run mine run'
  | finishes (mine : Option (Surroundings Url)) (run' : Run E) (left : run.stage = .leaving)
      (finished : run'.stage.item = none) (responses : run'.itemResponses = run.itemResponses) :
      Goes service run mine run'
  | answers (surroundings : Surroundings Url) (run' : Run E) (idx : Nat) (item : RequestItem)
      (part : List ItemResponse) (working : run.stage = .working idx)
      (isItem : run.request.items[idx]? = some item) (looping : run'.stage = .looping (idx + 1))
      (responses : run'.itemResponses = run.itemResponses ++ part)
      (own : ∀ response ∈ part, response.itemIdx = .ofNat idx)
      (one : item.op ≠ 2 → part.length = 1)
      (blank : run'.cancelRx.value = false → item.op = 2 →
        (part = [] ↔ service.Blank surroundings item)) :
      Goes service run (some surroundings) run'

theorem Continues.of_eq (hrequest : run'.request = run.request)
    (hvalue : run'.cancelRx.value = run.cancelRx.value) : run.Continues run' :=
  ⟨hrequest, fun h => hvalue ▸ h⟩

/-- At most the channel of the task has changed. -/
structure Same (run run' : Run E) : Prop extends Continues run run' where
  stage : run'.stage = run.stage
  responses : run'.itemResponses = run.itemResponses

theorem Same.refl (run : Run E) : run.Same run := ⟨⟨rfl, id⟩, rfl, rfl⟩

theorem same_signal (run : Run E) : run.Same run.signal := ⟨⟨rfl, nofun⟩, rfl, rfl⟩

theorem same_dropSender (run : Run E) : run.Same run.dropSender := ⟨⟨rfl, id⟩, rfl, rfl⟩

theorem Same.goes (h : run.Same run') : run.Goes service (none : Option (Surroundings Url)) run' :=
  .waits none run' h.stage h.responses nofun

theorem Same.trans_goes (h : run.Same run') (hgoes : run'.Goes service mine run'') :
    run.Goes service mine run'' := by
  cases hgoes with
  | waits mine _ stage responses blank =>
    refine .waits mine _ (stage.trans h.stage) (responses.trans h.responses) ?_
    rw [← h.stage, ← h.request]
    exact blank
  | takes mine _ idx looping working responses =>
    exact .takes mine _ idx (h.stage ▸ looping) working (responses.trans h.responses)
  | leaves mine _ idx looping left responses all =>
    exact .leaves mine _ idx (h.stage ▸ looping) left (responses.trans h.responses)
      (h.request ▸ all)
  | finishes mine _ left finished responses =>
    exact .finishes mine _ (h.stage ▸ left) finished (responses.trans h.responses)
  | answers surroundings _ idx item part working isItem looping responses own one blank =>
    exact .answers surroundings _ idx item part (h.stage ▸ working) (h.request ▸ isItem) looping
      (h.responses ▸ responses) own one blank

theorem Continues.trans (h : run.Continues run') (h' : run'.Continues run'') :
    run.Continues run'' :=
  ⟨h'.request.trans h.request, fun hvalue => h.value (h'.value hvalue)⟩

theorem goes_nextItem (hstage : run.stage = .looping idx) :
    run.Continues (run.nextItem idx) ∧
      run.Goes service (none : Option (Surroundings Url)) (run.nextItem idx) := by
  unfold nextItem
  split
  · next hnone =>
    exact ⟨.of_eq rfl rfl, .leaves _ _ idx hstage rfl rfl fun _ => List.getElem?_eq_none_iff.mp hnone⟩
  · split
    · next hvalue =>
      refine ⟨.of_eq rfl rfl, .leaves _ _ idx hstage rfl rfl fun hnot => ?_⟩
      rw [hvalue] at hnot
      cases hnot
    · exact ⟨.of_eq rfl rfl, .takes _ _ idx hstage rfl rfl⟩

section Perform

variable (hstage : run.stage = .working idx) (hitem : run.request.items[idx]? = some item)
include hstage hitem

/-- An item that is no search waits. -/
theorem goes_refl (hop : item.op ≠ 2) : run.Goes service (some surroundings) run := by
  refine .waits _ _ rfl rfl fun _ idx' item' _ hstage' hitem' hop' => ?_
  rw [hstage] at hstage'
  cases hstage'
  rw [hitem] at hitem'
  cases hitem'
  exact absurd hop' hop

/-- An item that is no search has one response. -/
theorem goes_one (hop : item.op ≠ 2) {response : ItemResponse} {raws : List RawBundle}
    (hown : response.itemIdx = .ofNat idx) (h : run.Answers run' idx ⟨[response], raws⟩) :
    run.Goes service (some surroundings) run' :=
  .answers surroundings _ idx item [response] hstage hitem h.stage h.responses
    (List.forall_mem_singleton.mpr hown) (fun _ => rfl) fun _ hsearch => absurd hsearch hop

theorem goes_answer (hop : item.op ≠ 2) (status : UInt8) (diagnostic : String) :
    run.Continues (run.answer idx status diagnostic) ∧
      run.Goes service (some surroundings) (run.answer idx status diagnostic) :=
  ⟨.of_eq rfl rfl, goes_one hstage hitem hop rfl (answers_respond _ _)⟩

theorem goes_handleFetch (keep : Bool) (hop : item.op ≠ 2) {outcome : Outcome}
    (h : Fetched service item idx outcome) :
    run.Continues (run.handleFetch item idx keep outcome) ∧
      run.Goes service (some surroundings) (run.handleFetch item idx keep outcome) := by
  cases h with
  | cancelled =>
    unfold handleFetch
    simp only
    split
    · exact ⟨.of_eq rfl rfl, .answers _ _ idx item [_] hstage hitem rfl rfl
        (List.forall_mem_singleton.mpr rfl) (fun _ => rfl) fun _ hsearch => absurd hsearch hop⟩
    · exact ⟨.of_eq rfl rfl, goes_refl hstage hitem hop⟩
  | nothing status diagnostic hstatus =>
    exact ⟨.of_eq rfl rfl, goes_one hstage hitem hop rfl (answers_respond _ _)⟩
  | content body mime lastModified hsize =>
    exact ⟨.of_eq rfl rfl, goes_one hstage hitem hop rfl (answers_respond _ _)⟩

theorem goes_handleSearch (hop : item.op = 2) (defaultLifetime : UInt64) :
    run.Continues (run.handleSearch idx
        (service.handleSearch surroundings item idx defaultLifetime)) ∧
      run.Goes service (some surroundings) (run.handleSearch idx
        (service.handleSearch surroundings item idx defaultLifetime)) := by
  obtain ⟨responses, raws, stopped, houtcome, hown, hblank⟩ :=
    handleSearch_blank_iff service surroundings idx defaultLifetime hop
  rw [houtcome]
  unfold handleSearch
  simp only
  split
  · next hstopped =>
    -- the search has seen a cancellation that is not there, so it does not end
    refine ⟨.of_eq rfl rfl, .waits _ _ rfl rfl fun surroundings' idx' item' hmine hstage' hitem' _ =>
      ?_⟩
    cases hmine
    rw [hstage] at hstage'
    cases hstage'
    rw [hitem] at hitem'
    cases hitem'
    rw [← hblank]
    rintro ⟨rfl, -⟩
    cases hstopped
  · next hends =>
    refine ⟨.of_eq rfl rfl, .answers _ _ idx item responses hstage hitem rfl rfl hown
      (fun hnot => absurd hop hnot) fun hvalue _ => ?_⟩
    have hgoing : stopped = false := by
      have hvalue : run.cancelRx.value = false := hvalue
      simpa [hvalue] using hends
    rw [← hblank, and_iff_right hgoing]

end Perform

end Run

namespace Tasks

variable {s s' : Tasks E} {i j : Nat}

/-- Task `i` takes a step, in the surroundings `mine` if it carries out its item, or there is no such
task. -/
def Steps (service : Service) (mine : Option (Surroundings Url)) (i : Nat) (s s' : Tasks E) : Prop :=
  ∃ g : Run E → Run E, s'.runs[i]? = s.runs[i]?.map g ∧ ∀ run, s.runs[i]? = some run →
    run.Continues (g run) ∧ run.Goes service mine (g run)

/-- Others may have signalled task `i`, or dropped its sender. -/
def Spares (i : Nat) (s s' : Tasks E) : Prop :=
  ∃ g : Run E → Run E, s'.runs[i]? = s.runs[i]?.map g ∧ ∀ run : Run E, run.Same (g run)

theorem spares_refl : s.Spares i s := ⟨id, by simp, Run.Same.refl⟩

theorem steps_refl : s.Steps service (none : Option (Surroundings Url)) i s :=
  ⟨id, by simp, fun run _ => ⟨.of_eq rfl rfl, (Run.Same.refl run).goes⟩⟩

theorem spares_remove (reqId : String) : s.Spares i (s.remove reqId) := by
  refine ⟨_, remove_runs i, fun run => ?_⟩
  split
  · exact run.same_dropSender
  · exact .refl run

theorem spares_afterCancel (target : String) : s.Spares i (s.afterCancel target) := by
  cases hj : s.activeTasks[target]? with
  | none =>
    rw [afterCancel_none hj]
    exact ⟨id, by simp, Run.Same.refl⟩
  | some j =>
    rw [afterCancel_some hj]
    refine ⟨_, runs_modify (s := s), fun run => ?_⟩
    split
    · exact run.same_signal
    · exact .refl run

/-- A task takes a step itself after others may have signalled it or dropped its sender. -/
theorem Spares.steps_modify {f : Run E → Run E} (h : s.Spares i s') (hother : j ≠ i → mine = none)
    (hf : j = i → ∀ run, s'.runs[i]? = some run →
      run.Continues (f run) ∧ run.Goes service mine (f run)) :
    s.Steps service mine i (s'.modify j f) := by
  obtain ⟨g, hruns, hg⟩ := h
  refine ⟨fun run => if j = i then f (g run) else g run, ?_, fun run hrun => ?_⟩
  · rw [runs_modify, hruns, Option.map_map]
    congr 1
  · simp only
    split
    · next heq =>
      have hmid : s'.runs[i]? = some (g run) := by rw [hruns, hrun]; rfl
      obtain ⟨hcontinues, hgoes⟩ := hf heq (g run) hmid
      exact ⟨(hg run).toContinues.trans hcontinues, (hg run).trans_goes hgoes⟩
    · next hne =>
      rw [hother hne]
      exact ⟨(hg run).toContinues, (hg run).goes⟩

theorem steps_proceed : s.Steps service (none : Option (Surroundings Url)) i (s.step (.proceed j)) := by
  unfold step
  simp only
  split
  · next run hrun =>
    split
    · next idx hstage =>
      refine spares_refl.steps_modify (fun _ => rfl) fun heq old hold => ?_
      rw [← heq, hrun] at hold
      cases hold
      exact Run.goes_nextItem hstage
    · next hstage =>
      have hspares : s.Spares i (s.remove run.request.reqId) := spares_remove _
      refine hspares.steps_modify (fun _ => rfl) fun heq mid hmid => ?_
      obtain ⟨g, hruns, hg⟩ := hspares
      subst heq
      rw [hruns, hrun] at hmid
      cases hmid
      exact ⟨.of_eq rfl rfl, .finishes _ _ ((hg run).stage.trans hstage) rfl rfl⟩
    · exact steps_refl
    · exact steps_refl
  · exact steps_refl

theorem steps_arrive {source : E} {payload : List Cbor.Token} :
    s.Steps service (none : Option (Surroundings Url)) i (s.step (.arrive source payload)) ∨
      s.runs[i]? = none ∧ ∀ run', (s.step (.arrive source payload)).runs[i]? = some run' →
        run'.itemResponses = [] ∧ run'.stage = .looping 0 := by
  unfold step
  simp only
  split
  · next request _ =>
    simp only [Steps, register_runs]
    split
    · next heq =>
      refine .inr ⟨List.getElem?_eq_none heq.ge, fun run' hrun' => ?_⟩
      cases hrun'
      exact ⟨rfl, rfl⟩
    · obtain ⟨g, hruns, hg⟩ := spares_remove (s := s) (i := i) request.reqId
      exact .inl ⟨g, hruns, fun run _ => ⟨(hg run).toContinues, (hg run).goes⟩⟩
  · exact .inl steps_refl

theorem steps_perform {working : Run E} (hworking : s.runs[j]? = some working)
    (hstage : working.stage = .working idx) (hitem : working.request.items[idx]? = some item)
    (hmine : mine = if j = i then some surroundings else none) (defaultLifetime : UInt64) :
    s.Steps service mine i
      (s.perform j idx item (service.carryOut surroundings item idx defaultLifetime)) := by
  have hother (hne : j ≠ i) : mine = none := by rw [hmine, if_neg hne]
  have hself (heq : j = i) : mine = some surroundings := by rw [hmine, if_pos heq]
  have hsteps {f : Run E → Run E} (hf : working.Continues (f working) ∧
      working.Goes service (some surroundings) (f working)) :
      s.Steps service mine i (s.modify j f) := by
    refine spares_refl.steps_modify hother fun heq run hrun => ?_
    rw [← heq, hworking] at hrun
    cases hrun
    rwa [hself heq]
  clear hmine
  unfold perform
  split
  · next hop =>
    rw [service.carryOut_fetch surroundings idx defaultLifetime (.inl hop)]
    exact hsteps (Run.goes_handleFetch hstage hitem true (by rw [hop]; decide)
      fetched_fetchAndHashItem)
  · next hop =>
    rw [service.carryOut_fetch surroundings idx defaultLifetime (.inr hop)]
    exact hsteps (Run.goes_handleFetch hstage hitem false (by rw [hop]; decide)
      fetched_fetchAndHashItem)
  · next hop =>
    rw [service.carryOut_search surroundings idx defaultLifetime hop]
    exact hsteps (Run.goes_handleSearch hstage hitem hop defaultLifetime)
  · next hop =>
    obtain ⟨status, diagnostic, -, hcancel⟩ := s.cancel_eq j idx item.uri
    rw [hcancel]
    have hspares : s.Spares i (s.afterCancel item.uri) := spares_afterCancel _
    refine hspares.steps_modify hother fun heq mid hmid => ?_
    obtain ⟨g, hruns, hg⟩ := hspares
    rw [hruns, ← heq, hworking] at hmid
    cases hmid
    rw [hself heq]
    exact Run.goes_answer ((hg working).stage.trans hstage)
      ((hg working).request.symm ▸ hitem) (by rw [hop]; decide) status diagnostic
  · next hop =>
    obtain ⟨response, raw, hlisted, hdue⟩ := due_handleList service surroundings item idx
      defaultLifetime (by rw [hop]; decide)
    rw [service.carryOut_list surroundings idx defaultLifetime hop, hlisted]
    exact hsteps ⟨.of_eq rfl rfl, Run.goes_one hstage hitem (by rw [hop]; decide)
      (hdue.own response List.mem_cons_self) (Run.answers_respond _ _)⟩
  · next hget hcheck hsearch hcancel hlist =>
    exact hsteps (Run.goes_answer hstage hitem hsearch _ _)

/-- What one happening does to a task. -/
theorem steps_step (happening : Happening E Url) :
    s.Steps service (happening.performedBy i) i (service.step s happening) ∨
      s.runs[i]? = none ∧ ∀ run', (service.step s happening).runs[i]? = some run' →
        run'.itemResponses = [] ∧ run'.stage = .looping 0 := by
  cases happening with
  | arrive source payload => exact steps_arrive
  | proceed j => exact .inl steps_proceed
  | perform j surroundings =>
    refine .inl ?_
    cases hcurrent : Service.current s j with
    | some doing =>
      obtain ⟨working, idx, item⟩ := doing
      obtain ⟨hworking, hstage, hitem⟩ := current_eq hcurrent
      rw [step_perform hcurrent]
      exact steps_perform hworking hstage hitem rfl _
    | none =>
      rw [step_perform_none hcurrent]
      refine ⟨id, by simp, fun run hrun => ⟨.of_eq rfl rfl, .waits _ _ rfl rfl ?_⟩⟩
      intro surroundings' idx item hmine hstage hitem
      simp only [Happening.performedBy] at hmine
      split at hmine
      · next heq =>
        subst heq
        simp [Service.current, hrun, hstage, hitem] at hcurrent
      · cases hmine

end Tasks

/-! ### The parts of the responses -/

section Ledger

variable {happenings : List (Happening E Url)} {happening : Happening E Url} {i k : Nat}
  {parts : List (List ItemResponse)} {part : List ItemResponse}

/-- The last step carries out the item that its task works on. -/
theorem carriedOut_concat_iff :
    CarriedOut service (happenings ++ [happening]) i k surroundings ↔
      CarriedOut service happenings i k surroundings ∨
        happening.performedBy i = some surroundings ∧
          ∃ run, (service.after happenings).runs[i]? = some run ∧ run.stage = .working k := by
  constructor
  · rintro ⟨earlier, later, run, hsplit, hrun, hstage⟩
    rcases List.eq_nil_or_concat later with rfl | ⟨later, last, rfl⟩
    · obtain ⟨rfl, hlast⟩ := List.append_inj' hsplit rfl
      obtain rfl := List.singleton_inj.mp hlast
      exact .inr ⟨if_pos rfl, run, hrun, hstage⟩
    · rw [List.concat_eq_append, ← List.cons_append, ← List.append_assoc] at hsplit
      obtain ⟨rfl, -⟩ := List.append_inj' hsplit rfl
      exact .inl ⟨earlier, later, run, rfl, hrun, hstage⟩
  · rintro (hcarried | ⟨hmine, run, hrun, hstage⟩)
    · exact hcarried.concat
    · cases happening with
      | arrive source payload => cases hmine
      | proceed j => cases hmine
      | perform j surroundings =>
        simp only [Happening.performedBy, Option.ite_none_right_eq_some, Option.some.injEq] at hmine
        obtain ⟨rfl, rfl⟩ := hmine
        exact ⟨happenings, [], run, rfl, hrun, hstage⟩

/-- These are the responses of a task to its item `k`.  Those to a search are none exactly if it was blank
when it was carried out. -/
structure PartOf (service : Service) (happenings : List (Happening E Url)) (i : Nat) (run : Run E)
    (k : Nat) (item : RequestItem) (part : List ItemResponse) : Prop where
  isItem : run.request.items[k]? = some item
  own : ∀ response ∈ part, response.itemIdx = .ofNat k
  one : item.op ≠ 2 → part.length = 1
  empty : run.cancelRx.value = false → item.op = 2 → (part = [] ↔ ∃ surroundings,
    CarriedOut service happenings i k surroundings ∧ service.Blank surroundings item)

/-- The responses of a task are the parts of its items, one after another. -/
structure Ledger (service : Service) (happenings : List (Happening E Url)) (i : Nat) (run : Run E)
    (parts : List (List ItemResponse)) : Prop where
  responses : run.itemResponses = parts.flatten
  count : ∀ k, run.stage.item = some k → parts.length = k
  all : run.stage.item = none → run.cancelRx.value = false →
    run.request.items.length ≤ parts.length
  ahead : ∀ (k : Nat) surroundings,
    CarriedOut service happenings i k surroundings → k ≤ parts.length
  pending : ∀ surroundings item, CarriedOut service happenings i parts.length surroundings →
    run.request.items[parts.length]? = some item → item.op = 2 → ¬service.Blank surroundings item
  part : ∀ (k : Nat) part, parts[k]? = some part →
    ∃ item, PartOf service happenings i run k item part

/-- A task that has just been registered has no parts. -/
theorem ledger_nil (hfresh : ∀ (k : Nat) surroundings,
      ¬CarriedOut service happenings i k surroundings)
    (hresponses : run.itemResponses = []) (hstage : run.stage = .looping 0) :
    Ledger service happenings i run [] where
  responses := hresponses
  count k hk := by
    rw [hstage] at hk
    cases hk
    rfl
  all hnone := by
    rw [hstage] at hnone
    cases hnone
  ahead k surroundings hcarried := absurd hcarried (hfresh k surroundings)
  pending surroundings _ hcarried := absurd hcarried (hfresh _ surroundings)
  part := nofun

/-- The parts of the items before the one that is carried out stay as they are. -/
theorem Ledger.part_concat (h : Ledger service happenings i run parts) (hgo : run.Continues run')
    (hcarried : ∀ (k : Nat) surroundings,
      CarriedOut service (happenings ++ [happening]) i k surroundings →
        CarriedOut service happenings i k surroundings ∨ k = parts.length)
    (hpart : parts[k]? = some part) :
    ∃ item, PartOf service (happenings ++ [happening]) i run' k item part := by
  obtain ⟨item, hitem⟩ := h.part k part hpart
  refine ⟨item, hgo.request ▸ hitem.isItem, hitem.own, hitem.one, fun hvalue hop => ?_⟩
  rw [hitem.empty (hgo.value hvalue) hop]
  have hlt := (List.getElem?_eq_some_iff.mp hpart).1
  have hiff (surroundings : Surroundings Url) :
      CarriedOut service (happenings ++ [happening]) i k surroundings ↔
        CarriedOut service happenings i k surroundings :=
    ⟨fun hnew => (hcarried k surroundings hnew).resolve_right hlt.ne, CarriedOut.concat⟩
  simp only [hiff]

/-- A step in which the task adds no part. -/
theorem Ledger.stays (h : Ledger service happenings i run parts) (hgo : run.Continues run')
    (hresponses : run'.itemResponses = run.itemResponses)
    (hcount : ∀ k, run'.stage.item = some k → parts.length = k)
    (hall : run'.stage.item = none → run'.cancelRx.value = false →
      run'.request.items.length ≤ parts.length)
    (hcarried : ∀ (k : Nat) surroundings,
      CarriedOut service (happenings ++ [happening]) i k surroundings →
        CarriedOut service happenings i k surroundings ∨ k = parts.length ∧
          ∀ item, run.request.items[k]? = some item → item.op = 2 →
            ¬service.Blank surroundings item) :
    Ledger service (happenings ++ [happening]) i run' parts where
  responses := hresponses.trans h.responses
  count := hcount
  all := hall
  ahead k surroundings hnew := by
    rcases hcarried k surroundings hnew with hold | ⟨rfl, -⟩
    · exact h.ahead k surroundings hold
    · exact le_rfl
  pending surroundings item hnew hitem := by
    rw [hgo.request] at hitem
    rcases hcarried _ surroundings hnew with hold | ⟨-, hblank⟩
    · exact h.pending surroundings item hold hitem
    · exact hblank item hitem
  part _ _ := h.part_concat hgo fun k surroundings hnew =>
    (hcarried k surroundings hnew).imp_right And.left

/-- A step in which the task answers its item. -/
theorem Ledger.answers (h : Ledger service happenings i run parts)
    (hrun : (service.after happenings).runs[i]? = some run) (hgo : run.Continues run')
    (hmine : happening.performedBy i = some surroundings) (hstage : run.stage = .working idx)
    (hitem : run.request.items[idx]? = some item) (hstage' : run'.stage = .looping (idx + 1))
    (hresponses : run'.itemResponses = run.itemResponses ++ part)
    (hown : ∀ response ∈ part, response.itemIdx = .ofNat idx)
    (hone : item.op ≠ 2 → part.length = 1)
    (hblank : run'.cancelRx.value = false → item.op = 2 →
      (part = [] ↔ service.Blank surroundings item)) :
    Ledger service (happenings ++ [happening]) i run' (parts ++ [part]) := by
  have hlength : parts.length = idx := h.count idx (by rw [hstage]; rfl)
  have hcarried (k : Nat) (surroundings' : Surroundings Url)
      (hnew : CarriedOut service (happenings ++ [happening]) i k surroundings') :
      CarriedOut service happenings i k surroundings' ∨ k = idx ∧ surroundings' = surroundings := by
    rcases carriedOut_concat_iff.mp hnew with hold | ⟨hmine', run, hrun', hworking⟩
    · exact .inl hold
    · rw [hrun] at hrun'
      cases hrun'
      rw [hstage] at hworking
      cases hworking
      exact .inr ⟨rfl, Option.some.inj (hmine'.symm.trans hmine)⟩
  have hnow : CarriedOut service (happenings ++ [happening]) i idx surroundings :=
    carriedOut_concat_iff.mpr (.inr ⟨hmine, run, hrun, hstage⟩)
  have hahead (k : Nat) (surroundings' : Surroundings Url)
      (hnew : CarriedOut service (happenings ++ [happening]) i k surroundings') : k ≤ idx := by
    rcases hcarried k surroundings' hnew with hold | ⟨rfl, -⟩
    · exact hlength ▸ h.ahead k surroundings' hold
    · exact le_rfl
  refine ⟨?_, ?_, ?_, ?_, ?_, ?_⟩
  · rw [hresponses, h.responses]
    simp
  · intro k hk
    rw [hstage'] at hk
    cases hk
    simp [hlength]
  · intro hnone
    rw [hstage'] at hnone
    cases hnone
  · intro k surroundings' hnew
    have hle := hahead k surroundings' hnew
    simp only [List.length_append, List.length_singleton]
    omega
  · intro surroundings' _ hnew
    have hle := hahead _ surroundings' hnew
    simp only [List.length_append, List.length_singleton] at hle
    omega
  · intro k part' hpart
    rw [List.getElem?_append] at hpart
    split at hpart
    · exact h.part_concat hgo (fun k surroundings hnew =>
        (hcarried k surroundings hnew).imp_right fun hk => hk.1.trans hlength.symm) hpart
    · next hge =>
      rw [List.getElem?_singleton] at hpart
      split at hpart
      · cases hpart
        obtain rfl : k = idx := by omega
        refine ⟨item, hgo.request ▸ hitem, hown, hone, fun hvalue hop => ?_⟩
        rw [hblank hvalue hop]
        constructor
        · exact fun hall => ⟨surroundings, hnow, hall⟩
        · rintro ⟨surroundings', hnew, hall⟩
          rcases hcarried k surroundings' hnew with hold | ⟨-, rfl⟩
          · rw [← hlength] at hold hitem
            exact absurd hall (h.pending surroundings' item hold hitem hop)
          · exact hall
      · cases hpart

/-- A step of a task that has its parts. -/
theorem Ledger.step (h : Ledger service happenings i run parts)
    (hrun : (service.after happenings).runs[i]? = some run) (hgo : run.Continues run')
    (hgoes : run.Goes service (happening.performedBy i) run') :
    ∃ parts', Ledger service (happenings ++ [happening]) i run' parts' := by
  have hcarried (hidle : ∀ k, run.stage ≠ .working k) (k : Nat) (surroundings : Surroundings Url)
      (hnew : CarriedOut service (happenings ++ [happening]) i k surroundings) :
      CarriedOut service happenings i k surroundings ∨ k = parts.length ∧
        ∀ item, run.request.items[k]? = some item → item.op = 2 →
          ¬service.Blank surroundings item := by
    refine (carriedOut_concat_iff.mp hnew).imp_right ?_
    rintro ⟨-, run, hrun', hworking⟩
    rw [hrun] at hrun'
    cases hrun'
    exact absurd hworking (hidle k)
  generalize hmine : happening.performedBy i = mine at hgoes
  cases hgoes with
  | waits _ _ stage responses blank =>
    refine ⟨parts, h.stays hgo responses (stage ▸ h.count) ?_ fun k surroundings hnew => ?_⟩
    · rw [stage, hgo.request]
      exact fun hnone hvalue => h.all hnone (hgo.value hvalue)
    · refine (carriedOut_concat_iff.mp hnew).imp_right ?_
      rintro ⟨hmine', run, hrun', hworking⟩
      rw [hrun] at hrun'
      cases hrun'
      refine ⟨(h.count k (by rw [hworking]; rfl)).symm, fun item hitem => ?_⟩
      exact blank surroundings k item (hmine.symm.trans hmine') hworking hitem
  | takes _ _ idx looping working responses =>
    refine ⟨parts, h.stays hgo responses (fun k hk => ?_) (fun hnone => ?_)
      (hcarried fun k hk => ?_)⟩
    · rw [working] at hk
      exact h.count k (by rw [looping]; exact hk)
    · rw [working] at hnone
      cases hnone
    · rw [looping] at hk
      cases hk
  | leaves _ _ idx looping left responses all =>
    refine ⟨parts, h.stays hgo responses (fun k hk => ?_) (fun _ hvalue => ?_)
      (hcarried fun k hk => ?_)⟩
    · rw [left] at hk
      cases hk
    · rw [hgo.request, h.count idx (by rw [looping]; rfl)]
      exact all hvalue
    · rw [looping] at hk
      cases hk
  | finishes _ _ left finished responses =>
    refine ⟨parts, h.stays hgo responses (fun k hk => ?_) (fun _ hvalue => ?_)
      (hcarried fun k hk => ?_)⟩
    · rw [finished] at hk
      cases hk
    · rw [hgo.request]
      exact h.all (by rw [left]; rfl) (hgo.value hvalue)
    · rw [left] at hk
      cases hk
  | answers surroundings _ idx item part working isItem looping responses own one blank =>
    exact ⟨parts ++ [part], h.answers hrun hgo hmine working isItem looping responses own one blank⟩

/-- Every task has its parts, and what is not a task has carried out nothing. -/
theorem exists_ledger (service : Service) (happenings : List (Happening E Url)) (i : Nat) :
    ((service.after happenings).runs[i]? = none →
        ∀ k surroundings, ¬CarriedOut service happenings i k surroundings) ∧
      ∀ run, (service.after happenings).runs[i]? = some run →
        ∃ parts, Ledger service happenings i run parts := by
  induction happenings using List.reverseRecOn with
  | nil =>
    refine ⟨fun _ k surroundings => ?_, nofun⟩
    rintro ⟨earlier, later, run, hsplit, -⟩
    simp at hsplit
  | append_singleton happenings happening ih =>
    obtain ⟨habsent, hledger⟩ := ih
    have hafter : service.after (happenings ++ [happening]) =
        service.step (service.after happenings) happening := Trace.run_append _ _
    have hnever (hnone : (service.after happenings).runs[i]? = none) (k : Nat)
        (surroundings : Surroundings Url) :
        ¬CarriedOut service (happenings ++ [happening]) i k surroundings := by
      rw [carriedOut_concat_iff]
      rintro (hcarried | ⟨-, run, hrun, -⟩)
      · exact habsent hnone k surroundings hcarried
      · rw [hnone] at hrun
        cases hrun
    rw [hafter]
    have hsteps : (service.after happenings).Steps service (happening.performedBy i) i
          (service.step (service.after happenings) happening) ∨ _ :=
      Tasks.steps_step happening
    rcases hsteps with ⟨g, hruns, hg⟩ | ⟨hnone, hnew⟩
    · rw [hruns]
      refine ⟨fun hnone => hnever (Option.map_eq_none_iff.mp hnone), fun run' hrun' => ?_⟩
      obtain ⟨run, hrun, rfl⟩ := Option.map_eq_some_iff.mp hrun'
      obtain ⟨parts, hparts⟩ := hledger run hrun
      obtain ⟨hgo, hgoes⟩ := hg run hrun
      exact hparts.step hrun hgo hgoes
    · refine ⟨fun _ => hnever hnone, fun run' hrun' => ?_⟩
      obtain ⟨hresponses, hstage⟩ := hnew run' hrun'
      exact ⟨[], ledger_nil (hnever hnone) hresponses hstage⟩

end Ledger

/-- The control bundle of a request that is not cancelled answers its items exactly if no search was
blank when it was carried out. -/
theorem every_item_answered_iff (service : Service) (happenings : List (Happening E Url)) (i : Nat)
    (run : Run E) (h : (service.after happenings).runs[i]? = some run)
    (hdone : run.stage.item = none) (hcancel : run.cancelRx.value = false)
    (hsize : run.request.items.length ≤ 2 ^ 64) (parseEid : String → Option E) :
    AnswersAll run.request.items (run.controlBundle parseEid).responses ↔
      ∀ (k : Nat) item surroundings, run.request.items[k]? = some item → item.op = 2 →
        CarriedOut service happenings i k surroundings → ¬service.Blank surroundings item := by
  obtain ⟨parts, hparts⟩ := (exists_ledger service happenings i).2 run h
  have hle : parts.length ≤ run.request.items.length := by
    by_contra hlt
    have hlast := List.getElem?_eq_getElem (Nat.not_le.mp hlt)
    obtain ⟨item, hitem⟩ := hparts.part _ _ hlast
    exact lt_irrefl _ (List.getElem?_eq_some_iff.mp hitem.isItem).1
  have hcount : parts.length = run.request.items.length := hle.antisymm (hparts.all hdone hcancel)
  have hnumbered : Numbered (fun response : ItemResponse => response.itemIdx.toNat) parts := by
    intro k part hpart response hmem
    obtain ⟨item, hitem⟩ := hparts.part k part hpart
    have hlt := (List.getElem?_eq_some_iff.mp hitem.isItem).1
    simp only [hitem.own response hmem, UInt64.toNat_ofNat']
    exact Nat.mod_eq_of_lt (hlt.trans_le hsize)
  have hone (k : Nat) (item : RequestItem) (part : List ItemResponse)
      (hitem : run.request.items[k]? = some item) (hpart : parts[k]? = some part)
      (hop : item.op ≠ 2) : part.length = 1 := by
    obtain ⟨item', hitem'⟩ := hparts.part k part hpart
    obtain rfl := Option.some.inj (hitem.symm.trans hitem'.isItem)
    exact hitem'.one hop
  rw [responses_controlBundle, hparts.responses, answersAll_iff hnumbered hcount hone]
  constructor
  · intro hnonempty k item surroundings hitem hop hcarried hblank
    have hk := (List.getElem?_eq_some_iff.mp hitem).1
    have hpart := List.getElem?_eq_getElem (hcount ▸ hk : k < parts.length)
    obtain ⟨item', hitem'⟩ := hparts.part k _ hpart
    obtain rfl := Option.some.inj (hitem.symm.trans hitem'.isItem)
    exact hnonempty _ (List.mem_of_getElem? hpart)
      ((hitem'.empty hcancel hop).mpr ⟨surroundings, hcarried, hblank⟩)
  · rintro hfound part hmem rfl
    obtain ⟨k, hpart⟩ := List.mem_iff_getElem?.mp hmem
    obtain ⟨item, hitem⟩ := hparts.part k _ hpart
    by_cases hop : item.op = 2
    · obtain ⟨surroundings, hcarried, hblank⟩ := (hitem.empty hcancel hop).mp rfl
      exact hfound k item surroundings hitem.isItem hop hcarried hblank
    · cases hitem.one hop

/-- The search for the file answers its item. -/
theorem note_answered : ∃ run : Run Nat, (noteService.after noteSearch).runs[0]? = some run ∧
    run.request.items.length = 1 ∧
    (AnswersAll run.request.items (run.controlBundle fun _ => none).responses ↔
      ∀ (k : Nat) item surroundings, run.request.items[k]? = some item → item.op = 2 →
        CarriedOut noteService noteSearch 0 k surroundings →
          ¬noteService.Blank surroundings item) := by
  have hfacts : ((noteService.after noteSearch).runs[0]?.map fun run =>
      (run.stage.item, run.cancelRx.value, run.request.items.length)) = some (none, false, 1) := by
    decide +kernel
  obtain ⟨run, hrun, heq⟩ := Option.map_eq_some_iff.mp hfacts
  simp only [Prod.mk.injEq] at heq
  obtain ⟨hdone, hcancel, hone⟩ := heq
  exact ⟨run, hrun, hone, every_item_answered_iff noteService noteSearch 0 run hrun hdone hcancel
    (by omega) fun _ => none⟩

/-- The file that the search has found is gone when it is to be read. -/
def goneSurroundings : Surroundings String :=
  { noteSurroundings with files := fun _ => ⟨fun _ => none, fun _ => none⟩ }

/-- The search finds one resource and the response has no item for it. -/
theorem gone_is_not_answered : ∃ run : Run Nat,
    (noteService.after [.arrive 1 (oneItem "r" 2 "note"), .proceed 0, .perform 0 goneSurroundings,
      .proceed 0, .proceed 0]).runs[0]? = some run ∧
    run.stage = .finished ∧ run.cancelRx.value = false ∧ run.request.items.length = 1 ∧
    (run.controlBundle fun _ => none).responses = [] ∧
    ¬AnswersAll run.request.items (run.controlBundle fun _ => none).responses := by
  have hfacts : ((noteService.after [.arrive 1 (oneItem "r" 2 "note"), .proceed 0,
      .perform 0 goneSurroundings, .proceed 0, .proceed 0]).runs[0]?.map fun run =>
        (run.stage, run.cancelRx.value, run.request.items.length, run.itemResponses)) =
      some (.finished, false, 1, []) := by
    decide +kernel
  obtain ⟨run, hrun, heq⟩ := Option.map_eq_some_iff.mp hfacts
  simp only [Prod.mk.injEq] at heq
  obtain ⟨hfinished, hcancel, hone, hresponses⟩ := heq
  refine ⟨run, hrun, hfinished, hcancel, hone, ?_, fun hanswered => ?_⟩
  · rw [responses_controlBundle, hresponses]
  · rw [responses_controlBundle, hresponses] at hanswered
    obtain ⟨response, hmem, -⟩ := hanswered.each 0 (by omega)
    cases hmem

end HdyUtils.Basket
