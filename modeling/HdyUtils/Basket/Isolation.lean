import HdyUtils.Basket.Requests

/-! What the request tasks do to one another through `active_tasks`: a request is found by the CANCEL
items that name it, and only they interrupt it, as long as no other request is active under its id. -/

namespace HdyUtils.Basket

open Std Maps

variable {E : Type}

namespace Tasks

variable {s : Tasks E} {i j : Nat} {run : Run E} {f : Run E → Run E}

theorem runs_modify :
    (s.modify i f).runs[j]? = s.runs[j]?.map fun run => if i = j then f run else run := by
  unfold modify
  rw [List.getElem?_modify]
  rfl

theorem runs_modify_some {run' : Run E} (h : (s.modify i f).runs[j]? = some run') :
    ∃ run, s.runs[j]? = some run ∧ run' = if i = j then f run else run := by
  rw [runs_modify, Option.map_eq_some_iff] at h
  obtain ⟨run, hrun, rfl⟩ := h
  exact ⟨run, hrun, rfl⟩

theorem mem_activeUnder {reqId : String} :
    i ∈ s.activeUnder reqId ↔
      ∃ run, s.runs[i]? = some run ∧ run.isActive = true ∧ run.request.reqId = reqId := by
  unfold activeUnder
  rw [List.mem_filter, List.mem_range]
  cases hrun : s.runs[i]? with
  | none => simp
  | some run =>
    have hlt := (List.getElem?_eq_some_iff.mp hrun).1
    simp [hlt]

/-- What the senders and the channels have to do with each other, in every state. -/
structure Sound (s : Tasks E) : Prop where
  registered : ∀ (reqId : String) (i : Nat), s.activeTasks[reqId]? = some i →
    ∃ run, s.runs[i]? = some run ∧ run.request.reqId = reqId ∧ run.stage ≠ .finished ∧
      run.cancelRx = .new
  held : ∀ (i : Nat) (run : Run E), s.runs[i]? = some run →
    run.cancelRx.closed = false → s.activeTasks[run.request.reqId]? = some i
  unseen : ∀ (i : Nat) (run : Run E), s.runs[i]? = some run → run.cancelRx.unseen = true →
    run.cancelRx.value = true
  signalled : ∀ (i : Nat) (run : Run E), s.runs[i]? = some run →
    run.cancelRx.value = true → ∃ c ∈ s.cancels, c.target = run.request.reqId ∧ i ∈ c.active

/-- A request is interrupted only where a CANCEL item named it while it was active; a CANCEL item that
is answered CHANGED signalled a request that was active; and an active request is found under its id. -/
structure Isolated (s : Tasks E) : Prop where
  interrupted : ∀ (i : Nat) (run : Run E), s.runs[i]? = some run →
    run.interrupted = true → ∃ c ∈ s.cancels, c.target = run.request.reqId ∧ i ∈ c.active
  changed : ∀ c ∈ s.cancels, c.changed = true → ∃ i ∈ c.active,
    ∃ run, s.runs[i]? = some run ∧ run.request.reqId = c.target ∧ run.cancelRx.value = true
  found : ∀ (i : Nat) (run : Run E), s.runs[i]? = some run →
    run.isActive = true → s.activeTasks[run.request.reqId]? = some i

/-- No request registers under an id under which another is active, and no request leaves while
another is active under its id. -/
def undisturbed (s : Tasks E) : Action E → Bool
  | .arrive _ payload =>
    match Cbor.decode BasketRequest.fromCbor payload with
    | .ok request => (s.activeUnder request.reqId).isEmpty
    | .error _ => true
  | .proceed i =>
    match s.runs[i]? with
    | some run => run.stage != .leaving || (s.activeUnder run.request.reqId).all (· == i)
    | none => true
  | .perform .. => true

end Tasks

/-- A step of a task that leaves its channel and its place among the active tasks alone. -/
structure Run.Moves (run run' : Run E) : Prop where
  request : run'.request = run.request
  live : run.stage ≠ .finished
  live' : run'.stage ≠ .finished
  value : run'.cancelRx.value = run.cancelRx.value
  closed : run'.cancelRx.closed = run.cancelRx.closed
  unseen : run'.cancelRx.unseen = true → run.cancelRx.unseen = true
  interrupted : run'.interrupted = true →
    run.interrupted = true ∨ run.cancelRx.value = true ∨ run.cancelRx.changed = true

namespace Run.Moves

variable {run run' : Run E} {idx : Nat}

theorem refl (hlive : run.stage ≠ .finished) : run.Moves run :=
  ⟨rfl, hlive, hlive, rfl, rfl, id, .inl⟩

theorem isActive (h : run.Moves run') : run'.isActive = run.isActive := by
  have hlive := h.live
  have hlive' := h.live'
  unfold Run.isActive
  rw [h.value, bne_iff_ne.mpr hlive, bne_iff_ne.mpr hlive']

theorem respond (hlive : run.stage ≠ .finished) (responses : List ItemResponse)
    (raws : List RawBundle) : run.Moves (run.respond idx responses raws) :=
  ⟨rfl, hlive, nofun, rfl, rfl, id, .inl⟩

theorem answer (hlive : run.stage ≠ .finished) (status : UInt8) (diagnostic : String) :
    run.Moves (run.answer idx status diagnostic) := respond hlive _ _

theorem nextItem (hlive : run.stage ≠ .finished) : run.Moves (run.nextItem idx) := by
  unfold Run.nextItem
  split
  · exact ⟨rfl, hlive, nofun, rfl, rfl, id, .inl⟩
  · split
    · next hvalue => exact ⟨rfl, hlive, nofun, rfl, rfl, id, fun _ => .inr (.inl hvalue)⟩
    · exact ⟨rfl, hlive, nofun, rfl, rfl, id, .inl⟩

theorem handleFetch (hlive : run.stage ≠ .finished) (item : RequestItem) (keep : Bool)
    (outcome : Outcome) : run.Moves (run.handleFetch item idx keep outcome) := by
  unfold Run.handleFetch
  split
  · exact respond hlive _ _
  · split
    · next hchanged => exact ⟨rfl, hlive, nofun, rfl, rfl, nofun, fun _ => .inr (.inr hchanged)⟩
    · exact refl hlive
  · exact refl hlive

theorem handleSearch (hlive : run.stage ≠ .finished) (outcome : Outcome) :
    run.Moves (run.handleSearch idx outcome) := by
  unfold Run.handleSearch
  split
  · next result stopped =>
    split
    · exact refl hlive
    · next hgo =>
      have hinterrupted : (run.interrupted || stopped) = true →
          run.interrupted = true ∨ run.cancelRx.value = true ∨ run.cancelRx.changed = true := by
        intro h
        cases stopped with
        | false => exact .inl (by simpa using h)
        | true => exact .inr (.inl (by simpa using hgo))
      cases result with
      | ok result => exact ⟨rfl, hlive, nofun, rfl, rfl, id, hinterrupted⟩
      | error error => exact ⟨rfl, hlive, nofun, rfl, rfl, id, hinterrupted⟩
  · exact refl hlive

theorem handleList (hlive : run.stage ≠ .finished) (outcome : Outcome) :
    run.Moves (run.handleList idx outcome) := by
  unfold Run.handleList
  split
  · exact respond hlive _ _
  · exact answer hlive _ _
  · exact refl hlive

end Run.Moves

namespace Tasks

variable {s : Tasks E} {i j : Nat} {run : Run E} {f : Run E → Run E}

/-- A property of each run that the run with a step made keeps. -/
theorem forall_modify {P : Nat → Run E → Prop} (h : ∀ j run, s.runs[j]? = some run → P j run)
    (hf : ∀ run, s.runs[i]? = some run → P i run → P i (f run)) (j : Nat) (run : Run E)
    (hrun : (s.modify i f).runs[j]? = some run) : P j run := by
  obtain ⟨old, hold, rfl⟩ := runs_modify_some hrun
  split
  · next heq =>
    subst heq
    exact hf old hold (h i old hold)
  · exact h j old hold

/-- A run that is there still is, after a step that keeps what is asked of it. -/
theorem exists_modify {P : Run E → Prop} (h : ∃ run, s.runs[j]? = some run ∧ P run)
    (hf : ∀ run, s.runs[i]? = some run → P run → P (f run)) :
    ∃ run, (s.modify i f).runs[j]? = some run ∧ P run := by
  obtain ⟨run, hrun, hP⟩ := h
  by_cases heq : i = j
  · subst heq
    exact ⟨f run, by simp [runs_modify, hrun], hf run hrun hP⟩
  · exact ⟨run, by simp [runs_modify, hrun, heq], hP⟩

section Moves

variable (hs : s.Sound) (hf : ∀ run, s.runs[i]? = some run → run.Moves (f run))

include hs hf

theorem Sound.move : (s.modify i f).Sound where
  registered reqId j hj := by
    refine exists_modify (hs.registered reqId j hj) ?_
    rintro run hrun ⟨hreqId, hlive, hrx⟩
    have hmoves := hf run hrun
    refine ⟨by rw [hmoves.request, hreqId], hmoves.live', ?_⟩
    have hunseen : (f run).cancelRx.unseen = false := by
      rw [Bool.eq_false_iff]
      intro hunseen
      have := hmoves.unseen hunseen
      rw [hrx] at this
      cases this
    have hvalue := hmoves.value
    have hclosed := hmoves.closed
    rw [hrx] at hvalue hclosed
    cases hrx' : (f run).cancelRx with
    | mk value unseen closed =>
      rw [hrx'] at hvalue hunseen hclosed
      cases hvalue
      cases hunseen
      cases hclosed
      rfl
  held := by
    refine forall_modify hs.held ?_
    intro run hrun h hclosed
    have hmoves := hf run hrun
    rw [hmoves.closed] at hclosed
    rw [hmoves.request]
    exact h hclosed
  unseen := by
    refine forall_modify hs.unseen ?_
    intro run hrun h hunseen
    have hmoves := hf run hrun
    rw [hmoves.value]
    exact h (hmoves.unseen hunseen)
  signalled := by
    refine forall_modify hs.signalled ?_
    intro run hrun h hvalue
    have hmoves := hf run hrun
    rw [hmoves.value] at hvalue
    rw [hmoves.request]
    exact h hvalue

omit hf in
/-- Where active requests are found, the channel of a request that has not finished changes only when
a CANCEL item signals it. -/
theorem Isolated.value_of_changed (h : s.Isolated) (hrun : s.runs[i]? = some run)
    (hlive : run.stage ≠ .finished) (hchanged : run.cancelRx.changed = true) :
    run.cancelRx.value = true := by
  rcases Bool.or_eq_true _ _ ▸ hchanged with hunseen | hclosed
  · exact hs.unseen i run hrun hunseen
  · cases hvalue : run.cancelRx.value with
    | true => rfl
    | false =>
      have hactive : run.isActive = true := by
        unfold Run.isActive
        rw [bne_iff_ne.mpr hlive, hvalue]
        rfl
      obtain ⟨run', hrun', _, _, hrx⟩ := hs.registered _ _ (h.found i run hrun hactive)
      rw [hrun] at hrun'
      cases hrun'
      rw [hrx] at hclosed
      cases hclosed

theorem Isolated.move (h : s.Isolated) : (s.modify i f).Isolated where
  interrupted := by
    refine forall_modify h.interrupted ?_
    intro run hrun hold hinterrupted
    have hmoves := hf run hrun
    rw [hmoves.request]
    rcases hmoves.interrupted hinterrupted with hwas | hvalue | hchanged
    · exact hold hwas
    · exact hs.signalled i run hrun hvalue
    · exact hs.signalled i run hrun (h.value_of_changed hs hrun hmoves.live hchanged)
  changed c hc hchanged := by
    obtain ⟨j, hj, hrun⟩ := h.changed c hc hchanged
    refine ⟨j, hj, exists_modify hrun ?_⟩
    rintro run hrun ⟨hreqId, hvalue⟩
    have hmoves := hf run hrun
    exact ⟨by rw [hmoves.request, hreqId], by rw [hmoves.value, hvalue]⟩
  found := by
    refine forall_modify h.found ?_
    intro run hrun hold hactive
    have hmoves := hf run hrun
    rw [hmoves.isActive] at hactive
    rw [hmoves.request]
    exact hold hactive

end Moves

section Remove

variable {reqId : String}

theorem remove_activeTasks (k : String) :
    (s.remove reqId).activeTasks[k]? = if reqId = k then none else s.activeTasks[k]? := by
  unfold remove
  split
  · exact getElem?_erase _ _ _
  · next hnone =>
    split
    · next heq => rw [← heq, hnone]
    · rfl

theorem remove_runs (j : Nat) :
    (s.remove reqId).runs[j]? = s.runs[j]?.map fun run =>
      if s.activeTasks[reqId]? = some j then run.dropSender else run := by
  unfold remove
  split
  · next i hi =>
    rw [hi]
    simp only [Option.some.injEq]
    exact runs_modify
  · next hnone => simp [hnone]

theorem remove_cancels : (s.remove reqId).cancels = s.cancels := by
  unfold remove
  split <;> rfl

theorem remove_runs_some {run' : Run E} (h : (s.remove reqId).runs[j]? = some run') :
    ∃ run, s.runs[j]? = some run ∧
      run' = if s.activeTasks[reqId]? = some j then run.dropSender else run := by
  rw [remove_runs, Option.map_eq_some_iff] at h
  obtain ⟨run, hrun, rfl⟩ := h
  exact ⟨run, hrun, rfl⟩

theorem forall_remove {P : Nat → Run E → Prop} (h : ∀ j run, s.runs[j]? = some run → P j run)
    (hdrop : ∀ j run, P j run → P j run.dropSender) (j : Nat) (run : Run E)
    (hrun : (s.remove reqId).runs[j]? = some run) : P j run := by
  obtain ⟨old, hold, rfl⟩ := remove_runs_some hrun
  split
  · exact hdrop j old (h j old hold)
  · exact h j old hold

theorem exists_remove {P : Run E → Prop} (h : ∃ run, s.runs[j]? = some run ∧ P run)
    (hdrop : ∀ run, P run → P run.dropSender) :
    ∃ run, (s.remove reqId).runs[j]? = some run ∧ P run := by
  obtain ⟨run, hrun, hP⟩ := h
  rw [remove_runs, hrun]
  refine ⟨_, rfl, ?_⟩
  split
  · exact hdrop run hP
  · exact hP

theorem Sound.remove (hs : s.Sound) (reqId : String) : (s.remove reqId).Sound where
  registered k i hi := by
    rw [remove_activeTasks] at hi
    split at hi
    · cases hi
    · next hne =>
      obtain ⟨run, hrun, hreqId, hlive, hrx⟩ := hs.registered k i hi
      have hother : s.activeTasks[reqId]? ≠ some i := by
        intro hsame
        obtain ⟨run', hrun', hreqId', _⟩ := hs.registered reqId i hsame
        rw [hrun] at hrun'
        cases hrun'
        exact hne (hreqId'.symm.trans hreqId)
      exact ⟨run, by simp [remove_runs, hrun, hother], hreqId, hlive, hrx⟩
  held j run hrun hclosed := by
    obtain ⟨old, hold, rfl⟩ := remove_runs_some hrun
    split at hclosed
    · cases hclosed
    · next hother =>
      have hheld := hs.held j old hold hclosed
      have hne : reqId ≠ old.request.reqId := by
        rintro rfl
        exact hother hheld
      rw [if_neg hother, remove_activeTasks, if_neg hne]
      exact hheld
  unseen := forall_remove hs.unseen fun _ _ => id
  signalled := by
    rw [remove_cancels]
    exact forall_remove hs.signalled fun _ _ => id

end Remove

theorem Sound.finish (hs : s.Sound) (hrun : s.runs[i]? = some run)
    (hgone : s.activeTasks[run.request.reqId]? = none) : (s.modify i Run.finish).Sound where
  registered k j hj := by
    refine exists_modify (hs.registered k j hj) ?_
    rintro run' hrun' ⟨rfl, hlive, hrx⟩
    rw [hrun] at hrun'
    cases hrun'
    have hj : s.activeTasks[run.request.reqId]? = some j := hj
    rw [hgone] at hj
    cases hj
  held := forall_modify hs.held fun _ _ => id
  unseen := forall_modify hs.unseen fun _ _ => id
  signalled := forall_modify hs.signalled fun _ _ => id

theorem Sound.leave (hs : s.Sound) (hrun : s.runs[i]? = some run) :
    ((s.remove run.request.reqId).modify i Run.finish).Sound := by
  have hgone : (s.remove run.request.reqId).activeTasks[run.request.reqId]? = none := by
    rw [remove_activeTasks, if_pos rfl]
  obtain ⟨run', hrun', hreqId⟩ :=
    exists_remove (P := fun run' => run'.request.reqId = run.request.reqId) ⟨run, hrun, rfl⟩
      fun _ => id
  refine (hs.remove _).finish hrun' ?_
  rw [hreqId]
  exact hgone

theorem interrupted_remove (h : s.Isolated) (reqId : String) (j : Nat) (run : Run E)
    (hrun : (s.remove reqId).runs[j]? = some run) (hinterrupted : run.interrupted = true) :
    ∃ c ∈ (s.remove reqId).cancels, c.target = run.request.reqId ∧ j ∈ c.active := by
  rw [remove_cancels]
  exact forall_remove h.interrupted (fun _ _ => id) j run hrun hinterrupted

theorem changed_remove (h : s.Isolated) (reqId : String) {c : CancelRecord}
    (hc : c ∈ (s.remove reqId).cancels) (hchanged : c.changed = true) : ∃ i ∈ c.active,
    ∃ run, (s.remove reqId).runs[i]? = some run ∧ run.request.reqId = c.target ∧
      run.cancelRx.value = true := by
  rw [remove_cancels] at hc
  obtain ⟨i, hi, hrun⟩ := h.changed c hc hchanged
  exact ⟨i, hi, exists_remove hrun fun _ => id⟩

theorem found_remove (h : s.Isolated) (reqId : String) (j : Nat) (run : Run E)
    (hrun : (s.remove reqId).runs[j]? = some run) (hactive : run.isActive = true) :
    s.activeTasks[run.request.reqId]? = some j ∧ j ∈ s.activeUnder run.request.reqId :=
  forall_remove (P := fun j run => run.isActive = true →
      s.activeTasks[run.request.reqId]? = some j ∧ j ∈ s.activeUnder run.request.reqId)
    (fun j run hrun hactive =>
      ⟨h.found j run hrun hactive, mem_activeUnder.mpr ⟨run, hrun, hactive, rfl⟩⟩)
    (fun _ _ => id) j run hrun hactive

/-- Where a request leaves, the others that are active still are found exactly when none of them is
active under its id. -/
theorem Isolated.leave_iff (h : s.Isolated) (reqId : String) (i : Nat) :
    ((s.remove reqId).modify i Run.finish).Isolated ↔ ∀ j ∈ s.activeUnder reqId, j = i := by
  constructor
  · intro h' j hj
    obtain ⟨other, hother, hactive⟩ := mem_activeUnder.mp hj
    by_contra hne
    obtain ⟨other', hother', hactive', hreqId'⟩ :=
      exists_remove (P := fun run => run.isActive = true ∧ run.request.reqId = reqId)
        ⟨other, hother, hactive⟩ fun _ => id
    have hfinal : ((s.remove reqId).modify i Run.finish).runs[j]? = some other' := by
      rw [runs_modify, hother', Option.map_some, if_neg (Ne.symm hne)]
    have hfound := h'.found j other' hfinal hactive'
    rw [hreqId'] at hfound
    change (s.remove reqId).activeTasks[reqId]? = some j at hfound
    rw [remove_activeTasks, if_pos rfl] at hfound
    cases hfound
  · intro halone
    refine ⟨forall_modify (interrupted_remove h _) fun _ _ => id, ?_, ?_⟩
    · intro c hc hchanged
      obtain ⟨j, hj, hother⟩ := changed_remove h _ hc hchanged
      exact ⟨j, hj, exists_modify hother fun _ _ => id⟩
    · intro j other hother hactive
      obtain ⟨mid, hmid, rfl⟩ := runs_modify_some hother
      split at hactive
      · cases hactive
      · next hne =>
        obtain ⟨hfound, hmem⟩ := found_remove h reqId j mid hmid hactive
        have hother : reqId ≠ mid.request.reqId := by
          intro hsame
          rw [← hsame] at hmem
          exact hne (halone j hmem).symm
        rw [if_neg hne]
        show (s.remove reqId).activeTasks[mid.request.reqId]? = some j
        rw [remove_activeTasks, if_neg hother]
        exact hfound

theorem length_remove (reqId : String) : (s.remove reqId).runs.length = s.runs.length := by
  unfold remove
  split
  · exact List.length_modify ..
  · rfl

section Register

variable {source : E} {request : BasketRequest}

theorem register_runs (j : Nat) : (s.register source request).runs[j]? =
    if j = s.runs.length then some { source, request }
    else (s.remove request.reqId).runs[j]? := by
  show ((s.remove request.reqId).runs ++ [_])[j]? = _
  rw [List.getElem?_append, length_remove]
  split
  · next hlt => rw [if_neg (by omega)]
  · next hge =>
    split
    · next heq => simp [heq]
    · next hne =>
      rw [List.getElem?_eq_none (by simp; omega),
        List.getElem?_eq_none (by rw [length_remove]; omega)]

theorem register_activeTasks (k : String) : (s.register source request).activeTasks[k]? =
    if request.reqId = k then some s.runs.length else s.activeTasks[k]? := by
  show ((s.remove request.reqId).activeTasks.insert _ _)[k]? = _
  rw [getElem?_insert, length_remove, remove_activeTasks]
  split <;> rfl

/-- A property of each run that the new run has and that dropping a sender keeps. -/
theorem forall_register {P : Nat → Run E → Prop} (h : ∀ j run, s.runs[j]? = some run → P j run)
    (hdrop : ∀ j run, P j run → P j run.dropSender) (hnew : P s.runs.length { source, request })
    (j : Nat) (run : Run E) (hrun : (s.register source request).runs[j]? = some run) : P j run := by
  rw [register_runs] at hrun
  split at hrun
  · next heq =>
    cases hrun
    rw [heq]
    exact hnew
  · exact forall_remove h hdrop j run hrun

theorem exists_register {P : Run E → Prop} (h : ∃ run, s.runs[j]? = some run ∧ P run)
    (hdrop : ∀ run, P run → P run.dropSender) :
    ∃ run, (s.register source request).runs[j]? = some run ∧ P run := by
  have hlt : j < s.runs.length := by
    obtain ⟨run, hrun, _⟩ := h
    exact (List.getElem?_eq_some_iff.mp hrun).1
  rw [register_runs, if_neg (Nat.ne_of_lt hlt)]
  exact exists_remove h hdrop

theorem Sound.register (hs : s.Sound) : (s.register source request).Sound where
  registered k i hi := by
    rw [register_activeTasks] at hi
    split at hi
    · next hsame =>
      cases hi
      exact ⟨_, by rw [register_runs, if_pos rfl], hsame, Stage.noConfusion, rfl⟩
    · next hne =>
      have hi' : (s.remove request.reqId).activeTasks[k]? = some i := by
        rw [remove_activeTasks, if_neg hne]
        exact hi
      obtain ⟨run, hrun, hrest⟩ := (hs.remove request.reqId).registered k i hi'
      have hlt := (List.getElem?_eq_some_iff.mp hrun).1
      rw [length_remove] at hlt
      exact ⟨run, by rw [register_runs, if_neg (Nat.ne_of_lt hlt), hrun], hrest⟩
  held j run hrun hclosed := by
    rw [register_runs] at hrun
    rw [register_activeTasks]
    split at hrun
    · next heq =>
      cases hrun
      rw [if_pos rfl, heq]
    · have hheld := (hs.remove request.reqId).held j run hrun hclosed
      rw [remove_activeTasks] at hheld
      split at hheld
      · cases hheld
      · next hne =>
        rw [if_neg hne]
        exact hheld
  unseen := forall_register hs.unseen (fun _ _ => id) fun h => absurd h Bool.false_ne_true
  signalled := by
    show ∀ (j : Nat) (run : Run E), _ → _ → ∃ c ∈ (s.remove request.reqId).cancels, _
    rw [remove_cancels]
    exact forall_register hs.signalled (fun _ _ => id) fun h => absurd h Bool.false_ne_true

/-- Where a request arrives, those that are active still are found exactly when none of them is active
under its id. -/
theorem Isolated.register_iff (h : s.Isolated) :
    (s.register source request).Isolated ↔ s.activeUnder request.reqId = [] := by
  constructor
  · intro h'
    rw [List.eq_nil_iff_forall_not_mem]
    intro j hj
    obtain ⟨run, hrun, hactive⟩ := mem_activeUnder.mp hj
    have hlt := (List.getElem?_eq_some_iff.mp hrun).1
    have hregistered : ∃ run, (s.register source request).runs[j]? = some run ∧
        run.isActive = true ∧ run.request.reqId = request.reqId :=
      exists_register ⟨run, hrun, hactive⟩ fun _ => id
    obtain ⟨run', hrun', hactive', hreqId'⟩ := hregistered
    have hfound := h'.found j run' hrun' hactive'
    rw [register_activeTasks, if_pos hreqId'.symm] at hfound
    cases hfound
    omega
  · intro hnone
    refine ⟨?_, ?_, ?_⟩
    · show ∀ (j : Nat) (run : Run E), _ → _ → ∃ c ∈ (s.remove request.reqId).cancels, _
      rw [remove_cancels]
      exact forall_register h.interrupted (fun _ _ => id) fun h => absurd h Bool.false_ne_true
    · intro c hc hchanged
      have hc' : c ∈ (s.remove request.reqId).cancels := hc
      rw [remove_cancels] at hc'
      obtain ⟨i, hi, hrun⟩ := h.changed c hc' hchanged
      exact ⟨i, hi, exists_register hrun fun _ => id⟩
    · intro j run hrun hactive
      rw [register_activeTasks]
      rw [register_runs] at hrun
      split at hrun
      · next heq =>
        cases hrun
        rw [if_pos rfl, heq]
      · obtain ⟨hfound, hmem⟩ := found_remove h _ j run hrun hactive
        have hne : request.reqId ≠ run.request.reqId := by
          intro hsame
          rw [← hsame, hnone] at hmem
          cases hmem
        rw [if_neg hne]
        exact hfound

end Register

section Cancel

variable {target : String}

/-- The state in which a CANCEL item has signalled the request that it found, if any, and is recorded. -/
def afterCancel (s : Tasks E) (target : String) : Tasks E :=
  let record : CancelRecord := ⟨target, s.activeTasks[target]?.isSome, s.activeUnder target⟩
  match s.activeTasks[target]? with
  | some j =>
    { s.modify j Run.signal with
      activeTasks := s.activeTasks.erase target, cancels := s.cancels ++ [record] }
  | none => { s with cancels := s.cancels ++ [record] }

theorem cancel_eq (i idx : Nat) (target : String) : ∃ status diagnostic,
    (status = CoapStatus.changed ∨ status = CoapStatus.notFound) ∧ s.cancel i idx target =
      (s.afterCancel target).modify i fun run => run.answer idx status diagnostic := by
  unfold cancel afterCancel
  cases s.activeTasks[target]? with
  | some j => exact ⟨_, _, .inl rfl, rfl⟩
  | none => exact ⟨_, _, .inr rfl, rfl⟩

theorem afterCancel_none (hnone : s.activeTasks[target]? = none) : s.afterCancel target =
    { s with cancels := s.cancels ++ [⟨target, false, s.activeUnder target⟩] } := by
  unfold afterCancel
  rw [hnone]
  rfl

theorem afterCancel_some (hj : s.activeTasks[target]? = some j) : s.afterCancel target =
    { s.modify j Run.signal with
      activeTasks := s.activeTasks.erase target
      cancels := s.cancels ++ [⟨target, true, s.activeUnder target⟩] } := by
  unfold afterCancel
  rw [hj]
  rfl

theorem Sound.mem_activeUnder (hs : s.Sound) (hj : s.activeTasks[target]? = some j) :
    j ∈ s.activeUnder target := by
  obtain ⟨run, hrun, hreqId, hlive, hrx⟩ := hs.registered target j hj
  refine Tasks.mem_activeUnder.mpr ⟨run, hrun, ?_, hreqId⟩
  unfold Run.isActive
  rw [hrx, bne_iff_ne.mpr hlive]
  rfl

/-- The task that is found under the target is the only one whose entry goes. -/
theorem erase_other (hj : s.activeTasks[target]? = some j) {k : Nat} {reqId : String}
    (hk : s.activeTasks[reqId]? = some k) (hne : j ≠ k) :
    (s.activeTasks.erase target)[reqId]? = some k := by
  rw [getElem?_erase]
  split
  · next hsame =>
    rw [← hsame, hj] at hk
    exact absurd (Option.some.inj hk) hne
  · exact hk

theorem Sound.afterCancel (hs : s.Sound) : (s.afterCancel target).Sound := by
  cases hj : s.activeTasks[target]? with
  | none =>
    rw [afterCancel_none hj]
    refine ⟨hs.registered, hs.held, hs.unseen, ?_⟩
    intro k run hrun hvalue
    obtain ⟨c, hc, hnames⟩ := hs.signalled k run hrun hvalue
    exact ⟨c, List.mem_append_left _ hc, hnames⟩
  | some j =>
    rw [afterCancel_some hj]
    have hreqId : ∀ run, s.runs[j]? = some run → run.request.reqId = target := by
      intro run hrun
      obtain ⟨run', hrun', hreqId, _⟩ := hs.registered target j hj
      rw [hrun] at hrun'
      cases hrun'
      exact hreqId
    refine ⟨?_, ?_, ?_, ?_⟩
    · intro k i hi
      rw [getElem?_erase] at hi
      split at hi
      · cases hi
      · next hne =>
        refine exists_modify (hs.registered k i hi) ?_
        rintro run hrun ⟨hk, _⟩
        exact absurd ((hreqId run hrun).symm.trans hk) hne
    · intro k run hrun hclosed
      obtain ⟨old, hold, rfl⟩ := runs_modify_some hrun
      split at hclosed
      · cases hclosed
      · next hne =>
        rw [if_neg hne]
        exact erase_other hj (hs.held k old hold hclosed) hne
    · exact forall_modify hs.unseen fun _ _ _ _ => rfl
    · refine forall_modify (i := j) (P := fun k run => run.cancelRx.value = true → ∃ c ∈ s.cancels ++ _,
        c.target = run.request.reqId ∧ k ∈ c.active) ?_ ?_
      · intro k run hrun hvalue
        obtain ⟨c, hc, hnames⟩ := hs.signalled k run hrun hvalue
        exact ⟨c, List.mem_append_left _ hc, hnames⟩
      · intro run hrun _ _
        exact ⟨_, List.mem_append_right _ List.mem_cons_self, (hreqId run hrun).symm,
          hs.mem_activeUnder hj⟩

theorem Isolated.afterCancel (hs : s.Sound) (h : s.Isolated) : (s.afterCancel target).Isolated := by
  have hinterrupted : ∀ record (k : Nat) (run : Run E), s.runs[k]? = some run →
      run.interrupted = true →
        ∃ c ∈ s.cancels ++ [record], c.target = run.request.reqId ∧ k ∈ c.active := by
    intro record k run hrun hstopped
    obtain ⟨c, hc, hnames⟩ := h.interrupted k run hrun hstopped
    exact ⟨c, List.mem_append_left _ hc, hnames⟩
  cases hj : s.activeTasks[target]? with
  | none =>
    rw [afterCancel_none hj]
    refine ⟨hinterrupted _, ?_, h.found⟩
    intro c hc hchanged
    rcases List.mem_append.mp hc with hold | hlast
    · exact h.changed c hold hchanged
    · rw [List.mem_singleton] at hlast
      rw [hlast] at hchanged
      cases hchanged
  | some j =>
    rw [afterCancel_some hj]
    refine ⟨forall_modify (hinterrupted _) fun _ _ => id, ?_, ?_⟩
    · intro c hc hchanged
      rcases List.mem_append.mp hc with hold | hlast
      · obtain ⟨i, hi, hrun⟩ := h.changed c hold hchanged
        exact ⟨i, hi, exists_modify hrun fun _ _ hP => ⟨hP.1, rfl⟩⟩
      · rw [List.mem_singleton] at hlast
        rw [hlast]
        obtain ⟨run, hrun, hreqId, _⟩ := hs.registered target j hj
        refine ⟨j, hs.mem_activeUnder hj, run.signal, ?_, hreqId, rfl⟩
        show (s.modify j Run.signal).runs[j]? = _
        rw [runs_modify, hrun, Option.map_some, if_pos rfl]
    · intro k run hrun hactive
      obtain ⟨old, hold, rfl⟩ := runs_modify_some hrun
      split at hactive
      · simp [Run.isActive, Run.signal] at hactive
      · next hne =>
        rw [if_neg hne]
        exact erase_other hj (h.found k old hold hactive) hne

end Cancel

/-- A task that carries out an item runs on. -/
theorem moves_at (hrun : s.runs[i]? = some run) (hlive : run.stage ≠ .finished)
    (hmoves : ∀ run : Run E, run.stage ≠ .finished → run.Moves (f run)) (run' : Run E)
    (hrun' : s.runs[i]? = some run') : run'.Moves (f run') := by
  rw [hrun] at hrun'
  cases hrun'
  exact hmoves run hlive

theorem live_afterCancel (target : String) (hrun : s.runs[i]? = some run)
    (hlive : run.stage ≠ .finished) :
    ∃ run', (s.afterCancel target).runs[i]? = some run' ∧ run'.stage ≠ .finished := by
  cases hj : s.activeTasks[target]? with
  | none =>
    rw [afterCancel_none hj]
    exact ⟨run, hrun, hlive⟩
  | some j =>
    rw [afterCancel_some hj]
    exact exists_modify (i := j) ⟨run, hrun, hlive⟩ fun _ _ => id

/-- Carrying out an item keeps the channels sound, and active requests isolated. -/
theorem perform_keeps (hs : s.Sound) (hrun : s.runs[i]? = some run) (hlive : run.stage ≠ .finished)
    (idx : Nat) (item : RequestItem) (outcome : Outcome) :
    (s.perform i idx item outcome).Sound ∧
      (s.Isolated → (s.perform i idx item outcome).Isolated) := by
  have hmove : ∀ f : Run E → Run E,
      (∀ run : Run E, run.stage ≠ .finished → run.Moves (f run)) →
        (s.modify i f).Sound ∧ (s.Isolated → (s.modify i f).Isolated) := fun f hmoves =>
    ⟨hs.move (moves_at hrun hlive hmoves), fun h => h.move hs (moves_at hrun hlive hmoves)⟩
  unfold perform
  split
  · exact hmove _ fun run hlive => .handleFetch hlive item true outcome
  · exact hmove _ fun run hlive => .handleFetch hlive item false outcome
  · exact hmove _ fun run hlive => .handleSearch hlive outcome
  · obtain ⟨status, diagnostic, -, heq⟩ := s.cancel_eq i idx item.uri
    obtain ⟨run', hrun', hlive'⟩ := live_afterCancel item.uri hrun hlive
    have hmoves := moves_at (f := fun run => run.answer idx status diagnostic) hrun' hlive'
      fun run hlive => .answer hlive status diagnostic
    rw [heq]
    exact ⟨hs.afterCancel.move hmoves, fun h => (h.afterCancel hs).move hs.afterCancel hmoves⟩
  · exact hmove _ fun run hlive => .handleList hlive outcome
  · exact hmove _ fun run hlive => .answer hlive _ _

theorem Sound.step (hs : s.Sound) (action : Action E) : (s.step action).Sound := by
  cases action with
  | arrive source payload =>
    unfold Tasks.step
    simp only
    split
    · exact hs.register
    · exact hs
  | proceed i =>
    unfold Tasks.step
    simp only
    split
    · next run hrun =>
      split
      · next idx hstage =>
        exact hs.move (moves_at hrun (by rw [hstage]; nofun) fun _ => .nextItem)
      · exact hs.leave hrun
      · exact hs
      · exact hs
    · exact hs
  | perform i outcome =>
    unfold Tasks.step
    simp only
    split
    · next run hrun =>
      split
      · next idx hstage =>
        split
        · exact (perform_keeps hs hrun (by rw [hstage]; nofun) idx _ outcome).1
        · exact hs
      · exact hs
      · exact hs
      · exact hs
    · exact hs

/-- A step keeps active requests isolated exactly when it does not disturb them. -/
theorem Isolated.step_iff (hs : s.Sound) (h : s.Isolated) (action : Action E) :
    (s.step action).Isolated ↔ s.undisturbed action = true := by
  cases action with
  | arrive source payload =>
    unfold Tasks.step undisturbed
    simp only
    cases Cbor.decode BasketRequest.fromCbor payload with
    | ok request =>
      show (s.register source request).Isolated ↔ (s.activeUnder request.reqId).isEmpty = true
      rw [h.register_iff, List.isEmpty_iff]
    | error error => exact iff_of_true h rfl
  | proceed i =>
    unfold Tasks.step undisturbed
    simp only
    cases hrun : s.runs[i]? with
    | none => exact iff_of_true h rfl
    | some run =>
      cases hstage : run.stage with
      | leaving =>
        simp only [hstage]
        rw [h.leave_iff, Bool.or_eq_true, List.all_eq_true]
        simp
      | looping idx =>
        simp only [hstage]
        exact iff_of_true
          (h.move hs (moves_at hrun (by simp [hstage]) fun _ => .nextItem)) rfl
      | working idx =>
        simp only [hstage]
        exact iff_of_true h rfl
      | finished =>
        simp only [hstage]
        exact iff_of_true h rfl
  | perform i outcome =>
    refine iff_of_true ?_ rfl
    unfold Tasks.step
    simp only
    cases hrun : s.runs[i]? with
    | none => exact h
    | some run =>
      cases hstage : run.stage with
      | working idx =>
        simp only [hstage]
        cases run.request.items[idx]? with
        | none => exact h
        | some item => exact (perform_keeps hs hrun (by simp [hstage]) idx item outcome).2 h
      | looping idx =>
        simp only [hstage]
        exact h
      | leaving =>
        simp only [hstage]
        exact h
      | finished =>
        simp only [hstage]
        exact h

end Tasks

open Tasks

/-- In every state of a run, active requests are isolated from each other, exactly when no step
registers or takes off a request while another is active under its id. -/
theorem requests_isolated_iff (actions : List (Action E)) :
    Trace.Along Tasks.step (fun s action => (s.step action).Isolated) .new actions ↔
      Trace.Along Tasks.step (fun (s : Tasks E) action => s.undisturbed action = true) .new
        actions := by
  let Inv (s : Tasks E) : Prop := s.Sound ∧ s.Isolated
  have hnew : Inv .new := ⟨⟨nofun, nofun, nofun, nofun⟩, nofun, nofun, nofun⟩
  have hiff : ∀ (s : Tasks E) (action : Action E), Inv s →
      ((s.step action).Isolated ↔ s.undisturbed action = true) := fun s action hs =>
    hs.2.step_iff hs.1 action
  constructor
  · intro h
    have hstep : ∀ (s : Tasks E) (action : Action E), Inv s → (s.step action).Isolated →
        Inv (s.step action) := fun s action hs h => ⟨hs.1.step action, h⟩
    exact h.strengthen hstep (fun s action hs => (hiff s action hs).mp) hnew
  · intro h
    have hstep : ∀ (s : Tasks E) (action : Action E), Inv s → s.undisturbed action = true →
        Inv (s.step action) := fun s action hs h => ⟨hs.1.step action, (hiff s action hs).mpr h⟩
    exact h.strengthen hstep (fun s action hs => (hiff s action hs).mpr) hnew

/-- A request with one item. -/
def oneItem (reqId : String) (op : UInt64) (uri : String) : List Cbor.Token :=
  BasketRequest.toCbor
    { experimentTag := none, version := 1, reqId, replyTo := none, defaultLifetime := none,
      items := [{ op, uri, maxSize := none, acceptedFormats := none, haveHashes := none,
                  ifModifiedSince := none, lifetimeOverride := none }] }

/-- While the request `r` of node 1 fetches, node 2 sends a request with the same id. -/
def sameIdTwice : List (Action Nat) :=
  [.arrive 1 (oneItem "r" 0 "https://example.com/file"), .proceed 0,
    .arrive 2 (oneItem "r" 0 "https://example.com/other"), .perform 0 .cancelled]

/-- The fetch of the first request is cancelled, although no CANCEL item was processed. -/
theorem second_request_cancels_first : ¬(Trace.run Tasks.step .new sameIdTwice).Isolated := by
  intro h
  have hfirst : ((Trace.run Tasks.step .new sameIdTwice).runs[0]?.map Run.interrupted) =
      some true := by decide +kernel
  have hnone : (Trace.run Tasks.step .new sameIdTwice).cancels.length = 0 := by decide +kernel
  obtain ⟨run, hrun, hinterrupted⟩ := Option.map_eq_some_iff.mp hfirst
  obtain ⟨c, hc, _⟩ := h.interrupted 0 run hrun hinterrupted
  exact List.not_mem_nil (List.length_eq_zero_iff.mp hnone ▸ hc)

end HdyUtils.Basket
