import HdyUtils.Lib.Maps
import HdyUtils.Lib.Trace

/-! The list of the services of a station (`service_tracker.rs`).  Services come and go at the same time,
and the steps of their calls interleave: a call changes the list, takes a snapshot of it and sends that
to the web clients.  `services_listed` says what the list and the updates are worth. -/

namespace HdyUtils.Ham

open Std Trace

structure ServiceInfo where
  eid : String
  serviceType : String
  registeredAt : String
deriving DecidableEq

/-- What the call of a service does next. -/
inductive Stage
  | idle
  | recording (eid : String)
  | removing (eid : String)
  | listing
  | sending (snapshot : List ServiceInfo)
deriving DecidableEq

/-- The wrapper of a service.  The agent calls it for one thing after another: the service hears of its
registration only when that has been recorded. -/
structure Tracked where
  registeredEid : Option String
  stage : Stage

/-- The service has the EID, or is about to be taken off the list under it. -/
def Tracked.Holds (t : Tracked) (eid : String) : Prop :=
  t.registeredEid = some eid ∨ t.stage = .removing eid

/-- The service is on the list under the EID: it was recorded, and has not been removed. -/
def Tracked.Shows (t : Tracked) (eid : String) : Prop := t.Holds eid ∧ t.stage ≠ .recording eid

structure ServiceTracker (W : Type) where
  tracked : W → Tracked
  services : TreeMap String ServiceInfo
  /-- The updates that were sent since the list last changed, if it ever has. -/
  sinceChange : Option (List (List ServiceInfo))

namespace ServiceTracker

inductive Action (W : Type)
  | onRegister (w : W) (eid : String)
  | onUnregister (w : W)
  | proceed (w : W) (now : String)

def new {W : Type} : ServiceTracker W where
  tracked _ := ⟨none, .idle⟩
  services := ∅
  sinceChange := none

variable {W : Type} [DecidableEq W] (serviceType : W → String)

/-- A step of the call of a service.  The service takes no other call until this one has ended. -/
def step (s : ServiceTracker W) (a : Action W) : ServiceTracker W :=
  match a with
  | .onRegister w eid =>
    if (s.tracked w).stage = .idle then
      { s with tracked := Function.update s.tracked w ⟨some eid, .recording eid⟩ }
    else s
  | .onUnregister w =>
    if (s.tracked w).stage = .idle then
      match (s.tracked w).registeredEid with
      | some eid => { s with tracked := Function.update s.tracked w ⟨none, .removing eid⟩ }
      | none => s
    else s
  | .proceed w now =>
    let next := fun stage => Function.update s.tracked w { s.tracked w with stage := stage }
    match (s.tracked w).stage with
    | .idle => s
    | .recording eid => -- the write lock of `record_service`
      ⟨next .listing, s.services.insert eid ⟨eid, serviceType w, now⟩, some []⟩
    | .removing eid => ⟨next .listing, s.services.erase eid, some []⟩
    | .listing => -- `broadcast_update` reads the list and sends it, with no lock over both
      { s with tracked := next (.sending s.services.values) }
    | .sending snapshot =>
      { s with
        tracked := next .idle
        sinceChange := s.sinceChange.map (· ++ [snapshot]) }

/-- The agent gives a service that has no EID one that no service has. -/
def Fresh (s : ServiceTracker W) (a : Action W) : Prop :=
  match a with
  | .onRegister w eid => (s.tracked w).registeredEid = none ∧ ∀ v, ¬(s.tracked v).Holds eid
  | _ => True

/-- The list has exactly the services that are on it by their calls, each under its EID and with its
type; when no call is under way, these are the services that are registered.  What is on the list has been
sent since it last changed, or a call is under way that will send it. -/
structure Listed (s : ServiceTracker W) : Prop where
  shown : ∀ eid info, s.services[eid]? = some info →
    info.eid = eid ∧ ∃ w, (s.tracked w).Shows eid ∧ info.serviceType = serviceType w
  listed : ∀ w eid, (s.tracked w).Shows eid → ∃ registeredAt,
    s.services[eid]? = some ⟨eid, serviceType w, registeredAt⟩
  quiet : (∀ w, (s.tracked w).stage = .idle) → ∀ eid,
    eid ∈ s.services ↔ ∃ w, (s.tracked w).registeredEid = some eid
  announced : ∀ updates, s.sinceChange = some updates → s.services.values ∈ updates ∨
    ∃ w, (s.tracked w).stage = .listing ∨ (s.tracked w).stage = .sending s.services.values

/-! ### The services apart -/

/-- What a call under way says about the EID of its service; no two services have one EID. -/
structure Apart (tracked : W → Tracked) : Prop where
  recording : ∀ w eid, (tracked w).stage = .recording eid → (tracked w).registeredEid = some eid
  removing : ∀ w eid, (tracked w).stage = .removing eid → (tracked w).registeredEid = none
  alone : ∀ v w eid, (tracked v).Holds eid → (tracked w).Holds eid → v = w

/-- The services stay apart when one of them gets no EID but its own or one that no service has. -/
theorem Apart.update {tracked : W → Tracked} (h : Apart tracked) {w : W} {t : Tracked}
    (hrecording : ∀ eid, t.stage = .recording eid → t.registeredEid = some eid)
    (hremoving : ∀ eid, t.stage = .removing eid → t.registeredEid = none)
    (hholds : ∀ eid, t.Holds eid → (tracked w).Holds eid ∨ ∀ v, ¬(tracked v).Holds eid) :
    Apart (Function.update tracked w t) where
  recording := by
    intro v eid
    rw [Function.update_apply]
    split
    · exact hrecording eid
    · exact h.recording v eid
  removing := by
    intro v eid
    rw [Function.update_apply]
    split
    · exact hremoving eid
    · exact h.removing v eid
  alone := by
    have hother : ∀ u eid, u ≠ w → t.Holds eid → ¬(tracked u).Holds eid := by
      intro u eid hne ht hu
      rcases hholds eid ht with hw | hnone
      · exact hne (h.alone u w eid hu hw)
      · exact hnone u hu
    intro u v eid
    rw [Function.update_apply, Function.update_apply]
    split
    · next hu =>
      split
      · next hv => exact fun _ _ => hu.trans hv.symm
      · next hv => exact fun ht hheld => absurd hheld (hother v eid hv ht)
    · next hu =>
      split
      · exact fun hheld ht => absurd hheld (hother u eid hu ht)
      · exact h.alone u v eid

/-! ### The list -/

/-- The list has exactly the services that are on it by their calls. -/
structure Recorded (tracked : W → Tracked) (services : TreeMap String ServiceInfo) : Prop where
  shown : ∀ eid info, services[eid]? = some info →
    info.eid = eid ∧ ∃ w, (tracked w).Shows eid ∧ info.serviceType = serviceType w
  listed : ∀ w eid, (tracked w).Shows eid → ∃ registeredAt,
    services[eid]? = some ⟨eid, serviceType w, registeredAt⟩

variable {serviceType} {tracked : W → Tracked} {services : TreeMap String ServiceInfo} {w : W}
  {t : Tracked} {eid : String}

theorem Recorded.same (h : Recorded serviceType tracked services)
    (hsame : ∀ eid, t.Shows eid ↔ (tracked w).Shows eid) :
    Recorded serviceType (Function.update tracked w t) services := by
  have hshows : ∀ v eid, (Function.update tracked w t v).Shows eid ↔ (tracked v).Shows eid := by
    intro v eid
    rw [Function.update_apply]
    split
    · next hv => exact hv ▸ hsame eid
    · rfl
  constructor
  · simp only [hshows]
    exact h.shown
  · simp only [hshows]
    exact h.listed

/-- A service that has an EID, and is not on the list, is recorded. -/
theorem Recorded.insert (h : Recorded serviceType tracked services) (hapart : Apart tracked)
    (hstage : (tracked w).stage = .recording eid) (now : String)
    (ht : ∀ e, t.Shows e ↔ e = eid) :
    Recorded serviceType (Function.update tracked w t)
      (services.insert eid ⟨eid, serviceType w, now⟩) where
  shown := by
    intro e info hinfo
    rw [Maps.getElem?_insert] at hinfo
    split at hinfo
    · next heq =>
      cases hinfo
      exact ⟨heq, w, by rw [Function.update_self]; exact (ht e).mpr heq.symm, rfl⟩
    · next hne =>
      obtain ⟨heid, u, hshows, htype⟩ := h.shown e info hinfo
      refine ⟨heid, u, ?_, htype⟩
      have hu : u ≠ w := by
        rintro rfl
        rcases hshows.1 with hregistered | hremoving
        · rw [hapart.recording u eid hstage] at hregistered
          exact hne (Option.some.inj hregistered)
        · rw [hstage] at hremoving
          cases hremoving
      rw [Function.update_of_ne hu]
      exact hshows
  listed := by
    intro v e
    rw [Function.update_apply, Maps.getElem?_insert]
    split
    · next hv =>
      intro hshows
      rw [if_pos ((ht e).mp hshows).symm, (ht e).mp hshows, hv]
      exact ⟨now, rfl⟩
    · next hv =>
      intro hshows
      have hne : eid ≠ e := by
        rintro rfl
        exact hv (hapart.alone v w eid hshows.1 (.inl (hapart.recording w eid hstage)))
      rw [if_neg hne]
      exact h.listed v e hshows

/-- A service that is about to be taken off the list is. -/
theorem Recorded.erase (h : Recorded serviceType tracked services) (hapart : Apart tracked)
    (hstage : (tracked w).stage = .removing eid) (ht : ∀ e, ¬t.Shows e) :
    Recorded serviceType (Function.update tracked w t) (services.erase eid) where
  shown := by
    intro e info hinfo
    rw [Maps.getElem?_erase] at hinfo
    split at hinfo
    · cases hinfo
    · next hne =>
      obtain ⟨heid, u, hshows, htype⟩ := h.shown e info hinfo
      refine ⟨heid, u, ?_, htype⟩
      have hu : u ≠ w := by
        rintro rfl
        rcases hshows.1 with hregistered | hremoving
        · rw [hapart.removing u eid hstage] at hregistered
          cases hregistered
        · rw [hstage] at hremoving
          exact hne (Stage.removing.inj hremoving)
      rw [Function.update_of_ne hu]
      exact hshows
  listed := by
    intro v e
    rw [Function.update_apply, Maps.getElem?_erase]
    split
    · exact fun hshows => absurd hshows (ht e)
    · next hv =>
      intro hshows
      have hne : eid ≠ e := by
        rintro rfl
        exact hv (hapart.alone v w eid hshows.1 (.inr hstage))
      rw [if_neg hne]
      exact h.listed v e hshows

/-! ### Runs -/

/-- The call of a service will send what is on the list. -/
def Sends (services : TreeMap String ServiceInfo) (stage : Stage) : Prop :=
  stage = .listing ∨ stage = .sending services.values

structure Sound (serviceType : W → String) (s : ServiceTracker W) : Prop where
  apart : Apart s.tracked
  recorded : Recorded serviceType s.tracked s.services
  announced : ∀ updates, s.sinceChange = some updates → s.services.values ∈ updates ∨
    ∃ w, Sends s.services (s.tracked w).stage

variable {s : ServiceTracker W}

/-- What a call under way will send is sent still when another one goes on. -/
theorem exists_sends_update (h : ∃ v, Sends services (tracked v).stage)
    (hkeeps : Sends services (tracked w).stage → Sends services t.stage) :
    ∃ v, Sends services (Function.update tracked w t v).stage := by
  obtain ⟨v, hv⟩ := h
  refine ⟨v, ?_⟩
  rw [Function.update_apply]
  split
  · next heq => exact hkeeps (heq ▸ hv)
  · exact hv

/-- A step of one service that changes neither the list nor the updates. -/
theorem Sound.move (hs : s.Sound serviceType)
    (hrecording : ∀ eid, t.stage = .recording eid → t.registeredEid = some eid)
    (hremoving : ∀ eid, t.stage = .removing eid → t.registeredEid = none)
    (hholds : ∀ eid, t.Holds eid → (s.tracked w).Holds eid ∨ ∀ v, ¬(s.tracked v).Holds eid)
    (hshows : ∀ eid, t.Shows eid ↔ (s.tracked w).Shows eid)
    (hsends : Sends s.services (s.tracked w).stage → Sends s.services t.stage) :
    Sound serviceType { s with tracked := Function.update s.tracked w t } where
  apart := hs.apart.update hrecording hremoving hholds
  recorded := hs.recorded.same hshows
  announced := fun updates hupdates =>
    (hs.announced updates hupdates).imp_right fun h => exists_sends_update h hsends

theorem not_sends_idle : ¬Sends services .idle := by
  rintro (h | h) <;> cases h

theorem Sound.onRegister (hs : s.Sound serviceType) (hidle : (s.tracked w).stage = .idle)
    (hnone : (s.tracked w).registeredEid = none) (hfresh : ∀ v, ¬(s.tracked v).Holds eid) :
    Sound serviceType
      { s with tracked := Function.update s.tracked w ⟨some eid, .recording eid⟩ } := by
  have hheld : ∀ e, Tracked.Holds ⟨some eid, .recording eid⟩ e → e = eid := by
    rintro e (h | h)
    · exact (Option.some.inj h).symm
    · cases h
  refine hs.move ?_ nofun ?_ ?_ ?_
  · intro e he
    exact congrArg some (Stage.recording.inj he)
  · intro e he
    obtain rfl := hheld e he
    exact .inr hfresh
  · intro e
    refine iff_of_false ?_ ?_
    · rintro ⟨he, hne⟩
      exact hne (congrArg Stage.recording (hheld e he).symm)
    · rintro ⟨h | h, -⟩
      · rw [hnone] at h
        cases h
      · rw [hidle] at h
        cases h
  · intro h
    rw [hidle] at h
    exact absurd h not_sends_idle

theorem Sound.onUnregister (hs : s.Sound serviceType) (hidle : (s.tracked w).stage = .idle)
    (hregistered : (s.tracked w).registeredEid = some eid) :
    Sound serviceType { s with tracked := Function.update s.tracked w ⟨none, .removing eid⟩ } := by
  have hheld : ∀ e, Tracked.Holds ⟨none, .removing eid⟩ e ↔ e = eid := by
    intro e
    constructor
    · rintro (h | h)
      · cases h
      · exact (Stage.removing.inj h).symm
    · rintro rfl
      exact .inr rfl
  have hbefore : ∀ e, (s.tracked w).Holds e ↔ e = eid := by
    intro e
    unfold Tracked.Holds
    rw [hidle, hregistered]
    constructor
    · rintro (h | h)
      · exact (Option.some.inj h).symm
      · cases h
    · rintro rfl
      exact .inl rfl
  refine hs.move nofun (fun _ _ => rfl) ?_ ?_ ?_
  · exact fun e he => .inl ((hbefore e).mpr ((hheld e).mp he))
  · intro e
    unfold Tracked.Shows
    rw [hheld, hbefore, hidle]
    simp
  · intro h
    rw [hidle] at h
    exact absurd h not_sends_idle

/-- Only what a call sends changes. -/
theorem shows_stage (t : Tracked) (stage : Stage)
    (hbefore : ∀ e, t.stage ≠ .removing e ∧ t.stage ≠ .recording e)
    (hafter : ∀ e, stage ≠ .removing e ∧ stage ≠ .recording e) (e : String) :
    (Tracked.Holds { t with stage := stage } e ↔ t.Holds e) ∧
      (Tracked.Shows { t with stage := stage } e ↔ t.Shows e) := by
  unfold Tracked.Shows Tracked.Holds
  simp [hbefore e, hafter e]

theorem Sound.proceed (hs : s.Sound serviceType) (w : W) (now : String) :
    (s.step serviceType (.proceed w now)).Sound serviceType := by
  have hlisting : (Function.update s.tracked w { s.tracked w with stage := .listing } w).stage =
      .listing := by rw [Function.update_self]
  unfold ServiceTracker.step
  simp only
  split
  · exact hs
  · next eid hstage =>
    have hregistered := hs.apart.recording w eid hstage
    refine
      { apart := hs.apart.update (by simp) (by simp) ?_
        recorded := hs.recorded.insert hs.apart hstage now ?_
        announced := fun _ _ => .inr ⟨w, .inl hlisting⟩ }
    · rintro e (h | h)
      · exact .inl (.inl h)
      · cases h
    · intro e
      unfold Tracked.Shows Tracked.Holds
      simp [hregistered, eq_comm]
  · next eid hstage =>
    have hnone := hs.apart.removing w eid hstage
    refine
      { apart := hs.apart.update (by simp) (by simp) ?_
        recorded := hs.recorded.erase hs.apart hstage ?_
        announced := fun _ _ => .inr ⟨w, .inl hlisting⟩ }
    · rintro e (h | h)
      · exact .inl (.inl h)
      · cases h
    · rintro e ⟨h | h, -⟩
      · rw [hnone] at h
        cases h
      · cases h
  · next hstage =>
    have hsame := shows_stage (s.tracked w) (.sending s.services.values) (by simp [hstage])
      (by simp)
    exact hs.move (by simp) (by simp) (fun e he => .inl ((hsame e).1.mp he)) (fun e => (hsame e).2)
      fun _ => .inr rfl
  · next snapshot hstage =>
    have hsame := shows_stage (s.tracked w) .idle (by simp [hstage]) (by simp)
    refine
      { apart := hs.apart.update (by simp) (by simp) fun e he => .inl ((hsame e).1.mp he)
        recorded := hs.recorded.same fun e => (hsame e).2
        announced := ?_ }
    intro updates hupdates
    obtain ⟨before, hbefore, rfl⟩ := Option.map_eq_some_iff.mp hupdates
    rcases hs.announced before hbefore with hsent | ⟨v, hv⟩
    · exact .inl (List.mem_append_left _ hsent)
    · by_cases heq : v = w
      · subst heq
        rw [hstage] at hv
        rcases hv with h | h
        · cases h
        · rw [← Stage.sending.inj h]
          exact .inl (List.mem_append_right _ List.mem_cons_self)
      · refine .inr ⟨v, ?_⟩
        simp only
        rw [Function.update_of_ne heq]
        exact hv

theorem Sound.step (hs : s.Sound serviceType) (a : Action W) (hfresh : s.Fresh a) :
    (s.step serviceType a).Sound serviceType := by
  cases a with
  | onRegister w eid =>
    unfold ServiceTracker.step
    simp only
    split
    · next hidle => exact hs.onRegister hidle hfresh.1 hfresh.2
    · exact hs
  | onUnregister w =>
    unfold ServiceTracker.step
    simp only
    split
    · next hidle =>
      split
      · next eid hregistered => exact hs.onUnregister hidle hregistered
      · exact hs
    · exact hs
  | proceed w now => exact hs.proceed w now

omit [DecidableEq W] in
theorem Sound.listed (hs : s.Sound serviceType) : s.Listed serviceType where
  shown := hs.recorded.shown
  listed := hs.recorded.listed
  quiet := by
    intro hidle eid
    have hshows : ∀ w, (s.tracked w).Shows eid ↔ (s.tracked w).registeredEid = some eid := by
      intro w
      unfold Tracked.Shows Tracked.Holds
      simp [hidle w]
    constructor
    · intro hmem
      obtain ⟨-, w, hw, -⟩ := hs.recorded.shown eid _ (TreeMap.getElem?_eq_some_getElem hmem)
      exact ⟨w, (hshows w).mp hw⟩
    · rintro ⟨w, hw⟩
      obtain ⟨registeredAt, hinfo⟩ := hs.recorded.listed w eid ((hshows w).mpr hw)
      exact TreeMap.mem_iff_isSome_getElem?.mpr (hinfo ▸ rfl)
  announced := hs.announced

omit [DecidableEq W] in
theorem sound_new : (new : ServiceTracker W).Sound serviceType where
  apart := ⟨nofun, nofun, by rintro v w eid (h | h) <;> cases h⟩
  recorded := ⟨by simp [new], by rintro w eid ⟨h | h, -⟩ <;> cases h⟩
  announced := nofun

end ServiceTracker

open ServiceTracker

/-- However the calls of the services interleave, the list is what it should be, and every change of it
is sent to the web clients. -/
theorem services_listed {W : Type} [DecidableEq W] (serviceType : W → String) (actions : List (Action W))
    (hfresh : Along (ServiceTracker.step serviceType) Fresh new actions) :
    (run (ServiceTracker.step serviceType) new actions).Listed serviceType := by
  have hstep : ∀ (s : ServiceTracker W) (a : Action W), s.Sound serviceType → s.Fresh a →
      (s.step serviceType a).Sound serviceType := fun s a hs ha => hs.step a ha
  exact (hfresh.invariant hstep sound_new).listed

/-- Two services register at the same time, and the first update to be taken is the last to be sent. -/
theorem services_listed_overtaken :
    (run (ServiceTracker.step fun w : Bool => if w then "Built-in Echo" else "gRPC Client") new
      [.onRegister true "dtn://f4jxq/echo", .onRegister false "dtn://f4jxq/in", .proceed true "10:00",
        .proceed true "10:00", .proceed false "10:01", .proceed false "10:01", .proceed false "10:01",
        .proceed true "10:02"]).Listed fun w => if w then "Built-in Echo" else "gRPC Client" := by
  refine services_listed _ _ ⟨⟨rfl, fun v => ?_⟩, ⟨rfl, fun v => ?_⟩, trivial, trivial, trivial, trivial,
    trivial, trivial, trivial⟩
  · rintro (h | h) <;> cases h
  · cases v <;> rintro (h | h) <;> simp [ServiceTracker.step, new] at h

end HdyUtils.Ham
