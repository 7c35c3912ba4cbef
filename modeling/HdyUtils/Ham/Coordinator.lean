import HdyUtils.Ham.Cron

/-! The contact coordinator (`coordinator/mod.rs`).  Its loop reads the clock, chooses the target whose
contact starts next, waits for it and opens the contact.  `contacts_once_iff` says which readings of
the clock open one contact for each firing of a cron expression. -/

namespace HdyUtils.Ham

open Calendar

inductive ContactSchedule
  | recurring (cron : CronExpr) (duration : Nat)
  | oneShot (start stop : Option DateTime)

/-- A target, with durations in nanoseconds. -/
structure ContactTarget (NodeId : Type) where
  callsign : String
  nodeId : Option NodeId
  schedule : ContactSchedule

/-- The contact that a round of the loop waits for. -/
structure Choice (NodeId : Type) where
  index : Nat
  target : ContactTarget NodeId
  start : DateTime
  duration : Nat

/-- What becomes of a round: it is cancelled during the wait, or the contact fails to start, or lasts
for its duration, or is cut off by the cancellation. -/
inductive Outcome
  | cancelled
  | failed
  | expired
  | interrupted
deriving DecidableEq

/-- A round of the loop, with its reading of the clock. -/
structure Round where
  now : DateTime
  outcome : Outcome

/-- A round that starts a contact. -/
structure Opening (NodeId : Type) where
  choice : Choice NodeId
  now : DateTime
  outcome : Outcome

/-- A call of the execution endpoint. -/
inductive EndpointCall (NodeId : Type)
  | startContact (callsign : String) (nodeId : Option NodeId)
  | endContact (callsign : String)

variable {NodeId : Type}

def EndpointCall.isStart : EndpointCall NodeId → Bool
  | .startContact .. => true
  | .endContact _ => false

/-! ### The loop -/

namespace ContactSchedule

/-- The duration of a one-shot contact: a minute if it ends before its start, and three if it has no
end. -/
def oneShotDuration (start : DateTime) (stop : Option DateTime) : Nat :=
  match stop with
  | some e => if start.instant ≤ e.instant then (e.instant - start.instant).toNat else 60000000000
  | none => 180000000000

/-- The next start of a contact, with its duration. -/
def upcoming (schedule : ContactSchedule) (now : DateTime) :
    Except Overflow (Option (DateTime × Nat)) :=
  match schedule with
  | .recurring cron duration =>
    match cron.nextAfter now with
    | .error overflow => .error overflow
    | .ok nextStart => .ok (nextStart.map fun s => (s, duration))
  | .oneShot start stop =>
    match start with
    | some s => .ok (if now.instant < s.instant then some (s, oneShotDuration s stop) else none)
    | none => .ok none

def isRecurring : ContactSchedule → Bool
  | .recurring .. => true
  | .oneShot .. => false

end ContactSchedule

theorem lt_of_upcoming_oneShot {start stop : Option DateTime} {now s : DateTime} {d : Nat}
    (h : (ContactSchedule.oneShot start stop).upcoming now = .ok (some (s, d))) :
    now.instant < s.instant := by
  unfold ContactSchedule.upcoming at h
  simp only at h
  split at h
  · split at h
    · next hlt =>
      cases h
      exact hlt
    · cases h
  · cases h

theorem upcoming_of_fires {cron : CronExpr} {duration : Nat} {now : DateTime}
    {next : Option (DateTime × Nat)} (hfires : cron.firesAt (cron.start now) = true)
    (h : (ContactSchedule.recurring cron duration).upcoming now = .ok next) :
    next = some (cron.start now, duration) := by
  unfold ContactSchedule.upcoming at h
  simp only at h
  split at h
  · cases h
  · next found hfound =>
    cases h
    rw [CronExpr.nextAfter_of_fires hfires hfound]
    rfl

theorem upcoming_recurring {cron : CronExpr} (duration : Nat) {now s : DateTime}
    (h : cron.nextAfter now = .ok (some s)) :
    (ContactSchedule.recurring cron duration).upcoming now = .ok (some (s, duration)) := by
  unfold ContactSchedule.upcoming
  simp only [h, Option.map_some]

/-- Takes a target that starts before the ones considered so far. -/
def consider (now : DateTime) (best : Option (Choice NodeId)) (entry : ContactTarget NodeId × Nat) :
    Except Overflow (Option (Choice NodeId)) :=
  match entry.1.schedule.upcoming now with
  | .error overflow => .error overflow
  | .ok none => .ok best
  | .ok (some (start, duration)) =>
    if best.all fun b => start.instant < b.start.instant then
      .ok (some ⟨entry.2, entry.1, start, duration⟩)
    else .ok best

/-- The target whose contact starts next. -/
def choose (targets : List (ContactTarget NodeId)) (now : DateTime) :
    Except Overflow (Option (Choice NodeId)) :=
  targets.zipIdx.foldlM (consider now) none

/-- How long the loop waits for a contact, not at all if it started in the past. -/
def Choice.delay (c : Choice NodeId) (now : DateTime) : Nat :=
  (c.start.instant - now.instant).toNat

/-- The contacts that the rounds of the loop start.  The loop ends if no contact is left, and at its
cancellation. -/
def openings (targets : List (ContactTarget NodeId)) : List Round → List (Opening NodeId)
  | [] => []
  | r :: rs =>
    match choose targets r.now with
    | .error _ => []
    | .ok none => []
    | .ok (some c) =>
      match r.outcome with
      | .cancelled => []
      | .interrupted => [⟨c, r.now, r.outcome⟩]
      | .failed | .expired => ⟨c, r.now, r.outcome⟩ :: openings targets rs

/-- The calls of the endpoint for a contact, which is ended if it could be started. -/
def Opening.calls (o : Opening NodeId) : List (EndpointCall NodeId) :=
  .startContact o.choice.target.callsign o.choice.target.nodeId ::
    if o.outcome = .failed then [] else [.endContact o.choice.target.callsign]

/-- All calls of the endpoint. -/
def calls (targets : List (ContactTarget NodeId)) (rounds : List Round) :
    List (EndpointCall NodeId) :=
  (openings targets rounds).flatMap Opening.calls

/-- How long a round sleeps: the wait, and the duration of a contact that could be started. -/
def Choice.sleeps (c : Choice NodeId) (r : Round) : Nat :=
  c.delay r.now + if r.outcome = .expired then c.duration else 0

/-- The clock does not run backwards, and no sleep ends early. -/
def Timely (targets : List (ContactTarget NodeId)) (rounds : List Round) : Prop :=
  rounds.IsChain fun r r' => r.now.instant ≤ r'.now.instant ∧
    ∀ c, choose targets r.now = .ok (some c) → r.now.instant + (c.sleeps r : Int) ≤ r'.now.instant

/-! ### The choice -/

variable {targets : List (ContactTarget NodeId)} {now : DateTime} {b : Choice NodeId}

/-- `best` is the first of the earliest starts of the targets. -/
structure Best (targets : List (ContactTarget NodeId)) (now : DateTime)
    (best : Option (Choice NodeId)) : Prop where
  listed : ∀ b, best = some b → targets[b.index]? = some b.target ∧
    b.target.schedule.upcoming now = .ok (some (b.start, b.duration))
  least : ∀ (index : Nat) (target : ContactTarget NodeId), targets[index]? = some target →
    ∃ next, target.schedule.upcoming now = .ok next ∧ ∀ start duration,
      next = some (start, duration) → ∃ b, best = some b ∧ (b.start.instant < start.instant ∨
        b.start.instant = start.instant ∧ b.index ≤ index)

theorem choose_append (targets : List (ContactTarget NodeId)) (target : ContactTarget NodeId)
    (now : DateTime) :
    choose (targets ++ [target]) now =
      (choose targets now >>= fun best => consider now best (target, targets.length)) := by
  simp [choose, List.zipIdx_append, List.foldlM_append]

theorem choose_singleton {target : ContactTarget NodeId} {s : DateTime} {duration : Nat}
    (h : target.schedule.upcoming now = .ok (some (s, duration))) :
    choose [target] now = .ok (some ⟨0, target, s, duration⟩) := by
  have hconsider : consider now none (target, 0) = .ok (some ⟨0, target, s, duration⟩) := by
    unfold consider
    simp only [h, Option.all_none, if_true]
  unfold choose
  rw [List.zipIdx_singleton, List.foldlM_cons, hconsider]
  rfl

theorem Best.consider {target : ContactTarget NodeId} {best best' : Option (Choice NodeId)}
    (hbest : Best targets now best)
    (h : Ham.consider now best (target, targets.length) = .ok best') :
    Best (targets ++ [target]) now best' := by
  have hold : ∀ b, best = some b → (targets ++ [target])[b.index]? = some b.target ∧
      b.target.schedule.upcoming now = .ok (some (b.start, b.duration)) := fun b hb => by
    obtain ⟨hget, hupcoming⟩ := hbest.listed b hb
    obtain ⟨hlt, -⟩ := List.getElem?_eq_some_iff.mp hget
    exact ⟨by rw [List.getElem?_append_left hlt, hget], hupcoming⟩
  have hindex : ∀ (index : Nat) (t : ContactTarget NodeId), (targets ++ [target])[index]? = some t →
      targets[index]? = some t ∨ index = targets.length ∧ t = target := fun index t ht => by
    rcases lt_or_ge index targets.length with hlt | hge
    · rw [List.getElem?_append_left hlt] at ht
      exact Or.inl ht
    · rw [List.getElem?_append_right hge, List.getElem?_singleton] at ht
      split at ht
      · next hzero => exact Or.inr ⟨by omega, (Option.some.inj ht).symm⟩
      · cases ht
  unfold Ham.consider at h
  split at h
  · cases h
  · next hupcoming =>
    cases h
    refine ⟨hold, fun index t ht => ?_⟩
    rcases hindex index t ht with hget | ⟨rfl, rfl⟩
    · exact hbest.least index t hget
    · exact ⟨none, hupcoming, nofun⟩
  · next start duration hupcoming =>
    split at h
    · next hless =>
      cases h
      refine ⟨fun b hb => ?_, fun index t ht => ?_⟩
      · cases hb
        exact ⟨by simp, hupcoming⟩
      · rcases hindex index t ht with hget | ⟨rfl, rfl⟩
        · obtain ⟨next, hnext, hleast⟩ := hbest.least index t hget
          refine ⟨next, hnext, fun s d hs => ⟨_, rfl, Or.inl ?_⟩⟩
          obtain ⟨b, rfl, hb⟩ := hleast s d hs
          have hlt : start.instant < b.start.instant := by simpa using hless
          show start.instant < s.instant
          omega
        · refine ⟨_, hupcoming, fun s d hs => ⟨_, rfl, Or.inr ?_⟩⟩
          cases hs
          exact ⟨rfl, le_rfl⟩
    · next hless =>
      cases h
      refine ⟨hold, fun index t ht => ?_⟩
      rcases hindex index t ht with hget | ⟨rfl, rfl⟩
      · exact hbest.least index t hget
      · refine ⟨_, hupcoming, fun s d hs => ?_⟩
        cases hs
        cases best with
        | none => exact absurd rfl hless
        | some b =>
          have hle : b.start.instant ≤ start.instant := by simpa using hless
          have hlt := (List.getElem?_eq_some_iff.mp (hbest.listed b rfl).1).1
          exact ⟨b, rfl, by omega⟩

theorem best_of_choose {best : Option (Choice NodeId)} (h : choose targets now = .ok best) :
    Best targets now best := by
  induction targets using List.reverseRecOn generalizing best with
  | nil =>
    cases h
    exact ⟨nofun, fun index t ht => by simp at ht⟩
  | append_singleton ts t ih =>
    rw [choose_append] at h
    cases hchoose : choose ts now with
    | error overflow =>
      rw [hchoose] at h
      cases h
    | ok best' =>
      rw [hchoose] at h
      exact (ih hchoose).consider h

/-! ### What is due -/

/-- A contact of the target is due at `x`: a firing within the four years of the search, or the start
of a one-shot contact. -/
def ContactTarget.Due (t : ContactTarget NodeId) (now x : DateTime) : Prop :=
  match t.schedule with
  | .recurring cron _ => x.nanosecond = 0 ∧ cron.firesAt x = true ∧ now.instant ≤ x.instant ∧
      x.instant ≤ now.instant + CronExpr.horizon
  | .oneShot start _ => start = some x ∧ now.instant < x.instant

theorem ContactTarget.Due.le {t : ContactTarget NodeId} {x : DateTime} (h : t.Due now x) :
    now.instant ≤ x.instant := by
  unfold ContactTarget.Due at h
  split at h
  · exact h.2.2.1
  · exact h.2.le

theorem ContactTarget.Due.limit {t : ContactTarget NodeId} {x : DateTime} (h : t.Due now x)
    (hrecurring : t.schedule.isRecurring = true) :
    x.instant ≤ now.instant + CronExpr.horizon := by
  unfold ContactTarget.Due at h
  split at h
  · exact h.2.2.2
  · next hschedule => simp [ContactSchedule.isRecurring, hschedule] at hrecurring

/-- What is due at a later reading was due before. -/
theorem ContactTarget.Due.earlier {t : ContactTarget NodeId} {now' x : DateTime}
    (h : t.Due now' x) (hle : now.instant ≤ now'.instant)
    (hlimit : x.instant ≤ now.instant + CronExpr.horizon) : t.Due now x := by
  unfold ContactTarget.Due at h ⊢
  split at h
  · exact ⟨h.1, h.2.1, hle.trans h.2.2.1, hlimit⟩
  · exact ⟨h.1, by omega⟩

/-- The target at `index` is the first of those that are due the earliest, which is at `x`. -/
structure First (targets : List (ContactTarget NodeId)) (now : DateTime) (index : Nat)
    (target : ContactTarget NodeId) (x : DateTime) : Prop where
  listed : targets[index]? = some target
  due : target.Due now x
  least : ∀ (index' : Nat) (target' : ContactTarget NodeId) (x' : DateTime),
    targets[index']? = some target' → target'.Due now x' →
      x.instant < x'.instant ∨ x.instant = x'.instant ∧ index ≤ index'

theorem First.unique {index index' : Nat} {target target' : ContactTarget NodeId} {x x' : DateTime}
    (h : First targets now index target x) (h' : First targets now index' target' x') :
    index = index' ∧ target = target' ∧ x = x' := by
  have hle := h.least index' target' x' h'.listed h'.due
  have hge := h'.least index target x h.listed h.due
  have hindex : index = index' := by omega
  subst hindex
  refine ⟨rfl, ?_, DateTime.instant_injective (by omega)⟩
  exact Option.some.inj (h.listed.symm.trans h'.listed)

/-- A recurring target that is the first due at a later reading is so still at that reading. -/
theorem First.again {index : Nat} {target : ContactTarget NodeId} {now' : DateTime}
    (h : First targets now index target now') (hle : now.instant ≤ now'.instant)
    (hrecurring : target.schedule.isRecurring = true) : First targets now' index target now' := by
  have hdue := h.due
  refine ⟨h.listed, ?_, fun index' t x ht hx => ?_⟩
  · unfold ContactTarget.Due at hdue ⊢
    split at hdue
    · exact ⟨hdue.1, hdue.2.1, le_rfl, by simp only [CronExpr.horizon]; omega⟩
    · next hschedule => simp [ContactSchedule.isRecurring, hschedule] at hrecurring
  · rcases hx.le.lt_or_eq with hlt | heq
    · exact Or.inl hlt
    · exact h.least index' t x ht (hx.earlier hle (by rw [← heq]; exact hdue.limit hrecurring))

/-- The reading is not within the second or minute of a firing, unless at its start. -/
def Aligned (targets : List (ContactTarget NodeId)) (now : DateTime) : Prop :=
  ∀ t ∈ targets, ∀ cron duration, t.schedule = .recurring cron duration →
    cron.firesAt (cron.start now) = true → cron.start now = now

/-- At an aligned reading, the next start is the first that is due. -/
theorem upcoming_due {t : ContactTarget NodeId} {next : Option (DateTime × Nat)}
    (haligned : Aligned targets now) (ht : t ∈ targets)
    (h : t.schedule.upcoming now = .ok next) :
    (∀ s d, next = some (s, d) → t.Due now s) ∧
      ∀ x, t.Due now x → ∃ s d, next = some (s, d) ∧ s.instant ≤ x.instant := by
  unfold ContactTarget.Due
  cases hschedule : t.schedule with
  | recurring cron duration =>
    have hstart := haligned t ht cron duration hschedule
    have hle := cron.start_le now
    rw [hschedule] at h
    unfold ContactSchedule.upcoming at h
    simp only at h
    split at h
    · cases h
    · next found hfound =>
      cases h
      have hnext := CronExpr.isNext_of_nextAfter hfound
      cases found with
      | none =>
        refine ⟨nofun, fun x ⟨_, hfires, hfrom, hlimit⟩ => ?_⟩
        rw [hnext x (by omega) hlimit] at hfires
        cases hfires
      | some r =>
        obtain ⟨hfrom, hlimit, hnano, hfires, hleast⟩ := hnext
        refine ⟨fun s d hs => ?_, fun x ⟨_, hx, hnow, _⟩ => ⟨r, duration, rfl, ?_⟩⟩
        · cases hs
          refine ⟨hnano, hfires, ?_, hlimit⟩
          rcases hfrom.lt_or_eq with hlt | heq
          · exact CronExpr.le_of_fires hnano hfires hlt
          · rw [← DateTime.instant_injective heq] at hfires
            rw [← heq, hstart hfires]
        · by_contra hlt
          rw [hleast x (by omega) (by omega)] at hx
          cases hx
  | oneShot start stop =>
    rw [hschedule] at h
    unfold ContactSchedule.upcoming at h
    simp only at h
    split at h
    · next s =>
      cases h
      refine ⟨fun s' d hs => ?_, fun x ⟨hx, hlt⟩ => ?_⟩
      · split at hs
        · next hlt =>
          cases hs
          exact ⟨rfl, hlt⟩
        · cases hs
      · cases hx
        exact ⟨s, _, if_pos hlt, le_rfl⟩
    · cases h
      exact ⟨nofun, fun x ⟨hx, _⟩ => by cases hx⟩

/-- At an aligned reading, the loop chooses the first target that is due. -/
theorem first_of_choose (haligned : Aligned targets now) (h : choose targets now = .ok (some b)) :
    First targets now b.index b.target b.start := by
  have hbest := best_of_choose h
  obtain ⟨hget, hupcoming⟩ := hbest.listed b rfl
  refine ⟨hget, ?_, fun index t x ht hdue => ?_⟩
  · exact (upcoming_due haligned (List.mem_of_getElem? hget) hupcoming).1 _ _ rfl
  · obtain ⟨next, hnext, hleast⟩ := hbest.least index t ht
    obtain ⟨s, d, hs, hle⟩ := (upcoming_due haligned (List.mem_of_getElem? ht) hnext).2 x hdue
    obtain ⟨b', hb', hbefore⟩ := hleast s d hs
    cases hb'
    omega

/-! ### The rounds -/

variable {rounds rs : List Round} {r : Round}

theorem openings_cons (targets : List (ContactTarget NodeId)) (r : Round) (rs : List Round) :
    openings targets (r :: rs) = [] ∨ ∃ c rest, choose targets r.now = .ok (some c) ∧
      (rest = [] ∨ rest = openings targets rs) ∧
      openings targets (r :: rs) = ⟨c, r.now, r.outcome⟩ :: rest := by
  rw [openings]
  split
  · exact Or.inl rfl
  · exact Or.inl rfl
  · next c hc =>
    split
    · exact Or.inl rfl
    · exact Or.inr ⟨c, [], hc, Or.inl rfl, rfl⟩
    · exact Or.inr ⟨c, _, hc, Or.inr rfl, rfl⟩
    · exact Or.inr ⟨c, _, hc, Or.inr rfl, rfl⟩

theorem choose_of_mem_openings {o : Opening NodeId} (h : o ∈ openings targets rounds) :
    choose targets o.now = .ok (some o.choice) := by
  induction rounds with
  | nil => simp [openings] at h
  | cons r rs ih =>
    rcases openings_cons targets r rs with hnil | ⟨c, rest, hc, hrest, hcons⟩
    · simp [hnil] at h
    · rw [hcons, List.mem_cons] at h
      rcases h with rfl | hmem
      · exact hc
      · rcases hrest with rfl | rfl
        · cases hmem
        · exact ih hmem

theorem le_of_mem_openings (htimely : Timely targets (r :: rs)) {o : Opening NodeId}
    (h : o ∈ openings targets (r :: rs)) : r.now.instant ≤ o.now.instant := by
  induction rs generalizing r with
  | nil =>
    rcases openings_cons targets r [] with hnil | ⟨c, rest, hc, hrest, hcons⟩
    · simp [hnil] at h
    · have hrest : rest = [] := hrest.elim id id
      rw [hcons, hrest, List.mem_singleton] at h
      rw [h]
  | cons r' rs ih =>
    rw [Timely, List.isChain_cons_cons] at htimely
    rcases openings_cons targets r (r' :: rs) with hnil | ⟨c, rest, hc, hrest, hcons⟩
    · simp [hnil] at h
    · rw [hcons, List.mem_cons] at h
      rcases h with rfl | hmem
      · exact le_rfl
      · rcases hrest with rfl | rfl
        · cases hmem
        · exact htimely.1.1.trans (ih htimely.2 hmem)

/-- The readings follow each other, and the instants that were waited for. -/
theorem openings_timely (htimely : Timely targets rounds) :
    (openings targets rounds).Pairwise fun o o' =>
      o.now.instant ≤ o'.now.instant ∧ o.choice.start.instant ≤ o'.now.instant := by
  induction rounds with
  | nil => exact List.Pairwise.nil
  | cons r rs ih =>
    rcases openings_cons targets r rs with hnil | ⟨c, rest, hc, hrest, hcons⟩
    · rw [hnil]
      exact List.Pairwise.nil
    · rw [hcons]
      rcases hrest with rfl | rfl
      · exact List.pairwise_singleton _ _
      · refine List.pairwise_cons.mpr ⟨fun o ho => ?_, ih htimely.tail⟩
        cases rs with
        | nil => simp [openings] at ho
        | cons r' rs =>
          rw [Timely, List.isChain_cons_cons] at htimely
          have hslept := htimely.1.2 c hc
          have hle := le_of_mem_openings htimely.2 ho
          simp only [Choice.sleeps, Choice.delay] at hslept ⊢
          omega

/-- The contacts that are started are those of the openings. -/
theorem calls_start (targets : List (ContactTarget NodeId)) (rounds : List Round) :
    (calls targets rounds).filter EndpointCall.isStart = (openings targets rounds).map fun o =>
      .startContact o.choice.target.callsign o.choice.target.nodeId := by
  unfold calls
  induction openings targets rounds with
  | nil => rfl
  | cons o os ih =>
    have hcalls : o.calls.filter EndpointCall.isStart =
        [.startContact o.choice.target.callsign o.choice.target.nodeId] := by
      unfold Opening.calls
      split <;> rfl
    rw [List.flatMap_cons, List.filter_append, hcalls, ih]
    rfl

/-! ### One contact for each firing -/

/-- No recurring contact is started for an instant before the reading that chose it. -/
def Ahead (os : List (Opening NodeId)) : Prop :=
  ∀ o ∈ os, o.choice.target.schedule.isRecurring = true →
    o.now.instant ≤ o.choice.start.instant

/-- No two contacts of a recurring target are started for one instant. -/
def Once (os : List (Opening NodeId)) : Prop :=
  os.Pairwise fun o o' => ¬(o.choice.index = o'.choice.index ∧
    o.choice.target.schedule.isRecurring = true ∧ o.choice.start = o'.choice.start)

/-- Every reading is aligned, and is not itself the firing for which a contact was opened before it:
no recurring target was the first due at that instant. -/
structure Clear (targets : List (ContactTarget NodeId)) (os : List (Opening NodeId)) : Prop where
  aligned : ∀ o ∈ os, Aligned targets o.now
  passed : os.Pairwise fun o o' => ∀ index target, target.schedule.isRecurring = true →
    ¬First targets o.now index target o'.now

/-- A reading that is not aligned makes the loop choose a firing in the past. -/
theorem Ahead.aligned (hahead : Ahead (openings targets rounds)) :
    ∀ o ∈ openings targets rounds, Aligned targets o.now := by
  intro o ho t ht cron duration hschedule hfires
  have hle := cron.start_le o.now
  have hbest := best_of_choose (choose_of_mem_openings ho)
  obtain ⟨index, hget⟩ := List.getElem?_of_mem ht
  obtain ⟨next, hnext, hleast⟩ := hbest.least index t hget
  rw [hschedule] at hnext
  obtain ⟨b, hb, hbefore⟩ := hleast _ _ (upcoming_of_fires hfires hnext)
  cases hb
  have hlate : o.now.instant ≤ o.choice.start.instant := by
    cases hchosen : o.choice.target.schedule with
    | recurring cron' duration' => exact hahead o ho (by rw [hchosen]; rfl)
    | oneShot start stop =>
      have hupcoming := (hbest.listed _ rfl).2
      rw [hchosen] at hupcoming
      exact (lt_of_upcoming_oneShot hupcoming).le
  exact DateTime.instant_injective (by omega)

/-- The loop opens one contact for each firing of a recurring target, and none for a firing in the
past, exactly if its readings of the clock are clear. -/
theorem contacts_once_iff (targets : List (ContactTarget NodeId)) (rounds : List Round)
    (htimely : Timely targets rounds) :
    Ahead (openings targets rounds) ∧ Once (openings targets rounds) ↔
      Clear targets (openings targets rounds) := by
  have hsorted := openings_timely htimely
  constructor
  · intro ⟨hahead, honce⟩
    have haligned := hahead.aligned
    refine ⟨haligned, (hsorted.and honce).imp_of_mem ?_⟩
    intro o o' ho ho' ⟨⟨hle, hwaited⟩, hnot⟩ index t hrecurring hfirst
    -- the first round has chosen the target for the later reading
    have hchosen := first_of_choose (haligned o ho) (choose_of_mem_openings ho)
    obtain ⟨rfl, rfl, hstart⟩ := hchosen.unique hfirst
    -- which is due then, so that the later round chooses it again
    have hchosen' := first_of_choose (haligned o' ho') (choose_of_mem_openings ho')
    obtain ⟨hindex, -, hstart'⟩ := hchosen'.unique (hfirst.again hle hrecurring)
    exact hnot ⟨hindex.symm, hrecurring, hstart.trans hstart'.symm⟩
  · intro hclear
    have hahead : Ahead (openings targets rounds) := by
      intro o ho hrecurring
      have hdue := (first_of_choose (hclear.aligned o ho) (choose_of_mem_openings ho)).due
      exact hdue.le
    refine ⟨hahead, (hsorted.and hclear.passed).imp_of_mem ?_⟩
    intro o o' ho ho' ⟨⟨hle, hwaited⟩, hpassed⟩ ⟨hindex, hrecurring, hstart⟩
    have hchosen := first_of_choose (hclear.aligned o ho) (choose_of_mem_openings ho)
    have hchosen' := first_of_choose (hclear.aligned o' ho') (choose_of_mem_openings ho')
    have hlate := hchosen'.due.le
    rw [hstart] at hwaited
    have hnow : o.choice.start = o'.now := by
      rw [hstart]
      exact DateTime.instant_injective (by omega)
    rw [hnow] at hchosen
    exact hpassed _ _ hrecurring hchosen

section Example

/-- The expression `0 8 * * *`. -/
def eight : CronExpr := ⟨1, 1, 256, 4294967294, 8190, 127⟩

/-- Contacts of ten minutes at eight o'clock every day. -/
def daily : ContactTarget String := ⟨"N0CALL", none, .recurring eight 600000000000⟩

/-- A time within the first minute after eight o'clock. -/
def pastEight (second : Fin 60) : DateTime := ⟨⟨2025, 6, 1, by decide⟩, 8, 0, second, 0⟩

theorem instant_pastEight (second : Fin 60) :
    (pastEight second).instant = 63884448000000000000 + second.val * 1000000000 := by
  have hnumber : (pastEight second).date.number = 739403 := by
    change Date.number ⟨2025, 6, 1, _⟩ = 739403
    decide
  rw [DateTime.instant, DateTime.seconds, hnumber]
  simp only [pastEight, Fin.val_zero]
  omega

theorem choose_daily (second : Fin 60) :
    choose [daily] (pastEight second) = .ok (some ⟨0, daily, pastEight 0, 600000000000⟩) := by
  have hnext : eight.nextAfter (pastEight second) = .ok (some (pastEight 0)) := by
    refine CronExpr.nextAfter_eq_start ?_ ?_
    · rw [instant_pastEight, CronExpr.horizon, CronExpr.endOfYears, daysBeforeYear]
      omega
    · change eight.firesAt (pastEight 0) = true
      decide
  exact choose_singleton (upcoming_recurring 600000000000 hnext)

/-- Two rounds that fail to start the contact. -/
def failures : List Round := [⟨pastEight 10, .failed⟩, ⟨pastEight 11, .failed⟩]

theorem failures_timely : Timely [daily] failures := by
  refine List.isChain_pair.mpr ⟨?_, fun c hc => ?_⟩
  · simp [instant_pastEight]
  · rw [choose_daily] at hc
    cases hc
    simp [Choice.sleeps, Choice.delay, instant_pastEight]

theorem openings_failures : openings [daily] failures =
    [⟨⟨0, daily, pastEight 0, 600000000000⟩, pastEight 10, .failed⟩,
      ⟨⟨0, daily, pastEight 0, 600000000000⟩, pastEight 11, .failed⟩] := by
  simp only [failures, openings, choose_daily]

theorem contacts_once_iff_failures :
    Timely [daily] failures ∧ (Ahead (openings [daily] failures) ∧ Once (openings [daily] failures) ↔
      Clear [daily] (openings [daily] failures)) :=
  ⟨failures_timely, contacts_once_iff [daily] failures failures_timely⟩

/-- A contact that fails to start is started again for the same firing, which is then in the past. -/
theorem firing_repeated : ¬∀ (targets : List (ContactTarget String)) (rounds : List Round),
    Timely targets rounds →
      Ahead (openings targets rounds) ∧ Once (openings targets rounds) := by
  intro h
  obtain ⟨-, honce⟩ := h [daily] failures failures_timely
  rw [openings_failures] at honce
  exact (List.pairwise_pair.mp honce) ⟨rfl, rfl, rfl⟩

end Example

end HdyUtils.Ham
