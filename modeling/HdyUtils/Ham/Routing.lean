import HdyUtils.Lib.Lists
import HdyUtils.Lib.Text
import HdyUtils.Lib.Trace

/-! The static routes of a node (`routing.rs`).  A `RouteManager` keeps a list of routes, by the text
of their patterns, and installs in the routing sink of the bundle protocol agent what they parse to.
`installed_iff` says when the sink has exactly the routes that are listed. -/

namespace HdyUtils.Ham

open Trace

/-! ### The manager -/

structure RouteConfig where
  pattern : String
  cla : String
  nextHop : Option String
deriving DecidableEq

/-- What routing takes from the crates of the agent: patterns, endpoints, and lower case. -/
structure Eids (Pattern Eid : Type) where
  parsePattern : String → Option Pattern
  parseEid : String → Option Eid
  null : Eid
  lowercase : String → String

/-- A route of the sink: `RouteAction::Via` with its pattern and priority. -/
structure Route (Pattern Eid : Type) where
  pattern : Pattern
  via : Eid
  priority : Nat
deriving DecidableEq

section Parse

variable {Pattern Eid : Type} (eids : Eids Pattern Eid)

/-- Normalizes a peer into the canonical endpoint of its node (`internal_storage.rs`). -/
def normalizePeerNode (input : String) : String :=
  let trimmed := Text.trim input
  if trimmed = "" then "dtn:none"
  else
    match Text.stripStart trimmed "ipn:" with
    | some rest => "ipn:" ++ Text.before '.' rest ++ ".0"
    | none =>
      let withoutScheme :=
        match Text.stripStart trimmed "dtn://" with
        | some stripped => stripped
        | none => (Text.stripStart trimmed "dtn:").getD trimmed
      "dtn://" ++ eids.lowercase (Text.trim (Text.before '/' withoutScheme)) ++ "/"

/-- The endpoint of the next hop, which is the null endpoint if there is none. -/
def viaEid (nextHop : Option String) : Except String Eid :=
  match nextHop with
  | none => .ok eids.null
  | some hop =>
    let normalized :=
      if Text.startsWith hop "dtn:" || Text.startsWith hop "ipn:" then hop
      else normalizePeerNode eids hop
    match eids.parseEid normalized with
    | some eid => .ok eid
    | none => .error ("Invalid next_hop EID '" ++ hop ++ "'")

/-- Converts a listed route into a route of the sink. -/
def parseRoute (route : RouteConfig) : Except String (Route Pattern Eid) :=
  let patternStr :=
    if route.pattern = "dtn://**" then "dtn:**"
    else if route.pattern = "ipn://**" then "ipn:**"
    else route.pattern
  match eids.parsePattern patternStr with
  | none => .error ("Invalid EID route pattern '" ++ route.pattern ++ "'")
  | some pattern =>
    match viaEid eids route.nextHop with
    | .error message => .error message
    | .ok via =>
      -- default routes yield to specific ones
      let priority :=
        if route.pattern ∈ ["dtn://**", "dtn:**", "ipn://**", "ipn:**", "*:**"] then 10 else 100
      .ok ⟨pattern, via, priority⟩

end Parse

/-- The route manager.  `sink` is the set of routes installed in the registered sink, and `persisted`
are the lists that were written to the configuration file, with its path. -/
structure RouteManager (Pattern Eid : Type) where
  routes : List RouteConfig
  sink : Option (Finset (Route Pattern Eid))
  configPath : Option String
  persisted : List (String × List RouteConfig)

namespace RouteManager

variable {Pattern Eid : Type} [DecidableEq Pattern] [DecidableEq Eid] (eids : Eids Pattern Eid)

def new (initialRoutes : List RouteConfig) (configPath : Option String) : RouteManager Pattern Eid where
  routes := initialRoutes
  sink := none
  configPath := configPath
  persisted := []

/-- Writes the list of routes to the configuration file. -/
def persist (m : RouteManager Pattern Eid) : RouteManager Pattern Eid :=
  match m.configPath with
  | some path => { m with persisted := m.persisted ++ [(path, m.routes)] }
  | none => m

def pushRouteToSink (sink : Finset (Route Pattern Eid)) (route : RouteConfig) :
    Except String (Finset (Route Pattern Eid)) :=
  match parseRoute eids route with
  | .ok t => .ok (insert t sink)
  | .error message => .error message

def removeRouteFromSink (sink : Finset (Route Pattern Eid)) (route : RouteConfig) :
    Except String (Finset (Route Pattern Eid)) :=
  match parseRoute eids route with
  | .ok t => .ok (sink.erase t)
  | .error message => .error message

/-- Lists a route, in place of the routes with the same pattern, and installs it. -/
def addRoute (m : RouteManager Pattern Eid) (route : RouteConfig) :
    Except String (RouteManager Pattern Eid) :=
  let listed := m.routes.filter (fun r => r.pattern ≠ route.pattern) ++ [route]
  match parseRoute eids route with
  | .error message => .error message
  | .ok _ =>
    match m.sink with
    | some sink =>
      match pushRouteToSink eids sink route with
      | .error message => .error message
      | .ok sink => .ok ({ m with sink := some sink, routes := listed }).persist
    | none => .ok ({ m with routes := listed }).persist

/-- Takes the first route with a pattern off the list and withdraws it. -/
def deleteRoute (m : RouteManager Pattern Eid) (patternStr : String) :
    Bool × RouteManager Pattern Eid :=
  match m.routes.findIdx? (fun r => r.pattern = patternStr) with
  | none => (false, m)
  | some pos =>
    let sink := m.sink.map fun sink =>
      match m.routes[pos]? with
      | some route =>
        match removeRouteFromSink eids sink route with
        | .ok sink => sink
        -- a failure is logged
        | .error _ => sink
      | none => sink
    (true, ({ m with routes := m.routes.eraseIdx pos, sink }).persist)

/-- Installs the listed routes in a new sink; those that do not parse are logged. -/
def onRegister (m : RouteManager Pattern Eid) : RouteManager Pattern Eid :=
  let sink := m.routes.foldl (fun sink r =>
    match pushRouteToSink eids sink r with
    | .ok sink => sink
    | .error _ => sink) ∅
  { m with sink := some sink }

def onUnregister (m : RouteManager Pattern Eid) : RouteManager Pattern Eid := { m with sink := none }

end RouteManager

/-! ### Operations -/

inductive RouteOp
  | addRoute (route : RouteConfig)
  | deleteRoute (pattern : String)
  | onRegister
  | onUnregister

namespace RouteManager

variable {Pattern Eid : Type} [DecidableEq Pattern] [DecidableEq Eid] (eids : Eids Pattern Eid)

/-- The manager after an operation.  A route that is rejected changes nothing. -/
def step (m : RouteManager Pattern Eid) : RouteOp → RouteManager Pattern Eid
  | .addRoute route =>
    match m.addRoute eids route with
    | .ok m => m
    | .error _ => m
  | .deleteRoute pattern => (m.deleteRoute eids pattern).2
  | .onRegister => m.onRegister eids
  | .onUnregister => m.onUnregister

/-- What the listed routes parse to. -/
def listed (m : RouteManager Pattern Eid) : Finset (Route Pattern Eid) :=
  (m.routes.filterMap fun r => (parseRoute eids r).toOption).toFinset

/-- A registered sink has the listed routes. -/
def Installed (m : RouteManager Pattern Eid) : Prop :=
  ∀ sink, m.sink = some sink → sink = m.listed eids

/-- The operation takes off the list no route that differs from all that are left, except by
withdrawing it, and withdraws none that is left. -/
def Spares (m : RouteManager Pattern Eid) : RouteOp → Prop
  | .addRoute route => m.sink ≠ none → ∀ t, parseRoute eids route = .ok t →
      ∀ old ∈ m.routes, old.pattern = route.pattern → ∀ t', parseRoute eids old = .ok t' →
        t' = t ∨ ∃ other ∈ m.routes, other.pattern ≠ route.pattern ∧ parseRoute eids other = .ok t'
  | .deleteRoute pattern => m.sink ≠ none →
      ∀ pos route, m.routes.findIdx? (fun r => r.pattern = pattern) = some pos →
        m.routes[pos]? = some route → ∀ t, parseRoute eids route = .ok t →
        ∀ other ∈ m.routes.eraseIdx pos, parseRoute eids other ≠ .ok t
  | .onRegister | .onUnregister => True

variable {eids} {m : RouteManager Pattern Eid} {t : Route Pattern Eid}

theorem mem_listed : t ∈ m.listed eids ↔ ∃ r ∈ m.routes, parseRoute eids r = .ok t := by
  have hparse (r : RouteConfig) :
      (parseRoute eids r).toOption = some t ↔ parseRoute eids r = .ok t := by
    cases parseRoute eids r <;> simp [Except.toOption]
  simp only [listed, List.mem_toFinset, List.mem_filterMap, hparse]

theorem installed_iff (m : RouteManager Pattern Eid) : m.Installed eids ↔
    ∀ sink, m.sink = some sink → ∀ t, t ∈ sink ↔ ∃ r ∈ m.routes, parseRoute eids r = .ok t := by
  simp only [Installed, Finset.ext_iff, mem_listed]

omit [DecidableEq Pattern] [DecidableEq Eid] in
@[simp] theorem persist_routes (m : RouteManager Pattern Eid) : m.persist.routes = m.routes := by
  unfold persist
  split <;> rfl

omit [DecidableEq Pattern] [DecidableEq Eid] in
@[simp] theorem persist_sink (m : RouteManager Pattern Eid) : m.persist.sink = m.sink := by
  unfold persist
  split <;> rfl

/-! ### One operation -/

theorem mem_foldl_push (routes : List RouteConfig) (sink : Finset (Route Pattern Eid)) :
    t ∈ routes.foldl (fun sink r =>
        match pushRouteToSink eids sink r with
        | .ok sink => sink
        | .error _ => sink) sink ↔
      t ∈ sink ∨ ∃ r ∈ routes, parseRoute eids r = .ok t := by
  induction routes generalizing sink with
  | nil => simp
  | cons r routes ih =>
    rw [List.foldl_cons, ih]
    unfold pushRouteToSink
    cases hr : parseRoute eids r with
    | error message => simp [hr]
    | ok t' =>
      simp only [Finset.mem_insert, List.exists_mem_cons_iff, hr, Except.ok.injEq]
      rw [or_comm (a := t = t'), or_assoc, eq_comm (a := t)]

/-- A new sink gets the listed routes. -/
theorem installed_onRegister (m : RouteManager Pattern Eid) : (m.onRegister eids).Installed eids := by
  rw [installed_iff]
  rintro sink ⟨⟩ t
  rw [mem_foldl_push]
  simp [onRegister]

/-- What adding a route does. -/
theorem step_addRoute (m : RouteManager Pattern Eid) {route : RouteConfig}
    (h : parseRoute eids route = .ok t) :
    (m.step eids (.addRoute route)).routes =
        m.routes.filter (fun r => r.pattern ≠ route.pattern) ++ [route] ∧
      (m.step eids (.addRoute route)).sink = m.sink.map (insert t) := by
  simp only [step, addRoute, h, pushRouteToSink]
  cases m.sink <;> simp

variable (eids) in
/-- What deleting a route does. -/
theorem step_deleteRoute (m : RouteManager Pattern Eid) {pattern : String} {pos : Nat}
    {route : RouteConfig} (hpos : m.routes.findIdx? (fun r => r.pattern = pattern) = some pos)
    (hroute : m.routes[pos]? = some route) :
    (m.step eids (.deleteRoute pattern)).routes = m.routes.eraseIdx pos ∧
      (m.step eids (.deleteRoute pattern)).sink = m.sink.map fun sink =>
        match parseRoute eids route with
        | .ok t => sink.erase t
        | .error _ => sink := by
  simp only [step, deleteRoute, hpos, hroute, removeRouteFromSink, persist_routes, persist_sink,
    true_and]
  congr 1
  funext sink
  cases parseRoute eids route <;> rfl

theorem installed_addRoute (hm : m.Installed eids) (route : RouteConfig) :
    m.Spares eids (.addRoute route) ↔ (m.step eids (.addRoute route)).Installed eids := by
  cases hroute : parseRoute eids route with
  | error message =>
    have hstep : m.step eids (.addRoute route) = m := by
      simp only [step, addRoute, hroute]
    rw [hstep]
    exact iff_of_true (fun _ t ht => by rw [hroute] at ht; cases ht) hm
  | ok t =>
    obtain ⟨hroutes, hsink⟩ := step_addRoute m hroute
    rw [installed_iff] at hm
    rw [installed_iff, hroutes, hsink]
    cases hs : m.sink with
    | none => exact iff_of_true (fun hne => absurd hs hne) nofun
    | some sink =>
      have hmem := hm sink hs
      constructor
      · intro hspares new hnew t'
        cases hnew
        rw [Finset.mem_insert, hmem]
        constructor
        · rintro (rfl | ⟨r, hr, ht'⟩)
          · exact ⟨route, by simp, hroute⟩
          · by_cases hpattern : r.pattern = route.pattern
            · rcases hspares (by simp [hs]) t hroute r hr hpattern t' ht' with
                rfl | ⟨other, hother, hne, hparse⟩
              · exact ⟨route, by simp, hroute⟩
              · exact ⟨other, by simp [hother, hne], hparse⟩
            · exact ⟨r, by simp [hr, hpattern], ht'⟩
        · rintro ⟨r, hr, ht'⟩
          rcases List.mem_append.mp hr with hold | hnew
          · exact .inr ⟨r, (List.mem_filter.mp hold).1, ht'⟩
          · rw [List.mem_singleton.mp hnew, hroute] at ht'
            exact .inl (Except.ok.inj ht').symm
      · intro hinstalled _ t₀ ht₀ old hold hpattern t' ht'
        rw [hroute] at ht₀
        cases ht₀
        have hin : t' ∈ insert t sink := Finset.mem_insert_of_mem ((hmem t').mpr ⟨old, hold, ht'⟩)
        obtain ⟨r, hr, hparse⟩ := (hinstalled _ rfl t').mp hin
        rcases List.mem_append.mp hr with hkept | hnew
        · obtain ⟨hr, hne⟩ := List.mem_filter.mp hkept
          exact .inr ⟨r, hr, by simpa using hne, hparse⟩
        · rw [List.mem_singleton.mp hnew, hroute] at hparse
          exact .inl (Except.ok.inj hparse).symm

theorem installed_deleteRoute (hm : m.Installed eids) (pattern : String) :
    m.Spares eids (.deleteRoute pattern) ↔ (m.step eids (.deleteRoute pattern)).Installed eids := by
  cases hpos : m.routes.findIdx? (fun r => r.pattern = pattern) with
  | none =>
    have hstep : m.step eids (.deleteRoute pattern) = m := by
      simp only [step, deleteRoute, hpos]
    rw [hstep]
    exact iff_of_true (fun _ pos route hpos' => by rw [hpos] at hpos'; cases hpos') hm
  | some pos =>
    obtain ⟨before, route, after, hsplit, -, -, hlength⟩ := Lists.findIdx?_eq_some hpos
    have hget : m.routes[pos]? = some route := by
      rw [hsplit, ← hlength]
      simp
    have herase : m.routes.eraseIdx pos = before ++ after := by
      rw [hsplit, ← hlength, List.eraseIdx_append_of_length_le le_rfl]
      simp
    have hmem : ∀ r, r ∈ m.routes ↔ r = route ∨ r ∈ before ++ after := by
      intro r
      rw [hsplit, List.mem_append, List.mem_cons, List.mem_append]
      tauto
    obtain ⟨hroutes, hsink⟩ := step_deleteRoute eids m hpos hget
    have hspares : m.Spares eids (.deleteRoute pattern) ↔ (m.sink ≠ none →
        ∀ t, parseRoute eids route = .ok t →
          ∀ other ∈ before ++ after, parseRoute eids other ≠ .ok t) := by
      simp only [Spares, hpos, Option.some.injEq]
      constructor
      · intro h hs t ht other hother
        exact h hs pos route rfl hget t ht other (herase ▸ hother)
      · rintro h hs pos' route' rfl hget' t ht other hother
        rw [hget] at hget'
        cases hget'
        exact h hs t ht other (herase ▸ hother)
    rw [installed_iff] at hm
    rw [installed_iff, hroutes, hsink, hspares, herase]
    cases hs : m.sink with
    | none => exact iff_of_true (fun hne => absurd rfl hne) nofun
    | some sink =>
      have hin := hm sink hs
      cases hroute : parseRoute eids route with
      | error message =>
        refine iff_of_true (fun _ t ht => by cases ht) fun new hnew t => ?_
        cases hnew
        rw [hin]
        constructor
        · rintro ⟨r, hr, hparse⟩
          rcases (hmem r).mp hr with rfl | hr
          · rw [hroute] at hparse
            cases hparse
          · exact ⟨r, hr, hparse⟩
        · rintro ⟨r, hr, hparse⟩
          exact ⟨r, (hmem r).mpr (.inr hr), hparse⟩
      | ok t =>
        constructor
        · intro hkeeps new hnew t'
          cases hnew
          rw [Finset.mem_erase, hin]
          constructor
          · rintro ⟨hne, r, hr, hparse⟩
            rcases (hmem r).mp hr with rfl | hr
            · rw [hroute] at hparse
              exact absurd (Except.ok.inj hparse).symm hne
            · exact ⟨r, hr, hparse⟩
          · rintro ⟨r, hr, hparse⟩
            refine ⟨fun heq => ?_, r, (hmem r).mpr (.inr hr), hparse⟩
            rw [heq] at hparse
            exact hkeeps nofun t rfl r hr hparse
        · intro hinstalled _ t' ht' other hother hparse
          cases ht'
          have herased := (hinstalled _ rfl t).mpr ⟨other, hother, hparse⟩
          simp at herased

/-- After an operation that spares the listed routes the sink has them, and only then. -/
theorem spares_iff (hm : m.Installed eids) (op : RouteOp) :
    m.Spares eids op ↔ (m.step eids op).Installed eids := by
  cases op with
  | addRoute route => exact installed_addRoute hm route
  | deleteRoute pattern => exact installed_deleteRoute hm pattern
  | onRegister => exact iff_of_true trivial (installed_onRegister m)
  | onUnregister => exact iff_of_true trivial nofun

end RouteManager

/-- After every operation of a run the registered sink has the listed routes, if every operation
spares the routes that are listed. -/
theorem installed_along_iff {Pattern Eid : Type} [DecidableEq Pattern] [DecidableEq Eid]
    (eids : Eids Pattern Eid) (initialRoutes : List RouteConfig) (configPath : Option String)
    (ops : List RouteOp) :
    Along (RouteManager.step eids) (RouteManager.Spares eids) (.new initialRoutes configPath) ops ↔
      Along (RouteManager.step eids) (fun m op => (m.step eids op).Installed eids)
        (.new initialRoutes configPath) ops := by
  have hnew : (RouteManager.new initialRoutes configPath : RouteManager Pattern Eid).Installed
      eids := nofun
  exact along_iff_invariant (RouteManager.Installed eids) (fun m op hm => RouteManager.spares_iff hm op) hnew

/-- Patterns and endpoints that stand for themselves. -/
def plainEids : Eids String String where
  parsePattern := some
  parseEid := some
  null := "dtn:none"
  lowercase := id

/-- A route is added to a registered sink, and then another one with the same pattern. -/
def movedRoute : List RouteOp :=
  [.onRegister, .addRoute ⟨"dtn://x/*", "tcp", some "dtn://a/"⟩,
    .addRoute ⟨"dtn://x/*", "tcp", some "dtn://b/"⟩]

/-- The sink keeps the route to the old next hop. -/
theorem moved_route_stays :
    ¬Along (RouteManager.step plainEids) (fun m op => (m.step plainEids op).Installed plainEids)
      (.new [] none) movedRoute := by
  rintro ⟨-, -, h, -⟩
  have heq := h _ rfl
  revert heq
  decide +kernel

end HdyUtils.Ham
