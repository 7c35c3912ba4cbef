import HdyUtils.Ltp.HostMove

/-! Session numbers.  An engine numbers its sessions along a cycle through all values but 0, so the
identifiers of fewer than 2 ^ 64 requests are distinct. -/

namespace HdyUtils.Ltp

/-- The session number after `n`. -/
def nextNumber (n : UInt64) : UInt64 := if n + 1 = 0 then 1 else n + 1

/-- The numbers from `init` on, by their position in the cycle. -/
theorem toNat_iterate_nextNumber {init : UInt64} (hinit : init ≠ 0) (k : Nat) :
    (nextNumber^[k] init).toNat = (init.toNat - 1 + k) % (2 ^ 64 - 1) + 1 := by
  have hpos : 0 < init.toNat := by
    rw [Nat.pos_iff_ne_zero]
    exact fun h => hinit (UInt64.toNat_inj.mp h)
  have hlt := init.toNat_lt
  induction k with
  | zero =>
    rw [Function.iterate_zero, id_eq, Nat.mod_eq_of_lt (by omega)]
    omega
  | succ k ih =>
    rw [Function.iterate_succ_apply']
    generalize hn : nextNumber^[k] init = n at ih ⊢
    have hsum : (n + 1).toNat = (n.toNat + 1) % 2 ^ 64 := UInt64.toNat_add n 1
    have hmod : (init.toNat - 1 + k) % (2 ^ 64 - 1) < 2 ^ 64 - 1 := Nat.mod_lt _ (by omega)
    have hstep : (init.toNat - 1 + (k + 1)) % (2 ^ 64 - 1) =
        ((init.toNat - 1 + k) % (2 ^ 64 - 1) + 1) % (2 ^ 64 - 1) := by
      rw [← Nat.add_assoc, Nat.mod_add_mod]
    rw [hstep, nextNumber]
    split
    · rename_i hwrap
      have hzero : (n + 1).toNat = 0 := by rw [hwrap]; rfl
      have hone : (1 : UInt64).toNat = 1 := rfl
      omega
    · rename_i hwrap
      have hne : (n + 1).toNat ≠ 0 := fun h => hwrap (UInt64.toNat_inj.mp h)
      omega

theorem iterate_nextNumber_ne {init : UInt64} (hinit : init ≠ 0) {i j : Nat} (hij : i < j)
    (hj : j < 2 ^ 64 - 1) : nextNumber^[i] init ≠ nextNumber^[j] init := by
  intro heq
  have hi := toNat_iterate_nextNumber hinit i
  have hj' := toNat_iterate_nextNumber hinit j
  rw [heq, hj'] at hi
  have hlt := init.toNat_lt
  have hm : ∀ a, a < 2 * (2 ^ 64 - 1) → a % (2 ^ 64 - 1) = a ∨ a % (2 ^ 64 - 1) + (2 ^ 64 - 1) = a := by
    omega
  rcases hm (init.toNat - 1 + i) (by omega) with h1 | h1 <;>
    rcases hm (init.toNat - 1 + j) (by omega) with h2 | h2 <;> omega

namespace Host

/-- The first number that an engine gives. -/
def firstNumber (config : EngineConfig) : UInt64 := max config.initialSessionNumber 1

theorem firstNumber_ne_zero (config : EngineConfig) : firstNumber config ≠ 0 := by
  have hmax : firstNumber config =
      if config.initialSessionNumber ≤ 1 then 1 else config.initialSessionNumber := rfl
  rw [hmax]
  split
  · decide
  · rename_i hle
    intro hzero
    exact hle (by rw [hzero]; decide)

/-- The requests of a host carry the numbers from the first one on. -/
structure Numbered (h : Host) : Prop where
  next : h.engine.nextSessionNumber =
    nextNumber^[h.requests.length] (firstNumber h.engine.config)
  sessions : ∀ (i : Nat) (r : Request), h.requests[i]? = some r →
    r.session = ⟨h.engine.config.engineId, nextNumber^[i] (firstNumber h.engine.config)⟩

theorem numbered_new (config : EngineConfig) : (new config).Numbered :=
  ⟨rfl, by simp [new]⟩

theorem Numbered.step {h : Host} (hnum : h.Numbered) (hown : h.engine.Owned) (c : Call) :
    (h.step c).Numbered := by
  have hkept : ∀ h' : Host, h'.engine.config = h.engine.config →
      h'.engine.nextSessionNumber = h.engine.nextSessionNumber → h'.requests = h.requests →
      h'.Numbered := by
    intro h' hconfig hnumber hrequests
    exact ⟨by rw [hconfig, hnumber, hrequests, hnum.next],
      by rw [hconfig, hrequests]; exact hnum.sessions⟩
  cases steps_step hown c with
  | same hsame _ _ _ hrequests => exact hkept _ hsame.config hsame.number hrequests
  | tick _ _ heq =>
    rw [heq]
    exact hkept (h.tick _) rfl rfl rfl
  | recv _ _ acts _ _ hrequests hnumber => exact hkept _ acts.config hnumber hrequests
  | @send sid trigger p n _ hcause acts _ _ hrequests hnumber =>
    cases trigger with
    | request peer t =>
      obtain ⟨-, -, rfl, -⟩ := hcause
      refine ⟨?_, fun i r hr => ?_⟩
      · rw [acts.config, hnumber, hrequests, List.length_append, requested, List.length_singleton,
          Function.iterate_succ_apply', ← hnum.next]
        rfl
      · rw [acts.config]
        rw [hrequests, requested, List.getElem?_append] at hr
        split at hr
        · exact hnum.sessions i r hr
        · rename_i hlen
          have hi : i = h.requests.length := by
            by_contra hne
            rw [List.getElem?_eq_none (by rw [List.length_singleton]; omega)] at hr
            cases hr
          subst hi
          simp only [Nat.sub_self, List.getElem?_cons_zero, Option.some.injEq] at hr
          rw [← hr, Engine.nextSessionId, hnum.next]
    | _ => exact hkept _ acts.config hnumber (by simpa [requested] using hrequests)

theorem Numbered.nodup {h : Host} (hnum : h.Numbered) (hlen : h.requests.length < 2 ^ 64) :
    (h.requests.map Request.session).Nodup := by
  rw [List.Nodup, List.pairwise_map, List.pairwise_iff_getElem]
  intro i j hi hj hij heq
  rw [hnum.sessions i _ (List.getElem?_eq_getElem hi),
    hnum.sessions j _ (List.getElem?_eq_getElem hj)] at heq
  exact iterate_nextNumber_ne (firstNumber_ne_zero _) hij (by omega)
    (congrArg SessionId.number heq)

/-- Requests are only added. -/
theorem requests_prefix_step {h : Host} (hown : h.engine.Owned) (c : Call) :
    h.requests <+: (h.step c).requests := by
  cases steps_step hown c with
  | same _ _ _ _ hrequests => rw [hrequests]
  | tick _ _ heq => rw [heq]; exact List.prefix_refl _
  | recv _ _ _ _ _ hrequests => rw [hrequests]
  | send _ _ _ _ _ hrequests => exact ⟨_, hrequests.symm⟩

/-- The sessions that a host has requested are distinct after the call. -/
def Distinct (h : Host) (c : Call) : Prop := ((h.step c).requests.map Request.session).Nodup

theorem requests_prefix_run {h : Host} (hown : h.engine.Owned) (calls : List Call) :
    h.requests <+: (h.run calls).requests := by
  induction calls generalizing h with
  | nil => exact List.prefix_refl _
  | cons c calls ih => exact (requests_prefix_step hown c).trans (ih (owned_step hown c))

/-- If the sessions requested in a run are distinct, they are so at each of its calls. -/
theorem along_distinct {h : Host} (hown : h.engine.Owned) {calls : List Call}
    (hids : ((h.run calls).requests.map Request.session).Nodup) :
    Trace.Along step Distinct h calls := by
  induction calls generalizing h with
  | nil => trivial
  | cons c calls ih =>
    have hown' := owned_step hown c
    have hfirst := (requests_prefix_run hown' calls).map Request.session
    exact ⟨hids.sublist hfirst.sublist, ih hown' hids⟩

theorem numbered_run {h : Host} (hown : h.engine.Owned) (hnum : h.Numbered) (calls : List Call) :
    (h.run calls).Numbered := by
  induction calls generalizing h with
  | nil => exact hnum
  | cons c calls ih => exact ih (owned_step hown c) (hnum.step hown c)

end Host

end HdyUtils.Ltp
