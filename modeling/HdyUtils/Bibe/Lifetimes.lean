import HdyUtils.Bibe.Forward

/-! The lifetimes that `dtnforward` gives to outer bundles, against the expiry of the bundles in
them. -/

namespace HdyUtils.Bibe

open Security

variable {E : Type} (hardy : Hardy E)

/-- What the bundle age block of a bundle says. -/
def bundleAge (bundle : Bundle E) : Option Duration := do
  let block ← bundle.blocks.find? fun b => b.2.blockType == .bundleAge
  let payload ← block.2.payload
  match hardy.tokens payload with
  | .uint millis :: _ => some (millis.toNat * 1000000)
  | _ => none

/-- When a bundle expires by its own account: by its creation time or, where its source has no clock,
by its age. -/
def expiryOf (bundle : Bundle E) (now : Int) : Option Int :=
  match bundle.primary.timestamp.datetime with
  | some createdAt => some (createdAt + bundle.primary.lifetime)
  | none => (bundleAge hardy bundle).map fun age : Duration => now - age + bundle.primary.lifetime

namespace ForwardService

variable (service : ForwardService E)

/-- The bundle is not dropped before an outer lifetime is chosen for it. -/
def wraps (data : Bytes) : Bool := service.admits hardy data && !service.tooDeep hardy data

/-- The outer bundle expires at most a second after the inner one, and an inner bundle that has
expired does not get the default lifetime. -/
def NeverExtends (data : Bytes) (now : Int) : Prop :=
  service.wraps hardy data = true → ∀ parsed expiry, hardy.parse data = .ok parsed →
    expiryOf hardy parsed.bundle now = some expiry →
      now + service.outerLifetime hardy data now ≤ expiry + Duration.fromSecs 1 ∧
        (expiry ≤ now →
          service.outerLifetime hardy data now ≠ .fromSecs service.lifetimeDefault)

/-- The bundle has a lifetime left that the forwarder sees, or the default is within it: a bundle of
the past has not used up its lifetime in whole seconds; one of the future has a lifetime, or is that
far off; one without a creation time is not as old as its lifetime, which leaves room for the
default. -/
def LifeLeft (bundle : Bundle E) (now : Int) : Prop :=
  match bundle.primary.timestamp.datetime with
  | some createdAt =>
    if createdAt ≤ now then
      Duration.fromSecs ((now - createdAt).toNat / Duration.fromSecs 1) < bundle.primary.lifetime
    else 0 < bundle.primary.lifetime ∨
      now + Duration.fromSecs service.lifetimeDefault ≤ createdAt + Duration.fromSecs 1
  | none => ∀ age, bundleAge hardy bundle = some age → age < bundle.primary.lifetime ∧
      Duration.fromSecs service.lifetimeDefault + age ≤
        bundle.primary.lifetime + Duration.fromSecs 1

end ForwardService

variable {hardy} {service : ForwardService E} {bundle : Bundle E} {now : Int}

/-! ### The remaining lifetime -/

theorem remaining_future {createdAt : Int} (hclock : bundle.primary.timestamp.datetime = some createdAt)
    (hfuture : now < createdAt) : getRemainingLifetime bundle now = some bundle.primary.lifetime := by
  unfold getRemainingLifetime
  rw [hclock]
  exact if_pos (by omega)

theorem remaining_past {createdAt : Int} (hclock : bundle.primary.timestamp.datetime = some createdAt)
    (hpast : createdAt ≤ now) :
    getRemainingLifetime bundle now =
      if .fromSecs ((now - createdAt).toNat / Duration.fromSecs 1) ≤ bundle.primary.lifetime then
        some (bundle.primary.lifetime -
          Duration.fromSecs ((now - createdAt).toNat / Duration.fromSecs 1))
      else none := by
  unfold getRemainingLifetime
  rw [hclock]
  exact if_neg (by omega)

theorem remaining_clockless (hclock : bundle.primary.timestamp.datetime = none) :
    getRemainingLifetime bundle now = none := by
  unfold getRemainingLifetime
  rw [hclock]

namespace ForwardService

variable {data : Bytes} {parsed : Parsed E}

theorem outerLifetime_eq (hlifetime : service.lifetime = none) (hparse : hardy.parse data = .ok parsed) :
    service.outerLifetime hardy data now =
      ((getRemainingLifetime parsed.bundle now).filter (0 < ·)).getD
        (.fromSecs service.lifetimeDefault) := by
  unfold outerLifetime
  rw [hlifetime, hparse]
  rfl

theorem outerLifetime_some (hlifetime : service.lifetime = none)
    (hparse : hardy.parse data = .ok parsed) {left : Duration}
    (hleft : getRemainingLifetime parsed.bundle now = some left) (hpos : 0 < left) :
    service.outerLifetime hardy data now = left := by
  rw [outerLifetime_eq hlifetime hparse, hleft, Option.filter_some, if_pos (decide_eq_true hpos)]
  rfl

/-- Where nothing is left, the outer bundle gets the default. -/
theorem outerLifetime_default (hlifetime : service.lifetime = none)
    (hparse : hardy.parse data = .ok parsed)
    (hnone : ∀ left, getRemainingLifetime parsed.bundle now = some left → left = 0) :
    service.outerLifetime hardy data now = .fromSecs service.lifetimeDefault := by
  rw [outerLifetime_eq hlifetime hparse]
  cases hleft : getRemainingLifetime parsed.bundle now with
  | none => rfl
  | some left =>
    obtain rfl := hnone left hleft
    rfl

/-! ### The three kinds of bundles -/

variable (service now) in
/-- The two parts of `NeverExtends`, for an outer lifetime and an expiry. -/
def Keeps (outer : Duration) (expiry : Int) : Prop :=
  now + outer ≤ expiry + Duration.fromSecs 1 ∧
    (expiry ≤ now → outer ≠ .fromSecs service.lifetimeDefault)

theorem keeps_past (hlifetime : service.lifetime = none) (hparse : hardy.parse data = .ok parsed)
    {createdAt : Int} (hclock : parsed.bundle.primary.timestamp.datetime = some createdAt)
    (hpast : createdAt ≤ now) :
    service.Keeps now (service.outerLifetime hardy data now)
        (createdAt + parsed.bundle.primary.lifetime) ↔
      Duration.fromSecs ((now - createdAt).toNat / Duration.fromSecs 1) <
        parsed.bundle.primary.lifetime := by
  have hremaining := remaining_past hclock hpast
  have hsecs : ∀ n, Duration.fromSecs n = n * 1000000000 := fun n => rfl
  have hage : ((now - createdAt).toNat : Int) = now - createdAt := Int.toNat_of_nonneg (by omega)
  by_cases hlt : Duration.fromSecs ((now - createdAt).toNat / Duration.fromSecs 1) <
      parsed.bundle.primary.lifetime
  · refine iff_of_true ?_ hlt
    rw [if_pos hlt.le] at hremaining
    rw [outerLifetime_some hlifetime hparse hremaining (Nat.sub_pos_of_lt hlt)]
    simp only [hsecs] at hlt ⊢
    constructor
    · simp only [hsecs]
      unfold Duration at *
      omega
    · -- what is left of an expired bundle is less than a second, and the default is whole seconds
      intro hexpired hdefault
      rw [hsecs] at hdefault
      unfold Duration at *
      omega
  · refine iff_of_false ?_ hlt
    have houter : service.outerLifetime hardy data now = .fromSecs service.lifetimeDefault := by
      apply outerLifetime_default hlifetime hparse
      intro left hleft
      rw [hremaining] at hleft
      split at hleft
      · cases hleft
        exact Nat.sub_eq_zero_of_le (Nat.le_of_not_lt hlt)
      · cases hleft
    intro hkeeps
    refine hkeeps.2 ?_ houter
    simp only [hsecs] at hlt
    unfold Duration at *
    omega

theorem keeps_future (hlifetime : service.lifetime = none) (hparse : hardy.parse data = .ok parsed)
    {createdAt : Int} (hclock : parsed.bundle.primary.timestamp.datetime = some createdAt)
    (hfuture : now < createdAt) :
    service.Keeps now (service.outerLifetime hardy data now)
        (createdAt + parsed.bundle.primary.lifetime) ↔
      0 < parsed.bundle.primary.lifetime ∨
        now + Duration.fromSecs service.lifetimeDefault ≤ createdAt + Duration.fromSecs 1 := by
  have hremaining := remaining_future hclock hfuture
  unfold Keeps
  rcases Nat.eq_zero_or_pos parsed.bundle.primary.lifetime with hzero | hpos
  · have houter : service.outerLifetime hardy data now = .fromSecs service.lifetimeDefault := by
      apply outerLifetime_default hlifetime hparse
      intro left hleft
      rw [hremaining] at hleft
      exact (Option.some.inj hleft).symm.trans hzero
    rw [houter, hzero]
    constructor
    · intro hkeeps
      exact .inr (by omega)
    · unfold Duration at *
      rintro (hpos | hle)
      · omega
      · exact ⟨by omega, fun hexpired => by omega⟩
  · rw [outerLifetime_some hlifetime hparse hremaining hpos]
    exact iff_of_true ⟨by omega, fun hexpired => by omega⟩ (.inl hpos)

theorem keeps_clockless (hlifetime : service.lifetime = none) (hparse : hardy.parse data = .ok parsed)
    (hclock : parsed.bundle.primary.timestamp.datetime = none) (age : Duration) :
    service.Keeps now (service.outerLifetime hardy data now)
        (now - age + parsed.bundle.primary.lifetime) ↔
      age < parsed.bundle.primary.lifetime ∧
        Duration.fromSecs service.lifetimeDefault + age ≤
          parsed.bundle.primary.lifetime + Duration.fromSecs 1 := by
  have houter : service.outerLifetime hardy data now = .fromSecs service.lifetimeDefault := by
    apply outerLifetime_default hlifetime hparse
    intro left hleft
    rw [remaining_clockless hclock] at hleft
    cases hleft
  unfold Keeps
  rw [houter]
  unfold Duration at *
  constructor
  · rintro ⟨hbound, hfresh⟩
    constructor
    · by_contra hold
      exact hfresh (by omega) rfl
    · omega
  · rintro ⟨hyoung, hroom⟩
    exact ⟨by omega, fun hexpired => by omega⟩

/-- `dtnforward` never extends the life of a bundle exactly if each bundle that it wraps has a lifetime
left that it sees, or one that the default does not exceed. -/
theorem never_extends_iff (hlifetime : service.lifetime = none) (data : Bytes) (now : Int) :
    service.NeverExtends hardy data now ↔
      (service.wraps hardy data = true → ∀ parsed, hardy.parse data = .ok parsed →
        service.LifeLeft hardy parsed.bundle now) := by
  apply imp_congr Iff.rfl
  apply forall_congr'
  intro parsed
  rw [forall_comm]
  apply forall_congr'
  intro hparse
  show (∀ expiry, expiryOf hardy parsed.bundle now = some expiry →
    service.Keeps now (service.outerLifetime hardy data now) expiry) ↔ _
  unfold expiryOf LifeLeft
  cases hclock : parsed.bundle.primary.timestamp.datetime with
  | some createdAt =>
    simp only [Option.some.injEq, forall_eq']
    split
    · next hpast => exact keeps_past hlifetime hparse hclock hpast
    · next hfuture => exact keeps_future hlifetime hparse hclock (by omega)
  | none =>
    simp only [Option.map_eq_some_iff]
    constructor
    · intro hkeeps age hage
      exact (keeps_clockless hlifetime hparse hclock age).mp (hkeeps _ ⟨age, hage, rfl⟩)
    · rintro hleft expiry ⟨age, hage, rfl⟩
      exact (keeps_clockless hlifetime hparse hclock age).mpr (hleft age hage)

end ForwardService

/-- Bundles that are the octet that opens an indefinite array, and the payload, created at the start of
the time of the machine with a lifetime of an hour. -/
def hourHardy : Hardy String :=
  { plainHardy with
    parse := fun data => (plainHardy.parse data).map fun parsed =>
      { parsed with bundle := { parsed.bundle with primary := { parsed.bundle.primary with
          timestamp := ⟨some 0, 0⟩
          lifetime := Duration.fromSecs 3600 } } } }

/-- Half an hour after the bundle was created. -/
theorem never_extends_iff_half_hour :
    (plainForwarder 10 true).NeverExtends hourHardy [0x9F, 7] 1800000000000 ↔
      ((plainForwarder 10 true).wraps hourHardy [0x9F, 7] = true →
        ∀ parsed, hourHardy.parse [0x9F, 7] = .ok parsed →
          (plainForwarder 10 true).LifeLeft hourHardy parsed.bundle 1800000000000) :=
  ForwardService.never_extends_iff rfl [0x9F, 7] 1800000000000

/-- A bundle that expired an hour ago is wrapped with a lifetime of another hour. -/
theorem expired_bundle_gets_default :
    ¬(plainForwarder 10 true).NeverExtends hourHardy [0x9F, 7] 7200000000000 := by
  intro hnever
  have hwraps : (plainForwarder 10 true).wraps hourHardy [0x9F, 7] = true := by decide
  obtain ⟨-, hfresh⟩ := hnever hwraps _ 3600000000000 rfl rfl
  exact hfresh (by decide) (by decide)

end HdyUtils.Bibe
