import HdyUtils.Ham.Retention

/-! The expiry of what the chat and files services store (`chat_service.rs`, `files_service.rs`): the
creation time plus the lifetime, in 64-bit milliseconds that wrap around. -/

namespace HdyUtils.Ham

open Security

variable {E : Type}

/-- The instant lies in the years -9999 to 9999, as every instant of the time library. -/
def Representable (instant : Int) : Prop :=
  -377705116800000000000 ≤ instant ∧ instant < 253402300800000000000

instance (instant : Int) : Decidable (Representable instant) := inferInstanceAs (Decidable (_ ∧ _))

/-- The bundle with a lifetime of so many milliseconds. -/
def withLifetime (primary : PrimaryBlock E) (millis : UInt64) : PrimaryBlock E :=
  { primary with lifetime := millis.toNat * 1000000 }

/-- What is stored for a bundle with a lifetime of `millis` is right: the seconds of its lifetime, and
its expiry, which is capped at the greatest number, not before the creation, and not before the
expiry that a shorter lifetime gives. -/
structure SafeExpiry (creation : Int64) (millis : UInt64) (lifetimeSecs : UInt64)
    (expiry : UInt64 → Int64) : Prop where
  lifetime : lifetimeSecs.toInt64.toInt = (millis.toNat / 1000 : Nat)
  exact : (expiry millis).toInt =
    min (creation.toInt + (millis.toNat / 1000 : Nat) * 1000) Int64.maxValue.toInt
  ge_creation : creation ≤ expiry millis
  longer_later : ∀ shorter, shorter ≤ millis → expiry shorter ≤ expiry millis

section Times

variable (primary : PrimaryBlock E) (now : Int) (millis : UInt64)

theorem toInt_toInt64_ofNat {n : Nat} (h : n < 2 ^ 63) :
    (UInt64.ofNat n).toInt64.toInt = n := by
  have hsame : (UInt64.ofNat n).toInt64 = Int64.ofNat n := rfl
  rw [hsame, Int64.toInt_ofNat', Int.bmod_eq_of_le]
  · simp only [Int64.size]
    omega
  · simp only [Int64.size]
    omega

/-- The lifetime in seconds is far below the bound of a signed word. -/
theorem lifetimeSecs_toInt :
    (bundleTimes (withLifetime primary millis) now).2.1.toInt64.toInt =
      (millis.toNat / 1000 : Nat) := by
  have hlt := millis.toNat_lt
  have hsecs : millis.toNat * 1000000 / Duration.fromSecs 1 = millis.toNat / 1000 := by
    unfold Duration.fromSecs
    omega
  simp only [bundleTimes, withLifetime, hsecs]
  apply toInt_toInt64_ofNat
  omega

/-- The expiry, as a sum that wraps around. -/
theorem expiry_toInt :
    (bundleTimes (withLifetime primary millis) now).2.2.toInt =
      ((bundleTimes (withLifetime primary millis) now).1.toInt +
        (millis.toNat / 1000 : Nat) * 1000).bmod (2 ^ 64) := by
  have hsecs := lifetimeSecs_toInt primary now millis
  simp only [bundleTimes] at hsecs ⊢
  rw [Int64.toInt_add, Int64.toInt_mul, hsecs]
  simp

/-- A creation time in milliseconds is far from both bounds of a signed word. -/
theorem tdiv_bounds {instant : Int} (h : Representable instant) :
    -377705116800000 ≤ instant.tdiv 1000000 ∧ instant.tdiv 1000000 < 253402300800000 := by
  obtain ⟨hlow, hhigh⟩ := h
  rcases le_total 0 instant with hsign | hsign
  · rw [Int.tdiv_eq_ediv_of_nonneg hsign]
    omega
  · have hneg : instant.tdiv 1000000 = -(-instant).tdiv 1000000 := by
      rw [Int.neg_tdiv, neg_neg]
    rw [hneg, Int.tdiv_eq_ediv_of_nonneg (by omega)]
    omega

theorem creation_toInt (h : Representable (primary.timestamp.datetime.getD now)) :
    (bundleTimes primary now).1.toInt = (primary.timestamp.datetime.getD now).tdiv 1000000 := by
  have hbounds := tdiv_bounds h
  simp only [bundleTimes, Int64.toInt_ofInt]
  apply Int.bmod_eq_of_le
  · simp only [Int64.size]
    omega
  · simp only [Int64.size]
    omega

variable {primary now millis}

/-- Without overflow the expiry is the sum. -/
theorem expiry_eq_of_lt (h : Representable (primary.timestamp.datetime.getD now))
    (hlt : (bundleTimes primary now).1.toInt + (millis.toNat / 1000 : Nat) * 1000 < 2 ^ 63) :
    (bundleTimes (withLifetime primary millis) now).2.2.toInt =
      (bundleTimes primary now).1.toInt + (millis.toNat / 1000 : Nat) * 1000 := by
  have hbounds := tdiv_bounds h
  rw [← creation_toInt primary now h] at hbounds
  have hcreation : (bundleTimes (withLifetime primary millis) now).1 = (bundleTimes primary now).1 :=
    rfl
  rw [expiry_toInt, hcreation]
  apply Int.bmod_eq_of_le
  · omega
  · omega

/-- The stored expiry is right exactly if the sum of the creation time and the lifetime is a signed
word. -/
theorem safeExpiry_iff (millis : UInt64)
    (h : Representable (primary.timestamp.datetime.getD now)) :
    SafeExpiry (bundleTimes primary now).1 millis
        (bundleTimes (withLifetime primary millis) now).2.1
        (fun m => (bundleTimes (withLifetime primary m) now).2.2) ↔
      (bundleTimes primary now).1.toInt + (millis.toNat / 1000 : Nat) * 1000 < 2 ^ 63 := by
  have hbounds := tdiv_bounds h
  rw [← creation_toInt primary now h] at hbounds
  have hmax : Int64.maxValue.toInt = 2 ^ 63 - 1 := by decide
  have hmillis := millis.toNat_lt
  constructor
  · intro hsafe
    by_contra hover
    -- the sum wraps around once, to less than the greatest number
    have hexact := hsafe.exact
    rw [hmax, expiry_toInt] at hexact
    have hcreation : (bundleTimes (withLifetime primary millis) now).1 =
        (bundleTimes primary now).1 := rfl
    rw [hcreation, Int.bmod_def] at hexact
    omega
  · intro hlt
    have hsum := expiry_eq_of_lt h hlt
    refine ⟨lifetimeSecs_toInt primary now millis, ?_, ?_, fun shorter hle => ?_⟩
    · rw [hsum, hmax]
      omega
    · rw [Int64.le_iff_toInt_le, hsum]
      omega
    · have hshorter : shorter.toNat ≤ millis.toNat := hle
      rw [Int64.le_iff_toInt_le, hsum, expiry_eq_of_lt h (by omega)]
      omega

end Times

/-- What either service stores for a delivered bundle, whatever its lifetime, has the right expiry
exactly if the creation time and the whole seconds of the lifetime, in milliseconds, sum up to less
than 2 ^ 63. -/
theorem stored_expiry_safe_iff (p : Platform E) (filesDir : String) (primary : PrimaryBlock E)
    (payload : Bytes) (now : Int) (millis : UInt64)
    (h : Representable (primary.timestamp.datetime.getD now)) :
    (SafeExpiry (FilesService.record p filesDir primary payload now).creationTimestamp millis
        (FilesService.record p filesDir (withLifetime primary millis) payload now).lifetimeSecs
        (fun m => (FilesService.record p filesDir (withLifetime primary m) payload
          now).expiryTimestamp) ∧
      SafeExpiry (ChatService.message p primary payload now).timestamp millis
        (bundleTimes (withLifetime primary millis) now).2.1
        (fun m => (ChatService.message p (withLifetime primary m) payload now).expiryTimestamp)) ↔
      (primary.timestamp.datetime.getD now).tdiv 1000000 + (millis.toNat / 1000 : Nat) * 1000 <
        2 ^ 63 := by
  have hiff := safeExpiry_iff millis h
  rw [creation_toInt primary now h] at hiff
  rw [← hiff]
  exact ⟨fun hsafe => hsafe.1, fun hsafe => ⟨hsafe, hsafe⟩⟩

/-- A bundle of the year 2026. -/
def bundle2026 : PrimaryBlock String where
  source := "dtn://f4jxq/files"
  timestamp := ⟨some 1767225600000000000, 0⟩
  fragment := none
  flags := 0
  destination := "dtn://stata/files"
  reportTo := "dtn:none"
  lifetime := 0

/-- A lifetime of an hour. -/
theorem stored_expiry_safe_iff_hour :
    (SafeExpiry
        (FilesService.record plainPlatform "files" bundle2026 [7] 0).creationTimestamp 3600000
        (FilesService.record plainPlatform "files" (withLifetime bundle2026 3600000) [7] 0).lifetimeSecs
        (fun m => (FilesService.record plainPlatform "files" (withLifetime bundle2026 m) [7]
          0).expiryTimestamp) ∧
      SafeExpiry (ChatService.message plainPlatform bundle2026 [7] 0).timestamp 3600000
        (bundleTimes (withLifetime bundle2026 3600000) 0).2.1
        (fun m => (ChatService.message plainPlatform (withLifetime bundle2026 m) [7]
          0).expiryTimestamp)) ↔
      (1767225600000000000 : Int).tdiv 1000000 + ((3600000 : UInt64).toNat / 1000 : Nat) * 1000 <
        2 ^ 63 :=
  stored_expiry_safe_iff plainPlatform "files" bundle2026 [7] 0 3600000 (by decide)

/-- The greatest lifetime makes a file expire before it was created. -/
theorem greatest_lifetime_wraps :
    ¬SafeExpiry
      (FilesService.record plainPlatform "files" bundle2026 [7] 0).creationTimestamp
      18446744073709551615
      (FilesService.record plainPlatform "files" (withLifetime bundle2026 18446744073709551615) [7]
        0).lifetimeSecs
      (fun m => (FilesService.record plainPlatform "files" (withLifetime bundle2026 m) [7]
        0).expiryTimestamp) := by
  intro hsafe
  exact absurd hsafe.ge_creation (by decide)

end HdyUtils.Ham
