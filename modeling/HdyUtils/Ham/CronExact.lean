import HdyUtils.Ham.Cron

/-! When `next_after` is exact (`coordinator/cron.rs`).  The search starts at `after` cut down to the
whole second, or to the whole minute for an expression without seconds.  The cut time lies before
`after` unless nothing was cut off, and the search returns it if it matches. -/

namespace HdyUtils.Ham.CronExpr

open Calendar

/-- The nanoseconds of a day. -/
def day : Int := 86400000000000

variable {c : CronExpr} {t u x : DateTime} {limit : Int}

/-! ### Far from the end of the years -/

theorem endOfYears_le (h : 9999 < t.date.year) : endOfYears ≤ t.instant := by
  have hmono := daysBeforeYear_mono (show 10000 ≤ t.date.year by omega)
  have hbelow := t.date.number_bounds.2.2.1
  simp only [endOfYears, DateTime.instant, DateTime.seconds]
  omega

theorem endOfYears_le_of_checked (h : checked t = .overflow) : endOfYears ≤ t.instant := by
  unfold checked at h
  split at h
  · cases h
  · exact endOfYears_le (by omega)

/-- Only within a day of the end of the years can a pass overflow. -/
theorem endOfYears_le_of_overflow (h : c.advance t = .overflow) :
    endOfYears ≤ t.instant + day := by
  have hfields : (DateTime.mk t.date 0 0 0 t.nanosecond).instant ≤ t.instant ∧
      (DateTime.mk t.date t.hour 0 0 t.nanosecond).instant ≤ t.instant ∧
      (DateTime.mk t.date t.hour t.minute 0 t.nanosecond).instant ≤ t.instant := by
    simp only [DateTime.instant, DateTime.seconds, Fin.val_zero]
    omega
  unfold advance at h
  split at h
  · simp only [advanceMonth] at h
    split at h <;> cases h
  simp only [day]
  repeat' split at h
  · have hle := endOfYears_le_of_checked h
    rw [DateTime.instant_addDay] at hle
    omega
  · have hle := endOfYears_le_of_checked h
    rw [DateTime.instant_addDay] at hle
    omega
  · have hle := endOfYears_le_of_checked h
    rw [DateTime.instant_addHour] at hle
    omega
  · have hle := endOfYears_le_of_checked h
    rw [DateTime.instant_addMinute] at hle
    omega
  · have hle := endOfYears_le_of_checked h
    rw [DateTime.instant_addSecond] at hle
    omega
  · cases h

/-- The search ends without a panic. -/
theorem search_total (hfar : limit + day < endOfYears) (c : CronExpr) (t : DateTime) :
    ∃ r, c.search limit t = .ok r := by
  fun_induction search c limit t with
  | case1 t => exact ⟨some t, rfl⟩
  | case2 t hle t' hmoved ih => exact ih
  | case3 => exact ⟨none, rfl⟩
  | case4 t hle hoverflow =>
    have hend := endOfYears_le_of_overflow hoverflow
    omega
  | case5 => exact ⟨none, rfl⟩

theorem nextAfter_total (hfar : t.instant + horizon + day < endOfYears) (c : CronExpr) :
    ∃ r, c.nextAfter t = .ok r := by
  have hlimit : t.instant + horizon < endOfYears := by
    simp only [day] at hfar
    omega
  rw [nextAfter, if_pos hlimit]
  exact search_total hfar c _

/-! ### What the search should find -/

/-- A whole second from `t` up to the horizon that matches. -/
structure Candidate (c : CronExpr) (t u : DateTime) : Prop where
  whole : u.nanosecond = 0
  from_le : t.instant ≤ u.instant
  le_limit : u.instant ≤ t.instant + horizon
  fires : c.firesAt u = true

/-- `r` is the first of the times with `P` in the order `le`, and `none` if there are none. -/
def Selects (P : DateTime → Prop) (le : DateTime → DateTime → Prop) (r : Option DateTime) : Prop :=
  (∀ u, r = some u ↔ P u ∧ ∀ x, P x → le u x) ∧ (r = none ↔ ∀ u, ¬P u)

section Selects

variable {P : DateTime → Prop} {le : DateTime → DateTime → Prop}

theorem selects_some (hanti : ∀ u x, le u x → le x u → u = x) (hu : P u)
    (hfirst : ∀ x, P x → le u x) : Selects P le (some u) := by
  refine ⟨fun v => ⟨fun hv => ?_, fun hv => ?_⟩, fun hn => (by cases hn), fun hn => absurd hu (hn u)⟩
  · cases hv
    exact ⟨hu, hfirst⟩
  · exact congrArg some (hanti u v (hfirst v hv.1) (hv.2 u hu))

theorem selects_none (hnone : ∀ u, ¬P u) : Selects P le none :=
  ⟨fun u => ⟨fun hu => (by cases hu), fun hu => absurd hu.1 (hnone u)⟩, fun _ => hnone, fun _ => rfl⟩

end Selects

/-- `next_after` returns the least candidate, and `None` if there is none. -/
def NextExact (c : CronExpr) (t : DateTime) : Prop :=
  ∃ r, c.nextAfter t = .ok r ∧ Selects (c.Candidate t) (fun u x => u.instant ≤ x.instant) r

/-- A search that does not return a time before `t` is exact. -/
theorem nextExact_of_isNext {r : Option DateTime} (h : c.nextAfter t = .ok r)
    (hfrom : ∀ u, r = some u → t.instant ≤ u.instant) : c.NextExact t := by
  have hnext := isNext_of_nextAfter h
  have hstart := c.start_le t
  refine ⟨r, h, ?_⟩
  cases r with
  | none =>
    apply selects_none
    intro u hu
    have hmiss := hnext u (hstart.trans hu.from_le) hu.le_limit
    rw [hu.fires] at hmiss
    cases hmiss
  | some v =>
    obtain ⟨-, hlimit, hwhole, hfires, hfirst⟩ := hnext
    refine selects_some (fun u x hux hxu => DateTime.instant_injective (le_antisymm hux hxu))
      ⟨hwhole, hfrom v rfl, hlimit, hfires⟩ fun x hx => ?_
    by_contra hlt
    have hmiss := hfirst x (hstart.trans hx.from_le) (by omega)
    rw [hx.fires] at hmiss
    cases hmiss

/-- `next_after` is exact unless the time at which its search starts lies before `after` and matches:
it returns that time then. -/
theorem nextAfter_exact_iff (c : CronExpr) {t : DateTime}
    (hfar : t.instant + horizon + day < endOfYears) :
    c.NextExact t ↔ c.start t = t ∨ c.firesAt (c.start t) = false := by
  obtain ⟨r, hr⟩ := nextAfter_total hfar c
  constructor
  · rintro ⟨r', hr', hsome, _⟩
    by_contra hnot
    obtain ⟨hne, hfires⟩ := not_or.mp hnot
    have hstart := nextAfter_of_fires (Bool.not_eq_false _ ▸ hfires) hr'
    have hle := (((hsome _).mp hstart).1).from_le
    exact hne (DateTime.instant_injective (le_antisymm (c.start_le t) hle))
  · intro h
    apply nextExact_of_isNext hr
    rintro u rfl
    have hnext := isNext_of_nextAfter hr
    rcases h with heq | hmiss
    · have hfrom := hnext.1
      rwa [heq] at hfrom
    · refine le_of_fires hnext.2.2.1 hnext.2.2.2.1 (lt_of_le_of_ne hnext.1 fun heq => ?_)
      rw [DateTime.instant_injective heq, hnext.2.2.2.1] at hmiss
      cases hmiss

/-- The expression `* * * * * *`. -/
def everySecond : CronExpr := ⟨2 ^ 60 - 1, 2 ^ 60 - 1, 2 ^ 24 - 1, 2 ^ 32 - 2, 8190, 127⟩

theorem valid_juneFirst : 1 ≤ 6 ∧ 6 ≤ 12 ∧ 1 ≤ 1 ∧ 1 ≤ daysInMonth 2025 6 := by
  decide

/-- A time within the first second after a noon. -/
def pastNoon (nanosecond : Fin 1000000000) : DateTime :=
  ⟨⟨2025, 6, 1, valid_juneFirst⟩, 12, 0, 0, nanosecond⟩

theorem instant_pastNoon (nanosecond : Fin 1000000000) :
    (pastNoon nanosecond).instant = 63884462400000000000 + nanosecond.val := by
  have hnumber : (pastNoon nanosecond).date.number = 739403 := by
    change Date.number ⟨2025, 6, 1, _⟩ = 739403
    decide
  have hhour : (pastNoon nanosecond).hour.val = 12 := rfl
  rw [DateTime.instant, DateTime.seconds, hnumber, hhour]
  simp only [pastNoon, Fin.val_zero]
  omega

theorem pastNoon_far (nanosecond : Fin 1000000000) :
    (pastNoon nanosecond).instant + horizon + day < endOfYears := by
  rw [instant_pastNoon, horizon, endOfYears, daysBeforeYear, day]
  omega

theorem nextAfter_exact_noon : everySecond.NextExact (pastNoon 0) ↔
    everySecond.start (pastNoon 0) = pastNoon 0 ∨
      everySecond.firesAt (everySecond.start (pastNoon 0)) = false :=
  nextAfter_exact_iff everySecond (pastNoon_far 0)

/-- Half a second after noon, the next time of an expression that matches every second is noon. -/
theorem nextAfter_before_after :
    everySecond.nextAfter (pastNoon 500000000) = .ok (some (pastNoon 0)) ∧
      (pastNoon 0).instant < (pastNoon 500000000).instant ∧
      ¬everySecond.NextExact (pastNoon 500000000) := by
  have hlimit : (pastNoon 500000000).instant + horizon < endOfYears := by
    have hfar := pastNoon_far 500000000
    simp only [day] at hfar
    omega
  have hfires : everySecond.firesAt (pastNoon 0) = true := by decide
  have hnext : everySecond.nextAfter (pastNoon 500000000) = .ok (some (pastNoon 0)) :=
    nextAfter_eq_start hlimit hfires
  have hlt : (pastNoon 0).instant < (pastNoon 500000000).instant := by
    rw [instant_pastNoon, instant_pastNoon]
    decide
  refine ⟨hnext, hlt, ?_⟩
  rintro ⟨r, hr, hsome, _⟩
  rw [hnext] at hr
  cases hr
  have hfrom := (((hsome _).mp rfl).1).from_le
  omega

end HdyUtils.Ham.CronExpr
