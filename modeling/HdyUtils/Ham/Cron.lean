import HdyUtils.Lib.Calendar

/-! Cron expressions (`coordinator/cron.rs`) and the search for their next firing instant, in UTC.  The
years go up to 9999, as in the time library. -/

namespace HdyUtils.Ham

open Calendar

/-- A cron expression, a bitset of matching values for each field. -/
structure CronExpr where
  second : Nat
  minute : Nat
  hour : Nat
  dom : Nat
  month : Nat
  dow : Nat
deriving DecidableEq

/-- The panic of a time that passes the year 9999. -/
structure Overflow where

/-- What one step of a search finds at a time: a match, a later time, or the end of the years, as a
failure or as a panic. -/
inductive Advance
  | found
  | moved (t : DateTime)
  | exhausted
  | overflow

namespace CronExpr

/-- `t`, as the result of an addition. -/
def checked (t : DateTime) : Advance := if t.date.year ≤ 9999 then .moved t else .overflow

def advanceMinute (t : DateTime) : Advance :=
  checked ({ t with second := 0 } : DateTime).addMinute

def advanceHour (t : DateTime) : Advance :=
  checked ({ t with second := 0, minute := 0 } : DateTime).addHour

def advanceDay (t : DateTime) : Advance :=
  checked ({ t with second := 0, minute := 0, hour := 0 } : DateTime).addDay

def advanceMonth (t : DateTime) : Advance :=
  let next : DateTime := { t with second := 0, minute := 0, hour := 0, date := t.date.nextMonth }
  if next.date.year ≤ 9999 then .moved next else .exhausted

/-- Whether anything other than only second 0 matches. -/
def hasSeconds (c : CronExpr) : Bool := c.second != 1

/-- All fields match. -/
def firesAt (c : CronExpr) (t : DateTime) : Bool :=
  c.month.testBit t.date.month && c.dom.testBit t.date.day && c.dow.testBit t.date.daysFromSunday &&
    c.hour.testBit t.hour.val && c.minute.testBit t.minute.val && c.second.testBit t.second.val

/-- One pass of the search. -/
def advance (c : CronExpr) (t : DateTime) : Advance :=
  if !c.month.testBit t.date.month then advanceMonth t
  else if !c.dom.testBit t.date.day then advanceDay t
  else if !c.dow.testBit t.date.daysFromSunday then advanceDay t
  else if !c.hour.testBit t.hour.val then advanceHour t
  else if !c.minute.testBit t.minute.val then advanceMinute t
  else if !c.second.testBit t.second.val then checked t.addSecond
  else .found

variable {c : CronExpr} {t t' x : DateTime}

/-! ### One pass -/

theorem checked_eq_moved (h : checked t = .moved t') : t' = t := by
  unfold checked at h
  split at h
  · cases h
    rfl
  · cases h

/-- A time between `t` and the next start of a unit has the fields of `t` down to that unit. -/
theorem same_of_between (hle : t.instant ≤ x.instant) :
    (x.instant < (t.date.number + 1) * 86400000000000 → x.date = t.date) ∧
    (x.instant < (t.date.number * 24 + t.hour.val + 1) * 3600000000000 →
      x.date = t.date ∧ x.hour = t.hour) ∧
    (x.instant < ((t.date.number * 24 + t.hour.val) * 60 + t.minute.val + 1) * 60000000000 →
      x.date = t.date ∧ x.hour = t.hour ∧ x.minute = t.minute) ∧
    (x.instant < (t.seconds + 1) * 1000000000 →
      x.date = t.date ∧ x.hour = t.hour ∧ x.minute = t.minute ∧ x.second = t.second) := by
  simp only [DateTime.instant, DateTime.seconds] at hle ⊢
  refine ⟨fun hlt => Date.number_injective (by omega), fun hlt => ?_, fun hlt => ?_, fun hlt => ?_⟩
  · exact ⟨Date.number_injective (by omega), Fin.ext (by omega)⟩
  · exact ⟨Date.number_injective (by omega), Fin.ext (by omega), Fin.ext (by omega)⟩
  · exact ⟨Date.number_injective (by omega), Fin.ext (by omega), Fin.ext (by omega),
      Fin.ext (by omega)⟩

/-- What a pass that moves from `t` to `t'` keeps. -/
structure Passes (c : CronExpr) (t t' : DateTime) : Prop where
  nanosecond : t'.nanosecond = 0
  misses : ∀ x : DateTime, t.instant ≤ x.instant → x.instant < t'.instant → c.firesAt x = false

theorem passes_month (hnano : t.nanosecond = 0) (hmonth : c.month.testBit t.date.month = false)
    (h : advanceMonth t = .moved t') : c.Passes t t' := by
  have hzero : t.nanosecond.val = 0 := by rw [hnano]; rfl
  simp only [advanceMonth] at h
  split at h
  · cases h
    have hinstant : DateTime.instant ⟨t.date.nextMonth, 0, 0, 0, t.nanosecond⟩ =
        t.date.nextMonth.number * 86400000000000 := by
      simp only [DateTime.instant, DateTime.seconds, Fin.val_zero, hzero]
      omega
    refine ⟨hnano, fun x hle hx => ?_⟩
    rw [hinstant] at hx
    simp only [DateTime.instant, DateTime.seconds] at hle hx
    obtain ⟨-, hsame⟩ : x.date.year = t.date.year ∧ x.date.month = t.date.month :=
      Date.month_eq_of_between (by omega) (by omega)
    simp [firesAt, hsame, hmonth]
  · cases h

theorem passes_day (hnano : t.nanosecond = 0)
    (hday : ∀ x : DateTime, x.date = t.date → c.firesAt x = false)
    (h : advanceDay t = .moved t') : c.Passes t t' := by
  have hzero : t.nanosecond.val = 0 := by rw [hnano]; rfl
  have hinstant : t'.instant = (t.date.number + 1) * 86400000000000 := by
    rw [checked_eq_moved h, DateTime.instant_addDay]
    simp only [DateTime.instant, DateTime.seconds, Fin.val_zero, hzero]
    omega
  refine ⟨?_, fun x hle hx => ?_⟩
  · rw [checked_eq_moved h]
    exact hnano
  · rw [hinstant] at hx
    exact hday x ((same_of_between hle).1 hx)

theorem passes_hour (hnano : t.nanosecond = 0) (hhour : c.hour.testBit t.hour.val = false)
    (h : advanceHour t = .moved t') : c.Passes t t' := by
  have hzero : t.nanosecond.val = 0 := by rw [hnano]; rfl
  have hinstant : t'.instant = (t.date.number * 24 + t.hour.val + 1) * 3600000000000 := by
    rw [checked_eq_moved h, DateTime.instant_addHour]
    simp only [DateTime.instant, DateTime.seconds, Fin.val_zero, hzero]
    omega
  refine ⟨?_, fun x hle hx => ?_⟩
  · rw [checked_eq_moved h, DateTime.nanosecond_addHour]
    exact hnano
  · rw [hinstant] at hx
    obtain ⟨-, hsame⟩ := (same_of_between hle).2.1 hx
    simp [firesAt, hsame, hhour]

theorem passes_minute (hnano : t.nanosecond = 0) (hminute : c.minute.testBit t.minute.val = false)
    (h : advanceMinute t = .moved t') : c.Passes t t' := by
  have hzero : t.nanosecond.val = 0 := by rw [hnano]; rfl
  have hinstant : t'.instant =
      ((t.date.number * 24 + t.hour.val) * 60 + t.minute.val + 1) * 60000000000 := by
    rw [checked_eq_moved h, DateTime.instant_addMinute]
    simp only [DateTime.instant, DateTime.seconds, Fin.val_zero, hzero]
    omega
  refine ⟨?_, fun x hle hx => ?_⟩
  · rw [checked_eq_moved h, DateTime.nanosecond_addMinute]
    exact hnano
  · rw [hinstant] at hx
    obtain ⟨-, -, hsame⟩ := (same_of_between hle).2.2.1 hx
    simp [firesAt, hsame, hminute]

theorem passes_second (hnano : t.nanosecond = 0) (hsecond : c.second.testBit t.second.val = false)
    (h : checked t.addSecond = .moved t') : c.Passes t t' := by
  have hzero : t.nanosecond.val = 0 := by rw [hnano]; rfl
  have hinstant : t'.instant = (t.seconds + 1) * 1000000000 := by
    rw [checked_eq_moved h, DateTime.instant_addSecond]
    simp only [DateTime.instant, hzero]
    omega
  refine ⟨?_, fun x hle hx => ?_⟩
  · rw [checked_eq_moved h, DateTime.nanosecond_addSecond]
    exact hnano
  · rw [hinstant] at hx
    obtain ⟨-, -, -, hsame⟩ := (same_of_between hle).2.2.2 hx
    simp [firesAt, hsame, hsecond]

/-- A pass of the search moves on, and passes no match. -/
theorem passes_advance (hnano : t.nanosecond = 0) (h : c.advance t = .moved t') :
    c.Passes t t' := by
  unfold advance at h
  split at h
  · next hmonth => exact passes_month hnano (by simpa using hmonth) h
  split at h
  · next hdom => exact passes_day hnano (fun x hx => by simp_all [firesAt]) h
  split at h
  · next hdow => exact passes_day hnano (fun x hx => by simp_all [firesAt]) h
  split at h
  · next hhour => exact passes_hour hnano (by simpa using hhour) h
  split at h
  · next hminute => exact passes_minute hnano (by simpa using hminute) h
  split at h
  · next hsecond => exact passes_second hnano (by simpa using hsecond) h
  · cases h

theorem advanceMonth_later (h : advanceMonth t = .moved t') : t.instant < t'.instant := by
  have hmonth := t.date.number_lt_nextMonth
  simp only [advanceMonth] at h
  split at h
  · cases h
    simp only [DateTime.instant, DateTime.seconds, Fin.val_zero]
    omega
  · cases h

/-- Every pass moves on. -/
theorem advance_later (h : c.advance t = .moved t') : t.instant < t'.instant := by
  have hfields : (DateTime.mk t.date 0 0 0 t.nanosecond).instant ≤ t.instant ∧
      t.instant < (DateTime.mk t.date 0 0 0 t.nanosecond).instant + 86400000000000 ∧
      t.instant < (DateTime.mk t.date t.hour 0 0 t.nanosecond).instant + 3600000000000 ∧
      t.instant < (DateTime.mk t.date t.hour t.minute 0 t.nanosecond).instant + 60000000000 := by
    simp only [DateTime.instant, DateTime.seconds, Fin.val_zero]
    omega
  unfold advance at h
  repeat' split at h
  · exact advanceMonth_later h
  · rw [checked_eq_moved h, DateTime.instant_addDay]
    exact hfields.2.1
  · rw [checked_eq_moved h, DateTime.instant_addDay]
    exact hfields.2.1
  · rw [checked_eq_moved h, DateTime.instant_addHour]
    exact hfields.2.2.1
  · rw [checked_eq_moved h, DateTime.instant_addMinute]
    exact hfields.2.2.2
  · rw [checked_eq_moved h, DateTime.instant_addSecond]
    omega
  · cases h

theorem advance_found_iff : c.advance t = .found ↔ c.firesAt t = true := by
  have hchecked (t : DateTime) : checked t ≠ .found := by
    unfold checked
    split <;> nofun
  have hmonth : advanceMonth t ≠ .found := by
    unfold advanceMonth
    simp only
    split <;> nofun
  unfold advance firesAt
  repeat' split
  all_goals simp_all [advanceDay, advanceHour, advanceMinute]

/-- A search is exhausted in a month that does not match, the last of the years. -/
theorem advance_exhausted (h : c.advance t = .exhausted) :
    c.month.testBit t.date.month = false ∧ 9999 < t.date.nextMonth.year := by
  have hchecked (t : DateTime) : checked t ≠ .exhausted := by
    unfold checked
    split <;> nofun
  unfold advance at h
  split at h
  · next hmonth =>
    refine ⟨by simpa using hmonth, ?_⟩
    simp only [advanceMonth] at h
    split at h
    · cases h
    · next hyear => omega
  · repeat' split at h
    all_goals first | exact absurd h (hchecked _) | cases h

/-! ### The search -/

/-- The passes of the search, up to `limit`. -/
def search (c : CronExpr) (limit : Int) (t : DateTime) : Except Overflow (Option DateTime) :=
  if t.instant ≤ limit then
    match _h : c.advance t with
    | .found => .ok (some t)
    | .moved t' => search c limit t'
    | .exhausted => .ok none
    | .overflow => .error {}
  else .ok none
termination_by (limit + 1 - t.instant).toNat
decreasing_by
  have hlater := advance_later _h
  omega

/-- Where the search starts: at the whole second, or minute. -/
def start (c : CronExpr) (after : DateTime) : DateTime :=
  if c.hasSeconds then { after with nanosecond := 0 } else { after with nanosecond := 0, second := 0 }

/-- How far the search goes: 4 times 366 days. -/
@[irreducible] def horizon : Int := 366 * 4 * 86400000000000

/-- The first instant past the year 9999. -/
@[irreducible] def endOfYears : Int := (daysBeforeYear 10000 + 1) * 86400000000000

/-- The next time at or after `after` that matches. -/
@[irreducible] def nextAfter (c : CronExpr) (after : DateTime) : Except Overflow (Option DateTime) :=
  if after.instant + horizon < endOfYears then c.search (after.instant + horizon) (c.start after)
  else .error {}

/-- `r` is the first match at or after `t`, up to `limit`; if it is `none`, there is none. -/
def IsNext (c : CronExpr) (limit : Int) (t : DateTime) (r : Option DateTime) : Prop :=
  match r with
  | some r => t.instant ≤ r.instant ∧ r.instant ≤ limit ∧ r.nanosecond = 0 ∧ c.firesAt r = true ∧
      ∀ x : DateTime, t.instant ≤ x.instant → x.instant < r.instant → c.firesAt x = false
  | none => ∀ x : DateTime, t.instant ≤ x.instant → x.instant ≤ limit → c.firesAt x = false

variable {limit : Int} {r : Option DateTime}

theorem IsNext.of_passes (hlater : t.instant < t'.instant) (hpass : c.Passes t t')
    (h : c.IsNext limit t' r) : c.IsNext limit t r := by
  cases r with
  | none =>
    intro x hle hx
    rcases lt_or_ge x.instant t'.instant with hlt | hge
    · exact hpass.misses x hle hlt
    · exact h x hge hx
  | some r =>
    obtain ⟨hfrom, hlimit, hnano, hfires, hleast⟩ := h
    refine ⟨by omega, hlimit, hnano, hfires, fun x hle hx => ?_⟩
    rcases lt_or_ge x.instant t'.instant with hlt | hge
    · exact hpass.misses x hle hlt
    · exact hleast x hge hx

theorem isNext_of_exhausted (hlimit : limit < endOfYears) (h : c.advance t = .exhausted) :
    c.IsNext limit t none := by
  obtain ⟨hmonth, hyear⟩ := advance_exhausted h
  intro x hle hx
  have hbelow : x.date.number < t.date.nextMonth.number := by
    have hstart := (t.date.nextMonth.number_bounds).2.2.1
    have hmono := daysBeforeYear_mono (show 10000 ≤ t.date.nextMonth.year by omega)
    simp only [endOfYears, DateTime.instant, DateTime.seconds] at hlimit hx
    omega
  have habove : t.date.number ≤ x.date.number := by
    simp only [DateTime.instant, DateTime.seconds] at hle
    omega
  obtain ⟨-, hsame⟩ := Date.month_eq_of_between habove hbelow
  simp [firesAt, hsame, hmonth]

/-- The search finds the first match. -/
theorem isNext_of_search (hlimit : limit < endOfYears) (hnano : t.nanosecond = 0)
    (h : c.search limit t = .ok r) : c.IsNext limit t r := by
  fun_induction search c limit t with
  | case1 t hle hfound =>
    cases h
    exact ⟨le_rfl, hle, hnano, advance_found_iff.mp hfound, fun x hx hx' => by omega⟩
  | case2 t hle t' hmoved ih =>
    have hpass := passes_advance hnano hmoved
    exact (ih hpass.nanosecond h).of_passes (advance_later hmoved) hpass
  | case3 t hle hexhausted =>
    cases h
    exact isNext_of_exhausted hlimit hexhausted
  | case4 => cases h
  | case5 t hlt =>
    cases h
    intro x hx hx'
    omega

theorem start_nanosecond (c : CronExpr) (t : DateTime) : (c.start t).nanosecond = 0 := by
  unfold start
  split <;> rfl

theorem start_le (c : CronExpr) (t : DateTime) : (c.start t).instant ≤ t.instant := by
  unfold start
  split
  all_goals
    simp only [DateTime.instant, DateTime.seconds, Fin.val_zero]
    omega

theorem isNext_of_nextAfter (h : c.nextAfter t = .ok r) :
    c.IsNext (t.instant + horizon) (c.start t) r := by
  unfold nextAfter at h
  split at h
  · next hlimit => exact isNext_of_search hlimit (start_nanosecond c t) h
  · cases h

/-- A search that starts at a match ends there. -/
theorem nextAfter_of_fires (hfires : c.firesAt (c.start t) = true) (h : c.nextAfter t = .ok r) :
    r = some (c.start t) := by
  have hnext := isNext_of_nextAfter h
  have hle := c.start_le t
  cases r with
  | none =>
    have hlimit : (c.start t).instant ≤ t.instant + horizon := by
      simp only [horizon]
      omega
    rw [hnext _ le_rfl hlimit] at hfires
    cases hfires
  | some r =>
    obtain ⟨hfrom, -, -, -, hleast⟩ := hnext
    rcases hfrom.lt_or_eq with hlt | heq
    · rw [hleast _ le_rfl hlt] at hfires
      cases hfires
    · rw [DateTime.instant_injective heq]

theorem nextAfter_eq_start (hlimit : t.instant + horizon < endOfYears)
    (hfires : c.firesAt (c.start t) = true) : c.nextAfter t = .ok (some (c.start t)) := by
  have hle := c.start_le t
  rw [nextAfter, if_pos hlimit, search, if_pos (by simp only [horizon]; omega)]
  split
  · rfl
  all_goals
    next h =>
      rw [advance_found_iff.mpr hfires] at h
      cases h

/-- What matches from the start of a search on, and not at the start, comes after the time. -/
theorem le_of_fires {x : DateTime} (hnano : x.nanosecond = 0) (hfires : c.firesAt x = true)
    (hlt : (c.start t).instant < x.instant) : t.instant ≤ x.instant := by
  have hzero : x.nanosecond.val = 0 := by rw [hnano]; rfl
  unfold start at hlt
  split at hlt
  · simp only [DateTime.instant, DateTime.seconds, Fin.val_zero, hzero] at hlt ⊢
    omega
  · next hseconds =>
    have hsecond : x.second.val = 0 := by
      have hbit : c.second = 1 := by simpa [hasSeconds] using hseconds
      simp only [firesAt, hbit, Bool.and_eq_true] at hfires
      exact Nat.testBit_one_eq_true_iff_self_eq_zero.mp hfires.2
    simp only [DateTime.instant, DateTime.seconds, Fin.val_zero, hzero, hsecond] at hlt ⊢
    omega

end CronExpr

end HdyUtils.Ham
