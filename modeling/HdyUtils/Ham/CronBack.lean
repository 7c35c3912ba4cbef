import HdyUtils.Lib.CalendarBack
import HdyUtils.Ham.CronExact

/-! The search of `prev_before` for the last firing instant (`coordinator/cron.rs`).  A month that does
not match is left by putting the month before in its place while the old day is still there; where
that month is shorter than the old day, there is no such date and the search gives up. -/

namespace HdyUtils.Ham.CronExpr

open Calendar

/-! ### The passes -/

/-- `replace_month`, which fails if the date does not exist, as the other two do. -/
def replaceMonth (d : Date) (month : Nat) : Option Date := Date.ofParts? d.year month d.day

def replaceYear (d : Date) (year : Int) : Option Date :=
  if -9999 ≤ year ∧ year ≤ 9999 then Date.ofParts? year d.month d.day else none

def replaceDay (d : Date) (day : Nat) : Option Date := Date.ofParts? d.year d.month day

/-- `t`, as the result of a subtraction. -/
def checkedBack (t : DateTime) : Advance := if -9999 ≤ t.date.year then .moved t else .overflow

def retreatMinute (t : DateTime) : Advance :=
  checkedBack ({ t with second := 59 } : DateTime).subMinute

def retreatHour (t : DateTime) : Advance :=
  checkedBack ({ t with second := 59, minute := 59 } : DateTime).subHour

def retreatDay (t : DateTime) : Advance :=
  checkedBack ({ t with second := 59, minute := 59, hour := 23 } : DateTime).subDay

/-- The last day of the month before, by way of the old day in that month. -/
def monthBefore (d : Date) : Option Date := do
  let month := if d.month = 1 then 12 else d.month - 1
  let year := if month = 12 then d.year - 1 else d.year
  let lastDay := daysInMonth year month
  let d ← replaceMonth d month
  let d ← replaceYear d year
  replaceDay d lastDay

def retreatMonth (t : DateTime) : Advance :=
  match monthBefore t.date with
  | some date => .moved { t with date := date, hour := 23, minute := 59, second := 59 }
  | none => .exhausted

/-- One pass of the search. -/
def retreat (c : CronExpr) (t : DateTime) : Advance :=
  if !c.month.testBit t.date.month then retreatMonth t
  else if !c.dom.testBit t.date.day then retreatDay t
  else if !c.dow.testBit t.date.daysFromSunday then retreatDay t
  else if !c.hour.testBit t.hour.val then retreatHour t
  else if !c.minute.testBit t.minute.val then retreatMinute t
  else if !c.second.testBit t.second.val then checkedBack t.subSecond
  else .found

variable {c : CronExpr} {t t' u x : DateTime} {limit : Int}

/-! ### One pass -/

theorem checkedBack_eq_moved (h : checkedBack t = .moved t') : t' = t := by
  unfold checkedBack at h
  split at h
  · cases h
    rfl
  · cases h

/-- The month before the date is shorter than its day. -/
def Overlong (d : Date) : Prop := 1 < d.month ∧ daysInMonth d.year (d.month - 1) < d.day

instance (d : Date) : Decidable (Overlong d) := inferInstanceAs (Decidable (_ ∧ _))

/-- Leaving a month fails exactly at an overlong date. -/
theorem monthBefore_eq {d : Date} (hlow : -9999 ≤ d.prevMonth.year) (hhigh : d.year ≤ 9999) :
    monthBefore d = if Overlong d then none else some d.prevMonth := by
  obtain ⟨hmonth, hmonth', hday, hlast⟩ := d.valid
  rcases Nat.lt_or_eq_of_le hmonth with hlater | hfirst
  · have hprev : d.prevMonth = ⟨d.year, d.month - 1, daysInMonth d.year (d.month - 1), by omega,
        by omega, le_trans (by omega) (daysInMonth_pos d.year (d.month - 1)), le_rfl⟩ :=
      dif_pos hlater
    rw [hprev] at hlow
    simp only [monthBefore, show d.month ≠ 1 by omega, show d.month - 1 ≠ 12 by omega, if_false]
    by_cases hlong : daysInMonth d.year (d.month - 1) < d.day
    · have hnone : replaceMonth d (d.month - 1) = none := dif_neg fun h => by
        have hfits := h.2.2.2
        omega
      rw [hnone, if_pos ⟨hlater, hlong⟩]
      rfl
    · have hfits : 1 ≤ d.month - 1 ∧ d.month - 1 ≤ 12 ∧ 1 ≤ d.day ∧
          d.day ≤ daysInMonth d.year (d.month - 1) := ⟨by omega, by omega, hday, by omega⟩
      have hdate : replaceMonth d (d.month - 1) = some ⟨d.year, d.month - 1, d.day, hfits⟩ :=
        dif_pos hfits
      have hyear : replaceYear ⟨d.year, d.month - 1, d.day, hfits⟩ d.year =
          some ⟨d.year, d.month - 1, d.day, hfits⟩ := by
        rw [replaceYear, if_pos ⟨hlow, hhigh⟩]
        exact dif_pos hfits
      rw [if_neg fun h => hlong h.2, hprev]
      simp only [hdate, hyear, Option.bind_eq_bind, Option.bind_some]
      exact dif_pos _
  · -- December has the days of January
    have hprev : d.prevMonth = ⟨d.year - 1, 12, 31, by omega, le_rfl, by omega, le_rfl⟩ :=
      dif_neg (by omega)
    have hdays : d.day ≤ 31 := by
      rw [← hfirst] at hlast
      exact hlast
    have hfits : ∀ year, 1 ≤ 12 ∧ 12 ≤ 12 ∧ 1 ≤ d.day ∧ d.day ≤ daysInMonth year 12 :=
      fun _ => ⟨by omega, le_rfl, hday, hdays⟩
    rw [hprev] at hlow
    simp only [monthBefore, ← hfirst, if_true]
    have hdate : replaceMonth d 12 = some ⟨d.year, 12, d.day, hfits d.year⟩ := dif_pos (hfits d.year)
    have hyear : replaceYear ⟨d.year, 12, d.day, hfits d.year⟩ (d.year - 1) =
        some ⟨d.year - 1, 12, d.day, hfits (d.year - 1)⟩ := by
      rw [replaceYear, if_pos ⟨hlow, by omega⟩]
      exact dif_pos (hfits (d.year - 1))
    rw [if_neg fun h : Overlong d => absurd h.1 (by omega), hprev]
    simp only [hdate, hyear, Option.bind_eq_bind, Option.bind_some]
    unfold replaceDay Date.ofParts?
    exact dif_pos ⟨by simp, le_rfl, by simp [daysInMonth], le_rfl⟩

/-- A time at or before `t` and not before the start of a unit has the fields of `t` down to that
unit. -/
theorem same_of_after (hle : x.instant ≤ t.instant) :
    (t.date.number * 86400000000000 ≤ x.instant → x.date = t.date) ∧
    ((t.date.number * 24 + t.hour.val) * 3600000000000 ≤ x.instant →
      x.date = t.date ∧ x.hour = t.hour) ∧
    (((t.date.number * 24 + t.hour.val) * 60 + t.minute.val) * 60000000000 ≤ x.instant →
      x.date = t.date ∧ x.hour = t.hour ∧ x.minute = t.minute) ∧
    (t.seconds * 1000000000 ≤ x.instant →
      x.date = t.date ∧ x.hour = t.hour ∧ x.minute = t.minute ∧ x.second = t.second) := by
  simp only [DateTime.instant, DateTime.seconds] at hle ⊢
  refine ⟨fun hge => Date.number_injective (by omega), fun hge => ?_, fun hge => ?_, fun hge => ?_⟩
  · exact ⟨Date.number_injective (by omega), Fin.ext (by omega)⟩
  · exact ⟨Date.number_injective (by omega), Fin.ext (by omega), Fin.ext (by omega)⟩
  · exact ⟨Date.number_injective (by omega), Fin.ext (by omega), Fin.ext (by omega),
      Fin.ext (by omega)⟩

/-- What a pass that moves back from `t` to `t'` keeps. -/
structure Retreats (c : CronExpr) (t t' : DateTime) : Prop where
  nanosecond : t'.nanosecond = 0
  earlier : t'.instant < t.instant
  misses : ∀ x : DateTime, x.nanosecond = 0 → t'.instant < x.instant → x.instant ≤ t.instant →
    c.firesAt x = false
  date : t'.date = t.date.prevMonth ∧ ¬Overlong t.date ∨
    (t'.date = t.date ∨ t'.date = t.date.prev) ∧ c.month.testBit t.date.month = true

/-- The time `t'` is the last second before a unit that starts at `start` and holds no match. -/
theorem misses_of_start (start : Int) (hstart : t'.instant = (start - 1) * 1000000000)
    (hunit : ∀ x : DateTime, x.instant ≤ t.instant → start * 1000000000 ≤ x.instant →
      c.firesAt x = false) (x : DateTime) (hnano : x.nanosecond = 0)
    (hlt : t'.instant < x.instant) (hle : x.instant ≤ t.instant) : c.firesAt x = false := by
  have hzero : x.nanosecond.val = 0 := by rw [hnano]; rfl
  refine hunit x hle ?_
  rw [hstart] at hlt
  simp only [DateTime.instant, hzero] at hlt ⊢
  omega

theorem date_subHour (t : DateTime) : t.subHour.date = t.date ∨ t.subHour.date = t.date.prev := by
  unfold DateTime.subHour
  split
  · exact .inl rfl
  · exact .inr rfl

theorem date_subMinute (t : DateTime) :
    t.subMinute.date = t.date ∨ t.subMinute.date = t.date.prev := by
  unfold DateTime.subMinute
  split
  · exact .inl rfl
  · exact date_subHour t

theorem date_subSecond (t : DateTime) :
    t.subSecond.date = t.date ∨ t.subSecond.date = t.date.prev := by
  unfold DateTime.subSecond
  split
  · exact .inl rfl
  · exact date_subMinute t

theorem retreats_month (hnano : t.nanosecond = 0)
    (hmonth : c.month.testBit t.date.month = false) (hfits : ¬Overlong t.date) :
    c.Retreats t { t with date := t.date.prevMonth, hour := 23, minute := 59, second := 59 } := by
  have hzero : t.nanosecond.val = 0 := by rw [hnano]; rfl
  have hhour : ((23 : Fin 24) : Nat) = 23 := rfl
  have hlast : ((59 : Fin 60) : Nat) = 59 := rfl
  have hbelow := t.date.number_prevMonth_lt
  refine ⟨hnano, ?_, ?_, .inl ⟨rfl, hfits⟩⟩
  · simp only [DateTime.instant, DateTime.seconds, hhour, hlast]
    omega
  · refine misses_of_start ((t.date.prevMonth.number + 1) * 86400) ?_ fun x hle hge => ?_
    · simp only [DateTime.instant, DateTime.seconds, hhour, hlast, hzero]
      omega
    · simp only [DateTime.instant, DateTime.seconds] at hle hge
      obtain ⟨-, hsame⟩ : x.date.year = t.date.year ∧ x.date.month = t.date.month :=
        Date.month_eq_of_after_prevMonth (by omega) (by omega)
      simp [firesAt, hsame, hmonth]

section Units

variable (hnano : t.nanosecond = 0) (hmonth : c.month.testBit t.date.month = true)
include hnano hmonth

theorem retreats_day (hday : ∀ x : DateTime, x.date = t.date → c.firesAt x = false)
    (h : retreatDay t = .moved t') : c.Retreats t t' := by
  have hzero : t.nanosecond.val = 0 := by rw [hnano]; rfl
  have hhour : ((23 : Fin 24) : Nat) = 23 := rfl
  have hlast : ((59 : Fin 60) : Nat) = 59 := rfl
  obtain rfl := checkedBack_eq_moved h
  have hinstant : DateTime.instant (DateTime.subDay ⟨t.date, 23, 59, 59, t.nanosecond⟩) =
      (t.date.number * 86400 - 1) * 1000000000 := by
    rw [DateTime.instant_subDay]
    simp only [DateTime.instant, DateTime.seconds, hhour, hlast, hzero]
    omega
  refine ⟨hnano, ?_, misses_of_start _ hinstant fun x hle hge => ?_, .inr ⟨.inr rfl, hmonth⟩⟩
  · rw [hinstant]
    simp only [DateTime.instant, DateTime.seconds]
    omega
  · exact hday x ((same_of_after hle).1 (by omega))

theorem retreats_hour (hhour : c.hour.testBit t.hour.val = false)
    (h : retreatHour t = .moved t') : c.Retreats t t' := by
  have hzero : t.nanosecond.val = 0 := by rw [hnano]; rfl
  have hlast : ((59 : Fin 60) : Nat) = 59 := rfl
  obtain rfl := checkedBack_eq_moved h
  have hinstant : DateTime.instant (DateTime.subHour ⟨t.date, t.hour, 59, 59, t.nanosecond⟩) =
      ((t.date.number * 24 + t.hour.val) * 3600 - 1) * 1000000000 := by
    rw [DateTime.instant_subHour]
    simp only [DateTime.instant, DateTime.seconds, hlast, hzero]
    omega
  refine ⟨(DateTime.nanosecond_subHour _).trans hnano, ?_,
    misses_of_start _ hinstant fun x hle hge => ?_, .inr ⟨date_subHour _, hmonth⟩⟩
  · rw [hinstant]
    simp only [DateTime.instant, DateTime.seconds]
    omega
  · obtain ⟨-, hsame⟩ := (same_of_after hle).2.1 (by omega)
    simp [firesAt, hsame, hhour]

theorem retreats_minute (hminute : c.minute.testBit t.minute.val = false)
    (h : retreatMinute t = .moved t') : c.Retreats t t' := by
  have hzero : t.nanosecond.val = 0 := by rw [hnano]; rfl
  have hlast : ((59 : Fin 60) : Nat) = 59 := rfl
  obtain rfl := checkedBack_eq_moved h
  have hinstant :
      DateTime.instant (DateTime.subMinute ⟨t.date, t.hour, t.minute, 59, t.nanosecond⟩) =
        (((t.date.number * 24 + t.hour.val) * 60 + t.minute.val) * 60 - 1) * 1000000000 := by
    rw [DateTime.instant_subMinute]
    simp only [DateTime.instant, DateTime.seconds, hlast, hzero]
    omega
  refine ⟨(DateTime.nanosecond_subMinute _).trans hnano, ?_,
    misses_of_start _ hinstant fun x hle hge => ?_, .inr ⟨date_subMinute _, hmonth⟩⟩
  · rw [hinstant]
    simp only [DateTime.instant, DateTime.seconds]
    omega
  · obtain ⟨-, -, hsame⟩ := (same_of_after hle).2.2.1 (by omega)
    simp [firesAt, hsame, hminute]

theorem retreats_second (hsecond : c.second.testBit t.second.val = false)
    (h : checkedBack t.subSecond = .moved t') : c.Retreats t t' := by
  have hzero : t.nanosecond.val = 0 := by rw [hnano]; rfl
  obtain rfl := checkedBack_eq_moved h
  have hinstant : t.subSecond.instant = (t.seconds - 1) * 1000000000 := by
    rw [DateTime.instant_subSecond]
    simp only [DateTime.instant, hzero]
    omega
  refine ⟨(DateTime.nanosecond_subSecond t).trans hnano, ?_,
    misses_of_start _ hinstant fun x hle hge => ?_, .inr ⟨date_subSecond t, hmonth⟩⟩
  · rw [DateTime.instant_subSecond]
    omega
  · obtain ⟨-, -, -, hsame⟩ := (same_of_after hle).2.2.2 hge
    simp [firesAt, hsame, hsecond]

end Units

/-- What a pass finds at a whole second `t`. -/
inductive Pass (c : CronExpr) (t : DateTime) : Advance → Prop
  | found (hfires : c.firesAt t = true) : Pass c t .found
  | moved (t' : DateTime) (hback : c.Retreats t t') : Pass c t (.moved t')
  | stuck (hmonth : c.month.testBit t.date.month = false) (hlong : Overlong t.date) :
      Pass c t .exhausted
  | overflow (t' : DateTime) (hyear : t'.date.year < -9999)
      (hnear : t.instant - day ≤ t'.instant) : Pass c t .overflow

/-- A subtraction of less than a day from `t` moves there, or leaves the years. -/
theorem pass_checkedBack (hmoved : ∀ t'', checkedBack t' = .moved t'' → c.Retreats t t'')
    (hnear : t.instant - day ≤ t'.instant) : c.Pass t (checkedBack t') := by
  cases hback : checkedBack t' with
  | found =>
    unfold checkedBack at hback
    split at hback <;> cases hback
  | moved t'' => exact .moved t'' (hmoved t'' hback)
  | exhausted =>
    unfold checkedBack at hback
    split at hback <;> cases hback
  | overflow =>
    unfold checkedBack at hback
    split at hback
    · cases hback
    · exact .overflow t' (by omega) hnear

theorem pass_retreat (hnano : t.nanosecond = 0) (hlow : -9999 ≤ t.date.prevMonth.year)
    (hhigh : t.date.year ≤ 9999) : c.Pass t (c.retreat t) := by
  have hhour : ((23 : Fin 24) : Nat) = 23 := rfl
  have hlast : ((59 : Fin 60) : Nat) = 59 := rfl
  unfold retreat
  split
  · next hmonth =>
    have hmonth : c.month.testBit t.date.month = false := by simpa using hmonth
    unfold retreatMonth
    rw [monthBefore_eq hlow hhigh]
    by_cases hlong : Overlong t.date
    · rw [if_pos hlong]
      exact .stuck hmonth hlong
    · rw [if_neg hlong]
      exact .moved _ (retreats_month hnano hmonth hlong)
  next hmonth =>
  have hmonth : c.month.testBit t.date.month = true := by simpa using hmonth
  have hnear : t.instant - day ≤ (DateTime.subDay ⟨t.date, 23, 59, 59, t.nanosecond⟩).instant ∧
      t.instant - day ≤ (DateTime.subHour ⟨t.date, t.hour, 59, 59, t.nanosecond⟩).instant ∧
      t.instant - day ≤ (DateTime.subMinute ⟨t.date, t.hour, t.minute, 59, t.nanosecond⟩).instant ∧
      t.instant - day ≤ t.subSecond.instant := by
    rw [DateTime.instant_subDay, DateTime.instant_subHour, DateTime.instant_subMinute,
      DateTime.instant_subSecond]
    simp only [DateTime.instant, DateTime.seconds, hhour, hlast, day]
    omega
  split
  · next hdom =>
    refine pass_checkedBack (fun t'' => retreats_day hnano hmonth fun x hx => ?_) hnear.1
    simp_all [firesAt]
  split
  · next hdow =>
    refine pass_checkedBack (fun t'' => retreats_day hnano hmonth fun x hx => ?_) hnear.1
    simp_all [firesAt]
  split
  · next hhour =>
    exact pass_checkedBack (fun t'' => retreats_hour hnano hmonth (by simpa using hhour)) hnear.2.1
  split
  · next hminute =>
    exact pass_checkedBack (fun t'' => retreats_minute hnano hmonth (by simpa using hminute))
      hnear.2.2.1
  split
  · next hsecond =>
    exact pass_checkedBack (fun t'' => retreats_second hnano hmonth (by simpa using hsecond))
      hnear.2.2.2
  · next hdom hdow hhour hminute hsecond =>
    refine .found ?_
    simp_all [firesAt]

/-! ### The search -/

theorem ofParts?_some {year : Int} {month n : Nat} {d : Date}
    (h : Date.ofParts? year month n = some d) : d.year = year ∧ d.month = month ∧ d.day = n := by
  unfold Date.ofParts? at h
  split at h
  · cases h
    exact ⟨rfl, rfl, rfl⟩
  · cases h

/-- Leaving a month, if it does not fail, goes to the month before. -/
theorem monthBefore_lt {d d' : Date} (h : monthBefore d = some d') : d'.number < d.number := by
  have hmonth := d.valid
  simp only [monthBefore, Option.bind_eq_bind, Option.bind_eq_some_iff] at h
  obtain ⟨a, ha, b, hb, hd'⟩ := h
  have hyear : b.year = (if (if d.month = 1 then 12 else d.month - 1) = 12 then d.year - 1
      else d.year) ∧ b.month = a.month := by
    unfold replaceYear at hb
    rw [Option.ite_none_right_eq_some] at hb
    exact ⟨(ofParts?_some hb.2).1, (ofParts?_some hb.2).2.1⟩
  obtain ⟨-, ha, -⟩ := ofParts?_some ha
  obtain ⟨hyear', hmonth', -⟩ := ofParts?_some hd'
  apply Date.number_lt
  rw [hyear', hmonth', hyear.1, hyear.2, ha]
  by_cases hfirst : d.month = 1
  · rw [if_pos hfirst, if_pos rfl]
    exact .inl (by omega)
  · rw [if_neg hfirst, if_neg (by omega)]
    exact .inr ⟨rfl, .inl (by omega)⟩

/-- Every pass moves back. -/
theorem retreat_earlier (h : c.retreat t = .moved t') : t'.instant < t.instant := by
  have hlast : ((59 : Fin 60) : Nat) = 59 := rfl
  have hhour : ((23 : Fin 24) : Nat) = 23 := rfl
  unfold retreat at h
  split at h
  · unfold retreatMonth at h
    split at h
    · next date hdate =>
      have hlt := monthBefore_lt hdate
      cases h
      simp only [DateTime.instant, DateTime.seconds, hhour, hlast]
      omega
    · cases h
  repeat' split at h
  · rw [checkedBack_eq_moved h, DateTime.instant_subDay]
    simp only [DateTime.instant, DateTime.seconds, hhour, hlast]
    omega
  · rw [checkedBack_eq_moved h, DateTime.instant_subDay]
    simp only [DateTime.instant, DateTime.seconds, hhour, hlast]
    omega
  · rw [checkedBack_eq_moved h, DateTime.instant_subHour]
    simp only [DateTime.instant, DateTime.seconds, hlast]
    omega
  · rw [checkedBack_eq_moved h, DateTime.instant_subMinute]
    simp only [DateTime.instant, DateTime.seconds, hlast]
    omega
  · rw [checkedBack_eq_moved h, DateTime.instant_subSecond]
    omega
  · cases h

/-- The passes of the search, down to `limit`. -/
def searchBack (c : CronExpr) (limit : Int) (t : DateTime) : Except Overflow (Option DateTime) :=
  if limit ≤ t.instant then
    match _h : c.retreat t with
    | .found => .ok (some t)
    | .moved t' => searchBack c limit t'
    | .exhausted => .ok none
    | .overflow => .error {}
  else .ok none
termination_by (t.instant + 1 - limit).toNat
decreasing_by
  have hearlier := retreat_earlier _h
  omega

/-- The first instant of the year -9999. -/
@[irreducible] def startOfYears : Int := (daysBeforeYear (-9999) + 1) * 86400000000000

/-- The last time at or before `before` that matches. -/
@[irreducible] def prevBefore (c : CronExpr) (before : DateTime) :
    Except Overflow (Option DateTime) :=
  if startOfYears ≤ before.instant - horizon then
    c.searchBack (before.instant - horizon) (c.start before)
  else .error {}

/-- A whole second that matches. -/
def Fires (c : CronExpr) (x : DateTime) : Prop := x.nanosecond = 0 ∧ c.firesAt x = true

/-- A date at which the search from `d₀` back can come to a month and fails to leave it. -/
structure Blocks (c : CronExpr) (d₀ d : Date) : Prop where
  entered : d = d₀ ∨ d.IsLast
  le : d.number ≤ d₀.number
  month : c.month.testBit d.month = false
  long : Overlong d

/-- What the search back from `t` finds, where the whole search began at the date `d₀`. -/
def Finds (c : CronExpr) (limit : Int) (d₀ : Date) (t : DateTime) : Option DateTime → Prop
  | some u => limit ≤ u.instant ∧ u.instant ≤ t.instant ∧ c.Fires u ∧
      ∀ x, c.Fires x → x.instant ≤ t.instant → x.instant ≤ u.instant
  | none => (∀ x, c.Fires x → x.instant ≤ t.instant → x.instant < limit) ∨
      ∃ d, c.Blocks d₀ d ∧ ∀ x, c.Fires x → x.instant ≤ t.instant → x.date.number < d.number

theorem Finds.of_retreats {d₀ : Date} {r : Option DateTime} (hback : c.Retreats t t')
    (h : c.Finds limit d₀ t' r) : c.Finds limit d₀ t r := by
  have hbelow : ∀ x, c.Fires x → x.instant ≤ t.instant → x.instant ≤ t'.instant := by
    rintro x ⟨hnano, hfires⟩ hle
    by_contra hlt
    rw [hback.misses x hnano (by omega) hle] at hfires
    cases hfires
  have hearlier := hback.earlier
  cases r with
  | some u =>
    obtain ⟨hlimit, hle, hu, hgreatest⟩ := h
    exact ⟨hlimit, by omega, hu, fun x hx hxt => hgreatest x hx (hbelow x hx hxt)⟩
  | none =>
    rcases h with hnone | ⟨d, hblocks, hbefore⟩
    · exact .inl fun x hx hxt => hnone x hx (hbelow x hx hxt)
    · exact .inr ⟨d, hblocks, fun x hx hxt => hbefore x hx (hbelow x hx hxt)⟩

/-- Within the years, with a month left before the limit. -/
structure Inside (limit : Int) (t : DateTime) : Prop where
  low : startOfYears + 31 * day ≤ limit
  high : t.instant < endOfYears

theorem Inside.years (h : Inside limit t) (hle : limit ≤ t.instant) :
    -9999 ≤ t.date.prevMonth.year ∧ t.date.year ≤ 9999 := by
  obtain ⟨hlow, hhigh⟩ := h
  refine ⟨?_, ?_⟩
  · by_contra hyear
    have hprev : t.date.prevMonth.number ≤ daysBeforeYear (-9999) := by
      have hbound := t.date.prevMonth.number_bounds.2.2.2
      have hmono := daysBeforeYear_mono (show t.date.prevMonth.year + 1 ≤ -9999 by omega)
      omega
    have hmonth : t.date.number ≤ t.date.prevMonth.number + 31 := by
      have hlast := t.date.valid.2.2.2
      have hdays := daysInMonth_le t.date.year t.date.month
      rw [Date.number_prevMonth, Date.number]
      omega
    simp only [startOfYears, day, DateTime.instant, DateTime.seconds] at hlow hle
    omega
  · by_contra hyear
    have hend := endOfYears_le (t := t) (by omega)
    omega

theorem Inside.mono (h : Inside limit t) (hle : t'.instant ≤ t.instant) : Inside limit t' :=
  ⟨h.low, hle.trans_lt h.high⟩

/-- The search ends without a panic. -/
theorem searchBack_total (c : CronExpr) (hnano : t.nanosecond = 0) (hinside : Inside limit t) :
    ∃ r, c.searchBack limit t = .ok r := by
  fun_induction searchBack c limit t with
  | case1 t => exact ⟨some t, rfl⟩
  | case2 t hle t' hmoved ih =>
    obtain ⟨hlow, hhigh⟩ := hinside.years hle
    have hpass := pass_retreat (c := c) hnano hlow hhigh
    rw [hmoved] at hpass
    cases hpass with
    | moved _ hback => exact ih hback.nanosecond (hinside.mono hback.earlier.le)
  | case3 => exact ⟨none, rfl⟩
  | case4 t hle hoverflow =>
    obtain ⟨hlow, hhigh⟩ := hinside.years hle
    have hpass := pass_retreat (c := c) hnano hlow hhigh
    rw [hoverflow] at hpass
    cases hpass with
    | overflow t' hyear hnear =>
      have hfar := hinside.low
      have hbound := t'.date.number_bounds.2.2.2
      have hmono := daysBeforeYear_mono (show t'.date.year + 1 ≤ -9999 by omega)
      simp only [startOfYears, day, DateTime.instant, DateTime.seconds] at hfar hle hnear
      omega
  | case5 => exact ⟨none, rfl⟩

/-- A search that has entered its month from `d₀` on finds the last match, none because there is none,
or none because it cannot leave a month. -/
theorem finds_searchBack {d₀ : Date} {r : Option DateTime} (hnano : t.nanosecond = 0)
    (hinside : Inside limit t)
    (hentered : c.month.testBit t.date.month = true ∨ t.date = d₀ ∨ t.date.IsLast)
    (hd₀ : t.date.number ≤ d₀.number) (h : c.searchBack limit t = .ok r) :
    c.Finds limit d₀ t r := by
  fun_induction searchBack c limit t with
  | case1 t hle hfound =>
    cases h
    obtain ⟨hlow, hhigh⟩ := hinside.years hle
    have hpass := pass_retreat (c := c) hnano hlow hhigh
    rw [hfound] at hpass
    cases hpass with
    | found hfires => exact ⟨hle, le_rfl, ⟨hnano, hfires⟩, fun x _ hx => hx⟩
  | case2 t hle t' hmoved ih =>
    obtain ⟨hlow, hhigh⟩ := hinside.years hle
    have hpass := pass_retreat (c := c) hnano hlow hhigh
    rw [hmoved] at hpass
    cases hpass with
    | moved _ hback =>
      have hbelow := t.date.number_prevMonth_lt
      have hprev := t.date.number_prev
      refine .of_retreats hback (ih hback.nanosecond (hinside.mono hback.earlier.le) ?_ ?_ h)
      · rcases hback.date with ⟨heq, _⟩ | ⟨heq | heq, hmonth⟩
        · rw [heq]
          exact .inr (.inr t.date.isLast_prevMonth)
        · rw [heq]
          exact .inl hmonth
        · rw [heq]
          rcases t.date.prev_month_or_last with hsame | hlast
          · exact .inl (hsame ▸ hmonth)
          · exact .inr (.inr hlast)
      · rcases hback.date with ⟨heq, _⟩ | ⟨heq | heq, _⟩ <;> rw [heq] <;> omega
  | case3 t hle hexhausted =>
    cases h
    obtain ⟨hlow, hhigh⟩ := hinside.years hle
    have hpass := pass_retreat (c := c) hnano hlow hhigh
    rw [hexhausted] at hpass
    cases hpass with
    | stuck hmonth hlong =>
      have hentered : t.date = d₀ ∨ t.date.IsLast :=
        hentered.resolve_left fun h => by rw [hmonth] at h; cases h
      refine .inr ⟨t.date, ⟨hentered, hd₀, hmonth, hlong⟩, ?_⟩
      rintro x ⟨_, hfires⟩ hx
      by_contra hnot
      have hsame : x.date = t.date := by
        apply Date.number_injective
        simp only [DateTime.instant, DateTime.seconds] at hx
        omega
      simp [firesAt, hsame, hmonth] at hfires
  | case4 => cases h
  | case5 t hlt =>
    cases h
    exact .inl fun x _ hx => by omega

/-- A search that comes down to a date which blocks it, without a match on the way, finds nothing. -/
theorem searchBack_none {d : Date} {r : Option DateTime} (hnano : t.nanosecond = 0)
    (hinside : Inside limit t) (hmonth : c.month.testBit d.month = false) (hlong : Overlong d)
    (hentered : d = t.date ∨ d.IsLast) (hd : d.number ≤ t.date.number)
    (hbefore : ∀ x, c.Fires x → limit ≤ x.instant → x.instant ≤ t.instant →
      x.date.number < d.number) (h : c.searchBack limit t = .ok r) : r = none := by
  fun_induction searchBack c limit t with
  | case1 t hle hfound =>
    obtain ⟨hlow, hhigh⟩ := hinside.years hle
    have hpass := pass_retreat (c := c) hnano hlow hhigh
    rw [hfound] at hpass
    cases hpass with
    | found hfires =>
      have hlt := hbefore t ⟨hnano, hfires⟩ hle le_rfl
      omega
  | case2 t hle t' hmoved ih =>
    obtain ⟨hlow, hhigh⟩ := hinside.years hle
    have hpass := pass_retreat (c := c) hnano hlow hhigh
    rw [hmoved] at hpass
    cases hpass with
    | moved _ hback =>
      have hearlier := hback.earlier
      -- the search cannot leave the month of `d`, so it has not come there yet
      have hne : d ≠ t.date := by
        rintro rfl
        rcases hback.date with ⟨_, hfits⟩ | ⟨_, hmatches⟩
        · exact hfits hlong
        · rw [hmonth] at hmatches
          cases hmatches
      have hlast := hentered.resolve_left hne
      have hlt : d.number < t.date.number :=
        lt_of_le_of_ne hd fun heq => hne (Date.number_injective heq)
      refine ih hback.nanosecond (hinside.mono hearlier.le) (.inr hlast) ?_
        (fun x hx hlimit hxt => hbefore x hx hlimit (by omega)) h
      have hprev := t.date.number_prev
      have hmonthBefore := hlast.le_prevMonth hlt
      rcases hback.date with ⟨heq, _⟩ | ⟨heq | heq, _⟩ <;> rw [heq] <;> omega
  | case3 => cases h; rfl
  | case4 => cases h
  | case5 => cases h; rfl

/-! ### What the search should find -/

/-- A match from the horizon up to `t`. -/
structure CandidateBack (c : CronExpr) (t u : DateTime) : Prop where
  fires : c.Fires u
  le : u.instant ≤ t.instant
  limit_le : t.instant - horizon ≤ u.instant

/-- `prev_before` returns the greatest candidate, and `None` if there is none. -/
def PrevExact (c : CronExpr) (t : DateTime) : Prop :=
  ∃ r, c.prevBefore t = .ok r ∧ Selects (c.CandidateBack t) (fun u x => x.instant ≤ u.instant) r

/-- There are candidates, and a date after all of them blocks the search. -/
def StopsShort (c : CronExpr) (t : DateTime) : Prop :=
  (∃ u, c.CandidateBack t u) ∧
    ∃ d, c.Blocks t.date d ∧ ∀ u, c.CandidateBack t u → u.date.number < d.number

theorem date_start (c : CronExpr) (t : DateTime) : (c.start t).date = t.date := by
  unfold start
  split <;> rfl

/-- Cutting the time down to where the search starts passes no match. -/
theorem Fires.le_start (h : c.Fires x) (hle : x.instant ≤ t.instant) :
    x.instant ≤ (c.start t).instant := by
  obtain ⟨hnano, hfires⟩ := h
  have hzero : x.nanosecond.val = 0 := by rw [hnano]; rfl
  unfold start
  split
  · simp only [DateTime.instant, DateTime.seconds, Fin.val_zero, hzero] at hle ⊢
    omega
  · next hseconds =>
    have hsecond : x.second.val = 0 := by
      have hbit : c.second = 1 := by simpa [hasSeconds] using hseconds
      simp only [firesAt, hbit, Bool.and_eq_true] at hfires
      exact Nat.testBit_one_eq_true_iff_self_eq_zero.mp hfires.2
    simp only [DateTime.instant, DateTime.seconds, Fin.val_zero, hzero, hsecond] at hle ⊢
    omega

/-- `prev_before` is exact unless the search comes to a date that blocks it before the last match. -/
theorem prevBefore_exact_iff (c : CronExpr) {t : DateTime}
    (hlow : startOfYears + 31 * day ≤ t.instant - horizon) (hhigh : t.instant < endOfYears) :
    c.PrevExact t ↔ ¬c.StopsShort t := by
  have hstart := c.start_le t
  have hinside : Inside (t.instant - horizon) (c.start t) := ⟨hlow, by omega⟩
  have hprev : c.prevBefore t = c.searchBack (t.instant - horizon) (c.start t) := by
    have hlimit : startOfYears ≤ t.instant - horizon := by
      simp only [day] at hlow
      omega
    unfold prevBefore
    simp only [hlimit, if_true]
  obtain ⟨r, hr⟩ := searchBack_total c (c.start_nanosecond t) hinside
  constructor
  · rintro ⟨r', hr', hselects⟩ ⟨⟨u, hu⟩, d, hblocks, hbefore⟩
    rw [hprev] at hr'
    have hpassed : ∀ x, c.Fires x → t.instant - horizon ≤ x.instant →
        x.instant ≤ (c.start t).instant → x.date.number < d.number :=
      fun x hx hlimit hle => hbefore x ⟨hx, hle.trans hstart, hlimit⟩
    have hentered : d = (c.start t).date ∨ d.IsLast := by
      rw [date_start]
      exact hblocks.entered
    have hd : d.number ≤ (c.start t).date.number := by
      rw [date_start]
      exact hblocks.le
    have hnone := searchBack_none (c.start_nanosecond t) hinside hblocks.month hblocks.long hentered
      hd hpassed hr'
    exact hselects.2.mp hnone u hu
  · intro hshort
    have hfinds : c.Finds _ t.date (c.start t) r := finds_searchBack (c.start_nanosecond t) hinside
      (.inr (.inl (c.date_start t))) (by rw [date_start]) hr
    refine ⟨r, hprev.trans hr, ?_⟩
    cases r with
    | some u =>
      obtain ⟨hlimit, hle, hu, hgreatest⟩ := hfinds
      refine selects_some (fun u x hux hxu => DateTime.instant_injective (le_antisymm hxu hux))
        ⟨hu, by omega, hlimit⟩ fun x hx => ?_
      exact hgreatest x hx.fires (hx.fires.le_start hx.le)
    | none =>
      apply selects_none
      intro u hu
      rcases hfinds with hnone | ⟨d, hblocks, hbefore⟩
      · have hlimit := hnone u hu.fires (hu.fires.le_start hu.le)
        have hge := hu.limit_le
        omega
      · refine hshort ⟨⟨u, hu⟩, d, hblocks, fun x hx => ?_⟩
        exact hbefore x hx.fires (hx.fires.le_start hx.le)

/-- The expression `0 0 * 2 *`: every midnight of February. -/
def february : CronExpr := ⟨1, 1, 1, 2 ^ 32 - 2, 4, 127⟩

/-- The midnight at the start of a day of 2025. -/
def midnight (month day : Nat) (h : 1 ≤ month ∧ month ≤ 12 ∧ 1 ≤ day ∧ day ≤ daysInMonth 2025 month) :
    DateTime := ⟨⟨2025, month, day, h⟩, 0, 0, 0, 0⟩

theorem instant_midnight (month n : Nat)
    (h : 1 ≤ month ∧ month ≤ 12 ∧ 1 ≤ n ∧ n ≤ daysInMonth 2025 month) :
    (midnight month n h).instant =
      (739251 + daysBeforeMonth 2025 month + n) * 86400000000000 := by
  have hyear : daysBeforeYear 2025 = 739251 := by decide
  simp only [midnight, DateTime.instant, DateTime.seconds, Date.number, hyear, Fin.val_zero]
  omega

/-- The years and the horizon are far from March 2025. -/
theorem midnight_inside (n : Nat) (h : 1 ≤ 3 ∧ 3 ≤ 12 ∧ 1 ≤ n ∧ n ≤ daysInMonth 2025 3) :
    startOfYears + 31 * day ≤ (midnight 3 n h).instant - horizon ∧
      (midnight 3 n h).instant < endOfYears := by
  have hdays : daysInMonth 2025 3 = 31 := rfl
  have hmonths : daysBeforeMonth 2025 3 = 59 := by decide
  have hlast := h.2.2.2
  rw [instant_midnight, hmonths, startOfYears, endOfYears, horizon, daysBeforeYear, daysBeforeYear, day]
  omega

/-- From March 28 on the search goes back to February 28. -/
theorem prevBefore_exact_march :
    february.PrevExact (midnight 3 28 (by decide)) ↔
      ¬february.StopsShort (midnight 3 28 (by decide)) :=
  prevBefore_exact_iff february (midnight_inside 28 (by decide)).1 (midnight_inside 28 (by decide)).2

/-- From March 31 on the search fails, as there is no February 31. -/
theorem prevBefore_none_in_march :
    february.prevBefore (midnight 3 31 (by decide)) = .ok none ∧
      february.CandidateBack (midnight 3 31 (by decide)) (midnight 2 28 (by decide)) ∧
      ¬february.PrevExact (midnight 3 31 (by decide)) := by
  have hmonths : daysBeforeMonth 2025 3 = 59 := by decide
  have hmonths' : daysBeforeMonth 2025 2 = 31 := by decide
  have hlimit : startOfYears ≤ (midnight 3 31 (by decide)).instant - horizon := by
    have hlow := (midnight_inside 31 (by decide)).1
    simp only [day] at hlow
    omega
  have hreached : (midnight 3 31 (by decide)).instant - horizon ≤
      (midnight 3 31 (by decide)).instant := by
    simp only [horizon]
    omega
  have hstart : february.start (midnight 3 31 (by decide)) = midnight 3 31 (by decide) := rfl
  have hstuck : february.retreat (midnight 3 31 (by decide)) = .exhausted := rfl
  have hnone : february.prevBefore (midnight 3 31 (by decide)) = .ok none := by
    unfold prevBefore
    simp only [hlimit, if_true, hstart]
    unfold searchBack
    simp only [hreached, if_true]
    split
    · next h =>
      rw [hstuck] at h
      cases h
    · next h =>
      rw [hstuck] at h
      cases h
    · rfl
    · next h =>
      rw [hstuck] at h
      cases h
  have hcandidate :
      february.CandidateBack (midnight 3 31 (by decide)) (midnight 2 28 (by decide)) := by
    refine ⟨⟨rfl, by decide⟩, ?_, ?_⟩
    · rw [instant_midnight, instant_midnight, hmonths, hmonths']
      omega
    · rw [instant_midnight, instant_midnight, hmonths, hmonths', horizon]
      omega
  refine ⟨hnone, hcandidate, ?_⟩
  rintro ⟨r, hr, hselects⟩
  rw [hnone] at hr
  cases hr
  exact hselects.2.mp rfl _ hcandidate

end HdyUtils.Ham.CronExpr
