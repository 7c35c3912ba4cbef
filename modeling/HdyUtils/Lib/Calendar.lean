import Mathlib

/-! The proleptic Gregorian calendar: dates and times of day, counted in days and nanoseconds from one
fixed day.  The count orders them by year, month, day and so on, and every carry adds its unit. -/

namespace Calendar

def isLeap (year : Int) : Bool := year % 4 == 0 && (year % 100 != 0 || year % 400 == 0)

def daysInMonth (year : Int) (month : Nat) : Nat :=
  match month with
  | 2 => if isLeap year then 29 else 28
  | 4 | 6 | 9 | 11 => 30
  | _ => 31

/-- The days of the years before `year`, from year 1 on. -/
def daysBeforeYear (year : Int) : Int :=
  365 * (year - 1) + (year - 1) / 4 - (year - 1) / 100 + (year - 1) / 400

/-- The days of the months before `month`. -/
def daysBeforeMonth (year : Int) : Nat → Nat
  | 0 | 1 => 0
  | month + 2 => daysBeforeMonth year (month + 1) + daysInMonth year (month + 1)

/-- A date, its month and day counted from 1. -/
structure Date where
  year : Int
  month : Nat
  day : Nat
  valid : 1 ≤ month ∧ month ≤ 12 ∧ 1 ≤ day ∧ day ≤ daysInMonth year month
deriving DecidableEq

namespace Date

/-- The number of the day, which is 1 for January 1 of year 1. -/
def number (d : Date) : Int := daysBeforeYear d.year + daysBeforeMonth d.year d.month + d.day

/-- The days since the last Sunday. -/
def daysFromSunday (d : Date) : Nat := (d.number % 7).toNat

end Date

/-! ### Counting days -/

theorem daysInMonth_pos (year : Int) (month : Nat) : 28 ≤ daysInMonth year month := by
  unfold daysInMonth
  split
  · split <;> omega
  all_goals omega

theorem daysInMonth_le (year : Int) (month : Nat) : daysInMonth year month ≤ 31 := by
  unfold daysInMonth
  split
  · split <;> omega
  all_goals omega

theorem daysBeforeMonth_succ (year : Int) {month : Nat} (h : 1 ≤ month) :
    daysBeforeMonth year (month + 1) = daysBeforeMonth year month + daysInMonth year month := by
  obtain ⟨m, rfl⟩ : ∃ m, month = m + 1 := ⟨month - 1, by omega⟩
  rfl

theorem daysBeforeMonth_mono (year : Int) {m m' : Nat} (h : m ≤ m') :
    daysBeforeMonth year m ≤ daysBeforeMonth year m' := by
  induction m', h using Nat.le_induction with
  | base => exact le_rfl
  | succ n hn ih =>
    rcases Nat.eq_zero_or_pos n with rfl | hpos
    · exact ih
    · rw [daysBeforeMonth_succ year hpos]
      omega

/-- A year has all of its months. -/
theorem daysBeforeYear_succ (year : Int) :
    daysBeforeYear (year + 1) = daysBeforeYear year + daysBeforeMonth year 13 := by
  have hmonths : daysBeforeMonth year 13 = if isLeap year then 366 else 365 := by
    simp only [daysBeforeMonth, daysInMonth]
    split <;> rfl
  have hleap : isLeap year = true ↔ year % 4 = 0 ∧ (year % 100 ≠ 0 ∨ year % 400 = 0) := by
    simp [isLeap]
  rw [hmonths]
  simp only [daysBeforeYear, add_sub_cancel_right]
  split
  · next h =>
    have hyear := hleap.mp h
    omega
  · next h =>
    have hyear := mt hleap.mpr h
    omega

theorem daysBeforeYear_mono {year year' : Int} (h : year ≤ year') :
    daysBeforeYear year ≤ daysBeforeYear year' := by
  simp only [daysBeforeYear]
  omega

namespace Date

variable {d d' : Date}

/-- The day lies in its month, and the month in its year. -/
theorem number_bounds (d : Date) :
    daysBeforeYear d.year + daysBeforeMonth d.year d.month < d.number ∧
      d.number ≤ daysBeforeYear d.year + daysBeforeMonth d.year (d.month + 1) ∧
      daysBeforeYear d.year < d.number ∧ d.number ≤ daysBeforeYear (d.year + 1) := by
  obtain ⟨hmonth, hmonth', hday, hday'⟩ := d.valid
  have hsucc := daysBeforeMonth_succ d.year hmonth
  have hlast := daysBeforeMonth_mono d.year (show d.month + 1 ≤ 13 by omega)
  rw [daysBeforeYear_succ]
  simp only [number]
  omega

/-- Days count up from year to year, month to month and day to day. -/
theorem number_lt (h : d.year < d'.year ∨ d.year = d'.year ∧ (d.month < d'.month ∨
    d.month = d'.month ∧ d.day < d'.day)) : d.number < d'.number := by
  obtain ⟨hlow, hhigh, hyear, hyear'⟩ := d.number_bounds
  obtain ⟨hlow', hhigh', -, -⟩ := d'.number_bounds
  rcases h with hlt | ⟨heq, hlt | ⟨hmonth, hlt⟩⟩
  · have hle := daysBeforeYear_mono (show d.year + 1 ≤ d'.year by omega)
    omega
  · have hle := daysBeforeMonth_mono d.year (show d.month + 1 ≤ d'.month by omega)
    rw [heq] at hle hhigh
    omega
  · simp only [number, heq, hmonth]
    omega

theorem number_injective (h : d.number = d'.number) : d = d' := by
  have hnot (a b : Date) (hab : a.number = b.number) : ¬(a.year < b.year ∨ a.year = b.year ∧
      (a.month < b.month ∨ a.month = b.month ∧ a.day < b.day)) := fun hlt => by
    have hne := number_lt hlt
    omega
  have h₁ := hnot d d' h
  have h₂ := hnot d' d h.symm
  have heq : d.year = d'.year ∧ d.month = d'.month ∧ d.day = d'.day := by omega
  obtain ⟨year, month, day, valid⟩ := d
  obtain ⟨year', month', day', valid'⟩ := d'
  obtain ⟨rfl, rfl, rfl⟩ := heq
  rfl

/-- The first day of the next month. -/
def nextMonth (d : Date) : Date :=
  if h : d.month < 12 then
    ⟨d.year, d.month + 1, 1, by omega, by omega, le_rfl,
      le_trans (by omega) (daysInMonth_pos d.year (d.month + 1))⟩
  else
    ⟨d.year + 1, 1, 1, le_rfl, by omega, le_rfl, le_trans (by omega) (daysInMonth_pos (d.year + 1) 1)⟩

/-- The next day. -/
def next (d : Date) : Date :=
  if h : d.day < daysInMonth d.year d.month then
    ⟨d.year, d.month, d.day + 1, d.valid.1, d.valid.2.1, by omega, h⟩
  else d.nextMonth

theorem number_nextMonth (d : Date) :
    d.nextMonth.number = daysBeforeYear d.year + daysBeforeMonth d.year (d.month + 1) + 1 := by
  obtain ⟨hmonth, hmonth', -⟩ := d.valid
  unfold nextMonth
  split
  · rfl
  · next hlast =>
    have heq : d.month = 12 := by omega
    have hsucc := daysBeforeYear_succ d.year
    simp only [number, daysBeforeMonth, heq, Nat.reduceAdd] at hsucc ⊢
    omega

theorem number_lt_nextMonth (d : Date) : d.number < d.nextMonth.number := by
  have hbounds := d.number_bounds
  rw [number_nextMonth]
  omega

theorem number_next (d : Date) : d.next.number = d.number + 1 := by
  obtain ⟨hmonth, -, -, hday⟩ := d.valid
  unfold next
  split
  · simp only [number]
    omega
  · next hlast =>
    have hsucc := daysBeforeMonth_succ d.year hmonth
    rw [number_nextMonth]
    simp only [number]
    omega

/-- What lies between a day and the end of its month is in the same month. -/
theorem month_eq_of_between (hle : d.number ≤ d'.number) (hlt : d'.number < d.nextMonth.number) :
    d'.year = d.year ∧ d'.month = d.month := by
  rw [number_nextMonth] at hlt
  obtain ⟨hlow, hhigh, hyear, hyear'⟩ := d'.number_bounds
  have hend := d.number_bounds.2.2.2
  have hnot : ¬(d'.year < d.year ∨ d'.year = d.year ∧ (d'.month < d.month ∨
      d'.month = d.month ∧ d'.day < d.day)) := fun h => by
    have hbelow := number_lt h
    omega
  have hsucc := daysBeforeYear_succ d.year
  have hlast := daysBeforeMonth_mono d.year (show d.month + 1 ≤ 13 from by have hv := d.valid; omega)
  have hyears : ¬d.year < d'.year := fun h => by
    have hmono := daysBeforeYear_mono (show d.year + 1 ≤ d'.year by omega)
    omega
  have heq : d'.year = d.year := by omega
  have hmonths : ¬d.month < d'.month := fun h => by
    have hmono := daysBeforeMonth_mono d.year (show d.month + 1 ≤ d'.month by omega)
    rw [heq] at hlow
    omega
  omega

end Date

/-! ### Times of day -/

instance hourNeZero : NeZero 24 := ⟨by decide⟩

instance minuteNeZero : NeZero 60 := ⟨by decide⟩

instance nanosecondNeZero : NeZero 1000000000 := ⟨by decide⟩

/-- A date and a time of day. -/
structure DateTime where
  date : Date
  hour : Fin 24
  minute : Fin 60
  second : Fin 60
  nanosecond : Fin 1000000000
deriving DecidableEq

namespace DateTime

variable {t t' : DateTime}

/-- The seconds since the day before day 1. -/
def seconds (t : DateTime) : Int :=
  ((t.date.number * 24 + t.hour.val) * 60 + t.minute.val) * 60 + t.second.val

/-- The nanoseconds since the day before day 1. -/
def instant (t : DateTime) : Int := t.seconds * 1000000000 + t.nanosecond.val

theorem instant_injective (h : t.instant = t'.instant) : t = t' := by
  obtain ⟨date, hour, minute, second, nanosecond⟩ := t
  obtain ⟨date', hour', minute', second', nanosecond'⟩ := t'
  simp only [instant, seconds] at h
  have hdate : date.number = date'.number := by omega
  obtain rfl := Date.number_injective hdate
  simp only [DateTime.mk.injEq, Fin.ext_iff, true_and]
  omega

/-- One day later. -/
def addDay (t : DateTime) : DateTime := { t with date := t.date.next }

/-- One hour later. -/
def addHour (t : DateTime) : DateTime :=
  if h : t.hour.val + 1 < 24 then { t with hour := ⟨t.hour.val + 1, h⟩ }
  else { t.addDay with hour := 0 }

/-- One minute later. -/
def addMinute (t : DateTime) : DateTime :=
  if h : t.minute.val + 1 < 60 then { t with minute := ⟨t.minute.val + 1, h⟩ }
  else { t.addHour with minute := 0 }

/-- One second later. -/
def addSecond (t : DateTime) : DateTime :=
  if h : t.second.val + 1 < 60 then { t with second := ⟨t.second.val + 1, h⟩ }
  else { t.addMinute with second := 0 }

theorem instant_addDay (t : DateTime) : t.addDay.instant = t.instant + 86400000000000 := by
  simp only [addDay, instant, seconds, Date.number_next]
  omega

theorem instant_addHour (t : DateTime) : t.addHour.instant = t.instant + 3600000000000 := by
  have hday := instant_addDay t
  unfold addHour
  split
  · simp only [instant, seconds]
    omega
  · simp only [instant, seconds, addDay, Fin.val_zero] at hday ⊢
    omega

theorem instant_addMinute (t : DateTime) : t.addMinute.instant = t.instant + 60000000000 := by
  have hhour := instant_addHour t
  have hfields : t.addHour.minute = t.minute := by
    unfold addHour
    split <;> rfl
  unfold addMinute
  split
  · simp only [instant, seconds]
    omega
  · simp only [instant, seconds, Fin.val_zero, hfields] at hhour ⊢
    omega

theorem instant_addSecond (t : DateTime) : t.addSecond.instant = t.instant + 1000000000 := by
  have hminute := instant_addMinute t
  have hfields : t.addMinute.second = t.second := by
    unfold addMinute addHour
    repeat' split
    all_goals rfl
  unfold addSecond
  split
  · simp only [instant, seconds]
    omega
  · simp only [instant, seconds, Fin.val_zero, hfields] at hminute ⊢
    omega

@[simp] theorem nanosecond_addSecond (t : DateTime) : t.addSecond.nanosecond = t.nanosecond := by
  unfold addSecond addMinute addHour
  repeat' split
  all_goals rfl

@[simp] theorem nanosecond_addMinute (t : DateTime) : t.addMinute.nanosecond = t.nanosecond := by
  unfold addMinute addHour
  repeat' split
  all_goals rfl

@[simp] theorem nanosecond_addHour (t : DateTime) : t.addHour.nanosecond = t.nanosecond := by
  unfold addHour
  split <;> rfl

end DateTime

end Calendar
