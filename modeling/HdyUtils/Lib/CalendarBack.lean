import HdyUtils.Lib.Calendar

/-! Going back in the calendar: the day, the hour and so on before a time, the last day of the month
before a date, and the dates with one of their parts replaced. -/

namespace Calendar

namespace Date

variable {d d' : Date}

/-- The date with these parts, if there is one. -/
def ofParts? (year : Int) (month day : Nat) : Option Date :=
  if h : 1 ≤ month ∧ month ≤ 12 ∧ 1 ≤ day ∧ day ≤ daysInMonth year month then
    some ⟨year, month, day, h⟩
  else none

theorem valid_lastOfMonth (d : Date) (h : 1 < d.month) :
    1 ≤ d.month - 1 ∧ d.month - 1 ≤ 12 ∧ 1 ≤ daysInMonth d.year (d.month - 1) ∧
      daysInMonth d.year (d.month - 1) ≤ daysInMonth d.year (d.month - 1) := by
  have hmonth := d.valid.2.1
  have hdays := daysInMonth_pos d.year (d.month - 1)
  exact ⟨by omega, by omega, by omega, le_rfl⟩

theorem valid_lastOfYear (year : Int) :
    1 ≤ 12 ∧ 12 ≤ 12 ∧ 1 ≤ 31 ∧ 31 ≤ daysInMonth year 12 :=
  ⟨by omega, le_rfl, by omega, le_rfl⟩

/-- The last day of the month before. -/
def prevMonth (d : Date) : Date :=
  if h : 1 < d.month then
    ⟨d.year, d.month - 1, daysInMonth d.year (d.month - 1), d.valid_lastOfMonth h⟩
  else ⟨d.year - 1, 12, 31, valid_lastOfYear (d.year - 1)⟩

/-- The day before. -/
def prev (d : Date) : Date :=
  if h : 1 < d.day then
    ⟨d.year, d.month, d.day - 1, d.valid.1, d.valid.2.1, by omega, by have hv := d.valid; omega⟩
  else d.prevMonth

/-- The last day of its month. -/
def IsLast (d : Date) : Prop := d.day = daysInMonth d.year d.month

theorem isLast_prevMonth (d : Date) : d.prevMonth.IsLast := by
  unfold prevMonth IsLast
  split <;> rfl

theorem number_prevMonth (d : Date) :
    d.prevMonth.number = daysBeforeYear d.year + daysBeforeMonth d.year d.month := by
  obtain ⟨hmonth, -⟩ := d.valid
  unfold prevMonth
  split
  · next hlater =>
    have hsucc := daysBeforeMonth_succ d.year (show 1 ≤ d.month - 1 by omega)
    rw [show d.month - 1 + 1 = d.month by omega] at hsucc
    simp only [number]
    omega
  · next hfirst =>
    have heq : d.month = 1 := by omega
    have hyear := daysBeforeYear_succ (d.year - 1)
    rw [sub_add_cancel, daysBeforeMonth_succ _ (show 1 ≤ 12 by omega)] at hyear
    have hdays : daysInMonth (d.year - 1) 12 = 31 := rfl
    have hnone : daysBeforeMonth d.year 1 = 0 := rfl
    simp only [number, heq]
    omega

theorem number_prevMonth_lt (d : Date) : d.prevMonth.number < d.number := by
  have hday := d.valid.2.2.1
  rw [number_prevMonth, number]
  omega

theorem number_prev (d : Date) : d.prev.number = d.number - 1 := by
  obtain ⟨-, -, hday, -⟩ := d.valid
  unfold prev
  split
  · simp only [number]
    omega
  · rw [number_prevMonth]
    simp only [number]
    omega

/-- What lies between the month before and a day is in the month of the day. -/
theorem month_eq_of_after_prevMonth (hlt : d.prevMonth.number < d'.number)
    (hle : d'.number ≤ d.number) : d'.year = d.year ∧ d'.month = d.month := by
  obtain ⟨hmonth, hmonth', hday, hlast⟩ := d.valid
  let first : Date := ⟨d.year, d.month, 1, hmonth, hmonth', le_rfl, hday.trans hlast⟩
  have hfirst : first.number = d.prevMonth.number + 1 := by
    rw [number_prevMonth]
    rfl
  have hend : d.number < first.nextMonth.number := by
    have hbounds := d.number_bounds.2.1
    rw [number_nextMonth]
    change _ < daysBeforeYear d.year + daysBeforeMonth d.year (d.month + 1) + 1
    omega
  exact month_eq_of_between (d := first) (by omega) (by omega)

/-- The last day of a month before a date is not after the month before. -/
theorem IsLast.le_prevMonth (h : d.IsLast) (hlt : d.number < d'.number) :
    d.number ≤ d'.prevMonth.number := by
  by_contra hnot
  have hafter : d'.prevMonth.number < d.number := by omega
  obtain ⟨hyear, hmonth⟩ := month_eq_of_after_prevMonth hafter hlt.le
  have hday := d'.valid.2.2.2
  unfold IsLast at h
  simp only [number, hyear, hmonth] at hlt h
  omega

/-- The day before a date is in the same month, or the last of the month before. -/
theorem prev_month_or_last (d : Date) : d.prev.month = d.month ∨ d.prev.IsLast := by
  unfold prev
  split
  · exact .inl rfl
  · exact .inr d.isLast_prevMonth

end Date

namespace DateTime

variable {t t' : DateTime}

/-- One day earlier. -/
def subDay (t : DateTime) : DateTime := { t with date := t.date.prev }

/-- One hour earlier. -/
def subHour (t : DateTime) : DateTime :=
  if h : 0 < t.hour.val then { t with hour := ⟨t.hour.val - 1, by omega⟩ }
  else { t.subDay with hour := 23 }

/-- One minute earlier. -/
def subMinute (t : DateTime) : DateTime :=
  if h : 0 < t.minute.val then { t with minute := ⟨t.minute.val - 1, by omega⟩ }
  else { t.subHour with minute := 59 }

/-- One second earlier. -/
def subSecond (t : DateTime) : DateTime :=
  if h : 0 < t.second.val then { t with second := ⟨t.second.val - 1, by omega⟩ }
  else { t.subMinute with second := 59 }

theorem instant_subDay (t : DateTime) : t.subDay.instant = t.instant - 86400000000000 := by
  simp only [subDay, instant, seconds, Date.number_prev]
  omega

theorem instant_subHour (t : DateTime) : t.subHour.instant = t.instant - 3600000000000 := by
  have hday := instant_subDay t
  have hlast : ((23 : Fin 24) : Nat) = 23 := rfl
  unfold subHour
  split
  · simp only [instant, seconds]
    omega
  · simp only [instant, seconds, subDay, hlast] at hday ⊢
    omega

@[simp] theorem minute_subHour (t : DateTime) : t.subHour.minute = t.minute := by
  unfold subHour
  split <;> rfl

@[simp] theorem second_subHour (t : DateTime) : t.subHour.second = t.second := by
  unfold subHour
  split <;> rfl

@[simp] theorem nanosecond_subHour (t : DateTime) : t.subHour.nanosecond = t.nanosecond := by
  unfold subHour
  split <;> rfl

theorem instant_subMinute (t : DateTime) : t.subMinute.instant = t.instant - 60000000000 := by
  have hhour := instant_subHour t
  have hlast : ((59 : Fin 60) : Nat) = 59 := rfl
  unfold subMinute
  split
  · simp only [instant, seconds]
    omega
  · simp only [instant, seconds, minute_subHour, second_subHour, nanosecond_subHour, hlast] at hhour ⊢
    omega

@[simp] theorem second_subMinute (t : DateTime) : t.subMinute.second = t.second := by
  unfold subMinute
  split
  · rfl
  · exact second_subHour t

@[simp] theorem nanosecond_subMinute (t : DateTime) : t.subMinute.nanosecond = t.nanosecond := by
  unfold subMinute
  split
  · rfl
  · exact nanosecond_subHour t

theorem instant_subSecond (t : DateTime) : t.subSecond.instant = t.instant - 1000000000 := by
  have hminute := instant_subMinute t
  have hlast : ((59 : Fin 60) : Nat) = 59 := rfl
  unfold subSecond
  split
  · simp only [instant, seconds]
    omega
  · simp only [instant, seconds, second_subMinute, nanosecond_subMinute, hlast] at hminute ⊢
    omega

@[simp] theorem nanosecond_subSecond (t : DateTime) : t.subSecond.nanosecond = t.nanosecond := by
  unfold subSecond
  split
  · rfl
  · exact nanosecond_subMinute t

end DateTime

end Calendar
