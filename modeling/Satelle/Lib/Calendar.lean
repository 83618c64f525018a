import Mathlib

/-! The proleptic Gregorian calendar of the years from 0 on, as nested
divisions of a number of nanoseconds into stretches. A position is split into
the number of its stretch and the offset within it; when the stretches follow
each other, an earlier position has an earlier pair, and the pair gives the
position back. -/
namespace Satelle.Lib.Calendar

/-! ## Stretches -/

/-- The position lies in the stretch with this number, at this offset. -/
structure Lies (start : Nat → Nat) (position index offset : Nat) : Prop where
  here : position = start index + offset
  within : position < start (index + 1)

/-- The earlier of two positions lies in an earlier stretch, or earlier in the
same one. -/
theorem Lies.lt (monotone : Monotone start)
    (first : Lies start position index offset) (second : Lies start later index' offset')
    (less : position < later) : index < index' ∨ index = index' ∧ offset < offset' := by
  rcases Nat.lt_trichotomy index index' with before | same | after
  · exact .inl before
  · subst same
    have here := first.here
    have there := second.here
    exact .inr ⟨rfl, by omega⟩
  · have next : start (index' + 1) ≤ start index := monotone after
    have here := first.here
    have there := second.within
    omega

/-- Stretches of one length. -/
theorem lies_divide (length position : Nat) (positive : 0 < length) :
    Lies (length * ·) position (position / length) (position % length) where
  here := (Nat.div_add_mod position length).symm
  within := Nat.lt_mul_div_succ position positive

theorem monotone_multiples (length : Nat) : Monotone (length * ·) :=
  fun _ _ less => Nat.mul_le_mul_left length less

/-! ## Years and months -/

/-- The days of the years before this one. -/
def yearStart (year : Nat) : Nat :=
  365 * year + (year + 3) / 4 - (year + 99) / 100 + (year + 399) / 400

/-- The year of a day; the average length of a year misses it by one at most. -/
def yearOf (day : Nat) : Nat :=
  let guess := day * 400 / 146097
  if yearStart (guess + 1) ≤ day then guess + 1
  else if day < yearStart guess then guess - 1
  else guess

def isLeap (year : Nat) : Bool := year % 4 = 0 && (year % 100 ≠ 0 || year % 400 = 0)

/-- The days of a year before the month with this number; January has number 0. -/
def monthStart (leap : Bool) : Nat → Nat
  | 0 => 0
  | 1 => 31
  | 2 => 59 + leap.toNat
  | 3 => 90 + leap.toNat
  | 4 => 120 + leap.toNat
  | 5 => 151 + leap.toNat
  | 6 => 181 + leap.toNat
  | 7 => 212 + leap.toNat
  | 8 => 243 + leap.toNat
  | 9 => 273 + leap.toNat
  | 10 => 304 + leap.toNat
  | 11 => 334 + leap.toNat
  | _ => 365 + leap.toNat

/-- The month of a day of the year: the months that start no later, but January. -/
def monthOf (leap : Bool) (day : Nat) : Nat :=
  (List.range 11).countP fun month => monthStart leap (month + 1) ≤ day

theorem yearStart_succ (year : Nat) :
    yearStart (year + 1) = yearStart year + 365 + (isLeap year).toNat := by
  have fours : (year + 1 + 3) / 4 = (year + 3) / 4 + if year % 4 = 0 then 1 else 0 := by
    split <;> omega
  have hundreds : (year + 1 + 99) / 100 = (year + 99) / 100 + if year % 100 = 0 then 1 else 0 := by
    split <;> omega
  have all : (year + 1 + 399) / 400 = (year + 399) / 400 + if year % 400 = 0 then 1 else 0 := by
    split <;> omega
  have less : (year + 99) / 100 ≤ 365 * year + (year + 3) / 4 := by omega
  unfold yearStart isLeap
  rw [fours, hundreds, all]
  generalize (year + 3) / 4 = a at less ⊢
  generalize (year + 99) / 100 = b at less ⊢
  by_cases four : year % 4 = 0
  · by_cases hundred : year % 100 = 0
    · by_cases fourHundred : year % 400 = 0
      · simp [four, hundred, fourHundred]
        omega
      · simp [four, hundred, fourHundred]
        omega
    · have small : year % 400 ≠ 0 := by omega
      simp [four, hundred, small]
      omega
  · have odd : year % 100 ≠ 0 := by omega
    have small : year % 400 ≠ 0 := by omega
    simp [four, odd, small]
    omega

theorem yearStart_monotone : Monotone yearStart := by
  apply monotone_nat_of_le_succ
  intro year
  rw [yearStart_succ]
  omega

/-- How far the average length of a year is off. -/
private theorem yearStart_average (year : Nat) :
    146097 * year ≤ 400 * yearStart year + 396 ∧ 400 * yearStart year ≤ 146097 * year + 699 := by
  have fours : year ≤ 4 * ((year + 3) / 4) ∧ 4 * ((year + 3) / 4) ≤ year + 3 := by omega
  have hundreds : year ≤ 100 * ((year + 99) / 100) ∧ 100 * ((year + 99) / 100) ≤ year + 99 := by
    omega
  have all : year ≤ 400 * ((year + 399) / 400) ∧ 400 * ((year + 399) / 400) ≤ year + 399 := by
    omega
  unfold yearStart
  generalize (year + 3) / 4 = a at fours ⊢
  generalize (year + 99) / 100 = b at hundreds ⊢
  generalize (year + 399) / 400 = c at all ⊢
  have less : b ≤ 365 * year + a := by omega
  zify [less]
  constructor <;> linarith

theorem lies_year (day : Nat) :
    Lies yearStart day (yearOf day) (day - yearStart (yearOf day)) := by
  have near : yearStart (yearOf day) ≤ day ∧ day < yearStart (yearOf day + 1) := by
    unfold yearOf
    dsimp only
    have guess := Nat.div_add_mod (day * 400) 146097
    have rest := Nat.mod_lt (day * 400) (show 146097 > 0 by decide)
    generalize day * 400 / 146097 = year at guess ⊢
    have now := yearStart_average year
    have next := yearStart_average (year + 1)
    have afterNext := yearStart_average (year + 1 + 1)
    have previous := yearStart_average (year - 1)
    split
    · omega
    · split
      · rename_i early
        have positive : 0 < year := by
          rcases Nat.eq_zero_or_pos year with rfl | positive
          · cases early
          · exact positive
        rw [Nat.sub_add_cancel positive]
        omega
      · omega
  exact ⟨by omega, near.2⟩

theorem monthStart_monotone (leap : Bool) : Monotone (monthStart leap) := by
  apply monotone_nat_of_le_succ
  intro month
  rcases month with _ | _ | _ | _ | _ | _ | _ | _ | _ | _ | _ | _ | month
  all_goals cases leap <;> simp [monthStart]

theorem lies_month (leap : Bool) (day : Nat) (inYear : day < 365 + leap.toNat) :
    Lies (monthStart leap) day (monthOf leap day) (day - monthStart leap (monthOf leap day)) ∧
      monthOf leap day < 12 := by
  have found : ∀ leap : Bool, ∀ day < 365 + leap.toNat,
      monthStart leap (monthOf leap day) ≤ day ∧ day < monthStart leap (monthOf leap day + 1) ∧
        monthOf leap day < 12 := by decide +kernel
  obtain ⟨after, before, small⟩ := found leap day inYear
  exact ⟨⟨by omega, before⟩, small⟩

/-! ## Moments -/

def secondNanos : Nat := 1000000000
def minuteNanos : Nat := 60 * secondNanos
def hourNanos : Nat := 60 * minuteNanos
def dayNanos : Nat := 24 * hourNanos

/-- A moment taken apart. Months and days are counted from 0. -/
structure Fields where
  year : Nat
  month : Nat
  day : Nat
  hour : Nat
  minute : Nat
  second : Nat
  nano : Nat
  deriving DecidableEq, Repr

/-- The fields of a moment, given in nanoseconds since the year 0 began. -/
def fieldsOf (moment : Nat) : Fields :=
  let date := moment / dayNanos
  let year := yearOf date
  let dayOfYear := date - yearStart year
  let month := monthOf (isLeap year) dayOfYear
  let time := moment % dayNanos
  { year := year
    month := month
    day := dayOfYear - monthStart (isLeap year) month
    hour := time / hourNanos
    minute := time % hourNanos / minuteNanos
    second := time % hourNanos % minuteNanos / secondNanos
    nano := time % hourNanos % minuteNanos % secondNanos }

def momentOf (fields : Fields) : Nat :=
  dayNanos * (yearStart fields.year + (monthStart (isLeap fields.year) fields.month + fields.day)) +
    (hourNanos * fields.hour + (minuteNanos * fields.minute +
      (secondNanos * fields.second + fields.nano)))

/-- The fields are those of a moment. -/
structure Fields.Valid (fields : Fields) : Prop where
  month : fields.month < 12
  day : monthStart (isLeap fields.year) fields.month + fields.day <
    monthStart (isLeap fields.year) (fields.month + 1)
  hour : fields.hour < 24
  minute : fields.minute < 60
  second : fields.second < 60
  nano : fields.nano < secondNanos

/-- The fields compared one after the other. -/
def Fields.Before (a b : Fields) : Prop :=
  a.year < b.year ∨ a.year = b.year ∧
    (a.month < b.month ∨ a.month = b.month ∧
      (a.day < b.day ∨ a.day = b.day ∧
        (a.hour < b.hour ∨ a.hour = b.hour ∧
          (a.minute < b.minute ∨ a.minute = b.minute ∧
            (a.second < b.second ∨ a.second = b.second ∧ a.nano < b.nano)))))

private theorem dayOfYear_lt (date : Nat) :
    date - yearStart (yearOf date) < 365 + (isLeap (yearOf date)).toNat := by
  have here := (lies_year date).here
  have within := (lies_year date).within
  rw [yearStart_succ] at within
  omega

theorem fieldsOf_valid (moment : Nat) : (fieldsOf moment).Valid := by
  obtain ⟨inMonth, small⟩ := lies_month _ _ (dayOfYear_lt (moment / dayNanos))
  have time : moment % dayNanos < dayNanos := Nat.mod_lt _ (by decide)
  have hour : moment % dayNanos % hourNanos < hourNanos := Nat.mod_lt _ (by decide)
  have minute : moment % dayNanos % hourNanos % minuteNanos < minuteNanos :=
    Nat.mod_lt _ (by decide)
  exact {
    month := small
    day := inMonth.here ▸ inMonth.within
    hour := Nat.div_lt_of_lt_mul (by rw [Nat.mul_comm]; exact time)
    minute := Nat.div_lt_of_lt_mul (by rw [Nat.mul_comm]; exact hour)
    second := Nat.div_lt_of_lt_mul (by rw [Nat.mul_comm]; exact minute)
    nano := Nat.mod_lt _ (by decide) }

@[simp] theorem momentOf_fieldsOf (moment : Nat) : momentOf (fieldsOf moment) = moment := by
  have inYear := (lies_year (moment / dayNanos)).here
  have inMonth := (lies_month _ _ (dayOfYear_lt (moment / dayNanos))).1.here
  unfold momentOf fieldsOf
  dsimp only
  rw [← inMonth, ← inYear, Nat.div_add_mod, Nat.div_add_mod, Nat.div_add_mod, Nat.div_add_mod]

theorem fieldsOf_before (less : moment < later) :
    (fieldsOf moment).Before (fieldsOf later) := by
  have split (length a b : Nat) (positive : 0 < length) :=
    (lies_divide length a positive).lt (monotone_multiples length) (lies_divide length b positive)
  rcases split dayNanos _ _ (by decide) less with earlier | ⟨date, less⟩
  · -- on an earlier day
    rcases (lies_year _).lt yearStart_monotone (lies_year _) earlier with year | ⟨year, earlier⟩
    · exact .inl year
    · refine .inr ⟨year, ?_⟩
      have first := lies_month _ _ (dayOfYear_lt (moment / dayNanos))
      have second := lies_month _ _ (dayOfYear_lt (later / dayNanos))
      unfold fieldsOf
      dsimp only
      rw [year] at first earlier ⊢
      rcases first.1.lt (monthStart_monotone _) second.1 earlier with month | ⟨month, day⟩
      · exact .inl month
      · exact .inr ⟨month, .inl day⟩
  · -- earlier on the same day
    unfold fieldsOf
    dsimp only
    rw [date]
    refine .inr ⟨rfl, .inr ⟨rfl, .inr ⟨rfl, ?_⟩⟩⟩
    rcases split hourNanos _ _ (by decide) less with hour | ⟨hour, less⟩
    · exact .inl hour
    · refine .inr ⟨hour, ?_⟩
      rcases split minuteNanos _ _ (by decide) less with minute | ⟨minute, less⟩
      · exact .inl minute
      · exact .inr ⟨minute, split secondNanos _ _ (by decide) less⟩

end Satelle.Lib.Calendar
