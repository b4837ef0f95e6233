/-
Dates of the Gregorian calendar, extended to all years of a fixed span: which dates there are, how
they are ordered and counted, and the day before and after one.
-/
import IssueQuery.Text.Numeral

namespace IssueQuery

namespace Date

/-! ## The calendar -/

def firstYear : Int := -262143

def lastYear : Int := 262142

/-- Every fourth year is a leap year, of the full centuries only every fourth. -/
def isLeapYear (year : Int) : Bool := year % 4 == 0 && (year % 100 != 0 || year % 400 == 0)

/-- The number of days of a month. -/
def daysIn (year : Int) (month : Nat) : Nat :=
  match month with
  | 2 => if isLeapYear year then 29 else 28
  | 4 | 6 | 9 | 11 => 30
  | _ => 31

/-- The numbers name a day of the calendar. -/
def Valid (year : Int) (month day : Nat) : Prop :=
  firstYear ≤ year ∧ year ≤ lastYear ∧ 1 ≤ month ∧ month ≤ 12 ∧ 1 ≤ day ∧ day ≤ daysIn year month

instance (year : Int) (month day : Nat) : Decidable (Valid year month day) := by
  unfold Valid; infer_instance

end Date

/-- A day of the calendar. -/
structure Date where
  year : Int
  month : Nat
  day : Nat
  valid : Date.Valid year month day
  deriving DecidableEq

namespace Date

/-- The date that the numbers name, if they name one. -/
def ofNumbers? (year : Int) (month day : Nat) : Option Date :=
  if h : Valid year month day then some ⟨year, month, day, h⟩ else none

theorem day_le (d : Date) : d.day ≤ 31 := by
  obtain ⟨_, _, _, _, _, h⟩ := d.valid
  refine Nat.le_trans h ?_
  unfold daysIn
  split <;> (try split) <;> omega

/-! ## Order -/

/-- A number that grows with the date. -/
def rank (d : Date) : Int := (d.year * 13 + d.month) * 32 + d.day

instance : LT Date := ⟨fun a b => a.rank < b.rank⟩

instance : LE Date := ⟨fun a b => a.rank ≤ b.rank⟩

instance : DecidableLT Date := fun a b => inferInstanceAs (Decidable (a.rank < b.rank))

instance : DecidableLE Date := fun a b => inferInstanceAs (Decidable (a.rank ≤ b.rank))

/-! ## Counting days -/

/-- The days of the year before the first of a month. -/
def daysBeforeMonth (year : Int) : Nat → Nat
  | month + 2 => daysBeforeMonth year (month + 1) + daysIn year (month + 1)
  | _ => 0

/-- The days from the first of January of the year one up to the date. -/
def dayNumber (d : Date) : Int :=
  let past := d.year - 1
  past * 365 + past / 4 - past / 100 + past / 400 + daysBeforeMonth d.year d.month + (d.day - 1)

/-- The day after, if the calendar has it. -/
def next? (d : Date) : Option Date :=
  ((ofNumbers? d.year d.month (d.day + 1)).or (ofNumbers? d.year (d.month + 1) 1)).or
    (ofNumbers? (d.year + 1) 1 1)

/-- The day before, if the calendar has it. -/
def previous? (d : Date) : Option Date :=
  ((ofNumbers? d.year d.month (d.day - 1)).or
    (ofNumbers? d.year (d.month - 1) (daysIn d.year (d.month - 1)))).or
    (ofNumbers? (d.year - 1) 12 31)

end Date

end IssueQuery
