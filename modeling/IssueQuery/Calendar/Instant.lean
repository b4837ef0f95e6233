/-
Points in time: a date, a second of its day, and a fraction of that second. A leap second extends
the fraction of the second before it.
-/
import IssueQuery.Calendar.Date

namespace IssueQuery

namespace Instant

/-- Nanoseconds of a second. -/
def billion : Nat := 1000000000

/-- The fraction is below one second, or below two in the last second of a minute. -/
def Valid (second nano : Nat) : Prop :=
  second < 86400 ∧ nano < 2 * billion ∧ (nano < billion ∨ second % 60 = 59)

instance (second nano : Nat) : Decidable (Valid second nano) := by unfold Valid; infer_instance

end Instant

/-- A point in time, in universal time: the second counts from midnight, and a fraction of one
second or more lies in a leap second. -/
structure Instant where
  date : Date
  second : Nat
  nano : Nat
  valid : Instant.Valid second nano
  deriving DecidableEq

namespace Instant

/-- A number that grows with time: date first, then second, then fraction. -/
def rank (t : Instant) : Int := (t.date.rank * 86400 + t.second) * (2 * billion) + t.nano

/-! ## Durations -/

/-- The nanoseconds from one time of day to another. A leap second lies between two different
seconds if the earlier of them has it. -/
def nanosOfDayBetween (earlier later : Instant) : Int :=
  let between : Int := (later.second : Int) - earlier.second
  let leap : Int :=
    if earlier.second < later.second then if billion ≤ earlier.nano then 1 else 0
    else if later.second < earlier.second then if billion ≤ later.nano then -1 else 0
    else 0
  (between + leap) * billion + ((later.nano : Int) - earlier.nano)

/-- The nanoseconds from one instant to another, negative if the other is the earlier. -/
def nanosBetween (earlier later : Instant) : Int :=
  (later.date.dayNumber - earlier.date.dayNumber) * 86400 * billion + nanosOfDayBetween earlier later

/-- The whole hours from one instant to another, rounded toward zero. -/
def hoursBetween (earlier later : Instant) : Int :=
  (nanosBetween earlier later).tdiv (3600 * billion)

end Instant

end IssueQuery
