/-
Dates and instants as text. Dates are written with hyphens, instants in universal time with as few
groups of three fraction digits as they need. The reader is more lenient: it passes over blanks
between the parts and turns other time zones into universal time.
-/
import IssueQuery.Calendar.Instant
import IssueQuery.Text.Blank

namespace IssueQuery

/-! ## Writing -/

/-- A year has four digits, and outside of those a sign. -/
def Date.yearText (year : Int) : String :=
  if 0 ≤ year ∧ year ≤ 9999 then Text.zeroPadded 4 year.toNat
  else (if year < 0 then "-" else "+") ++ Text.zeroPadded 4 year.natAbs

/-- Year, month and day with hyphens between them. -/
def Date.text (d : Date) : String :=
  Date.yearText d.year ++ "-" ++ Text.zeroPadded 2 d.month ++ "-" ++ Text.zeroPadded 2 d.day

namespace Instant

/-- The fraction of a second in the fewest groups of three digits that hold it. -/
def fractionText (nano : Nat) : String :=
  if nano = 0 then ""
  else if nano % 1000000 = 0 then "." ++ Text.zeroPadded 3 (nano / 1000000)
  else if nano % 1000 = 0 then "." ++ Text.zeroPadded 6 (nano / 1000)
  else "." ++ Text.zeroPadded 9 nano

/-- Hour and minute with a colon between them. -/
def clockText (t : Instant) : String :=
  Text.zeroPadded 2 (t.second / 3600) ++ ":" ++ Text.zeroPadded 2 (t.second / 60 % 60)

/-- The instant in full, in universal time; a leap second is written as second 60. -/
def text (t : Instant) : String :=
  t.date.text ++ "T" ++ t.clockText ++ ":" ++ Text.zeroPadded 2 (t.second % 60 + t.nano / billion) ++
    fractionText (t.nano % billion) ++ "Z"

end Instant

/-! ## Reading the parts -/

namespace Calendar

/-! Each part gives its value and the characters after it. -/

/-- The number that the first digits denote, of which there must be one and count at most `most`. -/
def digits (most : Nat) (cs : List Char) : Option (Nat × List Char) :=
  let run := (cs.take most).takeWhile Char.isDigit
  (Text.natural? run).map (·, cs.drop run.length)

/-- A number of at most two digits, after any blanks. -/
def twoDigits (cs : List Char) : Option (Nat × List Char) := digits 2 (Text.trimStart cs)

/-- A year of at most four digits, or of any number after a sign. -/
def year (cs : List Char) : Option (Int × List Char) :=
  match Text.trimStart cs with
  | '-' :: cs => (digits cs.length cs).map fun (n, rest) => (-(n : Int), rest)
  | '+' :: cs => (digits cs.length cs).map fun (n, rest) => ((n : Int), rest)
  | cs => (digits 4 cs).map fun (n, rest) => ((n : Int), rest)

/-- The character `c`, after any blanks. -/
def mark (c : Char) (cs : List Char) : Option (List Char) :=
  match Text.trimStart cs with
  | d :: rest => if d = c then some rest else none
  | [] => none

/-- A date at the front of a text. -/
def date (cs : List Char) : Option (Date × List Char) := do
  let (y, cs) ← year cs
  let (m, cs) ← twoDigits (← mark '-' cs)
  let (d, cs) ← twoDigits (← mark '-' cs)
  let date ← Date.ofNumbers? y m d
  return (date, cs)

/-- A fraction of a second in nanoseconds; digits after the ninth are passed over. -/
def fraction (cs : List Char) : Option (Nat × List Char) :=
  match cs with
  | '.' :: cs =>
    (digits 9 cs).map fun (n, rest) =>
      (n * Nat.pow 10 (9 - (cs.length - rest.length)), rest.dropWhile Char.isDigit)
  | cs => some (0, cs)

/-- Date and time stand apart by a letter T or by a space. -/
def separator : List Char → Option (List Char)
  | 'T' :: rest | 't' :: rest | ' ' :: rest => some rest
  | _ => none

/-- The distance of a time zone from universal time, in minutes. -/
def zone (cs : List Char) : Option (Int × List Char) :=
  let signed (sign : Int) (cs : List Char) : Option (Int × List Char) :=
    match cs with
    | h :: h' :: cs =>
      match cs.dropWhile fun c => c == ':' || Text.isBlank c with
      | m :: m' :: rest => do
        let hours ← Text.natural? [h, h']
        let minutes ← Text.natural? [m, m']
        if hours < 24 ∧ minutes < 60 then some (sign * (hours * 60 + minutes), rest) else none
      | _ => none
    | _ => none
  match cs with
  | 'Z' :: rest | 'z' :: rest => some (0, rest)
  | '+' :: rest => signed 1 rest
  | '-' :: rest | '−' :: rest => signed (-1) rest
  | u :: t :: c :: rest => if [u, t, c].map Char.toLower = ['u', 't', 'c'] then some (0, rest) else none
  | _ => none

end Calendar

/-! ## Reading -/

/-- The date that a text gives, and nothing else but blanks. -/
def Date.ofText? (s : String) : Option Date := do
  let (date, rest) ← Calendar.date s.toList
  if (Text.trimStart rest).isEmpty then some date else none

namespace Instant

/-- The instant at a second and fraction of a day, if the day has it. -/
def ofParts? (date : Date) (second nano : Nat) : Option Instant :=
  if h : Valid second nano then some ⟨date, second, nano, h⟩ else none

/-- The instant that clocks show as the given time in a zone so many minutes ahead of universal
time. -/
def ofZoned? (date : Date) (second nano : Nat) (minutes : Int) : Option Instant := do
  let universal := (second : Int) - minutes * 60
  if universal < 0 then ofParts? (← date.previous?) (universal + 86400).toNat nano
  else if 86400 ≤ universal then ofParts? (← date.next?) (universal - 86400).toNat nano
  else ofParts? date universal.toNat nano

/-- The instant that a text gives, and nothing else but blanks at its end. The second 60 stands for
a leap second after the second 59. -/
def ofText? (s : String) : Option Instant := do
  let (date, cs) ← Calendar.date s.toList
  let (hour, cs) ← Calendar.twoDigits (← Calendar.separator cs)
  let (minute, cs) ← Calendar.twoDigits (← Calendar.mark ':' cs)
  let (second, cs) ← Calendar.twoDigits (← Calendar.mark ':' cs)
  let (nano, cs) ← Calendar.fraction cs
  let (minutes, rest) ← Calendar.zone (Text.trimStart cs)
  if hour < 24 ∧ minute < 60 ∧ second ≤ 60 ∧ (Text.trimStart rest).isEmpty then
    let leap := if second = 60 then 1 else 0
    ofZoned? date (hour * 3600 + minute * 60 + (second - leap)) (nano + leap * billion) minutes
  else none

end Instant

end IssueQuery
