/-
The TOML notations of times: a day of the calendar, a time of day, or both, and then perhaps a time
zone. A time is written in one form only, whatever form it was read from.
-/
import IssueQuery.Calendar.Notation

namespace IssueQuery.Toml

/-- A time of day. The second 60 is a leap second. -/
structure Clock where
  hour : Nat
  minute : Nat
  second : Nat
  nano : Nat

/-- Universal time, or a time zone that is ahead of it by so many minutes. -/
inductive Zone
  | universal
  | ahead (minutes : Int)

/-- A point in time, as far as it is given. -/
inductive Time
  | day (date : Date)
  | clock (clock : Clock)
  | moment (date : Date) (clock : Clock) (zone : Option Zone)

/-! ## Writing -/

/-- The fraction of a second without zeros at its end. -/
def fractionText (nano : Nat) : String :=
  if nano = 0 then ""
  else
    let digits := (Text.zeroPadded 9 nano).toList
    "." ++ String.ofList (digits.reverse.dropWhile (· == '0')).reverse

/-- Hour, minute and second with colons between them, and the fraction if there is one. -/
def Clock.text (c : Clock) : String :=
  Text.zeroPadded 2 c.hour ++ ":" ++ Text.zeroPadded 2 c.minute ++ ":" ++ Text.zeroPadded 2 c.second ++
    fractionText c.nano

/-- A letter for universal time, and a sign with hours and minutes for all else. -/
def Zone.text : Zone → String
  | .universal => "Z"
  | .ahead minutes =>
    let distance := minutes.natAbs
    (if minutes < 0 then "-" else "+") ++ Text.zeroPadded 2 (distance / 60) ++ ":" ++
      Text.zeroPadded 2 (distance % 60)

/-- A letter T stands between the day and the time of day. -/
def Time.text : Time → String
  | .day d => d.text
  | .clock c => c.text
  | .moment d c zone => d.text ++ "T" ++ c.text ++ (zone.map Zone.text).getD ""

/-! ## Reading -/

/-- A number of two digits up to a bound. -/
def twoDigits? (most : Nat) (a b : Char) : Option Nat := (Text.natural? [a, b]).filter (· ≤ most)

/-- A year of four digits, a month and a day, with hyphens between them. -/
def date? : List Char → Option Date
  | [y, y', y'', y''', '-', m, m', '-', d, d'] => do
    Date.ofNumbers? (← Text.natural? [y, y', y'', y''']) (← Text.natural? [m, m']) (← Text.natural? [d, d'])
  | _ => none

/-- An hour and a minute, which a second and a fraction of it may follow. -/
def clock? : List Char → Option Clock
  | h :: h' :: ':' :: m :: m' :: rest => do
    let hour ← twoDigits? 23 h h'
    let minute ← twoDigits? 59 m m'
    match rest with
    | [] => some ⟨hour, minute, 0, 0⟩
    | ':' :: s :: s' :: rest =>
      let second ← twoDigits? 60 s s'
      let (nano, rest) ← Calendar.fraction rest
      if rest.isEmpty then some ⟨hour, minute, second, nano⟩ else none
    | _ => none
  | _ => none

/-- A time zone, which may be missing. -/
def zone? : List Char → Option (Option Zone)
  | [] => some none
  | ['Z'] | ['z'] => some (some .universal)
  | [sign, h, h', ':', m, m'] => do
    let distance := (← twoDigits? 23 h h') * 60 + (← twoDigits? 59 m m')
    if sign = '+' then some (some (.ahead distance))
    else if sign = '-' then some (some (.ahead (-distance)))
    else none
  | _ => none

def isZoneStart (c : Char) : Bool := c = 'Z' || c = 'z' || c = '+' || c = '-'

/-- A day and a time of day with a letter T or a blank between them, and perhaps a zone. -/
def moment? (cs : List Char) : Option Time :=
  match cs.drop 10 with
  | separator :: rest => do
    let date ← date? (cs.take 10)
    let clock := rest.takeWhile (!isZoneStart ·)
    if separator = 'T' || separator = 't' || separator = ' ' then
      return .moment date (← clock? clock) (← zone? (rest.drop clock.length))
    else none
  | [] => none

/-- A time in one of its three forms. -/
def time? (cs : List Char) : Option Time :=
  ((date? cs).map Time.day).or (((clock? cs).map Time.clock).or (moment? cs))

end IssueQuery.Toml
