/-
Decimal numerals within machine bounds, hexadecimal ones, and numbers padded to a width.
-/

namespace IssueQuery.Text

/-! ## Reading -/

/-- The number that a run of ASCII digits denotes; a numeral has at least one digit. -/
def natural? (cs : List Char) : Option Nat :=
  if !cs.isEmpty && cs.all Char.isDigit then some (Nat.ofDigitChars 10 cs 0) else none

/-- A numeral with an optional sign. -/
def integer? : List Char → Option Int
  | '-' :: cs => (natural? cs).map fun n => -(n : Int)
  | '+' :: cs => (natural? cs).map fun n => (n : Int)
  | cs => (natural? cs).map fun n => (n : Int)

/-- A numeral that may open with a plus sign. -/
def unsigned? : List Char → Option Nat
  | '+' :: cs => natural? cs
  | cs => natural? cs

/-- Signed numbers of 64 bits end before this one and begin at its negative. -/
def int64Bound : Int := 9223372036854775808

/-- A signed numeral that fits in 64 bits. -/
def int64? (s : String) : Option Int :=
  (integer? s.toList).filter fun n => -int64Bound ≤ n && n < int64Bound

/-- An unsigned numeral that fits in 64 bits. -/
def uint64? (s : String) : Option Nat := (unsigned? s.toList).filter (· < UInt64.size)

/-- The number as a 32-bit word, if it fits. -/
def word32OfNat? (n : Nat) : Option UInt32 := if n < UInt32.size then some (UInt32.ofNat n) else none

/-- An unsigned numeral that fits in 32 bits. -/
def word32? (cs : List Char) : Option UInt32 := (unsigned? cs).bind word32OfNat?

/-- The value of a hexadecimal digit. -/
def hexDigit? (c : Char) : Option Nat :=
  if c.isDigit then some (c.toNat - '0'.toNat)
  else if 'a' ≤ c ∧ c ≤ 'f' then some (c.toNat - 'a'.toNat + 10)
  else if 'A' ≤ c ∧ c ≤ 'F' then some (c.toNat - 'A'.toNat + 10)
  else none

/-- The number that digits of a base denote, the greatest first. -/
def ofDigits (base : Nat) (digits : List Nat) : Nat := digits.foldl (fun n d => n * base + d) 0

/-- The number that hexadecimal digits denote. -/
def hexNumber? (cs : List Char) : Option Nat := (cs.mapM hexDigit?).map (ofDigits 16)

/-! ## Writing -/

/-- The text with `fill` put before it up to `width` characters. -/
def padLeft (width : Nat) (fill : Char) (s : String) : String :=
  String.ofList (List.replicate (width - s.length) fill) ++ s

/-- The text with blanks after it up to `width` characters. -/
def padRight (width : Nat) (s : String) : String :=
  s ++ String.ofList (List.replicate (width - s.length) ' ')

/-- The number in at least `width` digits. -/
def zeroPadded (width n : Nat) : String := padLeft width '0' (toString n)

end IssueQuery.Text
