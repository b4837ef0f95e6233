/-
The TOML notations of numbers, and which numbers a document can hold: integers of 128 bits, with a
sign or without, and decimals that do not round to infinity in 64 bits.
-/
import IssueQuery.Text.Numeral

namespace IssueQuery.Toml

/-! ## Digits -/

/-- The value of a digit of a base up to sixteen. -/
def digit? (base : Nat) (c : Char) : Option Nat := (Text.hexDigit? c).filter (· < base)

/-- The values of digits, of which there is at least one. Single underscores may part them. -/
def digits? (base : Nat) (cs : List Char) : Option (List Nat) :=
  let groups := cs.splitOn '_'
  if groups.any List.isEmpty then none else groups.flatten.mapM (digit? base)

/-- The number that digits of a base denote. -/
def natural? (base : Nat) (cs : List Char) : Option Nat := (digits? base cs).map (Text.ofDigits base)

/-- The digits of a decimal number, of which the first is zero only if it is the only one. -/
def wholeDigits? (cs : List Char) : Option (List Nat) :=
  if cs.head? = some '0' ∧ cs ≠ ['0'] then none else digits? 10 cs

def withoutSign : List Char → List Char
  | '+' :: cs | '-' :: cs => cs
  | cs => cs

/-- The number with the sign that the characters begin with; no sign is a plus. -/
def signed (cs : List Char) (n : Nat) : Int := if cs.head? = some '-' then -(n : Int) else n

/-! ## Integers -/

/-- An integer. Only a decimal one may have a sign. -/
def integer? : List Char → Option Int
  | '0' :: 'x' :: cs => (natural? 16 cs).map Int.ofNat
  | '0' :: 'o' :: cs => (natural? 8 cs).map Int.ofNat
  | '0' :: 'b' :: cs => (natural? 2 cs).map Int.ofNat
  | cs => (wholeDigits? (withoutSign cs)).map fun ds => signed cs (Text.ofDigits 10 ds)

/-- Whether 128 bits can hold the integer, be it as a signed number or as one without a sign. -/
def fitsInteger (n : Int) : Bool := -Int.ofNat (Nat.pow 2 127) ≤ n && n < Int.ofNat (Nat.pow 2 128)

/-! ## Decimals -/

/-- The number `0.d₁d₂… · 10 ^ point` of the digits `d₁, d₂, …`. -/
structure Decimal where
  digits : List Nat
  point : Int

namespace Decimal

/-- The least number that rounds to infinity. It lies halfway between the greatest float of 64 bits
and the power of two after that, and an odd float loses a tie. -/
def infinityBound : Nat := Nat.pow 2 1024 - Nat.pow 2 970

/-- The number of decimal digits of `infinityBound`. -/
def boundSize : Nat := 309

/-- Whether the number rounds to a float other than infinity. Digits are compared only if the point
stands where that of the bound does. -/
def isFinite (x : Decimal) : Bool :=
  let zeros := x.digits.takeWhile (· == 0)
  let digits := x.digits.drop zeros.length
  let point := x.point - zeros.length
  let whole := (digits ++ List.replicate boundSize 0).take boundSize
  digits.isEmpty || point < boundSize || (point == boundSize && Text.ofDigits 10 whole < infinityBound)

end Decimal

def isExponentMark (c : Char) : Bool := c = 'e' || c = 'E'

/-- A decimal number without a sign, which has a fraction, an exponent or both. -/
def decimal? (cs : List Char) : Option Decimal := do
  let mantissa := cs.takeWhile (!isExponentMark ·)
  let whole := mantissa.takeWhile (· != '.')
  let wholeDigits ← wholeDigits? whole
  let fractionDigits ←
    match mantissa.drop whole.length with
    | [] => some []
    | _ :: fraction => digits? 10 fraction
  let exponent ←
    match cs.drop mantissa.length with
    | [] => some 0
    | _ :: exponent => (natural? 10 (withoutSign exponent)).map (signed exponent)
  if whole = cs then none else some ⟨wholeDigits ++ fractionDigits, wholeDigits.length + exponent⟩

/-! ## Numbers -/

/-- The words for infinity and for what is not a number. -/
def isNumberWord (cs : List Char) : Bool := cs == "inf".toList || cs == "nan".toList

/-- A number that a document can hold. -/
def isNumber (cs : List Char) : Bool :=
  (integer? cs).any fitsInteger || (decimal? (withoutSign cs)).any Decimal.isFinite ||
    isNumberWord (withoutSign cs)

end IssueQuery.Toml
