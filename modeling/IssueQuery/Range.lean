/-
Intervals with a bound on at least one side, as qualifiers use them for numbers and dates.
-/

namespace IssueQuery

/-- The values between two bounds, of which one may be missing; a strict range leaves its bounds
out. -/
structure Range (α : Type) where
  start : Option α
  finish : Option α
  strict : Bool
  bounded : start.isSome ∨ finish.isSome
  deriving DecidableEq

namespace Range

variable {α : Type}

/-- A range with the given bounds, if there is one among them. -/
def ofBounds? (start finish : Option α) (strict : Bool) : Option (Range α) :=
  if h : start.isSome ∨ finish.isSome then some ⟨start, finish, strict, h⟩ else none

/-- The values from `start` to `finish`. -/
def between (start finish : α) : Range α := ⟨some start, some finish, false, .inl rfl⟩

/-- The values from `start` on. -/
def above (start : α) (strict : Bool) : Range α := ⟨some start, none, strict, .inl rfl⟩

/-- The values up to `finish`. -/
def below (finish : α) (strict : Bool) : Range α := ⟨none, some finish, strict, .inr rfl⟩

/-- Whether a value lies in the range. -/
def encloses [LT α] [LE α] [DecidableLT α] [DecidableLE α] (r : Range α) (a : α) : Bool :=
  r.start.all (fun s => if r.strict then decide (s < a) else decide (s ≤ a)) &&
    r.finish.all (fun f => if r.strict then decide (a < f) else decide (a ≤ f))

/-- The range in the notation of filters. -/
def text (display : α → String) (r : Range α) : String :=
  match r.start, r.finish with
  | some s, some f => display s ++ " .. " ++ display f
  | some s, none => (if r.strict then ">" else ">=") ++ display s
  | none, some f => (if r.strict then "<" else "<=") ++ display f
  | none, none => "*"

end Range

end IssueQuery
