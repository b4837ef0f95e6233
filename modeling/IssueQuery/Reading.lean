/-
What a reader hands on: the value it read from the front of a list and the elements it left. Both
forms carry the bound on the rest that makes readers built from them terminate.
-/

namespace IssueQuery

/-- A value read from the front of `input`; at least one element was used. -/
structure Reading (α : Type) {β : Type} (input : List β) where
  value : α
  rest : List β
  shorter : rest.length < input.length

/-- A value read from the front of `input`, which may have used nothing. -/
structure Remainder (α : Type) {β : Type} (input : List β) where
  value : α
  rest : List β
  notLonger : rest.length ≤ input.length

namespace Reading

variable {α γ β : Type} {input : List β}

/-- A value read from the first element alone. -/
def head (value : α) (b : β) (rest : List β) : Reading α (b :: rest) :=
  ⟨value, rest, Nat.lt_succ_self _⟩

/-- The same elements read as another value. -/
def map (f : α → γ) (r : Reading α input) : Reading γ input :=
  ⟨f r.value, r.rest, r.shorter⟩

/-- A reading of the end of a list taken as one of the whole. -/
def widen {whole : List β} (r : Reading α input) (h : input.length ≤ whole.length) : Reading α whole :=
  ⟨r.value, r.rest, Nat.lt_of_lt_of_le r.shorter h⟩

/-- A reading taken together with the element before it. -/
def past (b : β) (r : Reading α input) : Reading α (b :: input) := r.widen (Nat.le_succ _)

/-- A reading taken as one that need not have used anything. -/
def remainder (r : Reading α input) : Remainder α input := ⟨r.value, r.rest, Nat.le_of_lt r.shorter⟩

/-- What was read after `r`, taken together with it. -/
def andThen (r : Reading γ input) (s : Remainder α r.rest) : Reading α input :=
  ⟨s.value, s.rest, Nat.lt_of_le_of_lt s.notLonger r.shorter⟩

theorem length_tail_lt {b : β} {tail : List β} (r : Reading α input) (h : r.rest = b :: tail) :
    tail.length < input.length := by
  have := r.shorter
  rw [h, List.length_cons] at this
  omega

end Reading

namespace Remainder

variable {α β : Type} {input : List β}

/-- A value read from nothing. -/
def none (value : α) (input : List β) : Remainder α input := ⟨value, input, Nat.le_refl _⟩

/-- What was read after the element `b`, taken together with it. -/
def past (b : β) (r : Remainder α input) : Reading α (b :: input) :=
  ⟨r.value, r.rest, Nat.lt_succ_of_le r.notLonger⟩

end Remainder

end IssueQuery
