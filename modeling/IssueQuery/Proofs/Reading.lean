/-
What it means that a reader succeeds, told by the value it gives and the elements it leaves, and
where it fails.
-/
import Mathlib
import IssueQuery.Reading

namespace IssueQuery

variable {ε α β γ : Type} {input : List β} {a : α} {c : γ} {rest : List β}

theorem bind_eq_ok_iff {x : Except ε α} {f : α → Except ε γ} :
    x >>= f = .ok c ↔ ∃ a, x = .ok a ∧ f a = .ok c := by
  cases x with
  | error e => simp [bind, Except.bind]
  | ok a => simp [bind, Except.bind]

theorem bind_eq_error_iff {x : Except ε α} {f : α → Except ε γ} {e : ε} :
    x >>= f = .error e ↔ x = .error e ∨ ∃ a, x = .ok a ∧ f a = .error e := by
  cases x with
  | error e => simp [bind, Except.bind]
  | ok a => simp [bind, Except.bind]

/-- A check before the rest of the computation is passed. -/
theorem guard_eq_ok_iff {p : Prop} [Decidable p] {e : ε} {k : PUnit → Except ε α} :
    (if p then throw e >>= k else k ()) = .ok a ↔ ¬ p ∧ k () = .ok a := by
  by_cases hp : p
  · simp [hp, throw, throwThe, MonadExceptOf.throw, bind, Except.bind]
  · simp [hp]

theorem mapError_eq_ok_iff {ε' : Type} {x : Except ε α} {g : ε → ε'} : x.mapError g = .ok a ↔ x = .ok a := by
  cases x <;> simp [Except.mapError]

theorem pure_ne_error {e : ε} : (pure a : Except ε α) ≠ .error e := by
  intro h
  cases h

/-- A reader whose value is handed on fails where it fails by itself. -/
theorem map_eq_error_iff {x : Except ε α} {g : α → γ} {e : ε} :
    (x >>= fun r => pure (g r)) = .error e ↔ x = .error e := by
  rw [bind_eq_error_iff, or_iff_left]
  rintro ⟨_, -, h⟩
  exact pure_ne_error h

theorem eq_ok_of_toOption {x : Except ε α} (h : x.toOption = some a) : x = .ok a := by
  cases x with
  | error e => cases h
  | ok b => cases h; rfl

/-- The reader succeeds with the value `a` and leaves `rest`. -/
def Yields (x : Except ε (Reading α input)) (a : α) (rest : List β) : Prop :=
  ∃ r, x = .ok r ∧ r.value = a ∧ r.rest = rest

/-- As `Yields`, for a reader that may have used nothing. -/
def Leaves (x : Except ε (Remainder α input)) (a : α) (rest : List β) : Prop :=
  ∃ r, x = .ok r ∧ r.value = a ∧ r.rest = rest

theorem Yields.length_lt {x : Except ε (Reading α input)} (h : Yields x a rest) : rest.length < input.length := by
  obtain ⟨r, -, -, rfl⟩ := h
  exact r.shorter

theorem Yields.unique {x : Except ε (Reading α input)} {a' : α} {rest' : List β} (h : Yields x a rest)
    (h' : Yields x a' rest') : a = a' ∧ rest = rest' := by
  obtain ⟨r, rfl, rfl, rfl⟩ := h
  obtain ⟨r', hr, rfl, rfl⟩ := h'
  cases hr
  exact ⟨rfl, rfl⟩

theorem Leaves.unique {x : Except ε (Remainder α input)} {a' : α} {rest' : List β} (h : Leaves x a rest)
    (h' : Leaves x a' rest') : a = a' ∧ rest = rest' := by
  obtain ⟨r, rfl, rfl, rfl⟩ := h
  obtain ⟨r', hr, rfl, rfl⟩ := h'
  cases hr
  exact ⟨rfl, rfl⟩

theorem yields_pure {r : Reading α input} :
    Yields (pure r : Except ε (Reading α input)) a rest ↔ r.value = a ∧ r.rest = rest := by
  constructor
  · rintro ⟨r', h, rfl, rfl⟩; cases h; exact ⟨rfl, rfl⟩
  · rintro ⟨rfl, rfl⟩; exact ⟨r, rfl, rfl, rfl⟩

theorem leaves_pure {r : Remainder α input} :
    Leaves (pure r : Except ε (Remainder α input)) a rest ↔ r.value = a ∧ r.rest = rest := by
  constructor
  · rintro ⟨r', h, rfl, rfl⟩; cases h; exact ⟨rfl, rfl⟩
  · rintro ⟨rfl, rfl⟩; exact ⟨r, rfl, rfl, rfl⟩

theorem not_yields_error {e : ε} : ¬ Yields (.error e : Except ε (Reading α input)) a rest := by
  rintro ⟨_, h, -⟩; cases h

theorem not_leaves_error {e : ε} : ¬ Leaves (.error e : Except ε (Remainder α input)) a rest := by
  rintro ⟨_, h, -⟩; cases h

theorem yields_bind {x : Except ε γ} {f : γ → Except ε (Reading α input)} :
    Yields (x >>= f) a rest ↔ ∃ c, x = .ok c ∧ Yields (f c) a rest := by
  constructor
  · rintro ⟨r, h, hr⟩
    obtain ⟨c, hx, hf⟩ := bind_eq_ok_iff.1 h
    exact ⟨c, hx, r, hf, hr⟩
  · rintro ⟨c, hx, r, hf, hr⟩
    exact ⟨r, bind_eq_ok_iff.2 ⟨c, hx, hf⟩, hr⟩

theorem leaves_bind {x : Except ε γ} {f : γ → Except ε (Remainder α input)} :
    Leaves (x >>= f) a rest ↔ ∃ c, x = .ok c ∧ Leaves (f c) a rest := by
  constructor
  · rintro ⟨r, h, hr⟩
    obtain ⟨c, hx, hf⟩ := bind_eq_ok_iff.1 h
    exact ⟨c, hx, r, hf, hr⟩
  · rintro ⟨c, hx, r, hf, hr⟩
    exact ⟨r, bind_eq_ok_iff.2 ⟨c, hx, hf⟩, hr⟩

/-- A reading handed on as another value of a longer list. -/
theorem yields_map_iff {whole : List β} (f : γ → α) {x : Except ε (Reading γ input)}
    {g : Reading γ input → Reading α whole} (hv : ∀ r, (g r).value = f r.value) (hr : ∀ r, (g r).rest = r.rest) :
    Yields (x >>= fun r => pure (g r)) a rest ↔ ∃ c, Yields x c rest ∧ f c = a := by
  rw [yields_bind]
  constructor
  · rintro ⟨r, hx, h⟩
    obtain ⟨rfl, rfl⟩ := yields_pure.1 h
    exact ⟨r.value, ⟨r, hx, rfl, (hr r).symm⟩, (hv r).symm⟩
  · rintro ⟨_, ⟨r, hx, rfl, rfl⟩, rfl⟩
    exact ⟨r, hx, yields_pure.2 ⟨hv r, hr r⟩⟩

/-- What was left of a reader, taken as a reading of a longer list. -/
theorem yields_remainder_iff {whole : List β} {x : Except ε (Remainder α input)}
    {g : Remainder α input → Reading α whole} (hv : ∀ r, (g r).value = r.value) (hr : ∀ r, (g r).rest = r.rest) :
    Yields (x >>= fun r => pure (g r)) a rest ↔ Leaves x a rest := by
  rw [yields_bind]
  constructor
  · rintro ⟨r, hx, h⟩
    obtain ⟨rfl, rfl⟩ := yields_pure.1 h
    exact ⟨r, hx, (hv r).symm, (hr r).symm⟩
  · rintro ⟨r, hx, rfl, rfl⟩
    exact ⟨r, hx, yields_pure.2 ⟨hv r, hr r⟩⟩

theorem leaves_remainder_iff {whole : List β} {x : Except ε (Remainder α input)}
    {g : Remainder α input → Remainder α whole} (hv : ∀ r, (g r).value = r.value) (hr : ∀ r, (g r).rest = r.rest) :
    Leaves (x >>= fun r => pure (g r)) a rest ↔ Leaves x a rest := by
  rw [leaves_bind]
  constructor
  · rintro ⟨r, hx, h⟩
    obtain ⟨rfl, rfl⟩ := leaves_pure.1 h
    exact ⟨r, hx, (hv r).symm, (hr r).symm⟩
  · rintro ⟨r, hx, rfl, rfl⟩
    exact ⟨r, hx, leaves_pure.2 ⟨hv r, hr r⟩⟩

end IssueQuery
