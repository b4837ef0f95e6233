/-
Searches for a text that a field holds as it stands. Text and field are put in lower case one by one, and a
capital sigma takes its form from the letters next to it; so a text may be missed where it occurs, but only
one with such a sigma at its beginning or its end, up to the characters that case passes over.
-/
import IssueQuery.Proofs.Filter.Quoting
import IssueQuery.Proofs.Text.Sigma

namespace IssueQuery

open Text (occurs occursFolded endsWord HasSettledSigmas)

namespace Qualifier

/-- The field of an issue that a search of the kind looks into, if that is one field and the issue has it. -/
def Kind.fieldOf? (k : Kind) (i : Issue) : Option String :=
  match k with
  | title => some i.title
  | body => some i.body
  | milestone => i.milestone.map (·.title)
  | author => some i.author
  | assignee => i.assignee.map (·.login)
  | _ => none

/-- The kinds that look into one field. -/
def Kind.searchesField : Kind → Bool
  | title | body | milestone | author | assignee => true
  | _ => false

variable {name t field : String} {s : Setting} {i : Issue}

/-- A search is satisfied if the lower case of its text occurs in the field. -/
theorem isSatisfied_of_occursFolded (hfield : (Kind.ofName name).fieldOf? i = some field)
    (h : occursFolded (Text.lower t) field = true) : (named name (.text t)).isSatisfied s i = true := by
  unfold isSatisfied
  simp only [kind, content]
  cases hkind : Kind.ofName name <;> rw [hkind] at hfield <;> simp only [Kind.fieldOf?] at hfield
  case title | body | author =>
    cases hfield
    simp [Content.occursIn, Content.isAuthorOf, Content.needle?, Content.asText?, h]
  case milestone | assignee =>
    obtain ⟨x, hx, rfl⟩ := Option.map_eq_some_iff.1 hfield
    simp [Content.occursIn, Content.isAssigneeOf, Content.needle?, Content.asText?, User.goesBy, hx, h]
  all_goals cases hfield

/-- In an issue in which every text is the same, such a search looks into that. -/
theorem Kind.fieldOf?_ofText {k : Kind} (h : k.searchesField = true) (field : String) :
    k.fieldOf? (.ofText field) = some field := by
  cases k <;> first
    | rfl
    | cases h

theorem isSatisfied_field_ofText (hk : (Kind.ofName name).searchesField = true) (now : Instant) :
    (named name (.text t)).isSatisfied ⟨.empty, .whole, now⟩ (.ofText field) = occursFolded (Text.lower t) field := by
  unfold isSatisfied
  simp only [kind, content]
  cases hkind : Kind.ofName name <;> rw [hkind] at hk <;> simp only [Kind.searchesField, Bool.false_eq_true] at hk <;>
    simp [Content.occursIn, Content.isAuthorOf, Content.isAssigneeOf, Content.needle?, Content.asText?, User.goesBy,
      Model.empty, Model.user?, Issue.ofText]

/-- A search for a text is satisfied wherever the field holds the text, if the same capital sigmas end words
there as in the text alone. It is so in all issues whose field holds the text, exactly if the sigmas of the
text are settled. -/
theorem isSatisfied_of_occurs_iff (hk : (Kind.ofName name).searchesField = true) :
    (∀ s i field before after, (Kind.ofName name).fieldOf? i = some field →
      field.toList = before ++ t.toList ++ after →
      (∀ u v, t.toList = u ++ 'Σ' :: v → endsWord (before ++ u) (v ++ after) = endsWord u v) →
      (named name (.text t)).isSatisfied s i = true) ∧
    ((∀ s i field, (Kind.ofName name).fieldOf? i = some field → occurs t field = true →
      (named name (.text t)).isSatisfied s i = true) ↔ HasSettledSigmas t.toList) := by
  refine ⟨fun s i field before after hfield hplace hsame => ?_, ?_⟩
  · exact isSatisfied_of_occursFolded hfield (Text.occursFolded_of_endsWord_eq hplace hsame)
  · rw [← Text.forall_occursFolded_lower_iff]
    constructor
    · intro h hay hoccurs
      rw [← isSatisfied_field_ofText hk (Issue.ofText "").createdAt]
      exact h _ _ hay (Kind.fieldOf?_ofText hk hay) hoccurs
    · exact fun h s i field hfield hoccurs => isSatisfied_of_occursFolded hfield (h field hoccurs)

/-- The first sigma has a letter behind it and the second a blank, whatever the text stands in. -/
theorem isSatisfied_of_occurs_settled :
    let s : Setting := ⟨.empty, .whole, (Issue.ofText "").createdAt⟩
    (Kind.ofName "title").searchesField = true ∧ HasSettledSigmas "ΣΑΣ Α".toList ∧
      occurs "ΣΑΣ Α" "Ο ΣΑΣ ΑΛΛΟΣ" = true ∧
      (named "title" (.text "ΣΑΣ Α")).isSatisfied s (.ofText "Ο ΣΑΣ ΑΛΛΟΣ") = true := by
  intro s
  have hk : (Kind.ofName "title").searchesField = true := by decide
  have hsettled : HasSettledSigmas "ΣΑΣ Α".toList := by decide +kernel
  have hoccurs : occurs "ΣΑΣ Α" "Ο ΣΑΣ ΑΛΛΟΣ" = true := by decide +kernel
  exact ⟨hk, hsettled, hoccurs, (isSatisfied_of_occurs_iff hk).2.2 hsettled _ _ _ (Kind.fieldOf?_ofText hk _) hoccurs⟩

/-- A sigma that ends the text but no word of the field hides the text in any of the fields. -/
theorem exists_occurs_not_isSatisfied : ∃ (s : Setting) (i : Issue) (t : String), t ≠ "" ∧
    ∀ name ∈ ["title", "body", "milestone", "author", "assignee"], ∃ field,
      (Kind.ofName name).fieldOf? i = some field ∧ occurs t field = true ∧
        (named name (.text t)).isSatisfied s i = false := by
  refine ⟨⟨.empty, .whole, (Issue.ofText "").createdAt⟩, .ofText "ΟΔΥΣΣΕΥΣ", "ΟΔΥΣ", by decide, ?_⟩
  have hfolded : occursFolded (Text.lower "ΟΔΥΣ") "ΟΔΥΣΣΕΥΣ" = false := by decide +kernel
  intro name hname
  have hk : (Kind.ofName name).searchesField = true := by
    revert name
    decide
  refine ⟨"ΟΔΥΣΣΕΥΣ", Kind.fieldOf?_ofText hk _, by decide, ?_⟩
  rw [isSatisfied_field_ofText hk, hfolded]

end Qualifier

end IssueQuery
