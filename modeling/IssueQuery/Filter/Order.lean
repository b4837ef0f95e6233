/-
The order of issues under sort keys. A key is the name of a field or else of a label group; an issue
without a label of the group comes last whichever way the key runs.
-/
import IssueQuery.Model
import IssueQuery.Qualifier.Content

namespace IssueQuery

/-- Compares two values of which either may be missing; a missing one comes last. -/
def compareMissingLast {α : Type} [Ord α] : Option α → Option α → Ordering
  | some a, some b => compare a b
  | some _, none => .lt
  | none, some _ => .gt
  | none, none => .eq

theorem compareMissingLast_map_eq_lt_iff {α β : Type} [Ord β] [LT β] (hlt : ∀ {x y : β}, compare x y = .lt ↔ x < y)
    (f : α → β) (a b : Option α) :
    compareMissingLast (a.map f) (b.map f) = .lt ↔ ∃ x ∈ a, ∀ y ∈ b, f x < f y := by
  cases a <;> cases b <;> simp [compareMissingLast, hlt]

namespace Issue

/-- The names of the issue's labels in a group, in lower case and sorted. The group is taken in any
case of its ASCII letters. -/
def namesInGroup (group : String) (i : Issue) : List String :=
  ((i.labels.filter fun l => l.group?.any (Text.sameAsciiFolded group)).map
    fun l => Text.lower l.name).mergeSort fun a b => decide (a ≤ b)

end Issue

namespace SortKey

/-- The comparison by the field that a name stands for, if it stands for one. -/
def field? (name : String) : Option (Issue → Issue → Ordering) :=
  match name with
  | "id" => some fun a b => compare a.id b.id
  | "title" => some fun a b => compare (Text.lower a.title) (Text.lower b.title)
  | "comments" => some fun a b => compare a.comments b.comments
  | "updated" | "date" => some fun a b => compare a.updatedAt.rank b.updatedAt.rank
  | "created" => some fun a b => compare a.createdAt.rank b.createdAt.rank
  | "milestone" => some fun a b =>
    compareMissingLast (a.milestone.map (Text.lower ·.title)) (b.milestone.map (Text.lower ·.title))
  | "assignee" => some fun a b =>
    compareMissingLast (a.assignee.map (Text.lower ·.login)) (b.assignee.map (Text.lower ·.login))
  | _ => none

/-- Whether the first of two issues comes before the other by the field that a name stands for: the one with
the smaller number, the earlier time, or the text that comes first without regard to case; one that has a
milestone or an assignee before one that has none. -/
def Precedes (name : String) (a b : Issue) : Prop :=
  match name with
  | "id" => a.id < b.id
  | "title" => Text.lower a.title < Text.lower b.title
  | "comments" => a.comments < b.comments
  | "updated" | "date" => a.updatedAt.rank < b.updatedAt.rank
  | "created" => a.createdAt.rank < b.createdAt.rank
  | "milestone" => ∃ m ∈ a.milestone, ∀ n ∈ b.milestone, Text.lower m.title < Text.lower n.title
  | "assignee" => ∃ u ∈ a.assignee, ∀ v ∈ b.assignee, Text.lower u.login < Text.lower v.login
  | _ => False

/-- A name that stands for a field compares issues by that field, and by nothing else. -/
theorem field?_eq_lt_iff {name : String} {comparison : Issue → Issue → Ordering} (h : field? name = some comparison)
    (a b : Issue) : comparison a b = .lt ↔ Precedes name a b := by
  have htext {s t : String} : compare s t = .lt ↔ s < t := compareOfLessAndEq_eq_lt
  unfold field? at h
  split at h
  case h_9 => cases h
  all_goals
    cases h
    simp only [Precedes]
  · exact Std.compare_eq_lt
  · exact htext
  · exact Std.compare_eq_lt
  · exact Std.compare_eq_lt
  · exact Std.compare_eq_lt
  · exact Std.compare_eq_lt
  · exact compareMissingLast_map_eq_lt_iff htext (fun m : Milestone => Text.lower m.title) _ _
  · exact compareMissingLast_map_eq_lt_iff htext (fun u : User => Text.lower u.login) _ _

/-- The label group that a key names; a full stop at its end is not part of it. -/
def groupName (key : String) : String :=
  match key.toList.reverse with
  | '.' :: rest => String.ofList rest.reverse
  | _ => key

/-- The ordering read in the direction of the key. -/
def directed (descending : Bool) (o : Ordering) : Ordering := if descending then o.swap else o

/-- Compares issues by their labels in a group: by how many there are, then by their names. -/
def compareInGroup (group : String) (descending : Bool) (a b : Issue) : Ordering :=
  match a.namesInGroup group, b.namesInGroup group with
  | [], [] => .eq
  | [], _ :: _ => .gt
  | _ :: _, [] => .lt
  | as, bs => directed descending ((compare as.length bs.length).then (compare as bs))

/-- Compares two issues by the key. -/
def compareIssues (k : SortKey) (a b : Issue) : Ordering :=
  match field? (Text.lower k.key) with
  | some comparison => directed k.descending (comparison a b)
  | none => compareInGroup (groupName (Text.lower k.key)) k.descending a b

end SortKey

namespace Issue

/-- Compares two issues by the first of the keys that tells them apart. -/
def compareBy (keys : List SortKey) (a b : Issue) : Ordering :=
  keys.foldr (fun k o => (k.compareIssues a b).then o) .eq

/-- The issues in the order of the keys. Issues that no key tells apart stay as they are. -/
def sortBy (keys : List SortKey) (issues : List Issue) : List Issue :=
  issues.mergeSort fun a b => (compareBy keys a b).isLE

end Issue

end IssueQuery
