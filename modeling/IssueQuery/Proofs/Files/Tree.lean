/-
What changes to a tree of files leave as it was. No change takes a directory away, so that a path keeps
leading where it led; directories are made without touching any file, and a file is written without touching
another.
-/
import Mathlib
import IssueQuery.Files.Tree

namespace IssueQuery.Tree

variable {t u v : Tree} {names place : List String}

/-! ## Nodes -/

/-- The text of the file at the end of the names. -/
def text? (t : Tree) (names : List String) : Option String :=
  match t.entry names with
  | .file text => some text
  | _ => none

theorem text?_eq_some_iff {text : String} : t.text? names = some text ↔ t.entry names = .file text := by
  unfold text?
  cases t.entry names <;> simp

theorem lookup_filter_ne {nodes : List (List String × Option String)} (h : names ≠ place) :
    (nodes.filter fun (n, _) => n != place).lookup names = nodes.lookup names := by
  induction nodes with
  | nil => rfl
  | cons node nodes ih =>
    obtain ⟨n, contents⟩ := node
    by_cases hn : n = place
    · have hne : (names == n) = false := by rw [hn]; exact beq_eq_false_iff_ne.2 h
      rw [List.filter_cons_of_neg (by simp [hn]), List.lookup_cons, hne, ih]
    · rw [List.filter_cons_of_pos (by simp [hn]), List.lookup_cons, List.lookup_cons, ih]

theorem entry_put_ne (h : names ≠ place) (node : Option String) : (t.put place node).entry names = t.entry names := by
  have hne : (names == place) = false := beq_eq_false_iff_ne.2 h
  unfold entry put
  rw [List.lookup_cons, hne, lookup_filter_ne h]

theorem entry_put_self (h : place ≠ []) (node : Option String) :
    (t.put place node).entry place = node.elim .directory .file := by
  unfold entry put
  rw [if_neg (by simpa using h), List.lookup_cons, beq_self_eq_true]
  cases node <;> rfl

theorem text?_put_ne (h : names ≠ place) (node : Option String) : (t.put place node).text? names = t.text? names := by
  rw [text?, text?, entry_put_ne h]

/-! ## Directories that stay -/

/-- The directories of one tree are in another, with the same current one. -/
structure Keeps (t u : Tree) : Prop where
  here : u.here = t.here
  isDirectory : ∀ names, t.isDirectory names = true → u.isDirectory names = true

theorem Keeps.refl (t : Tree) : Keeps t t := ⟨rfl, fun _ h => h⟩

theorem Keeps.trans (h : Keeps t u) (h' : Keeps u v) : Keeps t v :=
  ⟨h'.here.trans h.here, fun names hnames => h'.isDirectory names (h.isDirectory names hnames)⟩

/-- A node in a place that is no directory takes no directory away. -/
theorem keeps_put (h : t.isDirectory place = false) (node : Option String) : Keeps t (t.put place node) where
  here := rfl
  isDirectory names hnames := by
    have hne : names ≠ place := by
      rintro rfl
      rw [h] at hnames
      cases hnames
    rw [isDirectory, entry_put_ne hne]
    exact hnames

theorem Keeps.walk (h : Keeps t u) {pieces : List String} (hwalk : t.walk names pieces = some place) :
    u.walk names pieces = some place := by
  induction pieces generalizing names with
  | nil => exact hwalk
  | cons piece pieces ih =>
    rw [Tree.walk] at hwalk ⊢
    by_cases hdirectory : t.isDirectory names = true
    · rw [if_neg (by simp [hdirectory])] at hwalk
      rw [if_neg (by simp [h.isDirectory names hdirectory])]
      split_ifs at hwalk ⊢
      all_goals exact ih hwalk
    · rw [if_pos (by simpa using hdirectory)] at hwalk
      cases hwalk

/-- A path that leads somewhere leads there still. -/
theorem Keeps.resolve (h : Keeps t u) {path : String} (hpath : t.resolve path = some place) :
    u.resolve path = some place := by
  have hstart : u.start path = t.start path := by rw [start, start, h.here]
  unfold Tree.resolve at hpath ⊢
  split_ifs at hpath ⊢
  rw [hstart]
  exact h.walk hpath

/-! ## Changes -/

/-- One tree grows into another: no file changes, and no directory goes. -/
structure Grows (t u : Tree) : Prop extends Keeps t u where
  text? : ∀ names, u.text? names = t.text? names

theorem Grows.refl (t : Tree) : Grows t t := ⟨.refl t, fun _ => rfl⟩

theorem Grows.trans (h : Grows t u) (h' : Grows u v) : Grows t v :=
  ⟨h.toKeeps.trans h'.toKeeps, fun names => (h'.text? names).trans (h.text? names)⟩

/-- A new directory. -/
theorem grows_put (hmissing : t.entry place = .missing) : Grows t (t.put place none) where
  toKeeps := keeps_put (by rw [isDirectory, hmissing]; rfl) none
  text? names := by
    by_cases hnames : names = place
    · have hplace : place ≠ [] := by
        rintro rfl
        cases hmissing
      rw [hnames, Tree.text?, Tree.text?, entry_put_self hplace, hmissing]
      rfl
    · exact text?_put_ne hnames none

theorem grows_of_makeAlong {pieces : List String} (h : t.makeAlong names pieces = some u) : Grows t u := by
  induction pieces generalizing t names with
  | nil =>
    cases h
    exact .refl _
  | cons piece pieces ih =>
    rw [makeAlong] at h
    split_ifs at h
    · exact ih h
    · exact ih h
    · split at h
      · exact ih h
      · rename_i hmissing
        exact (grows_put hmissing).trans (ih h)
      · cases h

theorem grows_of_makeDirectories {path : String} (h : t.makeDirectories path = some u) : Grows t u :=
  grows_of_makeAlong h

/-- A file that is written is where its path leads, and all others are as they were. -/
theorem write_eq_some {path text : String} (h : t.write path text = some u) :
    Keeps t u ∧ ∃ place, t.resolve path = some place ∧ u.text? place = some text ∧
      ∀ names, names ≠ place → u.text? names = t.text? names := by
  unfold write at h
  split at h
  · rename_i place hplace
    split_ifs at h with hwrong
    cases h
    rw [Bool.not_eq_true, Bool.or_eq_false_iff] at hwrong
    have hne : place ≠ [] := by
      rintro rfl
      cases hwrong.1
    refine ⟨keeps_put hwrong.1 _, place, hplace, ?_, fun names hnames => text?_put_ne hnames _⟩
    rw [text?_eq_some_iff, entry_put_self hne]
    rfl
  · cases h

end IssueQuery.Tree
