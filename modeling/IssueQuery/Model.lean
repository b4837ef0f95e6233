/-
The model of a project: its issues, and the labels, milestones and users that issues refer to.
-/
import IssueQuery.Issue

namespace IssueQuery

structure Model where
  issues : List Issue
  labels : List Label
  milestones : List Milestone
  users : List User
  deriving DecidableEq

namespace Model

def empty : Model := ⟨[], [], [], []⟩

/-- The first issue with the number. -/
def issue? (m : Model) (id : UInt32) : Option Issue := m.issues.find? (·.id == id)

/-- The first user with the login, in any case of its ASCII letters. -/
def user? (m : Model) (login : String) : Option User :=
  m.users.find? fun u => Text.sameAsciiFolded u.login login

/-- Changes the first issue that satisfies `p`. -/
def updateFirst (p : Issue → Bool) (f : Issue → Issue) : List Issue → List Issue
  | [] => []
  | i :: is => if p i then f i :: is else i :: updateFirst p f is

/-- The model with the first issue of the number changed. -/
def update (m : Model) (id : UInt32) (f : Issue → Issue) : Model :=
  ⟨updateFirst (·.id == id) f m.issues, m.labels, m.milestones, m.users⟩

/-! ## Ancestors -/

/-- Whether a chain of parents that begins at `current` comes to `ancestor`. An issue that the chain
has left is not visited again, so that a cycle ends it. -/
def climbsTo (ancestor : UInt32) (issues : List Issue) : Option UInt32 → Bool
  | none => false
  | some current =>
    current == ancestor ||
      match h : issues.find? (·.id == current) with
      | none => false
      | some i =>
        have : ∃ x, x ∈ issues ∧ x.id = current :=
          ⟨i, List.mem_of_find?_eq_some h, by simpa using List.find?_some h⟩
        climbsTo ancestor (issues.filter (·.id != current)) i.parent
termination_by issues.length

/-- Whether the issue has the number among its parent, its parent's parent, and so on. -/
def hasAncestor (m : Model) (i : Issue) (ancestor : UInt32) : Bool :=
  climbsTo ancestor m.issues i.parent

end Model

end IssueQuery
