/-
Models that are written as JSON and read again. Each structure is read back from the fields that its
writer leaves, as the defaults of the reader are what the writer leaves out.
-/
import IssueQuery.Model.Storage
import IssueQuery.Proofs.Calendar.Notation
import IssueQuery.Proofs.Json

namespace IssueQuery

open Json (Stores)

/-! ## Values of a single text or number -/

theorem Json.stores_word32 : Stores Json.word32 Json.word32? where
  read_write n := by
    have hn : n.toNat < UInt32.size := n.toNat_lt
    rw [Json.word32, Json.word32?, Text.word32OfNat?, if_pos hn, UInt32.ofNat_toNat]
  ne_null _ := Json.noConfusion

/-- What is read from the text of a value is stored as that text. -/
theorem Json.stores_of_text {α : Type} {text : α → String} {ofText? : String → Option α}
    (h : ∀ a, ofText? (text a) = some a) :
    Stores (fun a => Json.text (text a)) fun v => v.text?.bind ofText? where
  read_write a := h a
  ne_null _ := Json.noConfusion

theorem Json.stores_instant : Stores Json.instant Json.instant? := stores_of_text Instant.ofText?_text

theorem Json.stores_date : Stores (fun d : Date => Json.text d.text) Json.date? := stores_of_text Date.ofText?_text

theorem Label.stores : Stores Label.toJson Label.ofJson? := ⟨fun _ => rfl, fun _ => Json.noConfusion⟩

theorem Issue.State.stores : Stores State.toJson State.ofJson? where
  read_write s := by cases s <;> rfl
  ne_null _ := Json.noConfusion

theorem Issue.Kind.stores : Stores Kind.toJson Kind.ofJson? where
  read_write k := by cases k <;> rfl
  ne_null _ := Json.noConfusion

/-! ## Structures -/

theorem User.stores : Stores User.toJson User.ofJson? where
  read_write u := by
    unfold toJson ofJson?
    rw [Json.fields?_record]
    case hnames => rfl
    case hnodup => decide
    simp [Json.stores_text.required, Json.stores_text.optional]
  ne_null _ := Json.noConfusion

theorem Milestone.stores : Stores Milestone.toJson Milestone.ofJson? where
  read_write m := by
    unfold toJson ofJson?
    rw [Json.fields?_record]
    case hnames => rfl
    case hnodup => decide
    simp [Json.stores_word32.required, Json.stores_text.required, Json.stores_date.optional, Json.stores_bool.defaulted]
  ne_null _ := Json.noConfusion

/-- No labels at all are left out, and read as the default. -/
theorem Issue.defaulted_labels (labels : List Label) :
    Json.defaulted [] (Json.list? Label.ofJson?)
      (if labels.isEmpty then none else some (.array (labels.map Label.toJson))) = some labels := by
  split
  · rename_i hempty
    rw [List.isEmpty_iff.1 hempty]
    rfl
  · exact Label.stores.list.defaulted [] labels

theorem Issue.stores : Stores Issue.toJson Issue.ofJson? where
  read_write i := by
    unfold toJson ofJson?
    rw [Json.fields?_record]
    case hnames => rfl
    case hnodup => decide
    -- the fields are matched before they are read
    rw [Option.bind_eq_bind, Option.bind_some]
    simp only [List.map]
    simp only [Option.bind_eq_bind, Option.bind_some, Option.pure_def, Json.stores_word32.required,
      Json.stores_word32.optional, Json.stores_word32.defaulted, Json.stores_text.required,
      Json.stores_text.defaulted, Json.stores_instant.required, State.stores.defaulted, Kind.stores.defaulted,
      User.stores.optional, Milestone.stores.optional, defaulted_labels]
  ne_null _ := Json.noConfusion

/-- A model that is written is read again as itself. -/
theorem Model.ofJson?_toJson (m : Model) : Model.ofJson? m.toJson = some m := by
  unfold toJson ofJson?
  rw [Json.fields?_record]
  case hnames => rfl
  case hnodup => decide
  simp [Issue.stores.list.defaulted, Label.stores.list.defaulted, Milestone.stores.list.defaulted,
    User.stores.list.defaulted]

end IssueQuery
