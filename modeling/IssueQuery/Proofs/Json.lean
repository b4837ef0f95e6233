/-
Structures that are written as JSON and read again. A field that is left out is read as its default,
so a writer may leave out what stands for the default.
-/
import IssueQuery.Json
import Mathlib

namespace IssueQuery.Json

/-- What is written is read again as itself, and it is not taken for an absent value. -/
structure Stores {α : Type} (write : α → Json) (read : Json → Option α) : Prop where
  read_write (a : α) : read (write a) = some a
  ne_null (a : α) : write a ≠ null

namespace Stores

variable {α : Type} {write : α → Json} {read : Json → Option α} (h : Stores write read)
include h

theorem required (a : α) : Json.required read (some (write a)) = some a := h.read_write a

theorem defaulted (absent a : α) : Json.defaulted absent read (some (write a)) = some a := h.read_write a

theorem optional (a? : Option α) : Json.optional read (a?.map write) = some a? := by
  cases a? with
  | none => rfl
  | some a =>
    rw [Json.optional, Option.map_some, Json.defaulted]
    unfold nullable?
    split
    · rename_i hnull
      exact absurd hnull (h.ne_null a)
    · rw [h.read_write, Option.map_some]

theorem list : Stores (fun as : List α => array (as.map write)) (list? read) where
  read_write as := by
    have hread : read ∘ write = pure := funext h.read_write
    rw [list?, List.mapM_map, hread]
    exact List.mapM_pure.trans (congrArg some (List.map_id as))
  ne_null as := by simp

end Stores

theorem stores_text : Stores text text? := ⟨fun _ => rfl, fun _ => Json.noConfusion⟩

theorem stores_bool : Stores bool bool? := ⟨fun _ => rfl, fun _ => Json.noConfusion⟩

/-! ## Records -/

/-- The fields of a record that are present. -/
def present (fs : List (String × Option Json)) : List (Option String × Json) :=
  fs.filterMap fun (name, value) => value.map fun v => (some name, v)

theorem present_cons_none (name : String) (fs : List (String × Option Json)) :
    present ((name, none) :: fs) = present fs := rfl

theorem present_cons_some (name : String) (v : Json) (fs : List (String × Option Json)) :
    present ((name, some v) :: fs) = (some name, v) :: present fs := rfl

section Record

variable {fs : List (String × Option Json)}

theorem mapM_present : (present fs).mapM (·.1) = some ((fs.filter (·.2.isSome)).map Prod.fst) := by
  induction fs with
  | nil => rfl
  | cons f fs ih =>
    obtain ⟨name, _ | v⟩ := f
    · simpa [present_cons_none] using ih
    · rw [present_cons_some, List.mapM_cons, ih]
      rfl

theorem lookup_present_of_notMem {name : String} (h : name ∉ fs.map Prod.fst) :
    (present fs).lookup (some name) = none := by
  rw [List.lookup_eq_none_iff]
  intro p hp
  obtain ⟨f, hf, hfp⟩ := List.mem_filterMap.1 hp
  obtain ⟨v, -, rfl⟩ := Option.map_eq_some_iff.1 hfp
  have hne : name ≠ f.1 := fun heq => h (heq ▸ List.mem_map_of_mem hf)
  simp [hne]

theorem lookup_present (h : (fs.map Prod.fst).Nodup) : ∀ f ∈ fs, (present fs).lookup (some f.1) = f.2 := by
  induction fs with
  | nil => simp
  | cons f fs ih =>
    obtain ⟨name, value⟩ := f
    obtain ⟨hname, hnodup⟩ := List.nodup_cons.1 h
    refine List.forall_mem_cons.2 ⟨?_, fun f hf => ?_⟩
    · cases value with
      | none => rw [present_cons_none]; exact lookup_present_of_notMem hname
      | some v => rw [present_cons_some]; exact List.lookup_cons_self
    · have hmem : f.1 ∈ fs.map Prod.fst := List.mem_map_of_mem hf
      have hne : (some f.1 == some name) = false := by
        rw [beq_eq_false_iff_ne]
        rintro heq
        exact hname (Option.some.inj heq ▸ hmem)
      cases value with
      | none => rw [present_cons_none]; exact ih hnodup f hf
      | some v => rw [present_cons_some, List.lookup_cons, hne]; exact ih hnodup f hf

/-- The fields of a record are found under their names, and those left out as absent ones. -/
theorem fields?_record {names : List String} (hnames : fs.map Prod.fst = names) (hnodup : names.Nodup) :
    (record fs).fields? names = some (fs.map Prod.snd) := by
  subst hnames
  have hkeys : (((fs.filter (·.2.isSome)).map Prod.fst).filter (fs.map Prod.fst).contains).Nodup :=
    hnodup.sublist (List.filter_sublist.trans (List.filter_sublist.map _))
  have hvalues : (fs.map Prod.fst).map (fun name => (present fs).lookup (some name)) = fs.map Prod.snd := by
    rw [List.map_map]
    exact List.map_congr_left (lookup_present hnodup)
  have hrecord : record fs = object (present fs) := rfl
  rw [hrecord, Json.fields?, mapM_present, Option.bind_eq_bind, Option.bind_some, hvalues]
  exact if_pos hkeys

end Record

end IssueQuery.Json
