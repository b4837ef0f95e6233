/-
The files of a project that could not be made. The configuration is written before the model is looked at;
so either it cannot be put in its place, and then no file changes, or it stays although the rest fails. It
then looks like that of a project, and no later attempt gets beyond it.
-/
import IssueQuery.Command.Run
import IssueQuery.Proofs.Files.Tree

namespace IssueQuery

/-- What is done with the files of a tree, or fails. -/
abbrev InTree (α : Type) : Type := ExceptT ProjectError (StateM Tree) α

variable {t u v : Tree} {target model path text : String} {α β : Type}

/-! ## Runs -/

theorem run_look_bind (f : Entry → InTree α) :
    ((Files.look path : InTree Entry) >>= f).run.run t = (f (t.look path)).run.run t := rfl

/-- The directory that a project is made in. -/
def Tree.directory (t : Tree) (path : Option String) : String := path.getD (Path.ofPieces ("" :: t.here).reverse)

theorem run_directory_bind (path : Option String) (f : String → StateM Tree α) :
    (match path with
      | some path => pure path >>= f
      | none => Files.here >>= f : StateM Tree α).run t = (f (t.directory path)).run t := by
  cases path <;> rfl

theorem run_run_bind (x : InTree α) (f : Except ProjectError α → StateM Tree β) (t : Tree) :
    (x.run >>= f).run t = (f (x.run.run t).1).run (x.run.run t).2 := rfl

/-- A change that does not succeed is an error, and leaves the tree as it was. -/
theorem run_changed_bind (changed : Option Tree) (f : Unit → InTree α) :
    ((if !(t.changed changed).1 then throw .badFile else pure () : InTree Unit) >>= f).run.run (t.changed changed).2 =
      changed.elim (.error .badFile, t) (f ()).run.run := by
  cases changed <;> rfl

theorem run_makeDirectories_bind (f : Unit → InTree α) :
    ((Project.makeDirectories path : InTree Unit) >>= f).run.run t =
      (t.makeDirectories path).elim (.error .badFile, t) (f ()).run.run := by
  rw [← run_changed_bind]
  rfl

theorem run_writeFile_bind (f : Unit → InTree α) :
    ((Project.writeFile path text : InTree Unit) >>= f).run.run t =
      (t.write path text).elim (.error .badFile, t) (f ()).run.run := by
  rw [← run_changed_bind]
  rfl

theorem run_bind (x : InTree α) (f : α → InTree β) (t : Tree) : (x >>= f).run.run t =
    match x.run.run t with
    | (.ok a, u) => (f a).run.run u
    | (.error e, u) => (.error e, u) := by
  change (match x.run.run t with | (outcome, u) => (ExceptT.bindCont f outcome).run u) = _
  rcases x.run.run t with ⟨_ | _, _⟩ <;> rfl

/-- What is made of a result changes nothing more. -/
theorem run_map_snd {x : InTree α} (h : (x.run.run t).2 = t) (f : α → β) :
    ((do return f (← x) : InTree β).run.run t).2 = t := by
  rw [run_bind]
  rcases hx : x.run.run t with ⟨outcome, u⟩
  rw [hx] at h
  cases outcome <;> exact h

theorem run_loadConfig_snd (path : String) (t : Tree) :
    ((Project.loadConfig path : InTree Config).run.run t).2 = t := by
  unfold Project.loadConfig
  rw [run_look_bind]
  repeat' split
  all_goals rfl

theorem run_readModel_snd (path : String) (t : Tree) :
    ((Project.readModel path : InTree Model).run.run t).2 = t := by
  unfold Project.readModel
  rw [run_look_bind]
  repeat' split
  all_goals rfl

/-! ## The mark -/

namespace Command

def workPath (target : String) : String := Path.join target Config.directoryName

def configPath (target : String) : String := Path.join (workPath target) Config.fileName

end Command

namespace Tree
open Command

/-- The tree with a fresh configuration in the directory, if there is none and if it can be put there. -/
def withConfig (t : Tree) (target model : String) : Option Tree :=
  if (t.look (configPath target)).exists then none
  else (t.makeDirectories (workPath target)).bind (·.write (configPath target) (Config.text ⟨model, .empty⟩))

/-- The configuration is in its place, and nothing else has changed but for new directories. -/
theorem withConfig_eq_some (h : t.withConfig target model = some u) :
    t.look (configPath target) = .missing ∧ Keeps t u ∧ ∃ place, u.resolve (configPath target) = some place ∧
      u.text? place = some (Config.text ⟨model, .empty⟩) ∧ ∀ names, names ≠ place → u.text? names = t.text? names := by
  unfold withConfig at h
  split_ifs at h with hexists
  obtain ⟨made, hmade, hwritten⟩ := Option.bind_eq_some_iff.1 h
  have hgrows := grows_of_makeDirectories hmade
  obtain ⟨hkeeps, place, hplace, htext, hother⟩ := write_eq_some hwritten
  refine ⟨?_, hgrows.toKeeps.trans hkeeps, place, hkeeps.resolve hplace, htext, fun names hnames => ?_⟩
  · cases hlook : t.look (configPath target)
    case missing => rfl
    all_goals
      rw [hlook] at hexists
      exact absurd rfl hexists
  · rw [hother names hnames, hgrows.text? names]

end Tree

namespace Command

theorem run_mark (target model : String) (t : Tree) : (mark target model : InTree Project).run.run t =
    if (t.look (configPath target)).exists then (.error (.alreadyInitialized (workPath target)), t)
    else (t.makeDirectories (workPath target)).elim (.error .badFile, t) fun made =>
      (made.write (configPath target) (Config.text ⟨model, .empty⟩)).elim (.error .badFile, made)
        ((do return ⟨workPath target, ← Project.loadConfig (workPath target)⟩ : InTree Project)).run.run := by
  unfold mark Project.saveConfig configPath workPath
  rw [run_look_bind]
  split
  · rfl
  · rw [run_makeDirectories_bind]
    cases t.makeDirectories (Path.join target Config.directoryName) with
    | none => rfl
    | some made => exact run_writeFile_bind _

theorem run_mark_of_withConfig_eq_some (h : t.withConfig target model = some u) :
    ((mark target model : InTree Project).run.run t).2 = u := by
  unfold Tree.withConfig at h
  split_ifs at h with hexists
  obtain ⟨made, hmade, hwritten⟩ := Option.bind_eq_some_iff.1 h
  rw [run_mark, if_neg hexists, hmade, Option.elim_some, hwritten, Option.elim_some]
  exact run_map_snd (run_loadConfig_snd (workPath target) u) (Project.mk (workPath target))

/-- If the configuration cannot be put into its place, directories may still be made. -/
theorem run_mark_of_withConfig_eq_none (h : t.withConfig target model = none) :
    ∃ e u, (mark target model : InTree Project).run.run t = (.error e, u) ∧ t.Grows u := by
  unfold Tree.withConfig at h
  rw [run_mark]
  split_ifs at h ⊢
  · exact ⟨_, t, rfl, .refl t⟩
  · cases hmade : t.makeDirectories (workPath target) with
    | none => exact ⟨_, t, rfl, .refl t⟩
    | some made =>
      rw [hmade, Option.bind_some] at h
      rw [Option.elim_some, h]
      exact ⟨_, made, rfl, Tree.grows_of_makeDirectories hmade⟩

theorem eq_of_run_saveModel {p : Project} {m : Model} {out : String} {e : ProjectError}
    (h : (do p.saveModel m; return out : InTree String).run.run t = (.error e, u)) : u = t := by
  unfold Project.saveModel at h
  rw [run_writeFile_bind] at h
  cases hwritten : t.write p.modelPath m.text with
  | none =>
    rw [hwritten] at h
    cases h
    rfl
  | some written =>
    rw [hwritten] at h
    cases h

/-- A model that cannot be prepared leaves all files as they were, since it is the last to be written. -/
theorem grows_of_run_prepareModel {p : Project} {e : ProjectError}
    (h : (prepareModel p : InTree String).run.run t = (.error e, u)) : t.Grows u := by
  unfold prepareModel at h
  rw [run_look_bind] at h
  split_ifs at h
  · have hread := run_map_snd (run_readModel_snd p.modelPath t) fun model =>
      "Model: " ++ p.modelPath ++ " (" ++ toString model.issues.length ++ " issues)\n"
    rw [h] at hread
    obtain rfl : u = t := hread
    exact .refl u
  · split at h
    · rename_i directory _
      rw [run_makeDirectories_bind] at h
      cases hmade : t.makeDirectories directory with
      | none =>
        rw [hmade] at h
        cases h
        exact .refl t
      | some made =>
        rw [hmade] at h
        rw [eq_of_run_saveModel h]
        exact Tree.grows_of_makeDirectories hmade
    · rw [eq_of_run_saveModel h]
      exact .refl t

/-! ## A project that is not made -/

theorem run_runInit (model : String) (path : Option String) (t : Tree) :
    (runInit model path : StateM Tree Report).run t =
    match (mark (t.directory path) model : InTree Project).run.run t with
    | (.error e, u) => (⟨"", some e⟩, u)
    | (.ok p, u) =>
      let marked := "Initialized hubfilter at " ++ p.workDirectory ++ "\n"
      match (prepareModel p : InTree String).run.run u with
      | (.ok prepared, v) => (⟨marked ++ prepared, none⟩, v)
      | (.error e, v) => (⟨marked, some e⟩, v) := by
  refine (run_directory_bind path _).trans ?_
  rw [run_run_bind]
  rcases (mark (t.directory path) model : InTree Project).run.run t with ⟨_ | p, u⟩
  · rfl
  · dsimp only
    rw [run_run_bind]
    rcases (prepareModel p : InTree String).run.run u with ⟨_ | _, _⟩ <;> rfl

/-- Where a configuration is, no other is made. -/
theorem run_runInit_of_exists {path : Option String} (model : String)
    (h : (t.look (configPath (t.directory path))).exists = true) :
    (runInit model path : StateM Tree Report).run t =
      (⟨"", some (.alreadyInitialized (workPath (t.directory path)))⟩, t) := by
  rw [run_runInit, run_mark, if_pos h]

/-- Nothing but the configuration is written before the last step that can fail. -/
theorem grows_of_run_runInit {path : Option String} {e : ProjectError}
    (h : ((runInit model path : StateM Tree Report).run t).1.error = some e) :
    ((t.withConfig (t.directory path) model).getD t).Grows ((runInit model path : StateM Tree Report).run t).2 := by
  rw [run_runInit] at h ⊢
  cases hconfig : t.withConfig (t.directory path) model with
  | none =>
    obtain ⟨e', u, hmark, hgrows⟩ := run_mark_of_withConfig_eq_none hconfig
    rw [hmark]
    exact hgrows
  | some u =>
    have hmark := run_mark_of_withConfig_eq_some hconfig
    rw [Option.getD_some]
    generalize (mark (t.directory path) model : InTree Project).run.run t = marked at hmark h ⊢
    obtain ⟨outcome, marked⟩ := marked
    obtain rfl : marked = u := hmark
    cases outcome with
    | error e' => exact .refl marked
    | ok p =>
      dsimp only at h ⊢
      cases hprepared : (prepareModel p : InTree String).run.run marked with
      | mk outcome v =>
        rw [hprepared] at h
        cases outcome with
        | ok prepared => cases h
        | error e' => exact grows_of_run_prepareModel hprepared

/-- If a project is not made, then no file changes if its configuration could not be put into its place. If it
could, it is there now, with all other files as they were; and however they are changed, as long as it is
there, no project can be made. -/
theorem run_runInit_of_error {path : Option String} {e : ProjectError}
    (h : ((runInit model path : StateM Tree Report).run t).1.error = some e) :
    let target := t.directory path
    let after := ((runInit model path : StateM Tree Report).run t).2
    if (t.withConfig target model).isSome then
      t.look (configPath target) = .missing ∧ after.look (configPath target) = .file (Config.text ⟨model, .empty⟩) ∧
      (∃ place, after.resolve (configPath target) = some place ∧
        ∀ names, names ≠ place → after.text? names = t.text? names) ∧
      ∀ later : Tree, later.here = t.here → later.look (configPath target) = after.look (configPath target) →
        ∀ model, (runInit model path : StateM Tree Report).run later =
          (⟨"", some (.alreadyInitialized (workPath target))⟩, later)
    else ∀ names, after.text? names = t.text? names := by
  intro target after
  have hgrows : ((t.withConfig target model).getD t).Grows after := grows_of_run_runInit h
  cases hconfig : t.withConfig target model with
  | none =>
    rw [hconfig] at hgrows
    exact hgrows.text?
  | some u =>
    rw [hconfig] at hgrows
    obtain ⟨hmissing, -, place, hplace, htext, hother⟩ := Tree.withConfig_eq_some hconfig
    have hresolve := hgrows.toKeeps.resolve hplace
    have hlook : after.look (configPath target) = .file (Config.text ⟨model, .empty⟩) := by
      rw [Tree.look, hresolve]
      exact Tree.text?_eq_some_iff.1 ((hgrows.text? place).trans htext)
    refine ⟨hmissing, hlook, ⟨place, hresolve, fun names hnames => ?_⟩, fun later hhere hlater model => ?_⟩
    · exact (hgrows.text? names).trans (hother names hnames)
    · have hdirectory : later.directory path = target := by rw [Tree.directory, hhere]; rfl
      have hexists : (later.look (configPath (later.directory path))).exists = true := by
        rw [hdirectory, hlater, hlook]
        rfl
      rw [run_runInit_of_exists model hexists, hdirectory]

/-- A directory with nothing but a file for the model in it. -/
def withModel (text : String) : Tree := ⟨[(["p"], none), (["p", "model.json"], some text)], ["p"]⟩

/-- The configuration of a project whose model could not be read keeps it from being made for any model. -/
theorem run_runInit_again :
    let t := withModel "not json"
    let first := (runInit "model.json" none : StateM Tree Report).run t
    first.1.error = some .badModel ∧ (t.withConfig (t.directory none) "model.json").isSome = true ∧
      first.2.look "/p/.hubfilter/config.toml" = .file "model = \"model.json\"\n" ∧
      ∀ model, (runInit model none : StateM Tree Report).run first.2 =
        (⟨"", some (.alreadyInitialized "/p/.hubfilter")⟩, first.2) := by
  intro t first
  have hfirst : first.1.error = some .badModel := by decide +kernel
  have hconfig : (t.withConfig (t.directory none) "model.json").isSome = true := by decide +kernel
  have hdirectory : workPath (t.directory none) = "/p/.hubfilter" := by decide +kernel
  have hpath : configPath (t.directory none) = "/p/.hubfilter/config.toml" := by decide +kernel
  have hmain := run_runInit_of_error hfirst
  rw [if_pos hconfig, hdirectory, hpath] at hmain
  obtain ⟨-, hlook, -, hlater⟩ := hmain
  have htext : Config.text ⟨"model.json", .empty⟩ = "model = \"model.json\"\n" := by decide +kernel
  rw [htext] at hlook
  exact ⟨hfirst, hconfig, hlook, hlater first.2 (by decide +kernel) rfl⟩

/-- A project fails to be made for its model alone, which is then repaired; and still it cannot be made. -/
theorem exists_run_runInit_error : ∃ (t repaired : Tree) (text : String),
    let first := (runInit "model.json" none : StateM Tree Report).run t
    let second := (runInit "model.json" none : StateM Tree Report).run repaired
    first.1.error = some .badModel ∧
      first.2.look ".hubfilter/config.toml" ≠ t.look ".hubfilter/config.toml" ∧
      first.2.write "model.json" text = some repaired ∧ (Model.ofText? text).isSome = true ∧
      second.1.error = some (.alreadyInitialized "/p/.hubfilter") := by
  let t := withModel "not json"
  let first := (runInit "model.json" none : StateM Tree Report).run t
  refine ⟨t, first.2.put ["p", "model.json"] (some "\x7b\x7d"), "\x7b\x7d", ?_⟩
  decide +kernel

end Command

end IssueQuery
