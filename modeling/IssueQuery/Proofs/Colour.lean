/-
Colour is decoration. A painted text with its control sequences taken out is the text that would be written
without colour: no character is lost where examples are cut into lines, commands and descriptions, and columns
are as wide as before. Without colour, saved filters stand in two columns, and the line of an issue tells what
it shows.
-/
import IssueQuery.Help
import IssueQuery.Issue.Display
import IssueQuery.Project.Saved
import IssueQuery.Proofs.Text.Lines

namespace IssueQuery.Colour

/-! ## Control sequences -/

/-- The character that begins a control sequence. -/
def escape : Char := '\x1b'

/-- What a control sequence names a colour with. -/
def isParameter (c : Char) : Bool := c.isDigit || c == ';'

/-- What stands behind the control sequence that the text begins with. -/
def afterSequence? : List Char → Option (List Char)
  | c :: '[' :: cs =>
    match cs.dropWhile isParameter with
    | 'm' :: rest => if c = escape then some rest else none
    | _ => none
  | _ => none

theorem length_lt_of_afterSequence? {cs rest : List Char} (h : afterSequence? cs = some rest) :
    rest.length < cs.length := by
  unfold afterSequence? at h
  split at h
  · rename_i c cs
    split at h
    · rename_i tail htail
      have hle := Text.length_dropWhile_le isParameter cs
      rw [htail, List.length_cons] at hle
      cases (Option.ite_none_right_eq_some.1 h).2
      simp only [List.length_cons]
      omega
    · cases h
  · cases h

/-- The characters without the control sequences among them. -/
def stripped : List Char → List Char
  | [] => []
  | c :: cs =>
    match h : afterSequence? (c :: cs) with
    | some rest =>
      have : rest.length < cs.length + 1 := length_lt_of_afterSequence? h
      stripped rest
    | none => c :: stripped cs
termination_by cs => cs.length

/-- The text without its control sequences. -/
def shown (s : String) : String := String.ofList (stripped s.toList)

@[simp] theorem stripped_nil : stripped [] = [] := by rw [stripped]

theorem stripped_of_afterSequence? {cs rest : List Char} (h : afterSequence? cs = some rest) :
    stripped cs = stripped rest := by
  cases cs with
  | nil => cases h
  | cons c cs =>
    rw [stripped]
    split
    · rename_i h'
      cases h.symm.trans h'
      rfl
    · rename_i h'
      cases h.symm.trans h'

theorem stripped_cons {c : Char} (hc : c ≠ escape) (cs : List Char) : stripped (c :: cs) = c :: stripped cs := by
  have hnone : afterSequence? (c :: cs) = none := by
    unfold afterSequence?
    split
    · split
      · rename_i h _ _ _
        cases h
        exact if_neg hc
      · rfl
    · rfl
  rw [stripped]
  split
  · rename_i h
    cases hnone.symm.trans h
  · rfl

theorem stripped_sequence {ps : List Char} (hps : ∀ c ∈ ps, isParameter c = true) (rest : List Char) :
    stripped (escape :: '[' :: (ps ++ 'm' :: rest)) = stripped rest := by
  refine stripped_of_afterSequence? ?_
  have hdrop : (ps ++ 'm' :: rest).dropWhile isParameter = 'm' :: rest := by
    rw [List.dropWhile_append_of_pos hps, List.dropWhile_cons_of_neg (by decide)]
  simp [afterSequence?, hdrop]

/-! ## Painted texts -/

/-- No control sequence begins in the characters. -/
def IsPlain (cs : List Char) : Prop := escape ∉ cs

instance (cs : List Char) : Decidable (IsPlain cs) := inferInstanceAs (Decidable (escape ∉ cs))

theorem isPlain_append {a b : List Char} : IsPlain (a ++ b) ↔ IsPlain a ∧ IsPlain b := by
  simp [IsPlain]

theorem IsPlain.append {s t : String} (hs : IsPlain s.toList) (ht : IsPlain t.toList) : IsPlain (s ++ t).toList := by
  rw [String.toList_append]
  exact isPlain_append.2 ⟨hs, ht⟩

/-- The one text looks like the other, whatever stands behind it. -/
def Shows (painted plain : String) : Prop :=
  ∀ rest, stripped (painted.toList ++ rest) = plain.toList ++ stripped rest

theorem Shows.shown_eq {s t : String} (h : Shows s t) : shown s = t := by
  have := h []
  rw [List.append_nil, stripped_nil, List.append_nil] at this
  rw [shown, this, String.ofList_toList]

theorem Shows.append {s t s' t' : String} (h : Shows s t) (h' : Shows s' t') : Shows (s ++ s') (t ++ t') := by
  intro rest
  rw [String.toList_append, String.toList_append, List.append_assoc, h, h', List.append_assoc]

theorem stripped_append {cs : List Char} (h : IsPlain cs) (rest : List Char) :
    stripped (cs ++ rest) = cs ++ stripped rest := by
  induction cs with
  | nil => rfl
  | cons c cs ih =>
    have hc : c ≠ escape := (List.ne_of_not_mem_cons h).symm
    rw [List.cons_append, stripped_cons hc, ih (List.not_mem_of_not_mem_cons h), List.cons_append]

/-- A text without control sequences looks like itself. -/
theorem shows_self {s : String} (h : IsPlain s.toList) : Shows s s := stripped_append h

theorem Shows.append_plain {s t : String} (h : Shows s t) {u : String} (hu : IsPlain u.toList) :
    Shows (s ++ u) (t ++ u) :=
  h.append (shows_self hu)

theorem isDigit_of_mem_toString {n : Nat} {c : Char} (h : c ∈ (toString n).toList) : c.isDigit = true := by
  rw [show toString n = n.repr from rfl, Nat.toList_repr] at h
  exact Nat.isDigit_of_mem_toDigits (by omega) (by omega) h

theorem shows_paint (colour : Nat) {s : String} (h : IsPlain s.toList) : Shows (paint colour s) s := by
  intro rest
  have hparameters : ∀ c ∈ "38;5;".toList ++ (toString colour).toList, isParameter c = true := by
    intro c hc
    rcases List.mem_append.1 hc with hc | hc
    · exact List.all_eq_true.1 (show "38;5;".toList.all isParameter = true by simp [isParameter]) c hc
    · rw [isParameter, isDigit_of_mem_toString hc, Bool.true_or]
  have hpaint : (paint colour s).toList ++ rest =
      escape :: '[' :: (("38;5;".toList ++ (toString colour).toList) ++ 'm' ::
        (s.toList ++ escape :: '[' :: (['0'] ++ 'm' :: rest))) := by
    simp [paint, escape]
  have hreset : ∀ c ∈ ['0'], isParameter c = true := by simp [isParameter]
  rw [hpaint, stripped_sequence hparameters, stripped_append h, stripped_sequence hreset]

theorem shows_join {α : Type} {f g : α → String} {l : List α} (h : ∀ a ∈ l, Shows (f a) (g a)) :
    Shows (String.join (l.map f)) (String.join (l.map g)) := by
  induction l with
  | nil => exact fun _ => rfl
  | cons a l ih =>
    obtain ⟨ha, hl⟩ := List.forall_mem_cons.1 h
    rw [List.map_cons, List.map_cons, String.join_cons, String.join_cons]
    exact ha.append (ih hl)

theorem shows_intercalate {α : Type} {f g : α → String} {l : List α} {separator : String}
    (hs : IsPlain separator.toList) (h : ∀ a ∈ l, Shows (f a) (g a)) :
    Shows (separator.intercalate (l.map f)) (separator.intercalate (l.map g)) := by
  induction l with
  | nil => exact fun _ => rfl
  | cons a l ih =>
    obtain ⟨ha, hl⟩ := List.forall_mem_cons.1 h
    cases l with
    | nil => simpa using ha
    | cons b l =>
      simp only [List.map_cons, String.intercalate_cons_cons] at ih ⊢
      exact (ha.append_plain hs).append (ih hl)

/-! ## Examples -/

theorem eq_append_of_splitAtGap {cs front gap : List Char} (h : splitAtGap cs = some (front, gap)) :
    cs = front ++ gap := by
  induction cs using splitAtGap.induct generalizing front with
  | case1 cs =>
    rw [splitAtGap] at h
    cases h
    rfl
  | case2 c cs hgap ih =>
    rw [splitAtGap.eq_2 _ _ hgap, Option.map_eq_some_iff] at h
    obtain ⟨⟨front, gap⟩, hrest, heq⟩ := h
    cases heq
    rw [ih hrest, List.cons_append]
  | case3 => cases h

theorem shows_ofList {cs : List Char} (h : IsPlain cs) : Shows (String.ofList cs) (String.ofList cs) :=
  shows_self (by rwa [String.toList_ofList])

theorem shows_paint_ofList (colour : Nat) {cs : List Char} (h : IsPlain cs) :
    Shows (paint colour (String.ofList cs)) (String.ofList cs) :=
  shows_paint colour (by rwa [String.toList_ofList])

/-- No part of a line is lost when it is painted. -/
theorem shows_exampleLine {line : List Char} (h : IsPlain line) : Shows (exampleLine line) (String.ofList line) := by
  have hparts := List.takeWhile_append_dropWhile (p := Text.isBlank) (l := line)
  unfold exampleLine
  generalize line.takeWhile Text.isBlank = indent at hparts
  generalize line.dropWhile Text.isBlank = body at hparts
  subst hparts
  obtain ⟨hindent, hbody⟩ := isPlain_append.1 h
  have hwhole := shows_ofList h
  rw [String.ofList_append] at hwhole ⊢
  dsimp only
  split
  · exact (shows_ofList hindent).append (shows_paint_ofList _ hbody)
  · split
    · rename_i command description hsplit
      obtain rfl := eq_append_of_splitAtGap (Option.filter_eq_some_iff.1 hsplit).1
      obtain ⟨hcommand, hdescription⟩ := isPlain_append.1 hbody
      rw [String.ofList_append, ← String.append_assoc]
      exact ((shows_ofList hindent).append (shows_paint_ofList _ hcommand)).append (shows_ofList hdescription)
    · exact hwhole

theorem shows_examples {s : String} (h : IsPlain s.toList) (hreturn : '\r' ∉ s.toList)
    (hend : s.toList.getLast? ≠ some '\n') : Shows (examples true s) s := by
  have hlines := Text.intercalate_lines hreturn hend
  have hplain : ∀ line ∈ Text.lines s.toList, IsPlain line := by
    intro line hline hmem
    refine h ?_
    rw [← hlines]
    exact Text.mem_intercalate hline hmem
  have hshows := shows_intercalate (show IsPlain "\n".toList by decide) fun l hl => shows_exampleLine (hplain l hl)
  have hwhole : "\n".intercalate ((Text.lines s.toList).map String.ofList) = s := by
    have hid : String.toList ∘ String.ofList = id := funext fun _ => String.toList_ofList
    rw [← String.toList_inj, String.toList_intercalate, List.map_map, hid, List.map_id]
    exact hlines
  rwa [hwhole] at hshows

/-! ## Outputs without colour -/

theorem length_le_utf8ByteSize (s : String) : s.length ≤ s.utf8ByteSize := by
  induction s using String.push_induction with
  | empty => exact Nat.zero_le _
  | push s c ih =>
    have := c.utf8Size_pos
    rw [String.length_push, String.utf8ByteSize_push]
    omega

theorem le_foldl_max {l : List Nat} {least n : Nat} (h : n ∈ l) : n ≤ l.foldl max least :=
  (List.max?_eq_some_iff.1 List.max?_cons').2 n (List.mem_cons_of_mem least h)

theorem padRight_append_blanks {width : Nat} {s : String} (h : s.length ≤ width) (n : Nat) :
    Text.padRight width s ++ String.ofList (List.replicate n ' ') = Text.padRight (width + n) s := by
  have hwidth : width + n - s.length = (width - s.length) + n := by omega
  unfold Text.padRight
  rw [String.append_assoc, ← String.ofList_append, List.replicate_append_replicate, hwidth]

/-- Saved filters are listed a line each, the text of every one behind its name, and all texts begin in one
column. -/
theorem exists_listing_eq {s : SavedFilters} (hne : s.entries ≠ []) : ∃ column,
    (∀ entry ∈ s.entries, entry.1.length + 2 ≤ column) ∧
      s.listing false = String.join (s.entries.map fun (name, text) =>
        "@" ++ Text.padRight column name ++ text ++ "\n") := by
  generalize hwidth : (s.entries.map fun (name, _) => name.utf8ByteSize).foldl max 0 = width
  have hle : ∀ entry ∈ s.entries, entry.1.length ≤ width := by
    intro entry hentry
    rw [← hwidth]
    exact (length_le_utf8ByteSize _).trans (le_foldl_max (List.mem_map_of_mem hentry))
  refine ⟨width + 2, fun entry hentry => Nat.add_le_add_right (hle entry hentry) 2, ?_⟩
  unfold SavedFilters.listing
  rw [if_neg (by simpa using hne), hwidth]
  dsimp only
  refine congrArg String.join (List.map_congr_left fun entry hentry => ?_)
  rw [← padRight_append_blanks (hle entry hentry) 2, ← String.append_assoc]
  rfl

/-- A login without a closing bracket leaves the brackets around the state as they are. -/
theorem closing_notMem_status {i : Issue} (h : ∀ u ∈ i.assignee, ')' ∉ u.login.toList) :
    ')' ∉ (i.status false).toList := by
  have hstate : ')' ∉ (state false i.state).toList := by cases i.state <;> decide
  unfold Issue.status
  split
  · rename_i u hu
    simp [hstate, h u hu]
  · exact hstate

/-- The parts of a text before and behind the first of a character are told apart. -/
theorem append_cons_inj {c : Char} {a b cs ds : List Char} (ha : c ∉ a) (hb : c ∉ b) (h : a ++ c :: cs = b ++ c :: ds) :
    a = b ∧ cs = ds := by
  rcases List.append_eq_append_iff.1 h with ⟨tail, rfl, htail⟩ | ⟨tail, rfl, htail⟩
  all_goals
    cases tail with
    | nil =>
      obtain ⟨-, rfl⟩ := List.cons.inj htail
      exact ⟨by simp, rfl⟩
    | cons d tail =>
      obtain ⟨rfl, -⟩ := List.cons.inj htail
      simp at ha hb

theorem eq_of_status_eq {i j : Issue} (h : i.status false = j.status false) :
    i.state = j.state ∧ i.assignee.map (·.login) = j.assignee.map (·.login) := by
  have hcomma (s : Issue.State) : ',' ∉ (state false s).toList := by cases s <;> decide
  have hstate {s t : Issue.State} (h : state false s = state false t) : s = t := by
    cases s <;> cases t <;> first | rfl | exact absurd h (by decide)
  unfold Issue.status at h
  rw [← String.toList_inj] at h
  -- a comma stands in the text only before who is assigned
  cases hi : i.assignee with
  | none =>
    cases hj : j.assignee with
    | none =>
      rw [hi, hj] at h
      exact ⟨hstate (String.toList_inj.1 h), rfl⟩
    | some v =>
      rw [hi, hj] at h
      refine absurd ?_ (hcomma i.state)
      simp [h]
  | some u =>
    cases hj : j.assignee with
    | none =>
      rw [hi, hj] at h
      refine absurd ?_ (hcomma j.state)
      simp [← h]
    | some v =>
      rw [hi, hj] at h
      have hparts : (state false i.state).toList ++ ',' :: (' ' :: '@' :: u.login.toList) =
          (state false j.state).toList ++ ',' :: (' ' :: '@' :: v.login.toList) := by simpa using h
      obtain ⟨hstates, hlogins⟩ := append_cons_inj (hcomma i.state) (hcomma j.state) hparts
      refine ⟨hstate (String.toList_inj.1 hstates), congrArg some (String.toList_inj.1 ?_)⟩
      exact (List.cons.inj (List.cons.inj hlogins).2).2

/-- The line of an issue tells its kind, state, number and title, and who is assigned, where no login has a closing
bracket in it. -/
theorem eq_of_line_eq {i j : Issue} (hi : ∀ u ∈ i.assignee, ')' ∉ u.login.toList)
    (hj : ∀ u ∈ j.assignee, ')' ∉ u.login.toList) (h : i.line false = j.line false) :
    i.kind = j.kind ∧ i.state = j.state ∧ i.assignee.map (·.login) = j.assignee.map (·.login) ∧ i.id = j.id ∧
      i.title = j.title := by
  have hline (i : Issue) : (i.line false).toList = "- [".toList ++ (i.kind.word.toList ++ ']' ::
      (" (".toList ++ ((i.status false).toList ++ ')' ::
        (" #".toList ++ ((toString i.id.toNat).toList ++ ':' :: (' ' :: i.title.toList)))))) := by
    simp [Issue.line]
  have hbracket (k : Issue.Kind) : ']' ∉ k.word.toList := by cases k <;> decide
  have hkinds {k l : Issue.Kind} (h : k.word = l.word) : k = l := by
    cases k <;> cases l <;> first | rfl | exact absurd h (by decide)
  have hcolon (n : Nat) : ':' ∉ (toString n).toList := fun hm => absurd (isDigit_of_mem_toString hm) (by decide)
  rw [← String.toList_inj, hline, hline] at h
  obtain ⟨hkind, h⟩ := append_cons_inj (hbracket _) (hbracket _) (List.append_cancel_left h)
  obtain ⟨hstatus, h⟩ :=
    append_cons_inj (closing_notMem_status hi) (closing_notMem_status hj) (List.append_cancel_left h)
  obtain ⟨hnumber, h⟩ := append_cons_inj (hcolon _) (hcolon _) (List.append_cancel_left h)
  obtain ⟨hstate, hassignee⟩ := eq_of_status_eq (String.toList_inj.1 hstatus)
  exact ⟨hkinds (String.toList_inj.1 hkind), hstate, hassignee,
    UInt32.toNat_inj.1 (Nat.repr_inj.1 (String.toList_inj.1 hnumber)),
    String.toList_inj.1 (List.cons.inj h).2⟩

/-! ## Outputs -/

theorem isPlain_padRight {s : String} (width : Nat) (h : IsPlain s.toList) :
    IsPlain (Text.padRight width s).toList := by
  refine h.append ?_
  rw [String.toList_ofList]
  exact fun hm => absurd (List.eq_of_mem_replicate hm) (by decide)

theorem shows_listing {s : SavedFilters}
    (h : ∀ entry ∈ s.entries, IsPlain entry.1.toList ∧ IsPlain entry.2.toList) :
    Shows (s.listing true) (s.listing false) := by
  unfold SavedFilters.listing
  split
  · exact shows_self (by decide)
  · -- the column is made before it is painted
    generalize (s.entries.map _).foldl max 0 = width
    refine shows_join fun entry hentry => ?_
    obtain ⟨hname, htext⟩ := h entry hentry
    have hlabel : IsPlain ("@" ++ Text.padRight width entry.1).toList :=
      IsPlain.append (by decide) (isPlain_padRight width hname)
    exact (((shows_paint 250 hlabel).append_plain (by decide)).append_plain htext).append_plain (by decide)

theorem isPlain_kind (k : Qualifier.Kind) :
    IsPlain k.name.toList ∧ IsPlain k.inputs.toList ∧ IsPlain (", ".intercalate k.aliases).toList := by
  cases k <;> decide +kernel

theorem shows_qualifierLines (k : Qualifier.Kind) :
    Shows (Help.qualifierLines true k) (Help.qualifierLines false k) := by
  obtain ⟨hname, hinputs, haliases⟩ := isPlain_kind k
  have hcolumn : IsPlain (Text.padRight 12 (k.name ++ ":")).toList :=
    isPlain_padRight 12 (hname.append (by decide))
  have hfirst := ((shows_paint 250 hcolumn).append_plain hinputs).append_plain (u := "\n") (by decide)
  unfold Help.qualifierLines
  dsimp only
  split
  · exact hfirst
  · have halso : IsPlain ("also: " ++ ", ".intercalate k.aliases).toList := IsPlain.append (by decide) haliases
    have hgap : IsPlain (Text.padRight 12 "").toList := isPlain_padRight 12 (by decide)
    exact ((hfirst.append_plain hgap).append (shows_paint 245 halso)).append_plain (by decide)

theorem shows_state (s : Issue.State) : Shows (state true s) (state false s) := by
  cases s <;> exact shows_paint _ (by decide)

theorem shows_status {i : Issue} (h : ∀ u ∈ i.assignee, IsPlain u.login.toList) :
    Shows (i.status true) (i.status false) := by
  have hstate := shows_state i.state
  unfold Issue.status
  split
  · rename_i u hu
    exact (hstate.append_plain (u := ", @") (by decide)).append_plain (h u hu)
  · exact hstate

theorem shows_line {i : Issue} (htitle : IsPlain i.title.toList)
    (hassignee : ∀ u ∈ i.assignee, IsPlain u.login.toList) : Shows (i.line true) (i.line false) := by
  have hkind : IsPlain ("- [" ++ i.kind.word ++ "] (").toList := by cases i.kind <;> decide
  have hnumber : IsPlain (toString i.id.toNat).toList := fun hm => absurd (isDigit_of_mem_toString hm) (by decide)
  unfold Issue.line
  exact (((((shows_self hkind).append (shows_status hassignee)).append_plain (by decide)).append_plain
    hnumber).append_plain (by decide)).append_plain htitle

/-- With its control sequences taken out, what is written in colour is what is written without: examples, saved
filters, qualifiers and issues. -/
theorem shown_coloured :
    (∀ s : String, IsPlain s.toList → '\r' ∉ s.toList → s.toList.getLast? ≠ some '\n' → shown (examples true s) = s) ∧
      (∀ s : SavedFilters, (∀ entry ∈ s.entries, IsPlain entry.1.toList ∧ IsPlain entry.2.toList) →
        shown (s.listing true) = s.listing false) ∧
      shown (Help.qualifiers true) = Help.qualifiers false ∧
      ∀ i : Issue, IsPlain i.title.toList → (∀ u ∈ i.assignee, IsPlain u.login.toList) →
        shown (i.line true) = i.line false :=
  ⟨fun _ hplain hreturn hend => (shows_examples hplain hreturn hend).shown_eq,
    fun _ h => (shows_listing h).shown_eq,
    (shows_join fun k _ => shows_qualifierLines k).shown_eq,
    fun _ htitle hassignee => (shows_line htitle hassignee).shown_eq⟩

/-- A heading, a line with nothing on it and a command behind a wide blank; a saved filter; and an issue with an
assignee. -/
theorem shown_coloured_indented :
    let made : Instant := ⟨⟨2024, 1, 1, by decide⟩, 0, 0, by decide⟩
    let bob : User := ⟨"bob", none, none⟩
    let i : Issue := ⟨7, "Crash: [0m", "", "ada", made, made, .closed, .issue, some bob, none, [], none, 0⟩
    let s : SavedFilters := ⟨[("mine", "assignee:bob")]⟩
    shown (examples true "Use:\n\n\u3000list  all") = "Use:\n\n\u3000list  all" ∧
      shown (s.listing true) = s.listing false ∧ shown (Help.qualifiers true) = Help.qualifiers false ∧
      shown (i.line true) = i.line false := by
  intro made bob i s
  obtain ⟨hexamples, hlisting, hqualifiers, hline⟩ := shown_coloured
  exact ⟨hexamples _ (by decide +kernel) (by decide +kernel) (by decide +kernel), hlisting s (by decide +kernel),
    hqualifiers, hline i (by decide +kernel) (by decide +kernel)⟩

end IssueQuery.Colour
