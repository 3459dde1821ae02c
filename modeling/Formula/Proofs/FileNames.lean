import Formula.Command.Path

/-!
# Names and components

What joining a directory and a name means for the components of the path, and
which names have a given extension.
-/

namespace Formula

/-! ## Cutting joined texts -/

section Split

variable {separator : Char} {text : List Char}

theorem exists_splitChars_cons (separator : Char) (text : List Char) :
    ∃ first others, splitChars separator text = first :: others := by
  have parts := length_splitChars separator text
  exact List.exists_cons_of_length_eq_add_one parts

theorem splitChars_append_cons (front back : List Char) :
    splitChars separator (front ++ separator :: back) =
      splitChars separator front ++ splitChars separator back := by
  induction front with
  | nil => simp [splitChars]
  | cons c front induction =>
      obtain ⟨first, others, parts⟩ := exists_splitChars_cons separator front
      rw [List.cons_append, splitChars, splitChars, induction, parts]
      by_cases same : c = separator
      · rw [if_pos same, if_pos same]
        rfl
      · rw [if_neg same, if_neg same]
        rfl

theorem splitChars_of_notMem (absent : separator ∉ text) :
    splitChars separator text = [text] := by
  induction text with
  | nil => rfl
  | cons c rest induction =>
      rw [List.mem_cons, not_or] at absent
      rw [splitChars, if_neg (Ne.symm absent.1), induction absent.2]

theorem splitAtChar_append {mark : String} (single : mark.toList = [separator])
    (front back : String) :
    splitAtChar separator (front ++ mark ++ back) =
      splitAtChar separator front ++ splitAtChar separator back := by
  simp [splitAtChar, single, splitChars_append_cons]

theorem splitAtChar_of_notMem {text : String}
    (absent : separator ∉ text.toList) :
    splitAtChar separator text = [text] := by
  simp [splitAtChar, splitChars_of_notMem absent]

theorem splitAtChar_eq_singleton {text : String} {part : String}
    (whole : splitAtChar separator text = [part]) : text = part := by
  have count := length_splitChars separator text.toList
  have parts : (splitAtChar separator text).length = 1 := by rw [whole]; rfl
  rw [splitAtChar, List.length_map, count, Nat.add_eq_right,
    List.count_eq_zero] at parts
  rw [splitAtChar_of_notMem parts] at whole
  exact List.singleton_inj.mp whole

end Split

/-! ## Components of joined paths -/

/-- What a directory can call one of its entries. -/
structure IsEntryName (name : String) : Prop where
  ne_empty : name ≠ ""
  ne_current : name ≠ "."
  ne_parent : name ≠ ".."
  noSlash : '/' ∉ name.toList

/-- The components for the first segment of a path. -/
def firstComponents (segment : String) : List Component :=
  if segment = "" then [.root]
  else if segment = "." then [.current]
  else innerComponents [segment]

theorem innerComponents_append (front back : List String) :
    innerComponents (front ++ back) =
      innerComponents front ++ innerComponents back :=
  List.filterMap_append

theorem components_eq {path first : String} {rest : List String}
    (split : segments path = first :: rest)
    (notEmpty : first ≠ "" ∨ rest ≠ []) :
    components path = firstComponents first ++ innerComponents rest := by
  unfold components firstComponents
  rw [split]
  by_cases root : first = ""
  · subst first
    simpa using notEmpty
  · by_cases current : first = "."
    · subst first
      simp
    · simp [root, current, ← innerComponents_append]

theorem IsEntryName.innerComponents {name : String} (entry : IsEntryName name) :
    innerComponents [name] = [.name name] := by
  simp [Formula.innerComponents, entry.ne_empty, entry.ne_current,
    entry.ne_parent]

theorem exists_segments_cons (path : String) :
    ∃ first rest, segments path = first :: rest := by
  obtain ⟨first, others, parts⟩ := exists_splitChars_cons '/' path.toList
  exact ⟨_, _, by rw [segments, splitAtChar, parts, List.map_cons]⟩

theorem segments_append (front back : String) :
    segments (front ++ "/" ++ back) = segments front ++ segments back :=
  splitAtChar_append rfl front back

theorem IsEntryName.segments {name : String} (entry : IsEntryName name) :
    segments name = [name] :=
  splitAtChar_of_notMem entry.noSlash

/-- A slash comes between a directory and a name unless it is there already. -/
theorem joinPath_cases (directory name : String) :
    joinPath directory name = directory ++ "/" ++ name ∨
      ∃ front, directory = front ++ "/" ∧
        joinPath directory name = front ++ "/" ++ name := by
  by_cases slash : directory.toList.getLast? = some '/'
  · obtain ⟨front, whole⟩ := List.getLast?_eq_some_iff.mp slash
    have same : directory = String.ofList front ++ "/" := by
      apply String.toList_inj.mp
      simpa using whole
    exact .inr ⟨String.ofList front, same,
      by rw [joinPath, if_pos slash, ← same]⟩
  · exact .inl (if_neg slash)

/-- Joining a name to a directory adds a component. -/
theorem components_joinPath {directory name : String} (given : directory ≠ "")
    (entry : IsEntryName name) :
    components (joinPath directory name) =
      components directory ++ [.name name] := by
  rcases joinPath_cases directory name with joined | ⟨front, whole, joined⟩
  · obtain ⟨first, rest, parts⟩ := exists_segments_cons directory
    have notEmpty : first ≠ "" ∨ rest ≠ [] := by
      cases rest with
      | nil =>
          have same := splitAtChar_eq_singleton parts
          exact .inl (same ▸ given)
      | cons => exact .inr (List.cons_ne_nil _ _)
    have longer :
        segments (joinPath directory name) = first :: (rest ++ [name]) := by
      rw [joined, segments_append, parts, entry.segments, List.cons_append]
    rw [components_eq longer (.inr (by simp)), components_eq parts notEmpty,
      innerComponents_append, entry.innerComponents, List.append_assoc]
  · obtain ⟨first, rest, parts⟩ := exists_segments_cons front
    have shorter : segments directory = first :: (rest ++ [""]) := by
      have ended := segments_append front ""
      rw [String.append_empty, ← whole, parts] at ended
      exact ended
    have longer :
        segments (joinPath directory name) = first :: (rest ++ [name]) := by
      rw [joined, segments_append, parts, entry.segments, List.cons_append]
    have noComponent : innerComponents [""] = [] := rfl
    rw [components_eq longer (.inr (by simp)),
      components_eq shorter (.inr (by simp)), innerComponents_append,
      innerComponents_append, entry.innerComponents, noComponent,
      List.append_nil, List.append_assoc]

theorem joinPath_ne_empty (directory name : String) :
    joinPath directory name ≠ "" := by
  rcases joinPath_cases directory name with joined | ⟨front, -, joined⟩ <;>
    simp [joined]

theorem components_foldl_joinPath {directory : String} (given : directory ≠ "")
    {names : List String} (entries : ∀ name ∈ names, IsEntryName name) :
    components (names.foldl joinPath directory) =
      components directory ++ names.map .name := by
  induction names generalizing directory with
  | nil => simp
  | cons name names induction =>
      obtain ⟨entry, others⟩ := List.forall_mem_cons.mp entries
      rw [List.foldl_cons, induction (joinPath_ne_empty _ _) others,
        components_joinPath given entry]
      simp

/-! ## Extensions -/

theorem splitAtChar_eq_empty_iff {separator : Char} {text : String} :
    splitAtChar separator text = [""] ↔ text = "" := by
  constructor
  · exact splitAtChar_eq_singleton
  · rintro rfl
    rfl

/-- The extension is what stands behind the last dot, unless nothing stands in
front of it. -/
theorem extension?_dotted (stem : String) {extension : String}
    (noDot : '.' ∉ extension.toList) :
    extension? (stem ++ "." ++ extension) =
      if stem = "" then none else some extension := by
  have nonempty : splitAtChar '.' stem ≠ [] := by
    obtain ⟨first, others, parts⟩ := exists_splitChars_cons '.' stem.toList
    rw [splitAtChar, parts]
    exact List.cons_ne_nil _ _
  have parts : (splitAtChar '.' (stem ++ "." ++ extension)).reverse =
      extension :: (splitAtChar '.' stem).reverse := by
    rw [splitAtChar_append rfl, splitAtChar_of_notMem noDot,
      List.reverse_append]
    rfl
  have empty_iff : (splitAtChar '.' stem).reverse = [] ∨
      (splitAtChar '.' stem).reverse = [""] ↔ stem = "" := by
    rw [List.reverse_eq_nil_iff, List.reverse_eq_iff, List.reverse_singleton,
      splitAtChar_eq_empty_iff, or_iff_right nonempty]
  rw [extension?, parts]
  simp only [empty_iff]

theorem extension?_of_notMem {name : String} (noDot : '.' ∉ name.toList) :
    extension? name = none := by
  rw [extension?, splitAtChar_of_notMem noDot]
  rfl

theorem exists_last_dot {name : String} (dotted : '.' ∈ name.toList) :
    ∃ stem extension : String, name = stem ++ "." ++ extension ∧
      '.' ∉ extension.toList := by
  obtain ⟨back, front, split, absent⟩ :=
    List.eq_append_cons_of_mem (List.mem_reverse.mpr dotted)
  refine ⟨String.ofList front.reverse, String.ofList back.reverse, ?_, ?_⟩
  · apply String.toList_inj.mp
    rw [List.reverse_eq_iff] at split
    simp [split]
  · simpa using absent

/-- The name has the extension of rule documents. -/
def IsDocumentName (name : String) : Prop :=
  ∃ stem, stem ≠ "" ∧ name = stem ++ ".json"

theorem extension?_eq_json_iff {name : String} :
    extension? name = some "json" ↔ IsDocumentName name := by
  have json : (".json" : String) = "." ++ "json" := rfl
  constructor
  · intro found
    by_cases dotted : '.' ∈ name.toList
    · obtain ⟨stem, extension, rfl, noDot⟩ := exists_last_dot dotted
      rw [extension?_dotted stem noDot] at found
      by_cases empty : stem = ""
      · rw [if_pos empty] at found
        cases found
      · rw [if_neg empty] at found
        cases found
        exact ⟨stem, empty, by rw [json, String.append_assoc]⟩
    · rw [extension?_of_notMem dotted] at found
      cases found
  · rintro ⟨stem, given, rfl⟩
    rw [json, ← String.append_assoc, extension?_dotted stem (by decide),
      if_neg given]

end Formula
