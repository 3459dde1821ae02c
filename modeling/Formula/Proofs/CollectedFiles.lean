import Formula.Proofs.FileLoading
import Formula.Proofs.FileNames

/-!
# Which files a run collects

`Yields` says what is to be found for one given path: the path itself if it
leads to a file, and all rule documents below it if it leads to a directory.
What a run collects are these files, in order and each once; of the given paths
neither their order nor repetitions matter, except for the spelling.
-/

namespace Formula

namespace FileTree

/-- Names lead from the tree to a file. -/
inductive HasFile : FileTree → List String → Prop
  | file (content : ByteArray) : HasFile (.file content) []
  | entry {entries : List (String × FileTree)} {name : String} {tree : FileTree}
    {names : List String} (inside : (name, tree) ∈ entries)
    (leads : tree.HasFile names) : HasFile (.directory entries) (name :: names)

mutual

theorem mem_files_iff :
    (tree : FileTree) → {names : List String} →
      (names ∈ tree.files ↔ tree.HasFile names)
  | .file content, names => by
      rw [files, List.mem_singleton]
      constructor
      · rintro rfl
        exact .file content
      · rintro ⟨⟩
        rfl
  | .directory entries, names => by
      rw [files, mem_entryFiles_iff entries]
      constructor
      · rintro ⟨name, tree, inside, below, rfl, leads⟩
        exact .entry inside leads
      · rintro (_ | ⟨inside, leads⟩)
        exact ⟨_, _, inside, _, rfl, leads⟩

theorem mem_entryFiles_iff :
    (entries : List (String × FileTree)) → {names : List String} →
    (names ∈ entryFiles entries ↔
      ∃ name tree, (name, tree) ∈ entries ∧
        ∃ below, names = name :: below ∧ tree.HasFile below)
  | [], names => by simp [entryFiles]
  | (name, tree) :: rest, names => by
      rw [entryFiles, List.mem_append, List.mem_map, mem_entryFiles_iff rest]
      simp only [mem_files_iff tree, List.mem_cons]
      constructor
      · rintro (⟨below, leads, rfl⟩ | ⟨other, otherTree, inside, found⟩)
        · exact ⟨name, tree, .inl rfl, below, rfl, leads⟩
        · exact ⟨other, otherTree, .inr inside, found⟩
      · rintro ⟨other, otherTree, same | inside, found⟩
        · cases same
          obtain ⟨below, rfl, leads⟩ := found
          exact .inl ⟨below, leads, rfl⟩
        · exact .inr ⟨other, otherTree, inside, found⟩

end

/-- The path leads somewhere. -/
def HasPath (tree : FileTree) (home : List String) (path : String) : Prop :=
  ∃ target, tree.resolve home path = .ok target

/-- What there is to be found for a given path: a file itself, and of a
directory all files with the extension of rule documents at any depth below
it. -/
inductive Yields (tree : FileTree) (home : List String) : String → String → Prop
  | file {given : String} {content : ByteArray}
    (leads : tree.resolve home given = .ok (.file content)) :
    Yields tree home given given
  | below {given name : String} {entries : List (String × FileTree)}
    {names : List String}
    (leads : tree.resolve home given = .ok (.directory entries))
    (holds : (directory entries).HasFile (names ++ [name]))
    (document : IsDocumentName name) :
    Yields tree home given ((names ++ [name]).foldl joinPath given)

variable {tree : FileTree} {home : List String}

theorem find_ne_nothing_iff {path : String} :
    (tree.system home).find path ≠ .nothing ↔ tree.HasPath home path := by
  unfold system HasPath
  cases leads : tree.resolve home path with
  | error error => simp [leads]
  | ok target => cases target <;> simp [leads]

end FileTree

namespace RuleFiles

open FileTree

variable {tree : FileTree} {home : List String}

theorem extension_of_names_iff {names : List String} :
    names.getLast?.bind extension? = some "json" ↔
      ∃ front name, names = front ++ [name] ∧ IsDocumentName name := by
  rw [Option.bind_eq_some_iff]
  constructor
  · rintro ⟨name, last, document⟩
    obtain ⟨front, rfl⟩ := List.getLast?_eq_some_iff.mp last
    exact ⟨front, name, rfl, extension?_eq_json_iff.mp document⟩
  · rintro ⟨front, name, rfl, document⟩
    exact ⟨name, List.getLast?_concat, extension?_eq_json_iff.mpr document⟩

theorem mem_found_iff {given file : String} :
    file ∈ found (tree.system home) given ↔ tree.Yields home given file := by
  unfold found system
  cases leads : tree.resolve home given with
  | error error =>
      simp only [leads, List.not_mem_nil, false_iff]
      rintro (other | other) <;> cases leads.symm.trans other
  | ok target =>
      cases target with
      | file content =>
          simp only [leads, List.mem_singleton]
          constructor
          · rintro rfl
            exact .file leads
          · rintro (other | other)
            · rfl
            · cases leads.symm.trans other
      | directory entries =>
          have holds_iff : ∀ names,
              names ∈ entryFiles entries ↔ (directory entries).HasFile names :=
            fun names => mem_files_iff (directory entries)
          simp only [leads, List.mem_map, List.mem_filter, decide_eq_true_eq,
            holds_iff, extension_of_names_iff]
          constructor
          · rintro ⟨_, ⟨holds, front, name, rfl, document⟩, rfl⟩
            exact .below leads holds document
          · intro yields
            cases yields with
            | file other => cases leads.symm.trans other
            | below other holds document =>
                cases leads.symm.trans other
                exact ⟨_, ⟨holds, _, _, rfl, document⟩, rfl⟩

theorem collect_of_exist {system : FileSystem} {paths : List String}
    (exist : ∀ path ∈ paths, system.find path ≠ .nothing) :
    collect system paths = .ok (sortPaths (paths.flatMap (found system))) := by
  rw [collect, gather_of_exist exist]
  rfl

/-- Each spelling that is collected is the one that the first of the given paths
with this file leads to. -/
theorem exists_first_of_mem {paths : List String} {file : String}
    (member : file ∈ sortPaths (paths.flatMap (found (tree.system home)))) :
    ∃ front given back, paths = front ++ given :: back ∧
      tree.Yields home given file ∧
      ∀ earlier ∈ front, ∀ other, tree.Yields home earlier other →
        components other ≠ components file := by
  have first := mem_sortPaths_iff.mp member
  rw [List.find?_flatMap] at first
  obtain ⟨front, given, back, whole, found_eq, none⟩ :=
    List.findSome?_eq_some_iff.mp first
  refine ⟨front, given, back, whole, ?_, ?_⟩
  · exact mem_found_iff.mp (List.mem_of_find?_eq_some found_eq)
  · intro earlier inFront other yields same
    have absent := List.find?_eq_none.mp (none earlier inFront) other
      (mem_found_iff.mpr yields)
    simp [same] at absent

/-- Up to components, what is collected depends only on which paths are
given. -/
theorem mem_components_iff {paths : List String} {parts : List Component} :
    parts ∈
        (sortPaths (paths.flatMap (found (tree.system home)))).map components ↔
      ∃ given ∈ paths, ∃ file, tree.Yields home given file ∧
        components file = parts := by
  rw [mem_map_components_sortPaths, List.mem_map]
  simp only [List.mem_flatMap, mem_found_iff]
  constructor
  · rintro ⟨file, ⟨given, member, yields⟩, same⟩
    exact ⟨given, member, file, yields, same⟩
  · rintro ⟨given, member, file, yields, same⟩
    exact ⟨file, ⟨given, member, yields⟩, same⟩

/-- The files are those that are to be found for the given paths, in order and
each once; of several spellings the first one stays. -/
structure Collects (tree : FileTree) (home paths files : List String) :
    Prop where
  increasing : Increasing files
  complete : ∀ parts, parts ∈ files.map components ↔
    ∃ given ∈ paths, ∃ file,
      tree.Yields home given file ∧ components file = parts
  first : ∀ file ∈ files, ∃ front given back, paths = front ++ given :: back ∧
    tree.Yields home given file ∧
    ∀ earlier ∈ front, ∀ other, tree.Yields home earlier other →
      components other ≠ components file

theorem collects_sortPaths (tree : FileTree) (home paths : List String) :
    Collects tree home paths
      (sortPaths (paths.flatMap (found (tree.system home)))) where
  increasing := increasing_sortPaths _
  complete _ := mem_components_iff
  first _ := exists_first_of_mem

theorem Collects.map_components_eq {paths others files otherFiles : List String}
    (collects : Collects tree home paths files)
    (otherCollects : Collects tree home others otherFiles)
    (same : ∀ path, path ∈ others ↔ path ∈ paths) :
    otherFiles.map components = files.map components := by
  apply eq_of_increasing otherCollects.increasing.map_components
    collects.increasing.map_components
  intro parts
  simp only [otherCollects.complete, collects.complete, same]

/-- If all given paths lead somewhere, a run collects what is to be found for
them, and gets the same files, up to spelling, in whatever order and however
often the paths are given.  Otherwise the first path that leads nowhere is
named.  The order is that of a stable sort, and the files below a directory have
the components of the directory and then the names that lead to them. -/
theorem collect_lists_files (tree : FileTree) (home paths : List String) :
    ((∀ path ∈ paths, tree.HasPath home path) →
      ∃ files, collect (tree.system home) paths = .ok files ∧
        Collects tree home paths files ∧
        ∀ others, (∀ path, path ∈ others ↔ path ∈ paths) →
          ∃ otherFiles, collect (tree.system home) others = .ok otherFiles ∧
            otherFiles.map components = files.map components) ∧
    (∀ front path back, paths = front ++ path :: back →
      (∀ earlier ∈ front, tree.HasPath home earlier) → ¬tree.HasPath home path →
        collect (tree.system home) paths = .error (.missingPath path)) ∧
    collect (tree.system home) paths =
      (gather (tree.system home) paths).map (dropRepeated ∘ sortStably) ∧
    (∀ (given : String) (names : List String), given ≠ "" →
      (∀ name ∈ names, IsEntryName name) →
      components (names.foldl joinPath given) =
        components given ++ names.map .name) := by
  simp only [← FileTree.find_ne_nothing_iff]
  refine ⟨?_, ?_, ?_, ?_⟩
  · intro exist
    have collects := collects_sortPaths tree home paths
    refine ⟨_, collect_of_exist exist, collects, ?_⟩
    intro others same
    have othersExist :
        ∀ path ∈ others, (tree.system home).find path ≠ .nothing :=
      fun path member => exist path ((same path).mp member)
    exact ⟨_, collect_of_exist othersExist,
      collects.map_components_eq (collects_sortPaths tree home others) same⟩
  · rintro front path back rfl exist nothing
    rw [collect, gather_of_missing exist (not_not.mp nothing)]
    rfl
  · rw [collect]
    congr 1
    exact funext sortPaths_eq_dropRepeated_sortStably
  · intro given names given_ne entries
    exact components_foldl_joinPath given_ne entries

/-- A directory with rule documents, another file in it, and a file beside
it. -/
def smallTree : FileTree :=
  .directory
    [("r", .directory
      [("b.json", .file .empty), (".json", .file .empty),
        ("sub", .directory
          [("a.json", .file .empty), ("a.txt", .file .empty)])]),
      ("note.txt", .file .empty)]

/-- A given file is collected whatever its name is; below a directory the
extension counts.  The path `r//b.json` is given before `r`, which leads to
`r/b.json`. -/
theorem collect_lists_files_smallTree :
    let paths := ["r//b.json", "r", "note.txt"]
    let files := ["note.txt", "r//b.json", "r/sub/a.json"]
    (∀ path ∈ paths, smallTree.HasPath [] path) ∧
      collect (smallTree.system []) paths = .ok files ∧
      Collects smallTree [] paths files ∧
      (∃ otherFiles,
        collect (smallTree.system []) ["note.txt", "r", "r//b.json", "r"] =
          .ok otherFiles ∧ otherFiles.map components = files.map components) ∧
      collect (smallTree.system []) ["r", "x", "y"] =
        .error (.missingPath "x") ∧
      components (["sub", "a.json"].foldl joinPath "r/") =
        components "r/" ++ [.name "sub", .name "a.json"] := by
  intro paths files
  have directory : smallTree.HasPath [] "r" := ⟨_, rfl⟩
  have exist : ∀ path ∈ paths, smallTree.HasPath [] path := by
    simp only [paths, List.forall_mem_cons]
    exact ⟨⟨_, rfl⟩, directory, ⟨_, rfl⟩, List.forall_mem_nil _⟩
  have nothing : ¬smallTree.HasPath [] "x" := by
    rintro ⟨target, leads⟩
    have absent : smallTree.resolve [] "x" = .error .notFound := rfl
    cases absent.symm.trans leads
  have evaluated : collect (smallTree.system []) paths = .ok files := by
    decide +kernel
  obtain ⟨lists, -, -, joined⟩ := collect_lists_files smallTree [] paths
  obtain ⟨-, missing, -⟩ := collect_lists_files smallTree [] ["r", "x", "y"]
  obtain ⟨_, collected, collects, others⟩ := lists exist
  obtain rfl := Except.ok.inj (evaluated.symm.trans collected)
  have same :
      ∀ path, path ∈ ["note.txt", "r", "r//b.json", "r"] ↔ path ∈ paths := by
    intro path
    simp only [paths, List.mem_cons]
    tauto
  refine ⟨exist, evaluated, collects, others _ same, ?_, ?_⟩
  · apply missing ["r"] "x" ["y"] rfl ?_ nothing
    exact List.forall_mem_cons.mpr ⟨directory, List.forall_mem_nil _⟩
  · apply joined "r/" ["sub", "a.json"] (by decide)
    simp only [List.forall_mem_cons]
    exact ⟨by constructor <;> decide, by constructor <;> decide,
      List.forall_mem_nil _⟩

end RuleFiles

end Formula
