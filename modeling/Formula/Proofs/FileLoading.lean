import Formula.Command.Run
import Formula.Proofs.SortedPaths

/-!
# Loading rule files

What has to hold of a file system for a run to get the paths that it collects,
the values that replace others and the documents: paths lead somewhere, files
can be read, and their texts spell what is looked for.
-/

namespace Formula.RuleFiles

variable {system : FileSystem}

/-- A file can be read, and its text spells the document. -/
def Holds (system : FileSystem) (file : String) (document : RuleDocument) :
    Prop :=
  ∃ text, system.readText file = .ok text ∧
    RuleDocument.ofText text = .ok document

theorem loadDocument_eq_ok_iff {file : String} {document : RuleDocument} :
    loadDocument system file = .ok document ↔ Holds system file document := by
  unfold loadDocument Holds
  cases system.readText file with
  | error error => simp
  | ok text => cases spelled : RuleDocument.ofText text <;> simp [spelled]

theorem Holds.unique {file : String} {document other : RuleDocument}
    (holds : Holds system file document)
    (otherHolds : Holds system file other) :
    document = other := by
  rw [← loadDocument_eq_ok_iff] at holds otherHolds
  exact Except.ok.inj (holds.symm.trans otherHolds)

/-- The values that replace those of documents: none if no file with values is
given, and otherwise those that its text spells. -/
inductive Replaces (system : FileSystem) :
    Option String → VariableTable → Prop
  | none : Replaces system none ∅
  | file {path text : String} {table : VariableTable}
    (readable : system.readText path = .ok text)
    (spelled : (Json.parse text >>= VariableTable.ofJson) = .ok table) :
    Replaces system (some path) table

theorem loadVariables_eq_ok_iff {vars : Option String} {table : VariableTable} :
    loadVariables system vars = .ok table ↔ Replaces system vars table := by
  constructor
  · intro loaded
    cases vars with
    | none =>
        cases loaded
        exact .none
    | some path =>
        unfold loadVariables at loaded
        cases readable : system.readText path with
        | error error => simp [readable] at loaded
        | ok text =>
            cases spelled : Json.parse text >>= VariableTable.ofJson with
            | error mismatch => simp [readable, spelled] at loaded
            | ok found =>
                simp only [readable, spelled, Except.ok.injEq] at loaded
                obtain rfl := loaded
                exact .file readable spelled
  · intro replaces
    cases replaces with
    | none => rfl
    | file readable spelled => simp [loadVariables, readable, spelled]

theorem Replaces.unique {vars : Option String} {table other : VariableTable}
    (replaces : Replaces system vars table)
    (otherReplaces : Replaces system vars other) : table = other := by
  rw [← loadVariables_eq_ok_iff] at replaces otherReplaces
  exact Except.ok.inj (replaces.symm.trans otherReplaces)

/-- The paths to what is found for one given path. -/
def found (system : FileSystem) (path : String) : List String :=
  match system.find path with
  | .nothing => []
  | .file => [path]
  | .directory below =>
    (below.filter fun names =>
      (names.getLast?.bind extension?) = some "json").map
      (·.foldl joinPath path)

theorem gather_cons {path : String} (leads : system.find path ≠ .nothing)
    (rest : List String) :
    gather system (path :: rest) =
      (gather system rest).map (found system path ++ ·) := by
  rw [gather, found]
  cases answer : system.find path with
  | nothing => exact absurd answer leads
  | file | directory => rfl

theorem gather_of_exist {paths : List String}
    (exist : ∀ path ∈ paths, system.find path ≠ .nothing) :
    gather system paths = .ok (paths.flatMap (found system)) := by
  induction paths with
  | nil => rfl
  | cons path rest induction =>
      obtain ⟨leads, others⟩ := List.forall_mem_cons.mp exist
      rw [gather_cons leads, induction others, List.flatMap_cons]
      rfl

/-- Gathering stops at the first path that leads nowhere. -/
theorem gather_of_missing {front : List String}
    (exist : ∀ path ∈ front, system.find path ≠ .nothing) {path : String}
    (nothing : system.find path = .nothing) (back : List String) :
    gather system (front ++ path :: back) = .error (.missingPath path) := by
  induction front with
  | nil => rw [List.nil_append, gather, nothing]
  | cons first front induction =>
      obtain ⟨leads, others⟩ := List.forall_mem_cons.mp exist
      rw [List.cons_append, gather_cons leads, induction others]
      rfl

end Formula.RuleFiles
