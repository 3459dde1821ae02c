import Formula.Text.Split

/-!
# Paths

Paths are kept as they were given, and compared by their components: repeated
slashes, a slash at the end and dots inside make no difference.
-/

namespace Formula

/-- The part of a path between two slashes. -/
inductive Component where
  /-- The slash at the beginning of an absolute path. -/
  | root
  /-- A dot at the beginning of a relative path. -/
  | current
  | parent
  | name (text : String)
  deriving DecidableEq

namespace Component

/-- The place of a component among those of other forms, and its name. -/
def key : Component → Nat × String
  | .root => (0, "")
  | .current => (1, "")
  | .parent => (2, "")
  | .name text => (3, text)

def compare (left right : Component) : Ordering :=
  (Ord.compare left.key.1 right.key.1).then (Ord.compare left.key.2 right.key.2)

end Component

/-- What stands between the slashes of a path. -/
def segments (path : String) : List String := splitAtChar '/' path

/-- The components that segments stand for, behind the first one. -/
def innerComponents (segments : List String) : List Component :=
  segments.filterMap fun segment =>
    if segment = "" ∨ segment = "." then none
    else if segment = ".." then some .parent
    else some (.name segment)

def components (path : String) : List Component :=
  match segments path with
  | [] => []
  | "" :: rest => if rest.isEmpty then [] else .root :: innerComponents rest
  | "." :: rest => .current :: innerComponents rest
  | segments => innerComponents segments

/-- The order of component lists, the first difference deciding. -/
def compareComponents : List Component → List Component → Ordering
  | [], [] => .eq
  | [], _ :: _ => .lt
  | _ :: _, [] => .gt
  | left :: lefts, right :: rights =>
    (left.compare right).then (compareComponents lefts rights)

def comparePaths (left right : String) : Ordering :=
  compareComponents (components left) (components right)

/-- The path of something in a directory. -/
def joinPath (directory name : String) : String :=
  if directory.toList.getLast? = some '/' then directory ++ name
  else directory ++ "/" ++ name

/-- What follows the last dot of a file name; a dot at the beginning does not
count. -/
def extension? (name : String) : Option String :=
  match (splitAtChar '.' name).reverse with
  | extension :: stem =>
    if stem = [] ∨ stem = [""] then none else some extension
  | [] => none

/-- Puts a path in its place among paths in order.  It takes the place of one
that is equal by components. -/
def insertPath (path : String) : List String → List String
  | [] => [path]
  | other :: rest =>
    match comparePaths path other with
    | .lt => path :: other :: rest
    | .eq => path :: rest
    | .gt => other :: insertPath path rest

/-- Paths in order, each once; of those equal by components the first one
stays. -/
def sortPaths (paths : List String) : List String := paths.foldr insertPath []

end Formula
