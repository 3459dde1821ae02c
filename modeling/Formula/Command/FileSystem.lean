import Formula.Command.Path

/-!
# Files

The checker asks a file system three things: what a path leads to, which files
lie below a directory, and what a file contains.  A `FileTree` answers them when
it is told in which of its directories relative paths start.
-/

namespace Formula

/-- Why the system does not give the content of a file. -/
inductive SystemError where
  | notFound
  | notADirectory
  | isADirectory
  | nameTooLong
  /-- The content is not a text in UTF-8. -/
  | notText
  | other (message : String)
  deriving DecidableEq

def SystemError.message : SystemError → String
  | .notFound => "No such file or directory (os error 2)"
  | .notADirectory => "Not a directory (os error 20)"
  | .isADirectory => "Is a directory (os error 21)"
  | .nameTooLong => "File name too long (os error 36)"
  | .notText => "stream did not contain valid UTF-8"
  | .other message => message

/-- What a path leads to. -/
inductive Found where
  | nothing
  | file
  /-- A directory, with the files at any depth below it; each as the names that
  lead to it. -/
  | directory (files : List (List String))

structure FileSystem where
  find : String → Found
  read : String → Except SystemError ByteArray

/-- The text in a file. -/
def FileSystem.readText (system : FileSystem) (path : String) :
    Except SystemError String :=
  match system.read path with
  | .error error => .error error
  | .ok content =>
    match String.fromUTF8? content with
    | some text => .ok text
    | none => .error .notText

inductive FileTree where
  | file (content : ByteArray)
  | directory (entries : List (String × FileTree))

namespace FileTree

mutual

/-- The names that lead to each file in a tree. -/
def files : FileTree → List (List String)
  | .file _ => [[]]
  | .directory entries => entryFiles entries

def entryFiles : List (String × FileTree) → List (List String)
  | [] => []
  | (name, tree) :: rest => tree.files.map (name :: ·) ++ entryFiles rest

end

/-- Follows the segments of a path from a directory, which lies in the ones of
`outer`, the innermost first.  The root lies in itself. -/
def follow (here : FileTree) (outer : List FileTree) :
    List String → Except SystemError FileTree
  | [] => .ok here
  | segment :: rest =>
    match here with
    | .file _ => .error .notADirectory
    | .directory entries =>
      if segment = "" ∨ segment = "." then here.follow outer rest
      else if segment = ".." then
        match outer with
        | [] => here.follow [] rest
        | around :: outer => around.follow outer rest
      else if 255 < segment.utf8ByteSize then .error .nameTooLong
      else
        match entries.lookup segment with
        | none => .error .notFound
        | some next => next.follow (here :: outer) rest

/-- What lies at a path.  A relative one starts in the directory to which the
names `home` lead. -/
def resolve (tree : FileTree) (home : List String) (path : String) :
    Except SystemError FileTree :=
  if path = "" then .error .notFound
  else if 4096 ≤ path.utf8ByteSize then .error .nameTooLong
  else
    match segments path with
    | "" :: names => tree.follow [] names
    | names => tree.follow [] (home ++ names)

def system (tree : FileTree) (home : List String) : FileSystem where
  find path :=
    match tree.resolve home path with
    | .error _ => .nothing
    | .ok (.file _) => .file
    | .ok (.directory entries) => .directory (entryFiles entries)
  read path :=
    match tree.resolve home path with
    | .error error => .error error
    | .ok (.file content) => .ok content
    | .ok (.directory _) => .error .isADirectory

end FileTree

end Formula
