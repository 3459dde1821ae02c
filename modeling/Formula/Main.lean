import Formula.Command.Run

/-!
# The rule checker

Asks the file system what the arguments name, runs the check on the answers, and
writes what the run gives.
-/

namespace Formula.RuleFiles

/-- The files at any depth below a directory with the given entries. -/
partial def filesBelow (entries : Array IO.FS.DirEntry) :
    IO (List (List String)) := do
  let mut files := []
  for entry in entries do
    match (← entry.path.symlinkMetadata).type with
    | .file => files := files ++ [[entry.fileName]]
    | .dir =>
      let below ← filesBelow (← entry.path.readDir)
      files := files ++ below.map (entry.fileName :: ·)
    | _ => pure ()
  return files

def find (path : String) : IO Found := do
  try
    let place ← IO.FS.realPath path
    match (← place.metadata).type with
    | .file => return .file
    | .dir => return .directory (← filesBelow (← place.readDir))
    | _ => return .nothing
  catch _ => return .nothing

def read (path : String) : IO (Except SystemError ByteArray) := do
  match ← find path with
  | .directory _ => return .error .isADirectory
  | _ =>
    try return .ok (← IO.FS.readBinFile path)
    catch
      | .noFileOrDirectory .. => return .error .notFound
      | error => return .error (.other (toString error))

/-- What the file system answers about the paths that a run asks for. -/
def answers (arguments : Arguments) : IO FileSystem := do
  let found ← arguments.paths.mapM fun path => return (path, ← find path)
  let known : FileSystem :=
    { find := fun path => (found.lookup path).getD .nothing
      read := fun _ => .error .notFound }
  let documents := (collect known arguments.paths).toOption.getD []
  let contents ← (documents ++ arguments.vars.toList).mapM fun path =>
    return (path, ← read path)
  return { known with
    read := fun path => (contents.lookup path).getD (.error .notFound) }

def write (output : Output) : IO Unit := do
  match output with
  | .out line => IO.println line
  | .err line => IO.eprintln line
  | .log message fields =>
    let values := fields.map fun field => " " ++ field.1 ++ "=" ++ field.2
    IO.eprintln (Level.debug.text ++ " " ++ message ++ String.join values)

end Formula.RuleFiles

open Formula in
def main (words : List String) : IO UInt32 := do
  match Arguments.read words with
  | .error error =>
    IO.eprintln s!"error: {error.message}"
    return 2
  | .ok arguments =>
    let run := RuleFiles.run (← RuleFiles.answers arguments) arguments
    run.output.forM RuleFiles.write
    match run.failure with
    | some failure => IO.eprintln s!"expr-check error: {failure.message}"
    | none => pure ()
    return run.exitCode.toUInt32
