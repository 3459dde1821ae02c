/-!
# Command-line arguments

Paths and options come in any order; what follows two dashes is a path whatever
it looks like.  Options of one letter may stand together, and each option may be
given once.
-/

namespace Formula

structure Arguments where
  paths : List String
  /-- A file with values that replace those of the documents. -/
  vars : Option String := none
  evaluate : Bool := false
  dump : Bool := false
  verbose : Bool := false
  deriving DecidableEq

inductive UsageError where
  | noPaths
  | emptyPath
  | unknownOption (option : String)
  | repeatedOption (option : String)
  | missingValue (option : String)
  | unexpectedValue (option : String)
  deriving DecidableEq

def UsageError.message : UsageError → String
  | .noPaths => "缺少规则文档路径"
  | .emptyPath => "路径不能为空"
  | .unknownOption option => s!"未知选项: {option}"
  | .repeatedOption option => s!"重复的选项: {option}"
  | .missingValue option => s!"选项缺少值: {option}"
  | .unexpectedValue option => s!"选项不接受值: {option}"

namespace Arguments

/-- Options that take no value. -/
inductive Flag where
  | evaluate
  | dump
  | verbose
  deriving DecidableEq

def flagOfLetter? : Char → Option Flag
  | 'e' => some .evaluate
  | 'd' => some .dump
  | 'v' => some .verbose
  | _ => none

def flagOfName? : List Char → Option Flag
  | ['e', 'v', 'a', 'l'] => some .evaluate
  | ['d', 'u', 'm', 'p'] => some .dump
  | ['v', 'e', 'r', 'b', 'o', 's', 'e'] => some .verbose
  | _ => none

def isSet (arguments : Arguments) : Flag → Bool
  | .evaluate => arguments.evaluate
  | .dump => arguments.dump
  | .verbose => arguments.verbose

/-- Sets a flag that has not been set; `option` is how it was written. -/
def setFlag (arguments : Arguments) (option : String) (flag : Flag) :
    Except UsageError Arguments :=
  if arguments.isSet flag then .error (.repeatedOption option)
  else
    match flag with
    | .evaluate => .ok { arguments with evaluate := true }
    | .dump => .ok { arguments with dump := true }
    | .verbose => .ok { arguments with verbose := true }

def setLetter (arguments : Arguments) (letter : Char) :
    Except UsageError Arguments :=
  let option := String.ofList ['-', letter]
  match flagOfLetter? letter with
  | some flag => arguments.setFlag option flag
  | none => .error (.unknownOption option)

def setVars (arguments : Arguments) (path : String) :
    Except UsageError Arguments :=
  if arguments.vars.isSome then .error (.repeatedOption "--vars")
  else if path = "" then .error (.missingValue "--vars")
  else .ok { arguments with vars := some path }

def addPath (arguments : Arguments) (path : String) :
    Except UsageError Arguments :=
  if path = "" then .error .emptyPath
  else .ok { arguments with paths := arguments.paths ++ [path] }

/-- An option with a long name, with a value if one was attached to it. -/
def setNamed (arguments : Arguments) (name : List Char)
    (value : Option String) :
    Except UsageError Arguments :=
  let option := String.ofList ('-' :: '-' :: name)
  if name = ['v', 'a', 'r', 's'] then
    match value with
    | some path => arguments.setVars path
    | none => .error (.missingValue option)
  else
    match flagOfName? name, value with
    | some flag, none => arguments.setFlag option flag
    | some _, some _ => .error (.unexpectedValue option)
    | none, _ => .error (.unknownOption option)

/-- Whether an argument stands for itself and is no option. -/
def isPlain (argument : String) : Bool :=
  argument = "-" || argument.toList.head? != some '-'

/-- Takes in one argument after another. -/
def readFrom (arguments : Arguments) : List String → Except UsageError Arguments
  | [] => if arguments.paths = [] then .error .noPaths else .ok arguments
  | "--" :: rest => do
    let arguments ← rest.foldlM addPath arguments
    if arguments.paths = [] then .error .noPaths else .ok arguments
  | "--vars" :: rest =>
    match rest with
    | [] => .error (.missingValue "--vars")
    | path :: rest =>
      if isPlain path then do (← arguments.setVars path).readFrom rest
      else .error (.missingValue "--vars")
  | argument :: rest => do
    let arguments ←
      if isPlain argument then arguments.addPath argument
      else
        match argument.toList with
        | '-' :: '-' :: option =>
          match option.dropWhile (· != '=') with
          | [] => arguments.setNamed option none
          | _ :: value =>
            arguments.setNamed (option.takeWhile (· != '='))
              (some (String.ofList value))
        | letters => (letters.drop 1).foldlM setLetter arguments
    arguments.readFrom rest

def read (words : List String) : Except UsageError Arguments :=
  readFrom { paths := [] } words

end Arguments

end Formula
