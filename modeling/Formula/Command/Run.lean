import Formula.Command.Arguments
import Formula.Command.FileSystem
import Formula.Rules.Report
import Formula.Text.Lines

/-!
# Checking rule files

A run collects the rule documents that the arguments name, checks them one after
another, and ends with a summary.  It stops at the first thing that it cannot
read.  What it writes is a list, so that a run is a value like any other.
-/

namespace Formula

/-- Something that a run writes. -/
inductive Output where
  /-- A line on the standard output. -/
  | out (line : String)
  /-- A line on the standard error. -/
  | err (line : String)
  /-- A line of the log. -/
  | log (message : String) (fields : List (String × String))
  deriving DecidableEq

/-- Why a run fails. -/
inductive Failure where
  | missingPath (path : String)
  | unreadableVariables (path : String) (error : SystemError)
  | malformedVariables (path : String) (mismatch : Json.Mismatch)
  | unreadableDocument (path : String) (error : SystemError)
  | malformedDocument (path : String) (mismatch : Json.Mismatch)
  | rulesFailed
  deriving DecidableEq

def Failure.message : Failure → String
  | .missingPath path => s!"路径不存在: {path}"
  | .unreadableVariables path error => s!"无法读取变量表: {path}: {error.message}"
  | .malformedVariables path mismatch => s!"变量表格式错误: {path}: {mismatch.message}"
  | .unreadableDocument path error => s!"无法读取文件: {path}: {error.message}"
  | .malformedDocument path mismatch =>
    s!"解析失败: {path}: {RuleDocument.mismatchMessage mismatch}"
  | .rulesFailed => "规则检查发现错误"

/-- A finished run. -/
structure Run where
  output : List Output
  failure : Option Failure := none
  deriving DecidableEq

namespace Run

def exitCode (run : Run) : Nat := if run.failure.isSome then 1 else 0

/-- The text on the standard output. -/
def stdout (run : Run) : String :=
  String.join <| run.output.map fun
    | .out line => line ++ "\n"
    | .err _ | .log .. => ""

/-- The text on the standard error, apart from the log; a failure is reported at
its end. -/
def stderr (run : Run) : String :=
  String.join (run.output.map fun
    | .err line => line ++ "\n"
    | .out _ | .log .. => "") ++
  match run.failure with
  | some failure => s!"expr-check error: {failure.message}\n"
  | none => ""

end Run

namespace RuleFiles

/-- The rule documents that paths name, unsorted: every file itself, and for a
directory all files below it with the extension of rule documents. -/
def gather (system : FileSystem) : List String → Except Failure (List String)
  | [] => .ok []
  | path :: rest =>
    match system.find path with
    | .nothing => .error (.missingPath path)
    | .file => (gather system rest).map (path :: ·)
    | .directory files =>
      let documents := files.filter fun names =>
        (names.getLast?.bind extension?) = some "json"
      (gather system rest).map (documents.map (·.foldl joinPath path) ++ ·)

/-- The rule documents that paths name, in order and each once. -/
def collect (system : FileSystem) (paths : List String) :
    Except Failure (List String) :=
  (gather system paths).map sortPaths

def loadVariables (system : FileSystem) :
    Option String → Except Failure VariableTable
  | none => .ok ∅
  | some path =>
    match system.readText path with
    | .error error => .error (.unreadableVariables path error)
    | .ok text =>
      match Json.parse text >>= VariableTable.ofJson with
      | .error mismatch => .error (.malformedVariables path mismatch)
      | .ok table => .ok table

def loadDocument (system : FileSystem) (path : String) :
    Except Failure RuleDocument :=
  match system.readText path with
  | .error error => .error (.unreadableDocument path error)
  | .ok text =>
    match RuleDocument.ofText text with
    | .error mismatch => .error (.malformedDocument path mismatch)
    | .ok document => .ok document

/-- The lines for the report on a rule of a file. -/
def reportLines (file : String) (report : RuleReport) : List Output :=
  let verdict :=
    match report.verdict with
    | .passed names value =>
      let named := if names = [] then ""
        else "  (变量: " ++ ", ".intercalate names ++ ")"
      let shown := match value with
        | some value => s!"  => {value.text}"
        | none => ""
      [Output.out (s!"[OK] {file}: {report.name} = `{report.expression}`" ++
        named ++ shown)]
    | .invalid error =>
      Output.err s!"[ERROR] {file}: {report.name}: {error.message}" ::
        match error.index? with
        | some index =>
          [.err s!"    {report.expression}",
            .err s!"    {caretLine report.expression index}"]
        | none => []
    | .mismatch expected actual =>
      [.err (s!"[ERROR] {file}: {report.name}: " ++
        s!"期望 {expected.text}，实际 {actual.text}")]
  verdict ++ match report.program with
    | some program => (lines program).map fun line => .out s!"    {line}"
    | none => []

/-- The log lines for events, without those that follow single steps. -/
def logLines (events : List Event) : List Output :=
  (events.filter fun event => event.level = .debug).map fun event =>
    .log event.message event.fields

/-- The reports on a document, and what is written about it.  Values of the
table given replace those of the document. -/
def checkDocument (arguments : Arguments) (replacements : VariableTable)
    (file : String) (document : RuleDocument) :
    List RuleReport × List Output :=
  let values := valuation (document.values ∪ replacements)
  let options : CheckOptions :=
    { evaluate := arguments.evaluate, dump := arguments.dump }
  let (reports, caches) :=
    RuleCaches.checkAll (RuleCaches.empty document.cacheConfig) options values
      document.rules
  let logged (lines : List Output) := if arguments.verbose then lines else []
  (reports.map Prod.fst,
    reports.flatMap (fun (report, events) =>
      logged (logLines events) ++ reportLines file report) ++
    logged [.log "文档检查完成"
      [("file", file), ("cache", RuleCaches.summary caches)]])

/-- What is written about documents, and all reports on their rules unless one
of the documents cannot be loaded. -/
def checkFiles (system : FileSystem) (arguments : Arguments)
    (replacements : VariableTable) :
    List String → List Output × Except Failure (List RuleReport)
  | [] => ([], .ok [])
  | file :: rest =>
    match loadDocument system file with
    | .error failure => ([], .error failure)
    | .ok document =>
      let (reports, output) :=
        checkDocument arguments replacements file document
      let (others, result) := checkFiles system arguments replacements rest
      (output ++ others, result.map (reports ++ ·))

def summaryLines (documents rules failures : Nat) : List Output :=
  [.err "─────────────────────────────────────────────────────",
    .err s!"检查完成: {documents} 个文档, {rules} 条规则",
    if 0 < failures then .err s!"❌ {failures} 条规则未通过" else .err "✅ 检查通过，无错误"]

/-- Checks the rule documents that the arguments name. -/
def run (system : FileSystem) (arguments : Arguments) : Run :=
  match collect system arguments.paths with
  | .error failure => { output := [], failure }
  | .ok [] => { output := [.err "未找到规则文档（.json）"] }
  | .ok files =>
    match loadVariables system arguments.vars with
    | .error failure => { output := [], failure }
    | .ok replacements =>
      let (output, result) := checkFiles system arguments replacements files
      let output := .err s!"==> 检查 {files.length} 个规则文档...\n" :: output
      match result with
      | .error failure => { output, failure }
      | .ok reports =>
        let failures := reports.countP RuleReport.isFailure
        { output := output ++ summaryLines files.length reports.length failures
          failure := if 0 < failures then some .rulesFailed else none }

end RuleFiles

end Formula
