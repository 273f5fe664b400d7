import ZScript.Syntax.Tree
import ZScript.Syntax.Error
import ZScript.Analysis.Semantic

/-!
# Analysed files

An `Analysis` is what is known about one file: all of its tokens, its syntax tree, its semantic
tokens and its diagnostics, and whether a declaration-level error stopped the reading of the file.

Analysis also writes a log, whose records name the part of the analysis that wrote them
(`LogSource`) and a level. The log is kept apart from the files: it is the history of a whole
project's analysis, in the order things happened.
-/

namespace ZScript

/-- How serious a diagnostic is. -/
inductive Severity where
  | error
  | warning
  deriving DecidableEq, Inhabited

/-- The severity as written in reports. -/
def Severity.word : Severity → String
  | .error => "error"
  | .warning => "warning"

/-- A problem reported on a line. -/
structure Diagnostic where
  severity : Severity
  message : String
  line : Nat
  deriving Inhabited

/-- A parse error as a diagnostic. -/
def ParseError.toDiagnostic (e : ParseError) : Diagnostic := ⟨.error, e.message, e.line⟩

/-- The diagnostic as one line: `error (line 4): unexpected ';'`. -/
def Diagnostic.render (d : Diagnostic) : String :=
  d.severity.word ++ " (line " ++ toString d.line ++ "): " ++ d.message

/-- Levels of log records, most severe first. -/
inductive LogLevel where
  | error
  | warn
  | info
  | debug
  | trace
  deriving DecidableEq, Inhabited

/-- The level's rank: `0` for errors, growing with verbosity. -/
def LogLevel.rank : LogLevel → Nat
  | .error => 0
  | .warn => 1
  | .info => 2
  | .debug => 3
  | .trace => 4

/-- The level as written in a log line. -/
def LogLevel.word : LogLevel → String
  | .error => "ERROR"
  | .warn => "WARN"
  | .info => "INFO"
  | .debug => "DEBUG"
  | .trace => "TRACE"

/-- The part of the program that wrote a log record. -/
inductive LogSource where
  /-- Diagnostics as they are reported. -/
  | reports
  /-- Reading a file's declarations. -/
  | declarations
  /-- Reading method bodies. -/
  | statements
  /-- Linking classes. -/
  | links
  /-- Opening, rebuilding and saving a project. -/
  | project
  deriving DecidableEq, Inhabited

/-- The source's name in a log line. -/
def LogSource.path : LogSource → String
  | .reports => "zsedit::parser::parse"
  | .declarations => "zsedit::parser::declarations"
  | .statements => "zsedit::parser::statements"
  | .links => "zsedit::resolver::link"
  | .project => "zsedit::project"

/-- One log record. -/
structure LogRecord where
  level : LogLevel
  source : LogSource
  message : String
  deriving Inhabited

/-- The record as a log line: `[WARN zsedit::project] message`. -/
def LogRecord.render (r : LogRecord) : String :=
  "[" ++ r.level.word ++ " " ++ r.source.path ++ "] " ++ r.message

/-- Everything analysis knows about one file. -/
structure Analysis where
  /-- The file's index in its project. -/
  file : Nat
  /-- Every token of the text, trivia included. -/
  tokens : List Token
  tree : Tree := Tree.empty
  semantic : Array SemanticToken := #[]
  diagnostics : Array Diagnostic := #[]
  /-- Set when a declaration-level error stopped the reading of the file. -/
  failed : Bool := false
  deriving Inhabited

namespace Analysis

/-- Whether a diagnostic is an error. -/
def hasErrors (u : Analysis) : Bool := u.diagnostics.any (·.severity == .error)

/-- Handles on the file's top-level declarations. -/
def topLevel (u : Analysis) : List DeclRef := u.tree.declarations.map (⟨u.file, ·⟩)

/-- The first top-level declaration named `n`, ignoring ASCII case. -/
def find? (u : Analysis) (n : String) : Option Nat :=
  u.tree.declarations.find? fun id => (u.tree.get? id).any (·.isNamed n)

/-- The line of the token under byte `offset`: the first token ending after it, else the last
    token, else line 1. -/
def lineAt (u : Analysis) (offset : Nat) : Nat :=
  match u.tokens.find? (offset < ·.stop) with
  | some t => t.line
  | none => (u.tokens.getLast?.map (·.line)).getD 1

end Analysis

end ZScript
