import ZScript.Cli.Arguments
import ZScript.Project.Open
import ZScript.Text.Quote
import ZScript.Text.Pad

/-!
# Running the program

`Cli.run` is the whole program behind its command line. It reads the arguments, prepares the
log, opens the project and then either prints reports (`--check`, `--dump-tokens`) or hands the
project to the interactive editor.

* Help and version go to standard output with status `0`; a command line that cannot be read
  is reported on standard error with status `2`.
* The log keeps the records at the chosen level or above: debugging with `-v`, warnings with
  `-q`, information otherwise. It goes to the `--log` file, which is created at once and
  appended to; without one it goes to standard error when reports are printed, and nowhere
  while the editor owns the terminal.
* A log file that cannot be opened or a project that cannot be read ends the run with status
  `1`.
* `--check` prints every diagnostic as `path: message` and the totals; the status is `1` when
  there is an error. `--dump-tokens` first prints every ZScript document's semantic tokens, and
  implies `--check`.
-/

namespace ZScript

namespace Cli

/-- What a run of the program did: its exit status and what it wrote to standard output and
    standard error. -/
structure Outcome where
  status : Nat
  stdout : String := ""
  stderr : String := ""
  deriving Inhabited

/-- The least severe level logged. -/
def Options.level (o : Options) : LogLevel :=
  if o.verbose then .debug else if o.quiet then .warn else .info

/-- Whether the run ends in the editor: no report is asked for. -/
def Options.interactive (o : Options) : Bool := !o.check && !o.dumpTokens

/-- The log lines of the records at level `level` or above. -/
def logText (level : LogLevel) (records : Array LogRecord) : String :=
  String.join (records.toList.filterMap fun r =>
    if r.level.rank ≤ level.rank then some (r.render ++ "\n") else none)

/-- The bytes `[start, stop)` of `text`; empty unless both ends are character boundaries within
    the text. -/
def byteSlice (text : String) (start stop : Nat) : String :=
  let bytes := text.toUTF8
  if start ≤ stop && stop ≤ bytes.size then (String.fromUTF8? (bytes.extract start stop)).getD ""
  else ""

/-- One semantic token of `text` as the dump shows it: its range, its kind, its text quoted, and
    on a line of its own the name it stands for. -/
def tokenLines (text : String) (t : SemanticToken) : String :=
  Pad.left (toString t.start) 6 ++ ".." ++ Pad.right (toString t.stop) 6 ++ " " ++ Pad.right t.kind.word 12 ++
    " " ++ Quote.string (byteSlice text t.start t.stop) ++ "\n" ++
    match t.name with
    | some n => String.ofList (List.replicate 15 ' ') ++ " -> " ++ n ++ "\n"
    | none => ""

/-- The semantic tokens of every ZScript document, each document under a `== path` line. -/
def tokenDump (p : Project) : String :=
  String.join (p.documents.toList.filterMap fun d =>
    match d.kind with
    | .zscript => some ("== " ++ d.path ++ "\n" ++ String.join (d.semantic.toList.map (tokenLines d.text)))
    | .text => none)

/-- The check report: every diagnostic as `path: message`, then the number of files, errors and
    warnings. -/
def checkReport (p : Project) : String :=
  let (e, w) := p.counts
  String.join (p.documents.toList.flatMap fun d =>
      d.diagnostics.toList.map fun x => d.path ++ ": " ++ x.render ++ "\n") ++
    toString p.documents.size ++ " file(s), " ++ toString e ++ " error(s), " ++ toString w ++ " warning(s)\n"

/-- A session without a terminal: the editor cannot take over a terminal that is not there. -/
def noTerminal {m : Type → Type} [Monad m] (_ : Project) : m (Except IoError Unit) :=
  return .error (.other 6 "No such device or address")

variable {m : Type → Type} [Monad m]

/-- Run the program on the words of its command line, against a file system and an editor that
    takes over the terminal. -/
def run (fs : FileSystem m) (editor : Project → m (Except IoError Unit)) (words : List String) :
    m Outcome := do
  match Arguments.parse words with
  | .error .help => return { status := 0, stdout := helpText }
  | .error .version => return { status := 0, stdout := versionText }
  | .error (.problem p) => return { status := 2, stderr := p.render }
  | .ok o =>
    if let some file := o.log then
      match ← fs.append file ByteArray.empty with
      | .error e =>
        return { status := 1, stderr :=
          "Error: cannot set up logging: IO Error initializing logger: " ++ e.message ++ "\n" }
      | .ok () => pure ()
    match ← Project.open fs o.path with
    | .error e => return { status := 1, stderr := "Error: cannot open '" ++ o.path ++ "': " ++ e.message ++ "\n" }
    | .ok p =>
      let log := logText o.level p.log
      let stderr ← match o.log with
        | some file => do let _ ← fs.append file log.toUTF8; pure ""
        | none => pure (if o.interactive then "" else log)
      if o.interactive then
        match ← editor p with
        | .ok () => return { status := 0, stderr }
        | .error e => return { status := 1, stderr := stderr ++ "Error: " ++ e.detail ++ "\n" }
      let stdout := (if o.dumpTokens then tokenDump p else "") ++ checkReport p
      return { status := if p.counts.1 > 0 then 1 else 0, stdout, stderr }

end Cli

end ZScript
