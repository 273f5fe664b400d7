import ZScript.Binary64.Basic

/-!
# The command line

`zsedit [OPTIONS] <PATH>` takes one path, a project directory or a single file, and these
options:

* `--check` prints the diagnostics and stops; `--dump-tokens` also prints every file's
  semantic tokens;
* `--log <FILE>` sends the log to a file; `-v`/`--verbose` logs debugging records and
  `-q`/`--quiet` only warnings and errors, the two excluding each other;
* `-h`/`--help` and `-V`/`--version` print the help or the version and stop.

`Arguments.parse` reads the words left to right. A word `--name` or `--name=value` is an
option, a word `-abc` a cluster of one-letter flags, and every word after `--` is a value.
An option that takes a value takes the next word that is not itself an option. A value, the
path's as well, is recorded only when the next argument is acted on: it must be there, not be
empty, and its option must not have been recorded before. Help and version stop the reading
where they stand.

Once every word is read, two checks follow: options that exclude each other, then the missing
path. A failure is a `Problem`, whose text names the argument and ends with a usage line and a
pointer to `--help`. The usage line shows the arguments recorded so far, and for a value given
to a flag the command's own group (every argument but help and version) in place of its
members once one of them was recorded. An unknown option draws the most similar known one as a hint, when one is
similar enough by the Jaro measure.
-/

namespace ZScript

namespace Cli

/-- The arguments of the command line. -/
inductive Arg where
  | path
  | check
  | dumpTokens
  | log
  | verbose
  | quiet
  | help
  | version
  deriving DecidableEq, Inhabited

namespace Arg

/-- The options, in the order the help lists them. -/
def options : List Arg := [.check, .dumpTokens, .log, .verbose, .quiet, .help, .version]

/-- The option's long name, without its dashes. -/
def long? : Arg → Option String
  | .path => none
  | .check => some "check"
  | .dumpTokens => some "dump-tokens"
  | .log => some "log"
  | .verbose => some "verbose"
  | .quiet => some "quiet"
  | .help => some "help"
  | .version => some "version"

/-- The option's one-letter name. -/
def short? : Arg → Option Char
  | .verbose => some 'v'
  | .quiet => some 'q'
  | .help => some 'h'
  | .version => some 'V'
  | _ => none

/-- Whether the argument carries a value. -/
def takesValue : Arg → Bool
  | .path | .log => true
  | _ => false

/-- The argument as messages name it: `--check`, `--log <FILE>`, `<PATH>`. -/
def display : Arg → String
  | .path => "<PATH>"
  | .log => "--log <FILE>"
  | a => "--" ++ a.long?.getD ""

/-- The arguments this one excludes. -/
def excludes : Arg → List Arg
  | .verbose => [.quiet]
  | .quiet => [.verbose]
  | _ => []

/-- Whether the argument belongs to the command's own group: every argument but help and
    version. -/
def inGroup : Arg → Bool
  | .help | .version => false
  | _ => true

end Arg

/-- The command's own group as a usage line shows it: its members as alternatives. -/
def groupDisplay : String := "<PATH|--check|--dump-tokens|--log <FILE>|--verbose|--quiet>"

/-- What a usage line shows: the arguments given, and whether the command's own group stands for
    its members. -/
structure Shown where
  args : List Arg := []
  group : Bool := false
  deriving Inhabited

/-- A usage line. Nothing shown stands for the general form. Otherwise the arguments shown come
    first, each once, and the path last; when the group is shown it takes the place of its
    members, the path among them. -/
def usage (s : Shown) : String :=
  if s.args.isEmpty && !s.group then "zsedit [OPTIONS] <PATH>" else
  let named := s.args.filter fun a => a != .path && !(s.group && a.inGroup)
  let named := named.foldl (fun acc a => if acc.contains a then acc else acc ++ [a]) []
  let last := if s.group then groupDisplay else Arg.path.display
  "zsedit" ++ String.join (named.map (" " ++ ·.display)) ++ " " ++ last

/-- Why the command line cannot be read. -/
inductive Problem where
  /-- A word that is no argument; the most similar option, whether to hint at `--`, and what the
      usage line shows. -/
  | unknown (word : String) (similar : Option Arg) (hintEscape : Bool) (shown : Shown)
  | repeated (arg : Arg)
  | excluded (arg other : Arg) (shown : Shown)
  | emptyValue (arg : Arg)
  | unexpectedValue (value : String) (arg : Arg) (shown : Shown)
  | missing (args : List Arg) (shown : Shown)
  deriving Inhabited

namespace Problem

/-- The sentence that says what is wrong. -/
def message : Problem → String
  | .unknown w _ _ _ => "unexpected argument '" ++ w ++ "' found"
  | .repeated a => "the argument '" ++ a.display ++ "' cannot be used multiple times"
  | .excluded a b _ => "the argument '" ++ a.display ++ "' cannot be used with '" ++ b.display ++ "'"
  | .emptyValue a => "a value is required for '" ++ a.display ++ "' but none was supplied"
  | .unexpectedValue v a _ =>
    "unexpected value '" ++ v ++ "' for '" ++ a.display ++ "' found; no more were expected"
  | .missing args _ =>
    "the following required arguments were not provided:" ++ String.join (args.map ("\n  " ++ ·.display))

/-- The hints below the sentence; a suggested option is named by its long name alone. -/
def tips : Problem → List String
  | .unknown w similar escape _ =>
    (similar.map fun a => "a similar argument exists: '--" ++ a.long?.getD "" ++ "'").toList ++
      if escape then ["to pass '" ++ w ++ "' as a value, use '-- " ++ w ++ "'"] else []
  | _ => []

/-- What the usage line shows, when the problem has one. -/
def usageOf? : Problem → Option Shown
  | .unknown _ _ _ s | .excluded _ _ s | .unexpectedValue _ _ s | .missing _ s => some s
  | .repeated _ => some {}
  | .emptyValue _ => none

/-- The full report. -/
def render (p : Problem) : String :=
  let tips := p.tips
  "error: " ++ p.message ++
    (if tips.isEmpty then "" else "\n" ++ String.join (tips.map ("\n  tip: " ++ ·))) ++
    (match p.usageOf? with
     | some s => "\n\nUsage: " ++ usage s
     | none => "") ++
    "\n\nFor more information, try '--help'.\n"

end Problem

/-- The Jaro similarity of two words, as the number of characters they share in about the same
    places, `m`, and the number of those shared out of order, counted twice, `t`. -/
def jaroCounts (a b : List Char) : Nat × Nat :=
  let reach := max a.length b.length / 2 - 1
  let (takenB, sharedA) := (a.zipIdx).foldl (fun (takenB, sharedA) (c, i) =>
    let lo := i - reach
    let hi := min b.length (i + reach + 1)
    match (List.range hi).find? fun j => lo ≤ j && b[j]? == some c && !takenB.contains j with
    | some j => (takenB ++ [j], sharedA ++ [c])
    | none => (takenB, sharedA)) (([] : List Nat), ([] : List Char))
  let sharedB := (b.zipIdx.filter fun (_, j) => takenB.contains j).map (·.1)
  let out := ((sharedA.zip sharedB).filter fun (x, y) => x != y).length
  (sharedA.length, out)

/-- The Jaro similarity of two words, `(m / |a| + m / |b| + (m - t / 2) / m) / 3` (or `0` when
    nothing is shared), computed in doubles: each of the three quotients, the two sums and the
    last quotient is rounded to the nearest double. The answer is that double as a fraction
    `(numerator, denominator)`. -/
def jaro (a b : String) : Nat × Nat :=
  let la := a.length
  let lb := b.length
  if la == 0 && lb == 0 then (1, 1) else if la == 0 || lb == 0 then (0, 1) else
  let (m, out) := jaroCounts a.toList b.toList
  if m == 0 then (0, 1) else
  let add (x y : Nat × Nat) : Nat × Nat := Binary64.nearestRatio (x.1 * y.2 + y.1 * x.2) (x.2 * y.2)
  let sum := add (add (Binary64.nearestRatio m la) (Binary64.nearestRatio m lb))
    (Binary64.nearestRatio (m - out / 2) m)
  Binary64.nearestRatio sum.1 (3 * sum.2)

/-- The least similarity that draws a hint: the double nearest to `0.7`, which a similarity must
    exceed. -/
def hintThreshold : Nat × Nat := Binary64.nearestRatio 7 10

/-- The option whose long name is most similar to `word`, of those more similar than
    `hintThreshold`; of equally similar ones the last. -/
def similarOption? (word : String) : Option Arg :=
  let (tn, td) := hintThreshold
  let scored := Arg.options.filterMap fun a =>
    a.long?.bind fun l => let (n, d) := jaro word l; if n * td > tn * d then some (a, n, d) else none
  (scored.foldl (fun best (a, n, d) =>
    match best with
    | some (_, bn, bd) => if bn * d ≤ n * bd then some (a, n, d) else best
    | none => some (a, n, d)) none).map (·.1)

/-- What the command line asks for. -/
structure Options where
  path : String
  check : Bool := false
  dumpTokens : Bool := false
  log : Option String := none
  verbose : Bool := false
  quiet : Bool := false
  deriving Inhabited

/-- Why reading the command line stops before any work. -/
inductive Stop where
  | help
  | version
  | problem (p : Problem)
  deriving Inhabited

/-- The arguments read so far. -/
structure Reading where
  /-- The arguments recorded, in the order they were first recorded, with their values. -/
  given : List (Arg × List String) := []
  /-- Whether a member of the command's own group has been recorded. It is bookkeeping: nothing
      reads it but the usage line of a value given to a flag. -/
  grouped : Bool := false
  /-- The argument still collecting its values, with those it has. -/
  pending : Option (Arg × List String) := none
  /-- Whether the last word was an option that waits for its value. -/
  expecting : Bool := false
  /-- Whether `--` has been read. -/
  escaped : Bool := false
  /-- Whether the path has been read. -/
  hasPath : Bool := false
  deriving Inhabited

namespace Reading

/-- The arguments recorded. -/
def used (r : Reading) : List Arg := r.given.map (·.1)

/-- Whether `a` has been recorded. -/
def has (r : Reading) (a : Arg) : Bool := r.used.contains a

/-- Record `a`, unless it is already there, and with it the group it belongs to. -/
def record (r : Reading) (a : Arg) (values : List String) : Reading :=
  { r with given := if r.has a then r.given else r.given ++ [(a, values)],
           grouped := r.grouped || a.inGroup }

/-- Record an argument with its values. Without a value nothing is recorded; an argument given a
    second time is an error that also forgets the first; an empty value is an error, found only
    once the argument is recorded. -/
def commit (r : Reading) (a : Arg) (values : List String) : Reading × Option Problem :=
  if values.isEmpty then (r, some (.emptyValue a))
  else if r.has a then ({ r with given := r.given.filter (·.1 != a) }, some (.repeated a))
  else
    let r := r.record a values
    (r, if values.contains "" then some (.emptyValue a) else none)

/-- Record the pending argument, if there is one. -/
def resolve (r : Reading) : Reading × Option Problem :=
  match r.pending with
  | none => (r, none)
  | some (a, values) => { r with pending := none, expecting := false }.commit a values

/-- Record the pending argument; its problem stops the reading. -/
def settle (r : Reading) : Except Stop Reading :=
  match r.resolve with
  | (r, none) => .ok r
  | (_, some p) => .error (.problem p)

/-- Record the pending argument before another problem is reported, which then wins. -/
def settleQuietly (r : Reading) : Reading := r.resolve.1

/-- A flag is given. -/
def flag (r : Reading) (a : Arg) : Except Stop Reading := do
  let r ← r.settle
  match a with
  | .help => throw .help
  | .version => throw .version
  | _ => if r.has a then throw (.problem (.repeated a)) else pure (r.record a [])

/-- The word `--name`, or `--name=value`. A value given to a flag is reported before the pending
    argument is recorded, and its usage line shows the group once any member was recorded. An
    unknown name records the pending argument and the suggested option, which the usage line then
    shows. -/
def long (r : Reading) (name : String) (value : Option String) : Except Stop Reading :=
  match Arg.options.find? (·.long? == some name) with
  | some a =>
    if a.takesValue then
      match value with
      | some v => do
        match (← r.settle).commit a [v] with
        | (r, none) => pure r
        | (_, some p) => throw (.problem p)
      | none => do
        let r ← r.settle
        pure { r with pending := some (a, []), expecting := true }
    else
      match value with
      | some v =>
        .error (.problem (.unexpectedValue v a
          { args := r.used.filter (· != .path) ++ [a], group := r.grouped }))
      | none => r.flag a
  | none =>
    let r := r.settleQuietly
    let similar := similarOption? name
    let r := match similar with
      | some a => r.record a []
      | none => r
    .error (.problem (.unknown ("--" ++ name) similar similar.isNone { args := r.used }))

/-- The letters of a word `-abc`, each a flag. -/
def shorts (r : Reading) : List Char → Except Stop Reading
  | [] => .ok r
  | c :: cs =>
    match Arg.options.find? (·.short? == some c) with
    | some a => do shorts (← r.flag a) cs
    | none => .error (.problem (.unknown ("-" ++ c.toString) none true {}))

/-- A word that is a value: the waiting option's, else the path. -/
def value (r : Reading) (word : String) : Except Stop Reading :=
  if r.expecting && !r.escaped then
    match r.pending with
    | some (a, vs) => .ok { r with pending := some (a, vs ++ [word]), expecting := false }
    | none => .ok { r with expecting := false }
  else if !r.hasPath then do
    let r ← r.settle
    pure { r with pending := some (.path, [word]), hasPath := true }
  else .error (.problem (.unknown word none false {}))

/-- Read one word. -/
def word (r : Reading) (w : String) : Except Stop Reading :=
  if r.escaped then r.value w
  else if w == "--" then .ok { r with escaped := true }
  else if w.startsWith "--" then
    let body := (w.drop 2).toString
    match body.splitOn "=" with
    | name :: rest@(_ :: _) => r.long name (some ("=".intercalate rest))
    | _ => r.long body none
  else if w.startsWith "-" && w.length > 1 then r.shorts (w.drop 1).toString.toList
  else r.value w

/-- The checks after every word is read: excluded pairs, in the order the arguments were
    recorded, then the path. -/
def finish (r : Reading) : Except Stop Reading := do
  let r ← r.settle
  for a in r.used do
    match a.excludes.filter r.has with
    | other :: _ =>
      throw (.problem (.excluded a other { args := r.used.filter (!a.excludes.contains ·) }))
    | [] => pure ()
  if !r.has .path then throw (.problem (.missing [.path] { args := r.used ++ [.path] }))
  return r

/-- The options read. -/
def options (r : Reading) : Options :=
  let value (a : Arg) := (r.given.find? (·.1 == a)).bind (·.2.head?)
  { path := (value .path).getD "", check := r.has .check, dumpTokens := r.has .dumpTokens,
    log := value .log, verbose := r.has .verbose, quiet := r.has .quiet }

end Reading

/-- Read the words of a command line. -/
def Arguments.parse (words : List String) : Except Stop Options := do
  let r ← words.foldlM Reading.word {}
  return (← r.finish).options

/-- The help text. -/
def helpText : String :=
  "A terminal ZScript editor with a cross-file semantic highlighter\n\n" ++
  "Usage: zsedit [OPTIONS] <PATH>\n\n" ++
  "Arguments:\n" ++
  "  <PATH>  Project directory or a single ZScript file\n\n" ++
  "Options:\n" ++
  "      --check        Print diagnostics and exit; the exit code is non-zero on errors\n" ++
  "      --dump-tokens  Also print every file's semantic tokens (implies --check)\n" ++
  "      --log <FILE>   Write the log to this file (the TUI owns the terminal)\n" ++
  "  -v, --verbose      Log debug output\n" ++
  "  -q, --quiet        Log warnings and errors only\n" ++
  "  -h, --help         Print help\n" ++
  "  -V, --version      Print version\n"

/-- The version text. -/
def versionText : String := "zsedit 0.1.0\n"

end Cli

end ZScript
