import ZScript.Analysis.Index
import ZScript.Expr.Parser

/-!
# The analysis monads

Analysis of a file reads its `Universe` and changes its `Analysis` (the tree, the semantic tokens,
the diagnostics) while writing the project's log; together these are the `Work`. `Step` is that
reader-state monad. `Parse` adds a token cursor and failure: a `ParseError` ends the construct
being read, and what was already added to the work stays, unless the reader takes a `mark` first
and rolls back to it. Catching a failure in `Parse` restores the cursor to where the caught
computation began.

The primitive effects are here: adding and attaching nodes, emitting semantic tokens, reporting
diagnostics (each also logged), and the token readers of `Parse`.
-/

namespace ZScript

/-- What analysis of one file changes: the file's analysis and the project's log. -/
structure Work where
  file : Analysis
  log : Array LogRecord := #[]
  deriving Inhabited

/-- Analysis steps that cannot fail. -/
abbrev Step := ReaderT Universe (StateM Work)

/-- Reading from a token cursor, which may fail. -/
abbrev Parse := StateT Cursor (ExceptT ParseError Step)

/-- The sizes of the tree, the semantic tokens and the diagnostics, to undo what follows. -/
structure Mark where
  nodes : Nat
  semantic : Nat
  diagnostics : Nat

/-- A semantic token without its reference when that names a node of `file` from `cut` on. -/
def SemanticToken.forget (file cut : Nat) (s : SemanticToken) : SemanticToken :=
  match s.ref with
  | some (.decl d) => if d.file == file && cut ≤ d.node then { s with ref := none } else s
  | _ => s

namespace Step

/-- The file's analysis. -/
def current : Step Analysis := return (← get).file

/-- Change the file's analysis. -/
def change (f : Analysis → Analysis) : Step Unit := modify fun w => { w with file := f w.file }

/-- The file's tree. -/
def tree : Step Tree := return (← get).file.tree

/-- Change the file's tree. -/
def changeTree (f : Tree → Tree) : Step Unit := change fun a => { a with tree := f a.tree }

/-- Write a log record. -/
def log (level : LogLevel) (source : LogSource) (message : String) : Step Unit :=
  modify fun w => { w with log := w.log.push ⟨level, source, message⟩ }

/-- The node behind a handle: in this file's tree, or in another file's. -/
def node? (d : DeclRef) : Step (Option Node) := do
  let a ← current
  if d.file == a.file then return a.tree.get? d.node else return (← read).node? d

/-- A handle on a node of this file. -/
def here (id : Nat) : Step DeclRef := return ⟨(← current).file, id⟩

/-- Create a node, not yet among its parent's children. -/
def alloc (parent : Option Nat) (name : String) (line : Nat) (kind : NodeKind) : Step Nat := do
  let (id, t) := (← tree).alloc parent name line kind
  changeTree fun _ => t
  return id

/-- Create a node as the last child of `parent`. -/
def add (parent : Nat) (name : String) (line : Nat) (kind : NodeKind) : Step Nat := do
  let (id, t) := (← tree).add parent name line kind
  changeTree fun _ => t
  return id

/-- Make `child` the last child of `parent`. -/
def attach (parent child : Nat) : Step Unit := changeTree (·.attach parent child)

/-- Change what node `id` holds. -/
def modifyKind (id : Nat) (f : NodeKind → NodeKind) : Step Unit := changeTree (·.modifyKind id f)

/-- Add a semantic token. -/
def emitToken (s : SemanticToken) : Step Unit :=
  change fun a => { a with semantic := a.semantic.push s }

/-- Classify a token. -/
def emit (t : Token) (kind : SemanticKind) : Step Unit := emitToken (.ofToken t kind)

/-- Classify a token that names something. -/
def emitRef (t : Token) (kind : SemanticKind) (ref : Option Target) (name : String) : Step Unit :=
  emitToken (.ofToken t kind ref (some name))

/-- Record a parse error. -/
def report (e : ParseError) : Step Unit := do
  let a ← current
  log .debug .reports ("file " ++ toString a.file ++ ": " ++ e.render)
  change fun a => { a with diagnostics := a.diagnostics.push e.toDiagnostic }

/-- Record a warning on a line. -/
def warn (message : String) (line : Nat) : Step Unit := do
  let a ← current
  log .warn .reports ("file " ++ toString a.file ++ " line " ++ toString line ++ ": " ++ message)
  change fun a => { a with diagnostics := a.diagnostics.push ⟨.warning, message, line⟩ }

/-- Record an error that stops the reading of the file. -/
def fail (e : ParseError) : Step Unit := do
  report e
  change fun a => { a with failed := true }

/-- The current sizes, to roll back to. -/
def mark : Step Mark := do
  let a ← current
  return ⟨a.tree.size, a.semantic.size, a.diagnostics.size⟩

/-- Undo every node, semantic token and diagnostic added since `m`. -/
def rollback (m : Mark) : Step Unit := change fun a =>
  { a with tree := a.tree.truncate m.nodes, semantic := a.semantic.take m.semantic,
           diagnostics := a.diagnostics.take m.diagnostics }

/-- Drop the nodes added since `m`, keeping the semantic tokens, minus any reference into the
    dropped nodes. -/
def discardNodes (m : Mark) : Step Unit := change fun a =>
  { a with tree := a.tree.truncate m.nodes,
           semantic := (a.semantic.take m.semantic) ++
             (a.semantic.extract m.semantic a.semantic.size).map
               (SemanticToken.forget a.file m.nodes) }

end Step

namespace Parse

/-- Run an analysis step inside a reader. -/
def step {α : Type} (x : Step α) : Parse α := monadLift x

/-- The next token. -/
def peek : Parse (Option Token) := return (← get).peek?

/-- The token `n` places after the next one. -/
def peekAt (n : Nat) : Parse (Option Token) := return (← get).peekAt? n

/-- Whether the next token has kind `k`. -/
def check (k : TokenKind) : Parse Bool := return (← get).check k

/-- Read the next token. -/
def next : Parse (Option Token) := do
  match (← get).read? with
  | some (t, c) => set c; return some t
  | none => return none

/-- Read the next token if its kind is one of `kinds`. -/
def accept (kinds : List TokenKind) : Parse (Option Token) := do
  match (← get).accept? kinds with
  | some (t, c) => set c; return some t
  | none => return none

/-- Read the next token if it is the identifier `word`, in any case. -/
def acceptKeyword (word : String) : Parse (Option Token) := do
  match (← get).acceptKeyword? word with
  | some (t, c) => set c; return some t
  | none => return none

/-- The error for the next token, or the end of the input, standing where `expected` was
    wanted. -/
def unexpectedHere (expected : String) : Parse ParseError := do
  let c ← get
  match c.peek? with
  | some t => return ParseError.unexpectedToken t expected
  | none => return ⟨.unexpected none expected, c.lastLine⟩

/-- Fail: the next token is not what was `expected`. -/
def unexpected {α : Type} (expected : String) : Parse α := do throw (← unexpectedHere expected)

/-- Read the next token, which must be of one of `kinds`. -/
def expect (kinds : List TokenKind) (expected : String) : Parse Token := do
  match ← accept kinds with
  | some t => return t
  | none => unexpected expected

/-- Read an identifier. -/
def expectIdent (what : String) : Parse Token := expect [.identifier] what

/-- Read the balanced run up to a depth-zero token of a kind in `stop`. -/
def balanced (stop : List TokenKind) : Parse (List Token) := modifyGet fun c => c.balanced stop

/-- Run an expression reader on the cursor. -/
def liftExpr {α : Type} (x : ExprParser.M α) : Parse α := fun c =>
  match x.run c with
  | .ok p => pure p
  | .error e => throw e

/-- Read one expression up to a depth-zero token of a kind in `stop`. -/
def expression (stop : List TokenKind) : Parse Expr := liftExpr (ExprParser.expression stop)

/-- The error for running out of fuel, which the fuel's size rules out. -/
def tooDeep {α : Type} : Parse α := do throw ⟨.tooDeep, (← get).lastLine⟩

/-- The fuel for reading the rest of the cursor: one round per token left, and one more. -/
def fuel : Parse Nat := return (← get).rest.length + 1

/-- Fail with `e` when it is an error. -/
def ofExcept {α : Type} (x : Except ParseError α) : Parse α :=
  match x with
  | .ok a => return a
  | .error e => throw e

/-- Run a reader on its own token list, from the start; it must not fail. -/
def runOn {α : Type} (ts : List Token) (x : Parse α) : ExceptT ParseError Step α := do
  let (a, _) ← x.run (Cursor.ofList ts)
  return a

/-- `{ … }`: the tokens between the braces, which are classified as punctuation. -/
def bracedBody (what : String) : Parse (List Token) := do
  let opening ← expect [.openCurly] ("'\x7b' " ++ what)
  step (Step.emit opening .special)
  let body ← balanced []
  let closing ← expect [.closeCurly] ("'\x7d' closing " ++ what)
  step (Step.emit closing .special)
  return body

/-- Read `;` after `what`, classified as punctuation. -/
def semicolon (what : String) : Parse Unit := do
  let t ← expect [.semicolon] ("';' after " ++ what)
  step (Step.emit t .special)

end Parse

end ZScript
