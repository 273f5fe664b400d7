import ZScript.Expr.Reduce
import ZScript.Token.Cursor
import ZScript.Builtin

/-!
# Reading expressions

`Expr.parse` reads a whole token list as one expression; `ExprParser.expression stop` reads one
from a cursor, stopping before the first token of a kind in `stop`. Reading happens in two steps:

1. **Collecting.** Operands are read one at a time into a flat list of `Item`s. `a.b`, `f(…)`
   and `x[…]` bind into the operand before them at once; a bracketed group is cut out as a
   balanced run and read as its own expression; `-`, `!`, `~`, `++` and `--` before an operand
   and every other operator are left as raw tokens.
2. **Reducing.** `Item.reduce` folds the operators by precedence.

A parenthesised expression keeps its own node, with the brackets added to its `special` tokens;
with depth-zero commas it is a vector `(x, y, z)`. Braces hold an array initializer, whose last
element may be empty. A builtin numeric type name before `(` is a cast when its argument reads as
one expression, and an ordinary call otherwise.

The readers run in a state monad over the cursor, failing with a `ParseError`; a failure
discards the cursor moves made since the last point that catches it. Nested reading is bounded by
a fuel argument computed from the number of tokens, which each step either consumes or passes to
a strictly shorter run.
-/

namespace ZScript

namespace ExprParser

/-- Reading from a cursor that may fail. -/
abbrev M := StateT Cursor (Except ParseError)

/-- Fail: the next token, or the end of the input, is not what was `expected`. -/
def unexpected {α : Type} (expected : String) : M α := do
  let c ← get
  match c.peek? with
  | some t => throw (ParseError.unexpectedToken t expected)
  | none => throw ⟨.unexpected none expected, c.lastLine⟩

/-- Read the next token if its kind is one of `kinds`. -/
def accept (kinds : List TokenKind) : M (Option Token) := do
  match (← get).accept? kinds with
  | some (t, c) => set c; pure (some t)
  | none => pure none

/-- Read the next token, which must be of one of `kinds`. -/
def expect (kinds : List TokenKind) (expected : String) : M Token := do
  match ← accept kinds with
  | some t => pure t
  | none => unexpected expected

/-- Read the balanced run up to a depth-zero token of a kind in `stop`. -/
def balanced (stop : List TokenKind) : M (List Token) := modifyGet fun c => c.balanced stop

/-- Step over the next token. -/
def skip : M Unit := modify fun c => (c.read?.map (·.2)).getD c

/-- Run a computation that cannot move the cursor. -/
def lift {α : Type} (x : Except ParseError α) : M α := fun c => x.map (·, c)

/-- The error for running out of the nesting budget. -/
def tooDeep {α : Type} : M α := do throw ⟨.tooDeep, (← get).lastLine⟩

/-- Split a run on its depth-zero commas: the parts, and the commas between them. -/
def splitArgs (ts : List Token) : Except ParseError (List (List Token) × List Token) :=
  match _hrun : balancedRun [.comma] [] ts with
  | (run, []) => .ok ([run], [])
  | (run, t :: rest) =>
    if t.kind == .comma then
      match splitArgs rest with
      | .ok (parts, commas) => .ok (run :: parts, t :: commas)
      | .error e => .error e
    else .error (ParseError.unexpectedToken t "','")
termination_by ts.length
decreasing_by
  have h' := congrArg List.length (balancedRun_append [.comma] [] ts)
  rw [_hrun] at h'
  simp at h'
  omega

/-- The prefix operator tokens that may stand before an operand. -/
def isPrefixKind : TokenKind → Bool
  | .subtract | .logicalNot | .negate | .increment | .decrement => true
  | _ => false

/-- The operand on top of the items, popped for a postfix form at token `at_`. -/
def popOperand (items : List Item) (at_ : Token) : M (Leaf × List Item) :=
  match items with
  | .operand l :: rest => pure (l, rest)
  | _ => throw (ParseError.unexpectedToken at_ "operand")

/-- A named call argument `name: value` splits into its label tokens and its value. -/
def splitLabel (arg : List Token) : List Token × List Token :=
  match arg with
  | n :: c :: v@(_ :: _) =>
    if n.kind == .identifier && c.kind == .colon then ([n, c], v) else ([], arg)
  | _ => ([], arg)

/-- The names after the `.` of a member access, and the dots between them. -/
def memberNames : Nat → M (List Leaf × List Token)
  | 0 => tooDeep
  | fuel + 1 => do
    let name ← expect [.identifier] "member name"
    match ← accept [.dot] with
    | some d =>
      let (names, dots) ← memberNames fuel
      pure (.ident name :: names, d :: dots)
    | none => pure ([.ident name], [])

mutual

/-- One expression up to a depth-zero token of a kind in `stop`. -/
def parseExpr : Nat → List TokenKind → M Expr
  | 0, _ => tooDeep
  | fuel + 1, stop => do
    let items ← collect fuel stop true []
    let line := (← get).lastLine
    lift (Item.reduce items line)

/-- A token run that must be exactly one expression; `line` is where an empty run is reported. -/
def parseRun : Nat → List Token → Nat → Except ParseError Expr
  | 0, _, line => .error ⟨.tooDeep, line⟩
  | fuel + 1, ts, line =>
    if ts.isEmpty then .error ⟨.noExpression, line⟩
    else
      match (parseExpr fuel []).run (Cursor.ofList ts) with
      | .ok (e, c) =>
        match c.peek? with
        | some t => .error (ParseError.unexpectedToken t "end of expression")
        | none => .ok e
      | .error err => .error err

/-- Read items until a stop token or the end; `acc` holds the items read, most recent first. -/
def collect : Nat → List TokenKind → Bool → List Item → M (List Item)
  | 0, _, _, _ => tooDeep
  | fuel + 1, stop, wantOperand, acc => do
    match (← get).peek? with
    | none =>
      if acc.isEmpty then unexpected "expression" else pure acc.reverse
    | some t =>
      if stop.contains t.kind then
        if acc.isEmpty then unexpected "expression" else pure acc.reverse
      else
        skip
        if wantOperand then
          if isPrefixKind t.kind then collect fuel stop true (.op t :: acc)
          else
            let leaf ← primary fuel t
            collect fuel stop false (.operand leaf :: acc)
        else
          match t.kind with
          | .dot =>
            let (target, rest) ← popOperand acc t
            let (names, dots) ← memberNames fuel
            let m : Expr := { Expr.node .member (target :: names) with special := t :: dots }
            collect fuel stop false (.operand (.expr m) :: rest)
          | .openParen =>
            let (callee, rest) ← popOperand acc t
            let (args, special) ← callArgs fuel 0
            let m : Expr := { Expr.node .call (callee :: args) with special := t :: special }
            collect fuel stop false (.operand (.expr m) :: rest)
          | .openSquare =>
            let (target, rest) ← popOperand acc t
            let (indices, special) ← subscripts fuel
            let m : Expr := { Expr.node .arraySubscript (target :: indices) with special := t :: special }
            collect fuel stop false (.operand (.expr m) :: rest)
          | .increment | .decrement => collect fuel stop false (.op t :: acc)
          | .questionmark | .colon => collect fuel stop true (.op t :: acc)
          | _ =>
            match Operator.ofToken t with
            | none => throw (ParseError.unexpectedToken t "operator")
            | some op =>
              if op.takesAssign then
                match ← accept [.assign] with
                | some a => collect fuel stop true (.op a :: .op t :: acc)
                | none => collect fuel stop true (.op t :: acc)
              else collect fuel stop true (.op t :: acc)

/-- The operand that starts with token `t` (already read). -/
def primary : Nat → Token → M Leaf
  | 0, _ => tooDeep
  | fuel + 1, t =>
    match t.kind with
    | .integer => pure (.integer t)
    | .double => pure (.double t)
    | .string | .name => pure (.string t)
    | .openCurly => do
      let inner ← balanced []
      let close ← expect [.closeCurly] "'\x7d'"
      let (parts, commas) ← lift (splitArgs inner)
      let leaves ← lift (arrayParts fuel parts t.line)
      pure (.expr { Expr.node .arrayInitialization leaves with special := t :: commas ++ [close] })
    | .openParen => do
      let inner ← balanced []
      let close ← expect [.closeParen] "')'"
      let (parts, commas) ← lift (splitArgs inner)
      let e ←
        if 1 < parts.length then do
          let leaves ← lift (vectorParts fuel parts t.line)
          pure { Expr.node .vectorInitialization leaves with special := commas }
        else lift (parseRun fuel inner t.line)
      pure (.expr { e with special := e.special ++ [t, close] })
    | .identifier => do
      if t.isKeyword "true" || t.isKeyword "false" then pure (.boolean t)
      else if Builtin.isNumeric t.text && (← get).check .openParen then
        let saved ← get
        match (cast fuel t).run saved with
        | .ok (leaf, c) => set c; pure leaf
        | .error _ => pure (.ident t)
      else pure (.ident t)
    | _ => throw (ParseError.unexpectedToken t "expression")

/-- The elements of an array initializer; only an empty last part is skipped. -/
def arrayParts : Nat → List (List Token) → Nat → Except ParseError (List Leaf)
  | 0, _, line => .error ⟨.tooDeep, line⟩
  | _ + 1, [], _ => .ok []
  | fuel + 1, p :: ps, line =>
    if p.isEmpty && ps.isEmpty then .ok []
    else do
      let e ← parseRun fuel p line
      let rest ← arrayParts fuel ps line
      pure (.expr e :: rest)

/-- The components of a vector `(x, y, …)`. -/
def vectorParts : Nat → List (List Token) → Nat → Except ParseError (List Leaf)
  | 0, _, line => .error ⟨.tooDeep, line⟩
  | _ + 1, [], _ => .ok []
  | fuel + 1, p :: ps, line => do
    let e ← parseRun fuel p line
    let rest ← vectorParts fuel ps line
    pure (.expr e :: rest)

/-- `type(value)` after the type name `t`. -/
def cast : Nat → Token → M Leaf
  | 0, _ => tooDeep
  | fuel + 1, t => do
    let o ← expect [.openParen] "'('"
    let inner ← balanced []
    let close ← expect [.closeParen] "')'"
    let v ← lift (parseRun fuel inner o.line)
    pure (.expr { Expr.node .cast [.ident t, .expr v] with special := [o, close] })

/-- The arguments of a call after its `(`: the argument expressions and the special tokens
    (labels of named arguments and the separators). `count` is the number read so far. -/
def callArgs : Nat → Nat → M (List Leaf × List Token)
  | 0, _ => tooDeep
  | fuel + 1, count => do
    let arg ← balanced [.comma, .closeParen]
    let sep ← expect [.comma, .closeParen] "',' or ')'"
    let (leaves, labels) ←
      if arg.isEmpty then
        if sep.kind == .comma || 0 < count then throw ⟨.emptyArgument, sep.line⟩
        else pure ([], [])
      else do
        let (labels, value) := splitLabel arg
        let e ← lift (parseRun fuel value sep.line)
        pure ([Leaf.expr e], labels)
    if sep.kind == .closeParen then pure (leaves, labels ++ [sep])
    else
      let (more, special) ← callArgs fuel (count + leaves.length)
      pure (leaves ++ more, labels ++ sep :: special)

/-- The indices of a subscript after its `[`, and the brackets after the first. -/
def subscripts : Nat → M (List Leaf × List Token)
  | 0 => tooDeep
  | fuel + 1 => do
    let idx ← balanced [.closeSquare]
    let close ← expect [.closeSquare] "']'"
    let e ← lift (parseRun fuel idx close.line)
    match ← accept [.openSquare] with
    | some o =>
      let (more, special) ← subscripts fuel
      pure (.expr e :: more, close :: o :: special)
    | none => pure ([.expr e], [close])

end

/-- The nesting budget for reading from `n` tokens. -/
def budget (n : Nat) : Nat := 8 * n + 8

/-- One expression up to a depth-zero token of a kind in `stop`. -/
def expression (stop : List TokenKind) : M Expr := do
  parseExpr (budget (← get).rest.length) stop

/-- A token run that must be exactly one expression. -/
def run (ts : List Token) (line : Nat) : Except ParseError Expr := parseRun (budget ts.length) ts line

end ExprParser

/-- Read a whole token list as one expression. -/
def Expr.parse (ts : List Token) : Except ParseError Expr :=
  match (ExprParser.expression []).run (Cursor.ofList ts) with
  | .ok (e, c) =>
    match c.peek? with
    | some t => .error (ParseError.unexpectedToken t "end of expression")
    | none => .ok e
  | .error err => .error err

end ZScript
