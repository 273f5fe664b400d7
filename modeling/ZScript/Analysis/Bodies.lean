import ZScript.Analysis.Members
import ZScript.Analysis.Links

/-!
# Method bodies

The last phase first tags the expressions stored by the earlier ones (constant values, enum
values, field initializers and dimensions, argument defaults), then reads every method body into
statements, tagging each expression as it is read:

```text
statement ::= ";" | block | let | declaration | if | for | while | do
            | return | break | continue | expr ";"
body      ::= block | statement
for       ::= "for" "(" [init ("," init)*] ";" [expr] ";" [expr ("," expr)*] ")" body
```

Every body of `if`, `for`, `while` and `do` is a block node, braces or not. An initializer of a
`for` is a declaration or an expression, and is not listed among the children of the `for`.
Whether a statement starts a declaration is decided by trying to read a type followed by a name
and one of `=` `;` `,` `[`; when that fails, everything the attempt added is undone. `break` and
`continue` must stand inside a loop of the same method.

A syntax error fails the method body alone: its nodes are dropped, the semantic tokens made
meanwhile stay (without references into the dropped nodes), an error is recorded, and reading
goes on with the next method.
-/

namespace ZScript

namespace Bodies

open Step Parse

/-- What a statement is, as far as where it may stand is concerned. -/
inductive Form where
  | declaration
  | expression
  | loop
  | jump
  | exit
  | condition
  | block
  deriving DecidableEq

/-- Whether a statement of form `f` may stand here; in the initializers of a `for` (`inFor`)
    only declarations and expressions may. -/
def Form.allowed (inFor : Bool) : Form → Bool
  | .declaration | .expression => true
  | _ => !inFor

/-- Fail unless a statement of form `f` may stand here. -/
def require (inFor : Bool) (f : Form) (t : Token) : Parse Unit := do
  unless f.allowed inFor do throw ⟨.notAllowed t.text, t.line⟩

/-- The scope of an expression under node `node` of a body of `owner`. -/
def scopeAt (node owner : Nat) : Step Scope := return ⟨some node, some (← here owner)⟩

/-- Create a statement node: listed among the children of a block, only parented elsewhere. -/
def place (parent : Nat) (name : String) (line : Nat) (kind : NodeKind) : Step Nat := do
  if (← tree).holds parent (· matches .block) then add parent name line kind
  else alloc (some parent) name line kind

/-- Read an expression up to `stop` and tag it in `scope`. -/
def tagged (stop : List TokenKind) (scope : Scope) : Parse Expr := do
  let e ← expression stop
  Expr.tag e scope

/-- Tag the dimensions of a type in `scope`. -/
def tagDims (dims : List (Option Expr)) (scope : Scope) : Step (List (Option Expr)) :=
  dims.mapM fun d => d.mapM (Expr.tag · scope)

/-- Run `x`; when it fails, answer `none` and put the cursor back. -/
def attempt {α : Type} (x : Parse α) : Parse (Option α) :=
  tryCatch (some <$> x) fun _ => pure none

/-- The declarators of a local declaration of type `base` after its first name. -/
def declarators (parent owner : Nat) (base : Ty) (const : Bool) (scope : Scope) :
    Nat → Token → List Nat → Parse (List Nat)
  | 0, _, _ => tooDeep
  | fuel + 1, name, acc => do
    let dims ← dimensions (← Parse.fuel)
    let dims ← tagDims (base.dims ++ dims) scope
    let init ← match ← accept [.assign] with
      | some assign =>
        if !dims.isEmpty then throw ⟨.arrayInitializer name.text, assign.line⟩
        else do
          emit assign .operator
          pure (some (← tagged [.semicolon, .comma] scope))
      | none => pure none
    let flags := if const then ["const"] else []
    let id ← place parent name.text name.line (.localVar (some { base with dims }) flags)
    if let some value := init then
      let _ ← add id "" name.line (.expression value)
    emitRef name .localVar (some (.decl (← here id))) name.text
    let acc := acc ++ [id]
    match ← accept [.comma] with
    | some comma =>
      emit comma .special
      declarators parent owner base const scope fuel (← expectIdent "variable name") acc
    | none => return acc

/-- `[const] Type name …` when the tokens read as one; otherwise nothing is read or added. -/
def declaration (parent owner : Nat) (inBlock : Bool) : Parse (Option (List Nat)) := do
  let start ← get
  let m ← mark
  let const ← acceptKeyword "const"
  let base ← attempt (compoundType (some owner))
  let follows := (← check .identifier) && ((← peekAt 1).any fun t =>
    [TokenKind.assign, .semicolon, .comma, .openSquare].contains t.kind)
  match base, follows with
  | some base, true =>
    if let some c := const then emit c .keyword
    let scope ← scopeAt parent owner
    let declared ← declarators parent owner base const.isSome scope (← Parse.fuel)
      (← expectIdent "variable name") []
    if inBlock then semicolon "declaration"
    return some declared
  | _, _ =>
    set start
    rollback m
    return none

/-- The declarators of `let` after the keyword. -/
def letDeclarators (parent : Nat) (scope : Scope) : Nat → List Nat → Parse (List Nat)
  | 0, _ => tooDeep
  | fuel + 1, acc => do
    let name ← expectIdent "variable name after 'let'"
    let assign ← expect [.assign] "'=' after let variable"
    emit assign .operator
    let value ← tagged [.semicolon, .comma] scope
    let id ← place parent name.text name.line (.localVar none [])
    let _ ← add id "" name.line (.expression value)
    emitRef name .localVar (some (.decl (← here id))) name.text
    let acc := acc ++ [id]
    match ← accept [.comma] with
    | some comma =>
      emit comma .special
      letDeclarators parent scope fuel acc
    | none => return acc

/-- `let a = expr [, b = expr]`, the `let` already read. -/
def letStatement (parent owner : Nat) (inBlock : Bool) : Parse (List Nat) := do
  let declared ← letDeclarators parent (← scopeAt parent owner) (← Parse.fuel) []
  if inBlock then semicolon "let declaration"
  return declared

/-- An expression statement; in a block it ends with `;`. -/
def expressionStatement (parent owner : Nat) (inBlock : Bool) : Parse (List Nat) := do
  let stop := if inBlock then [TokenKind.semicolon] else [.semicolon, .comma]
  let e ← tagged stop (← scopeAt parent owner)
  let id ← place parent "" e.line (.expression e)
  if inBlock then semicolon "expression"
  return [id]

/-- `( expr )` after `if`, `while` and `do … while`. -/
def condition (scope : Scope) : Parse Expr := do
  let opening ← expect [.openParen] "'('"
  emit opening .special
  let e ← tagged [.closeParen] scope
  let closing ← expect [.closeParen] "')'"
  emit closing .special
  return e

/-- The values of a `return`, each a child of the `return` node. -/
def returnValues (id : Nat) (scope : Scope) : Nat → Parse Unit
  | 0 => tooDeep
  | fuel + 1 => do
    let e ← tagged [.semicolon, .comma] scope
    let _ ← add id "" e.line (.expression e)
    if let some comma ← accept [.comma] then
      emit comma .special
      returnValues id scope fuel

/-- `return [a, b];`, the `return` already read. -/
def returnStatement (keyword : Token) (parent owner : Nat) : Parse (List Nat) := do
  let id ← place parent "return" keyword.line (.control .exitMethod)
  let scope ← scopeAt parent owner
  unless ← check .semicolon do returnValues id scope (← Parse.fuel)
  semicolon "return"
  return [id]

/-- Whether node `parent` lies inside a loop of the same method. -/
def inLoop (t : Tree) (parent : Nat) : Bool :=
  ((t.ancestors parent).takeWhile fun id => !t.holds id (· matches .method _)).any fun id =>
    t.holds id fun
      | .forLoop .. | .whileLoop .. => true
      | _ => false

/-- `break;` and `continue;`, the keyword already read. -/
def jump (keyword : Token) (parent : Nat) : Parse (List Nat) := do
  unless inLoop (← tree) parent do throw ⟨.outsideLoop keyword.text, keyword.line⟩
  let j : Jump := if keyword.isKeyword "break" then .exitLoop else .nextIteration
  let id ← place parent keyword.text.toLower keyword.line (.control j)
  semicolon keyword.text
  return [id]

/-- The steps of a `for`, up to its `)`. -/
def steps (scope : Scope) : Nat → Parse (List Expr)
  | 0 => tooDeep
  | fuel + 1 => do
    let e ← tagged [.comma, .closeParen] scope
    match ← accept [.comma] with
    | some comma =>
      emit comma .special
      return e :: (← steps scope fuel)
    | none => return [e]

/-- The statement keywords and the form of the statement each starts. -/
def keywordForm (word : String) : Option Form :=
  match word with
  | "if" => some .condition
  | "for" | "while" | "do" => some .loop
  | "return" => some .exit
  | "break" | "continue" => some .jump
  | "let" => some .declaration
  | _ => none

mutual

/-- One statement under `parent`, in a body of `owner`: the nodes it declared. Inside a block
    the statement reads its own `;`; in the initializers of a `for` (`inFor`) the caller does. -/
def statement (parent owner : Nat) (inFor : Bool) : Nat → Parse (List Nat)
  | 0 => tooDeep
  | fuel + 1 => do
    let inBlock := (← tree).holds parent (· matches .block)
    let some t ← peek | unexpected "statement"
    match t.kind with
    | .semicolon =>
      if inBlock then
        let _ ← next
        emit t .special
        return []
      else
        require inFor .expression t
        expressionStatement parent owner inBlock
    | .openCurly =>
      require inFor .block t
      return [← blockOrLine parent owner fuel]
    | .identifier =>
      let word := t.text.toLower
      match keywordForm word with
      | some f =>
        require inFor f t
        let _ ← next
        emit t .keyword
        match word with
        | "if" => ifStatement t parent owner fuel
        | "for" => forStatement t parent owner fuel
        | "while" => whileStatement t parent owner fuel
        | "do" => doStatement t parent owner fuel
        | "return" => returnStatement t parent owner
        | "break" | "continue" => jump t parent
        | _ => letStatement parent owner inBlock
      | none =>
        if t.isKeyword "else" then
          throw (ParseError.unexpectedToken t "statement ('else' without 'if')")
        match ← declaration parent owner inBlock with
        | some declared => return declared
        | none =>
          require inFor .expression t
          expressionStatement parent owner inBlock
    | _ =>
      require inFor .expression t
      expressionStatement parent owner inBlock
termination_by structural fuel => fuel

/-- Statements until a token of kind `closer` (left unread), or to the end when there is none. -/
def statements (block owner : Nat) (closer : Option TokenKind) : Nat → Parse Unit
  | 0 => tooDeep
  | fuel + 1 => do
    match ← peek with
    | none => if closer.isNone then return else unexpected "'\x7d'"
    | some t =>
      if some t.kind == closer then return
      let _ ← statement block owner false fuel
      statements block owner closer fuel
termination_by structural fuel => fuel

/-- `{ statements }` or a single statement, as a new block under `parent`. -/
def blockOrLine (parent owner : Nat) : Nat → Parse Nat
  | 0 => tooDeep
  | fuel + 1 => do
    let line ← match ← peek with
      | some t => pure t.line
      | none => pure (← get).lastLine
    let block ← add parent "" line .block
    match ← accept [.openCurly] with
    | some opening =>
      emit opening .special
      statements block owner (some .closeCurly) fuel
      let closing ← expect [.closeCurly] "'\x7d'"
      emit closing .special
    | none => discard <| statement block owner false fuel
    return block
termination_by structural fuel => fuel

/-- `if (cond) body [else body]`, the `if` already read. -/
def ifStatement (keyword : Token) (parent owner : Nat) : Nat → Parse (List Nat)
  | 0 => tooDeep
  | fuel + 1 => do
    let c ← condition (← scopeAt parent owner)
    let id ← place parent "if" keyword.line (.cond c none)
    let _ ← blockOrLine id owner fuel
    if let some e ← acceptKeyword "else" then
      emit e .keyword
      let other ← blockOrLine id owner fuel
      modifyKind id fun
        | .cond c _ => .cond c (some other)
        | k => k
    return [id]
termination_by structural fuel => fuel

/-- The initializers of a `for`, each a statement, separated by commas. -/
def initializers (id owner : Nat) : Nat → Parse Unit
  | 0 => tooDeep
  | fuel + 1 => do
    let declared ← statement id owner true fuel
    modifyKind id fun
      | .forLoop inits c s => .forLoop (inits ++ declared) c s
      | k => k
    if let some comma ← accept [.comma] then
      emit comma .special
      initializers id owner fuel
termination_by structural fuel => fuel

/-- `for (init; cond; steps) body`, the `for` already read. -/
def forStatement (keyword : Token) (parent owner : Nat) : Nat → Parse (List Nat)
  | 0 => tooDeep
  | fuel + 1 => do
    let opening ← expect [.openParen] "'(' after 'for'"
    emit opening .special
    let id ← place parent "for" keyword.line (.forLoop [] none [])
    let scope ← scopeAt id owner
    unless ← check .semicolon do initializers id owner fuel
    semicolon "for initializer"
    let c ← if ← check .semicolon then pure none else some <$> tagged [.semicolon] scope
    semicolon "for condition"
    let s ← if ← check .closeParen then pure [] else steps scope (← Parse.fuel)
    let closing ← expect [.closeParen] "')' closing 'for'"
    emit closing .special
    modifyKind id fun
      | .forLoop inits _ _ => .forLoop inits c s
      | k => k
    let _ ← blockOrLine id owner fuel
    return [id]
termination_by structural fuel => fuel

/-- `while (cond) body`, the `while` already read. -/
def whileStatement (keyword : Token) (parent owner : Nat) : Nat → Parse (List Nat)
  | 0 => tooDeep
  | fuel + 1 => do
    let c ← condition (← scopeAt parent owner)
    let id ← place parent "while" keyword.line (.whileLoop c false)
    let _ ← blockOrLine id owner fuel
    return [id]
termination_by structural fuel => fuel

/-- `do body while (cond);`, the `do` already read; the condition is filled in once read. -/
def doStatement (keyword : Token) (parent owner : Nat) : Nat → Parse (List Nat)
  | 0 => tooDeep
  | fuel + 1 => do
    let id ← place parent "do" keyword.line (.whileLoop (Expr.node .literal []) true)
    let _ ← blockOrLine id owner fuel
    let some w ← acceptKeyword "while" | unexpected "'while' after do body"
    emit w .keyword
    let c ← condition (← scopeAt parent owner)
    semicolon "do-while condition"
    modifyKind id fun
      | .whileLoop _ post => .whileLoop c post
      | k => k
    return [id]
termination_by structural fuel => fuel

end

/-- Read the stored body of `method`, a method of `owner`, into a block. When it fails, the
    error is recorded and the nodes made meanwhile are dropped. -/
def methodBody (owner method : Nat) : Step Unit := do
  let some node := (← tree).get? method | return
  let .method m := node.kind | return
  let some body := m.body | return
  modifyKind method fun _ => .method { m with body := none }
  let mk ← mark
  let block ← alloc (some method) "" node.line .block
  match ← (runOn body (statements block owner none (4 * body.length + 8))).run with
  | .ok _ => attach method block
  | .error e =>
    report e
    discardNodes mk

/-- Tag the value of constant `id` in `scope`; the value is out of the tree meanwhile. -/
def tagConstant (id : Nat) (scope : Scope) : Step Unit := do
  let some ⟨_, _, _, _, .constant value⟩ := (← tree).get? id | return
  modifyKind id fun _ => .constant none
  let value ← value.mapM (Expr.tag · scope)
  modifyKind id fun
    | .constant _ => .constant value
    | k => k

/-- Tag the values of an enum's members, which see the enum's other members. -/
def tagEnum (id : Nat) : Step Unit := do
  let scope : Scope := ⟨none, some (← here id)⟩
  for m in (← tree).children id do tagConstant m scope

/-- Tag the dimensions, then the initializer, of field `id`. -/
def tagField (id : Nat) (scope : Scope) : Step Unit := do
  let some ⟨_, _, _, _, .field f⟩ := (← tree).get? id | return
  modifyKind id fun _ => .field { f with type := { f.type with dims := [] }, init := none }
  let dims ← tagDims f.type.dims scope
  let init ← f.init.mapM (Expr.tag · scope)
  modifyKind id fun
    | .field f => .field { f with type := { f.type with dims }, init }
    | k => k

/-- Tag the default values of a method's arguments. -/
def tagDefaults (method : Nat) (scope : Scope) : Step Unit := do
  let some ⟨_, _, _, _, .method m⟩ := (← tree).get? method | return
  let scope := { scope with node := some method }
  for arg in m.arguments do
    for child in (← tree).children arg do
      let some ⟨_, _, _, _, .expression e⟩ := (← tree).get? child | continue
      modifyKind child fun _ => .expression (Expr.node .literal [])
      let e ← Expr.tag e scope
      modifyKind child fun
        | .expression _ => .expression e
        | k => k

/-- Tag the expressions stored by the earlier phases. -/
def tagDeclarations : Step Unit := do
  let t ← tree
  for id in t.declarations do
    match (← tree).get? id with
    | some ⟨_, _, _, _, .constant _⟩ => tagConstant id {}
    | some ⟨_, _, _, _, .enumDecl _⟩ => tagEnum id
    | _ => pure ()
  for owner in (← tree).typeDecls do
    let scope : Scope := ⟨some owner, some (← here owner)⟩
    for child in (← tree).children owner do
      match (← tree).get? child with
      | some ⟨_, _, _, _, .field _⟩ => tagField child scope
      | some ⟨_, _, _, _, .constant _⟩ => tagConstant child scope
      | some ⟨_, _, _, _, .enumDecl _⟩ => tagEnum child
      | some ⟨_, _, _, _, .method _⟩ => tagDefaults child scope
      | _ => pure ()

end Bodies

/-- The last phase: tag the stored expressions, read every method body, then look again for the
    type names tagged meanwhile that are unresolved. A file that failed is left alone. -/
def Analysis.addBodies : Step Unit := do
  let a ← Step.current
  if a.failed then return
  let start := a.semantic.size
  Bodies.tagDeclarations
  let mut count := 0
  for owner in (← Step.tree).typeDecls do
    let t ← Step.tree
    let methods := (t.children owner).filter fun id =>
      t.holds id fun
        | .method m => m.body.isSome
        | _ => false
    for m in methods do
      Bodies.methodBody owner m
      count := count + 1
  Step.recheckTypeNames start
  Step.log .debug .statements
    ("file " ++ toString a.file ++ ": parsed " ++ toString count ++ " method bodies")

end ZScript
