import ZScript.Syntax.Operator

/-!
# Expressions and written types

An expression node is an operator over an ordered list of operands (`Leaf`), together with the
tokens that spell the operator (`operators`: `+`, `=`, `?` and `:`) and the structural tokens
around it (`special`: brackets, commas, the `.` of a member access, named-argument labels).
A written type (`Ty`) has a name, what the name refers to, type arguments and array dimensions;
a dimension is an expression, and an expression may carry the type derived for it, so the two
are defined together.

`Expr.line` is the first source line an expression covers: the least positive line among its
operands and its own tokens.
-/

namespace ZScript

/-- A handle on a node of a file's syntax tree. -/
structure DeclRef where
  file : Nat
  node : Nat
  deriving DecidableEq, Repr, Inhabited

/-- What a name refers to: a declaration, or an entry of the builtin type catalog. -/
inductive Target where
  | decl (d : DeclRef)
  | builtin (index : Nat)
  deriving DecidableEq, Repr, Inhabited

/-- The declaration a target refers to, if it refers to one. -/
def Target.decl? : Target → Option DeclRef
  | .decl d => some d
  | .builtin _ => none

mutual
/-- An operand: a literal, an identifier, or a nested expression. -/
inductive Leaf where
  | integer (t : Token)
  | double (t : Token)
  | boolean (t : Token)
  /-- A string or a name literal, quotes included. -/
  | string (t : Token)
  | ident (t : Token)
  | expr (e : Expr)

/-- An operator applied to its operands, with the tokens that spell it. -/
structure Expr where
  op : Operator
  /-- Compound assignment such as `+=`. -/
  assign : Bool
  leaves : List Leaf
  operators : List Token
  special : List Token
  /-- The static type derived for the expression, once it has been tagged. -/
  type : Option Ty

/-- A written type: its name, what the name refers to, type arguments, array dimensions. -/
structure Ty where
  name : String
  ref : Option Target
  args : List Ty
  dims : List (Option Expr)
end

instance : Inhabited Expr := ⟨⟨.literal, false, [], [], [], none⟩⟩

instance : Inhabited Ty := ⟨⟨"", none, [], []⟩⟩

/-- A node with the given operator and operands, no tokens of its own yet. -/
def Expr.node (op : Operator) (leaves : List Leaf) : Expr :=
  ⟨op, false, leaves, [], [], none⟩

/-- A type that is only a name and what it refers to. -/
def Ty.named (name : String) (ref : Option Target) : Ty := ⟨name, ref, [], []⟩

namespace Leaf

/-- The token of a token operand. -/
def token? : Leaf → Option Token
  | integer t | double t | boolean t | string t | ident t => some t
  | expr _ => none

/-- The expression of an expression operand. -/
def expr? : Leaf → Option Expr
  | expr e => some e
  | _ => none

end Leaf

/-- The least element of a list of lines, if any. -/
def minLine? (xs : List Nat) : Option Nat := xs.foldl (fun acc x => some (match acc with
  | some a => min a x
  | none => x)) none

mutual
/-- The first source line of an operand; `0` when it covers none. -/
def Leaf.line : Leaf → Nat
  | .expr e => e.line
  | .integer t | .double t | .boolean t | .string t | .ident t => t.line

/-- The first source line of an expression: the least positive operand line, or of its own
    tokens if smaller; `0` when it has neither. -/
def Expr.line : Expr → Nat
  | ⟨_, _, leaves, operators, special, _⟩ =>
    let fromLeaves := minLine? ((Leaf.lines leaves).filter (0 < ·))
    let fromTokens := minLine? ((operators ++ special).map Token.line)
    match fromLeaves, fromTokens with
    | some a, some b => min a b
    | a, b => (a.orElse fun _ => b).getD 0

/-- The first lines of a list of operands. -/
def Leaf.lines : List Leaf → List Nat
  | [] => []
  | l :: ls => l.line :: Leaf.lines ls
end

mutual
/-- Every operand below an expression, in preorder: each operand, then those below it. -/
def Expr.subLeaves : Expr → List Leaf
  | ⟨_, _, leaves, _, _, _⟩ => Leaf.preorder leaves

/-- The operands of a list and those below them, in preorder. -/
def Leaf.preorder : List Leaf → List Leaf
  | [] => []
  | l :: ls =>
    let below := match l with
      | .expr e => e.subLeaves
      | _ => []
    l :: below ++ Leaf.preorder ls
end

end ZScript
