import ZScript.Syntax.Expr
import ZScript.Syntax.Error

/-!
# Precedence passes

An expression is first read into a flat list of operands and raw operator tokens (`Item`);
postfix forms (`a.b`, `f(…)`, `x[…]`) are already bound into their operand. The passes below then
fold one family of operators at a time, from the tightest binding to the loosest:

| pass | operators | direction |
|---|---|---|
| `binaryPass` | `dot` `cross` | left to right |
| `postfixPass` | `x++` `x--` | left to right |
| `prefixPass` | `++x` `--x` | right to left |
| `prefixPass` | `~` `!` `-x` | right to left |
| `binaryPass` | `*` `/` `%`, then `+` `-` `..`, then `<<` `>>` `>>>`, then `&`, `^`, `|`, then the comparisons, then `&&`, then `||` | left to right |
| `ternaryPass` | `?:` | right to left |
| `assignPass` | `=` and compound `+=` … | right to left |

A left-to-right pass walks the list with the items already passed over (most recent first); a
right-to-left pass walks the reversed list with the items already passed over in order. A prefix
operator applies only where no operand stands on its left; a `?` without the full
`cond ? a : b` shape is an error. `reduce` runs all passes and requires one operand to remain.
-/

namespace ZScript

/-- An entry of the flat list: an operand or an operator token not yet folded. -/
inductive Item where
  | operand (l : Leaf)
  | op (t : Token)

/-- A lone operand as an expression: a nested expression stays, an identifier or a literal is
    wrapped in an `identifier` or `literal` node. -/
def Leaf.toExpr : Leaf → Expr
  | .expr e => e
  | .ident t => Expr.node .identifier [.ident t]
  | l => Expr.node .literal [l]

namespace Reduce

/-- `l op r` with its operator tokens. -/
def binary (op : Operator) (assign : Bool) (l r : Leaf) (tokens : List Token) : Leaf :=
  .expr { Expr.node op [l, r] with operators := tokens, assign }

/-- `op x` with its operator token. -/
def unary (op : Operator) (x : Leaf) (t : Token) : Leaf :=
  .expr { Expr.node op [x] with operators := [t] }

/-- Fold the binary operators of `family`, left to right. -/
def binaryPass (family : List Operator) : List Item → List Item → List Item
  | done, [] => done.reverse
  | .operand l :: done', .op t :: .operand r :: rest =>
    match Operator.ofToken t with
    | some op =>
      if family.contains op then binaryPass family (.operand (binary op false l r [t]) :: done') rest
      else binaryPass family (.op t :: .operand l :: done') (.operand r :: rest)
    | none => binaryPass family (.op t :: .operand l :: done') (.operand r :: rest)
  | done, x :: tail => binaryPass family (x :: done) tail
termination_by _ tail => tail.length

/-- The postfix operator of an increment or decrement token. -/
def postfixOf (t : Token) : Option Operator :=
  match t.kind with
  | .increment => some .postIncrement
  | .decrement => some .postDecrement
  | _ => none

/-- Fold `x++` and `x--`, left to right. -/
def postfixPass : List Item → List Item → List Item
  | done, [] => done.reverse
  | done, x :: tail =>
    match done, x with
    | .operand l :: done', .op t =>
      match postfixOf t with
      | some op => postfixPass (.operand (unary op l t) :: done') tail
      | none => postfixPass (x :: done) tail
    | _, _ => postfixPass (x :: done) tail

/-- Whether the nearest item on the left (the head of the reversed rest) is an operand. -/
def operandFirst : List Item → Bool
  | .operand _ :: _ => true
  | _ => false

/-- Fold the prefix operators that `pick` selects, right to left: `todo` is the reversed list
    still to walk, `done` the items already passed over. An operator applies only when an operand
    follows it and none precedes it. -/
def prefixPass (pick : Token → Option Operator) : List Item → List Item → List Item
  | [], done => done
  | x :: todo, done =>
    match x, done with
    | .op t, .operand r :: done' =>
      match pick t with
      | some op =>
        if operandFirst todo then prefixPass pick todo (x :: done)
        else prefixPass pick todo (.operand (unary op r t) :: done')
      | none => prefixPass pick todo (x :: done)
    | _, _ => prefixPass pick todo (x :: done)

/-- `++x` and `--x`. -/
def incrementOf (t : Token) : Option Operator :=
  match t.kind with
  | .increment => some .preIncrement
  | .decrement => some .preDecrement
  | _ => none

/-- `~x`, `!x` and `-x`. -/
def unaryOf (t : Token) : Option Operator :=
  match t.kind with
  | .negate => some .unaryNeg
  | .logicalNot => some .unaryNot
  | .subtract => some .unaryMinus
  | _ => none

/-- Fold `c ? a : b`, right to left; a `?` without that shape is an error on its line. -/
def ternaryPass : List Item → List Item → Except ParseError (List Item)
  | [], done => .ok done
  | x :: todo, done =>
    match x with
    | .op q =>
      if q.kind == .questionmark then
        match todo, done with
        | .operand c :: todo', .operand a :: .op colon :: .operand b :: done' =>
          if colon.kind == .colon then
            ternaryPass todo'
              (.operand (.expr { Expr.node .ternary [c, a, b] with operators := [q, colon] }) :: done')
          else .error ⟨.malformedTernary, q.line⟩
        | _, _ => .error ⟨.malformedTernary, q.line⟩
      else ternaryPass todo (x :: done)
    | .operand _ => ternaryPass todo (x :: done)

/-- The right side of an assignment by `op` at the front of `done`: the `=` of a compound
    assignment, whether it is one, the right operand and what follows. -/
def assignRight (op : Operator) : List Item → Option (List Token × Bool × Leaf × List Item)
  | .op eq :: .operand r :: rest =>
    if op.takesAssign && eq.kind == .assign then some ([eq], true, r, rest) else none
  | .operand r :: rest => if op == .assign then some ([], false, r, rest) else none
  | _ => none

/-- Fold `=` and the compound assignments, right to left. -/
def assignPass : List Item → List Item → List Item
  | [], done => done
  | .op t :: .operand l :: todo', done =>
    match (Operator.ofToken t).bind fun op => (assignRight op done).map (op, ·) with
    | some (op, eqs, compound, r, rest) =>
      assignPass todo' (.operand (binary op compound l r (t :: eqs)) :: rest)
    | none => assignPass (.operand l :: todo') (.op t :: done)
  | x :: todo, done => assignPass todo (x :: done)
termination_by todo => todo.length

/-- The binary families, tightest first, after the unary passes. -/
def families : List (List Operator) :=
  [[.mul, .div, .modulo], [.add, .sub, .concat], [.bitShl, .bitShr, .bitShrUnsigned], [.bitAnd],
   [.xor], [.bitOr],
   [.cmpEq, .cmpNotEq, .cmpSomewhatEq, .cmpLT, .cmpGT, .cmpLTEQ, .cmpGTEQ, .cmpSpaceship],
   [.logicalAnd], [.logicalOr]]

/-- The line of the first operator token left in the list. -/
def firstOpLine? : List Item → Option Nat
  | [] => none
  | .op t :: _ => some t.line
  | .operand _ :: rest => firstOpLine? rest

end Reduce

open Reduce in
/-- Fold a flat list into one expression. When more than one item remains, the error is
    `malformed expression` on the line of the first operator left over, or on `line`. -/
def Item.reduce (items : List Item) (line : Nat) : Except ParseError Expr := do
  let items := binaryPass [.vectorDot, .vectorCross] [] items
  let items := postfixPass [] items
  let items := prefixPass incrementOf items.reverse []
  let items := prefixPass unaryOf items.reverse []
  let items := families.foldl (fun acc fam => binaryPass fam [] acc) items
  let items ← ternaryPass items.reverse []
  let items := assignPass items.reverse []
  match items with
  | [.operand l] => pure l.toExpr
  | _ => throw ⟨.malformed, (firstOpLine? items).getD line⟩

end ZScript
