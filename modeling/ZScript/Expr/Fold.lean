import ZScript.Expr.Value
import ZScript.Syntax.Expr

/-!
# Constant folding

`Expr.fold` computes the value of a constant expression: literals, casts, unary and binary
arithmetic, comparisons, logical operators and the conditional. Anything that reads a name
(identifiers, members, calls) has no value, which is not an error.

Integer arithmetic is 32-bit two's complement: sums, differences and products wrap, division
truncates and wraps at `MIN / -1`, shift amounts are taken modulo 32 and `>>` keeps the sign while
`>>>` shifts in zeros. Division or remainder by zero gives `0`, for doubles too. A double operand
makes the operation a double one; a string operand allows only concatenation (which writes the
other side as text) and, between two strings, the comparisons `==`, `!=` and case-blind `~==`.
Doubles compare nearly equal (`~==`) within `1e-6`.
-/

namespace ZScript

namespace Fold

/-- The tolerance of `~==` on doubles. -/
def epsilon : Float := Binary64.ofDecimal 1 (-6)

/-- `-1`, `0` or `1` as `a` is below, neither, or above `b`. -/
def spaceship {α : Type} [LT α] [DecidableRel (α := α) (· < ·)] (a b : α) : Int32 :=
  if a < b then -1 else if b < a then 1 else 0

/-- A binary operator on two doubles. -/
def floats (op : Operator) (a b : Float) : Option Value :=
  match op with
  | .add => some (.float (a + b))
  | .sub => some (.float (a - b))
  | .mul => some (.float (a * b))
  | .div => some (.float (if b == 0 then 0 else a / b))
  | .modulo => some (.float (if b == 0 then 0 else Binary64.fmod a b))
  | .cmpLT => some (.bool (a < b))
  | .cmpGT => some (.bool (a > b))
  | .cmpLTEQ => some (.bool (a ≤ b))
  | .cmpGTEQ => some (.bool (a ≥ b))
  | .cmpEq => some (.bool (a == b))
  | .cmpNotEq => some (.bool (a != b))
  | .cmpSomewhatEq => some (.bool ((a - b).abs < epsilon))
  | .cmpSpaceship => some (.int (spaceship a b))
  | .logicalAnd => some (.bool (a != 0 && b != 0))
  | .logicalOr => some (.bool (a != 0 || b != 0))
  | _ => none

/-- A binary operator on two 32-bit integers. -/
def ints (op : Operator) (a b : Int32) : Option Value :=
  match op with
  | .add => some (.int (a + b))
  | .sub => some (.int (a - b))
  | .mul => some (.int (a * b))
  | .div => some (.int (if b == 0 then 0 else a / b))
  | .modulo => some (.int (if b == 0 then 0 else a % b))
  | .bitShl => some (.int (a <<< b))
  | .bitShr => some (.int (a >>> b))
  | .bitShrUnsigned => some (.int (a.toUInt32 >>> (b.toUInt32 % 32)).toInt32)
  | .bitAnd => some (.int (a &&& b))
  | .bitOr => some (.int (a ||| b))
  | .xor => some (.int (a ^^^ b))
  | .cmpLT => some (.bool (a < b))
  | .cmpGT => some (.bool (a > b))
  | .cmpLTEQ => some (.bool (a ≤ b))
  | .cmpGTEQ => some (.bool (a ≥ b))
  | .cmpEq | .cmpSomewhatEq => some (.bool (a == b))
  | .cmpNotEq => some (.bool (a != b))
  | .cmpSpaceship => some (.int (spaceship a b))
  | .logicalAnd => some (.bool (a != 0 && b != 0))
  | .logicalOr => some (.bool (a != 0 || b != 0))
  | _ => none

/-- A binary operator on two values. -/
def binary (op : Operator) (l r : Value) : Option Value :=
  match l, r with
  | .str a, .str b =>
    match op with
    | .concat => some (.str (a ++ b))
    | .cmpEq => some (.bool (a == b))
    | .cmpNotEq => some (.bool (a != b))
    | .cmpSomewhatEq => some (.bool (a.toLower == b.toLower))
    | _ => none
  | .str _, _ | _, .str _ => if op == .concat then some (.str (l.bare ++ r.bare)) else none
  | .float _, _ | _, .float _ => do floats op (← l.asFloat?) (← r.asFloat?)
  | _, _ => do ints op (← l.asInt?) (← r.asInt?)

/-- A unary operator on a value: `-` negates (wrapping for integers), `~` complements the bits
    of an integer, `!` negates the truth value. -/
def unary (op : Operator) (v : Value) : Option Value :=
  match op, v with
  | .unaryMinus, .float f => some (.float (-f))
  | .unaryMinus, v => v.asInt?.map fun i => .int (-i)
  | .unaryNeg, .float _ => none
  | .unaryNeg, v => v.asInt?.map fun i => .int (~~~i)
  | .unaryNot, v => v.truthy?.map fun t => .bool (!t)
  | _, _ => none

/-- The branch a condition picks: the first when it holds, the second when it does not, and
    nothing when it has no truth value. -/
def pick (condition : Option Bool) (yes no : Option Value) : Option Value :=
  match condition with
  | some true => yes
  | some false => no
  | none => none

end Fold

mutual
/-- The value of an operand: a literal's value, nothing for a name. -/
def Leaf.fold : Leaf → Option Value
  | .integer t => some (.int (Int32.ofInt t.intValue))
  | .double t => some (.float t.floatValue)
  | .boolean t => some (.bool (t.isKeyword "true"))
  | .string t => some (.str t.content)
  | .ident _ => none
  | .expr e => e.fold

/-- The value of a constant expression, if it is one: the operator decides which operands are
    read. -/
def Expr.fold : Expr → Option Value
  | ⟨op, assign, leaves, _, _, _⟩ =>
    match op with
    | .literal =>
      match leaves with
      | l :: _ => l.fold
      | [] => none
    | .cast =>
      match leaves with
      | t :: v :: _ =>
        match t with
        | .integer tok | .double tok | .boolean tok | .string tok | .ident tok =>
          (v.fold).bind fun x => x.cast tok.text true
        | .expr _ => none
      | _ => none
    | .unaryMinus | .unaryNeg | .unaryNot =>
      match leaves with
      | l :: _ => (l.fold).bind (Fold.unary op)
      | [] => none
    | .ternary =>
      match leaves with
      | [] => none
      | [c] => Fold.pick ((c.fold).bind Value.truthy?) none none
      | [c, a] => Fold.pick ((c.fold).bind Value.truthy?) a.fold none
      | c :: a :: b :: _ => Fold.pick ((c.fold).bind Value.truthy?) a.fold b.fold
    | _ =>
      match leaves with
      | [l, r] =>
        if assign then none
        else (l.fold).bind fun a => (r.fold).bind fun b => Fold.binary op a b
      | _ => none
end

end ZScript
