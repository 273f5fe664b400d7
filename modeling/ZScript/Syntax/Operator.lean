import ZScript.Token.Basic

/-!
# Operators

The operator at the head of an expression node, and the operator tokens the precedence passes
read: which token is which binary operator, and which operators take a trailing `=` to form a
compound assignment (`+=`, `<<=`, …).
-/

namespace ZScript

/-- The operator of an expression node. `identifier` and `literal` wrap a lone operand. -/
inductive Operator where
  | add | sub | mul | div | modulo | concat
  | unaryNot | unaryMinus | unaryNeg
  | identifier | member | call | literal | cast
  | bitOr | bitAnd | bitShr | bitShrUnsigned | bitShl | xor
  | logicalAnd | logicalOr
  | cmpLT | cmpGT | cmpLTEQ | cmpGTEQ | cmpSpaceship | cmpEq | cmpNotEq | cmpSomewhatEq
  | assign | ternary | arraySubscript | arrayInitialization | vectorInitialization
  | vectorDot | vectorCross
  | preIncrement | preDecrement | postIncrement | postDecrement
  deriving DecidableEq, Repr, Inhabited

namespace Operator

/-- The operator's tag as written in reports (`Add`, `CmpLT`, `PostIncrement`). -/
def tag : Operator → String
  | add => "Add" | sub => "Sub" | mul => "Mul" | div => "Div" | modulo => "Modulo"
  | concat => "Concat" | unaryNot => "UnaryNot" | unaryMinus => "UnaryMinus"
  | unaryNeg => "UnaryNeg" | identifier => "Identifier" | member => "Member" | call => "Call"
  | literal => "Literal" | cast => "Cast" | bitOr => "BitOr" | bitAnd => "BitAnd"
  | bitShr => "BitShr" | bitShrUnsigned => "BitShrUnsigned" | bitShl => "BitShl" | xor => "Xor"
  | logicalAnd => "LogicalAnd" | logicalOr => "LogicalOr" | cmpLT => "CmpLT" | cmpGT => "CmpGT"
  | cmpLTEQ => "CmpLTEQ" | cmpGTEQ => "CmpGTEQ" | cmpSpaceship => "CmpSpaceship"
  | cmpEq => "CmpEq" | cmpNotEq => "CmpNotEq" | cmpSomewhatEq => "CmpSomewhatEq"
  | assign => "Assign" | ternary => "Ternary" | arraySubscript => "ArraySubscript"
  | arrayInitialization => "ArrayInitialization"
  | vectorInitialization => "VectorInitialization" | vectorDot => "VectorDot"
  | vectorCross => "VectorCross" | preIncrement => "PreIncrement"
  | preDecrement => "PreDecrement" | postIncrement => "PostIncrement"
  | postDecrement => "PostDecrement"

/-- The binary operator an operator token stands for; the words `dot` and `cross`, in any
    case, are the vector products. -/
def ofToken (t : Token) : Option Operator :=
  match t.kind with
  | .add => some add
  | .subtract => some sub
  | .multiply => some mul
  | .divide => some div
  | .modulo => some modulo
  | .concat => some concat
  | .leftShift => some bitShl
  | .rightShift => some bitShr
  | .rightShiftUnsigned => some bitShrUnsigned
  | .bitAnd => some bitAnd
  | .xor => some xor
  | .bitOr => some bitOr
  | .logicalAnd => some logicalAnd
  | .logicalOr => some logicalOr
  | .lessThan => some cmpLT
  | .greaterThan => some cmpGT
  | .lessOrEqual => some cmpLTEQ
  | .greaterOrEqual => some cmpGTEQ
  | .spaceship => some cmpSpaceship
  | .equals => some cmpEq
  | .notEquals => some cmpNotEq
  | .somewhatEquals => some cmpSomewhatEq
  | .assign => some assign
  | .identifier =>
    if t.isKeyword "dot" then some vectorDot
    else if t.isKeyword "cross" then some vectorCross
    else none
  | _ => none

/-- Operators that a following `=` turns into a compound assignment. -/
def takesAssign : Operator → Bool
  | add | sub | mul | div | modulo | bitShl | bitShr | bitShrUnsigned | bitAnd | xor | bitOr => true
  | _ => false

end Operator

end ZScript
