import ZScript.Builtin
import ZScript.Binary64.Decimal

/-!
# Constant values

What a constant expression folds to: a 32-bit integer, a double, a boolean or a string.
Integers and booleans convert into each other freely and widen to doubles; a double narrows to an
integer type only by an explicit cast, which truncates toward zero and saturates at the ends of
the 32-bit range. No cast applies to a string.

A value is written as its number (doubles with the fewest digits that read back, positionally),
`true`/`false`, or its text in double quotes.
-/

namespace ZScript

/-- A folded constant. -/
inductive Value where
  | int (i : Int32)
  | float (f : Float)
  | bool (b : Bool)
  | str (s : String)
  deriving Inhabited

namespace Value

/-- The name of the value's type. -/
def typeName : Value → String
  | .int _ => "int"
  | .float _ => "double"
  | .bool _ => "bool"
  | .str _ => "string"

/-- The value as an integer: booleans count as `0` and `1`. -/
def asInt? : Value → Option Int32
  | .int i => some i
  | .bool b => some (if b then 1 else 0)
  | _ => none

/-- The double of an integer, which is exact for 32 bits. -/
def widen (i : Int32) : Float := Binary64.ofInt i.toInt

/-- The value as a double. -/
def asFloat? : Value → Option Float
  | .float f => some f
  | v => v.asInt?.map widen

/-- Whether the value counts as true; a string has no truth value. -/
def truthy? : Value → Option Bool
  | .int i => some (i != 0)
  | .float f => some (f != 0)
  | .bool b => some b
  | .str _ => none

/-- The integer part of a double, saturated to the 32-bit range; not-a-number gives `0`. -/
def truncate (f : Float) : Int32 := Int32.ofInt (Binary64.saturate (-Int.ofNat (Nat.pow 2 31)) (Int.ofNat (Nat.pow 2 31) - 1) f)

/-- How a value is written: `-5`, `2.5`, `true`, `"text"`. -/
def render : Value → String
  | .int i => toString i.toInt
  | .float f => Binary64.render f
  | .bool b => if b then "true" else "false"
  | .str s => "\"" ++ s ++ "\""

/-- A value's text inside a concatenation: a string without quotes, anything else as written. -/
def bare : Value → String
  | .str s => s
  | v => v.render

/-- Convert to the builtin type named `target`. Integers and booleans convert freely, integers
    widen to doubles, and a double narrows to an integer type only when `explicit`; `bool` keeps
    whether the value is non-zero. Unknown types, strings, and targets that are neither integer
    nor floating give nothing. -/
def cast (v : Value) (target : String) (explicit : Bool) : Option Value := do
  let b ← Builtin.lookup? target
  let toBool := b.name == "bool"
  match v, b.kind with
  | .str _, _ => none
  | .float f, .integer =>
    if !explicit then none
    else if toBool then some (.bool (f != 0))
    else some (.int (truncate f))
  | .float f, .float => some (.float f)
  | v, .integer =>
    let i ← v.asInt?
    if toBool then some (.bool (i != 0)) else some (.int i)
  | v, .float => v.asFloat?.map .float
  | _, _ => none

end Value

end ZScript
