import ZScript.Token.Basic

/-!
# Parse errors

Why a construct could not be read, and on which line. Each cause has one wording, given by
`Problem.message`; a report reads `Parse error at line N: <message>`.
-/

namespace ZScript

/-- Why a construct could not be read. -/
inductive Problem where
  /-- Another token, or the end of the input (`none`), stood where `expected` was wanted. -/
  | unexpected (found : Option Token) (expected : String)
  | noExpression
  | emptyArgument
  | malformed
  | malformedTernary
  | noDirective
  | unsupportedDirective (name : String)
  | noFileName
  | fieldTypes (field : String)
  | arrayInitializer (array : String)
  | notAllowed (word : String)
  | outsideLoop (word : String)
  | unbalancedShift
  /-- Nesting beyond the reading budget, which the budget's size rules out. -/
  | tooDeep
  deriving Inhabited

/-- The wording of a problem. -/
def Problem.message : Problem → String
  | .unexpected (some t) e => "unexpected " ++ t.describe ++ ", expected " ++ e
  | .unexpected none e => "unexpected end of input, expected " ++ e
  | .noExpression => "expected expression"
  | .emptyArgument => "empty call argument"
  | .malformed => "malformed expression"
  | .malformedTernary => "malformed ternary expression"
  | .noDirective => "expected preprocessor directive after '#'"
  | .unsupportedDirective n => "unsupported preprocessor directive '" ++ n ++ "'"
  | .noFileName => "expected file name after #include"
  | .fieldTypes f => "field '" ++ f ++ "' cannot have more than one type"
  | .arrayInitializer a => "array '" ++ a ++ "' cannot have an initializer"
  | .notAllowed w => "'" ++ w ++ "' is not allowed here"
  | .outsideLoop w => "'" ++ w ++ "' outside of a loop"
  | .unbalancedShift => "unbalanced '>>' in type"
  | .tooDeep => "expression nested too deeply"

/-- A problem and the line it was found on. -/
structure ParseError where
  problem : Problem
  line : Nat
  deriving Inhabited

namespace ParseError

/-- The message of the error. -/
def message (e : ParseError) : String := e.problem.message

/-- The error as reported: `Parse error at line N: <message>`. -/
def render (e : ParseError) : String := "Parse error at line " ++ toString e.line ++ ": " ++ e.message

/-- `t` stood where `expected` was wanted. -/
def unexpectedToken (t : Token) (expected : String) : ParseError :=
  ⟨.unexpected (some t) expected, t.line⟩

end ParseError

end ZScript
