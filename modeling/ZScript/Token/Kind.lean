/-!
# Token kinds

The classes a lexeme of ZScript falls into, the table of fixed punctuation, and how a kind is
named in messages. The punctuation table lists longer literals before their prefixes, so the
first literal that matches at a position is also the longest.
-/

namespace ZScript

/-- The class of a lexeme. `whitespace`, `newline` and the two comment kinds are trivia. -/
inductive TokenKind where
  | invalid | whitespace | newline | identifier | integer | double | string | name
  | lineComment | blockComment
  | preprocessor | openCurly | closeCurly | openParen | closeParen | openSquare | closeSquare
  | dot | comma | semicolon | colon | doubleColon | questionmark | ellipsis | concat | arrow
  | equals | somewhatEquals | notEquals | lessThan | greaterThan | lessOrEqual | greaterOrEqual
  | spaceship | add | subtract | multiply | divide | modulo | leftShift | rightShift
  | rightShiftUnsigned | negate | xor | bitAnd | bitOr | logicalNot | logicalAnd | logicalOr
  | assign | increment | decrement
  deriving DecidableEq, Repr, Inhabited

namespace TokenKind

/-- Every kind, in declaration order. -/
def all : List TokenKind :=
  [invalid, whitespace, newline, identifier, integer, double, string, name, lineComment,
   blockComment, preprocessor, openCurly, closeCurly, openParen, closeParen, openSquare,
   closeSquare, dot, comma, semicolon, colon, doubleColon, questionmark, ellipsis, concat, arrow,
   equals, somewhatEquals, notEquals, lessThan, greaterThan, lessOrEqual, greaterOrEqual,
   spaceship, add, subtract, multiply, divide, modulo, leftShift, rightShift, rightShiftUnsigned,
   negate, xor, bitAnd, bitOr, logicalNot, logicalAnd, logicalOr, assign, increment, decrement]

/-- The kind's tag as written in reports and requests (`OpenParen`, `RightShift`). -/
def tag : TokenKind → String
  | invalid => "Invalid" | whitespace => "Whitespace" | newline => "Newline"
  | identifier => "Identifier" | integer => "Integer" | double => "Double" | string => "String"
  | name => "Name" | lineComment => "LineComment" | blockComment => "BlockComment"
  | preprocessor => "Preprocessor" | openCurly => "OpenCurly" | closeCurly => "CloseCurly"
  | openParen => "OpenParen" | closeParen => "CloseParen" | openSquare => "OpenSquare"
  | closeSquare => "CloseSquare" | dot => "Dot" | comma => "Comma" | semicolon => "Semicolon"
  | colon => "Colon" | doubleColon => "DoubleColon" | questionmark => "Questionmark"
  | ellipsis => "Ellipsis" | concat => "Concat" | arrow => "Arrow" | equals => "Equals"
  | somewhatEquals => "SomewhatEquals" | notEquals => "NotEquals" | lessThan => "LessThan"
  | greaterThan => "GreaterThan" | lessOrEqual => "LessOrEqual"
  | greaterOrEqual => "GreaterOrEqual" | spaceship => "Spaceship" | add => "Add"
  | subtract => "Subtract" | multiply => "Multiply" | divide => "Divide" | modulo => "Modulo"
  | leftShift => "LeftShift" | rightShift => "RightShift"
  | rightShiftUnsigned => "RightShiftUnsigned" | negate => "Negate" | xor => "Xor"
  | bitAnd => "BitAnd" | bitOr => "BitOr" | logicalNot => "LogicalNot"
  | logicalAnd => "LogicalAnd" | logicalOr => "LogicalOr" | assign => "Assign"
  | increment => "Increment" | decrement => "Decrement"

/-- The kind with the given tag. -/
def ofTag? (s : String) : Option TokenKind := all.find? (·.tag == s)

/-- Whitespace, newlines and comments: what the parser never sees. -/
def isTrivia : TokenKind → Bool
  | whitespace | newline | lineComment | blockComment => true
  | _ => false

/-- Fixed punctuation, longest literals first: the first literal that matches is the longest.
    Both `<>=` and `<=>` are the three-way comparison. -/
def punctuation : List (String × TokenKind) :=
  [(">>>", rightShiftUnsigned), ("...", ellipsis), ("<>=", spaceship), ("<=>", spaceship),
   ("~==", somewhatEquals), ("==", equals), ("!=", notEquals), ("<=", lessOrEqual),
   (">=", greaterOrEqual), ("<<", leftShift), (">>", rightShift), ("&&", logicalAnd),
   ("||", logicalOr), ("++", increment), ("--", decrement), ("..", concat), ("::", doubleColon),
   ("->", arrow), ("\n", newline), ("#", preprocessor), ("\x7b", openCurly), ("\x7d", closeCurly),
   ("(", openParen), (")", closeParen), ("[", openSquare), ("]", closeSquare), (".", dot),
   (",", comma), (";", semicolon), (":", colon), ("?", questionmark), ("<", lessThan),
   (">", greaterThan), ("+", add), ("-", subtract), ("*", multiply), ("/", divide),
   ("%", modulo), ("~", negate), ("^", xor), ("&", bitAnd), ("|", bitOr), ("!", logicalNot),
   ("=", assign)]

/-- The first literal of the punctuation table for this kind. -/
def literal? (k : TokenKind) : Option String := (punctuation.find? (·.2 == k)).map (·.1)

/-- How a kind is named in messages: a word for the classes, the quoted literal for punctuation. -/
def describe : TokenKind → String
  | invalid => "invalid character"
  | whitespace => "whitespace"
  | newline => "newline"
  | identifier => "identifier"
  | integer => "integer"
  | double => "number"
  | string => "string"
  | name => "name"
  | lineComment | blockComment => "comment"
  | k => match k.literal? with
    | some text => "'" ++ text ++ "'"
    | none => k.tag

/-- Every kind has its own tag. -/
theorem ofTag?_tag (k : TokenKind) : ofTag? k.tag = some k := by
  cases k <;> rfl

end TokenKind

end ZScript
