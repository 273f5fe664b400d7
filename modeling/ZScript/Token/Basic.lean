import ZScript.Token.Kind

/-!
# Tokens

A token is a classified slice of the source: its kind, its exact text, its byte range, the line of
its first character, and for number literals the value it denotes. String and name literals that
run to the end of the input without their closing quote are kept, marked not `valid`.

`Token.content` is the text between the delimiters: a literal without its quotes (an
unterminated one loses only the opening quote), a comment without `//`, `/*` and `*/`.
-/

namespace ZScript

/-- A classified slice of the source. `start` and `stop` are byte offsets, `line` is 1-based. -/
structure Token where
  kind : TokenKind
  text : String
  start : Nat
  stop : Nat
  line : Nat
  valid : Bool := true
  /-- The integer a number literal denotes (a float literal's integer part), else `0`. -/
  intValue : Int := 0
  /-- The double a number literal denotes, else `0`. -/
  floatValue : Float := 0
  deriving Inhabited

namespace Token

/-- Whether the token is trivia (white space, a newline or a comment). -/
def isTrivia (t : Token) : Bool := t.kind.isTrivia

/-- Whether the token is the identifier `word`, compared without regard to ASCII case. -/
def isKeyword (t : Token) (word : String) : Bool :=
  t.kind == .identifier && t.text.toLower == word.toLower

/-- The characters between a literal's delimiters: the opening quote always goes, the closing
    one only when the literal was terminated. -/
def literalInner (valid : Bool) (cs : List Char) : List Char :=
  let inner := cs.drop 1
  if valid && !inner.isEmpty then inner.dropLast else inner

/-- The body of a block comment: without `/*`, and without `*/` when it ends with one. -/
def blockInner (cs : List Char) : List Char :=
  let inner := cs.drop 2
  if inner.length ≥ 2 && inner.drop (inner.length - 2) == ['*', '/'] then
    inner.take (inner.length - 2)
  else inner

/-- The literal content of a token, without delimiters. -/
def content (t : Token) : String :=
  match t.kind with
  | .string | .name => String.ofList (literalInner t.valid t.text.toList)
  | .lineComment => String.ofList (t.text.toList.drop 2)
  | .blockComment => String.ofList (blockInner t.text.toList)
  | _ => t.text

/-- How a token is named in messages: `'x'` for an identifier, the kind and the text for
    literals (`integer 12`, `string "s"`), the kind's description otherwise. -/
def describe (t : Token) : String :=
  match t.kind with
  | .identifier => "'" ++ t.text ++ "'"
  | .integer | .double | .string | .name => t.kind.describe ++ " " ++ t.text
  | k => k.describe

end Token

end ZScript
