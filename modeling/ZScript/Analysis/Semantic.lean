import ZScript.Syntax.Expr

/-!
# Semantic tokens

Analysis classifies byte ranges of the source: a keyword, a type name, a field, a name that
could not be resolved. Each classified range is a semantic token; it may say what the name
refers to and carry the dotted name shown in its tooltip. Tokens are kept in the order they were
made, and where ranges overlap the later token wins: `tokenAt` searches from the end, so an
unresolved type name made `invalid` after the fact shows as unresolved.
-/

namespace ZScript

/-- What a classified range is. -/
inductive SemanticKind where
  | comment
  | preprocessor
  | keyword
  | typeName
  | constantName
  | number
  | string
  | field
  | localVar
  | method
  | argument
  | operator
  | special
  | invalid
  deriving DecidableEq, Repr, Inhabited

namespace SemanticKind

/-- The kind's tag in reports. -/
def tag : SemanticKind → String
  | .comment => "Comment"
  | .preprocessor => "Preprocessor"
  | .keyword => "Keyword"
  | .typeName => "TypeName"
  | .constantName => "ConstantName"
  | .number => "Number"
  | .string => "String"
  | .field => "Field"
  | .localVar => "Local"
  | .method => "Method"
  | .argument => "Argument"
  | .operator => "Operator"
  | .special => "SpecialToken"
  | .invalid => "Invalid"

/-- The kind as a word of a tooltip. -/
def word : SemanticKind → String
  | .comment => "comment"
  | .preprocessor => "preprocessor"
  | .keyword => "keyword"
  | .typeName => "type"
  | .constantName => "constant"
  | .number => "number"
  | .string => "string"
  | .field => "field"
  | .localVar => "local"
  | .method => "method"
  | .argument => "argument"
  | .operator => "operator"
  | .special => "punctuation"
  | .invalid => "unresolved"

end SemanticKind

/-- A classified byte range `[start, stop)`. -/
structure SemanticToken where
  start : Nat
  stop : Nat
  kind : SemanticKind
  ref : Option Target := none
  /-- The dotted name shown in the tooltip. -/
  name : Option String := none
  deriving Inhabited

namespace SemanticToken

/-- The range of a lexical token, with a kind. -/
def ofToken (t : Token) (kind : SemanticKind) (ref : Option Target := none)
    (name : Option String := none) : SemanticToken :=
  ⟨t.start, t.stop, kind, ref, name⟩

/-- Whether the range covers byte `offset`. -/
def covers (s : SemanticToken) (offset : Nat) : Bool := s.start ≤ offset && offset < s.stop

/-- The tooltip: `unresolved: Foo` for an unresolved name, else the kind's word and the name. -/
def tooltip (s : SemanticToken) : String :=
  match s.name, s.kind with
  | some n, .invalid => "unresolved: " ++ n
  | some n, k => k.word ++ " " ++ n
  | none, k => k.word

end SemanticToken

/-- The last token covering byte `offset`: later tokens override earlier ones. -/
def SemanticToken.at? (ts : Array SemanticToken) (offset : Nat) : Option SemanticToken :=
  ts.toList.reverse.find? (·.covers offset)

end ZScript
