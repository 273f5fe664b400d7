import ZScript.Analysis.Types
import ZScript.Token.Lexer

/-!
# Declarations

The first reading of a file builds its skeleton:

```text
root   ::= ["version" string] item*
item   ::= "#" "include" string | class | struct | enum | const | ";"
class  ::= ["extend"] "class" ident [":" ident] ["replaces" ident] flag* "{" body "}"
struct ::= "struct" ident flag* "{" body "}"
enum   ::= "enum" ident [":" type] "{" (ident ["=" expr]),* [","] "}"
const  ::= "const" ident "=" expr ";"
flag   ::= ident | ("version" | "deprecated") "(" string ")"
```

`version` and its string, and `#include` and its file name, must stand on one line. The bodies of
classes and structs are kept as tokens, to be read once every type name of the project is known.
A syntax error here stops the reading of the whole file: the file is marked failed, and what was
built before the error stays.

Comments are tagged first, and every invalid or unterminated token is tagged `invalid` last.
Structs, enums and constants are read the same way inside a class or struct body.
-/

namespace ZScript

namespace Declarations

open Step Parse

/-- The words allowed between a class or struct header and its body. -/
def typeFlagWords : List String :=
  ["abstract", "clearscope", "deprecated", "final", "native", "play", "ui", "version"]

/-- `("string")` after `version` or `deprecated`. -/
def flagArgument (flag : String) : Parse String := do
  let expected := flag ++ "(\"string\")"
  let opening ← expect [.openParen] expected
  let value ← expect [.string] expected
  let closing ← expect [.closeParen] expected
  emit opening .special
  emit value .string
  emit closing .special
  return value.content

/-- Record a flag word already read: `version(…)` and `deprecated(…)` take their argument, any
    other word is kept lowercased. -/
def flag (t : Token) (mods : Modifiers) : Parse Modifiers := do
  if t.isKeyword "version" then return { mods with version := some (← flagArgument "version") }
  if t.isKeyword "deprecated" then
    return { mods with deprecated := some (← flagArgument "deprecated") }
  return { mods with flags := mods.flags ++ [t.text.toLower] }

/-- The flags of a class or struct, up to its body. -/
def typeFlags : Nat → Modifiers → Parse Modifiers
  | 0, _ => tooDeep
  | fuel + 1, mods => do
    match ← accept [.identifier] with
    | none => return mods
    | some t =>
      unless typeFlagWords.any t.isKeyword do throw (ParseError.unexpectedToken t "type flag or '\x7b'")
      emit t .keyword
      typeFlags fuel (← flag t mods)

/-- What a class or struct declares, from its modifiers and body. -/
def typeInfo (mods : Modifiers) (body : List Token) : TypeInfo :=
  ⟨mods.flags, mods.version, mods.deprecated, body, none⟩

/-- `struct Name flags { body }`, the `struct` already read, as a child of `parent`. -/
def structDecl (keyword : Token) (parent : Nat) : Parse Nat := do
  emit keyword .keyword
  let name ← expectIdent "struct name"
  let mods ← typeFlags (← fuel) {}
  let body ← bracedBody "struct body"
  let id ← add parent name.text name.line (.structDecl (typeInfo mods body))
  let d ← here id
  emitRef name .typeName (some (.decl d)) ((← view).fullName d)
  return id

/-- The members of an enum after its `{`, up to and including the `}`. -/
def enumMembers (enum : Nat) : Nat → Parse Unit
  | 0 => tooDeep
  | fuel + 1 => do
    let t ← expect [.identifier, .closeCurly] "enum member or '\x7d'"
    if t.kind == .closeCurly then
      emit t .special
      return
    let member ← add enum t.text t.line (.constant none)
    let d ← here member
    emitRef t .constantName (some (.decl d)) ((← view).fullName d)
    let sep ← expect [.comma, .assign, .closeCurly] "',', '=' or '\x7d'"
    let sep ← if sep.kind == .assign then do
        emit sep .operator
        let value ← expression [.comma, .closeCurly]
        modifyKind member fun _ => .constant (some value)
        expect [.comma, .closeCurly] "',' or '\x7d'"
      else pure sep
    emit sep .special
    if sep.kind == .closeCurly then return
    enumMembers enum fuel

/-- `enum Name [: Base] { … }`, the `enum` already read. The enum is listed among its parent's
    children only once complete. -/
def enumDecl (keyword : Token) (parent : Nat) : Parse Nat := do
  emit keyword .keyword
  let name ← expectIdent "enum name"
  let base ← match ← accept [.colon] with
    | some colon => do
      emit colon .special
      pure (some (← compoundType none))
    | none => pure none
  let opening ← expect [.openCurly] "'\x7b' opening enum body"
  emit opening .special
  let id ← alloc (some parent) name.text name.line (.enumDecl base)
  let d ← here id
  emitRef name .typeName (some (.decl d)) ((← view).fullName d)
  enumMembers id (← fuel)
  attach parent id
  return id

/-- `const Name = expr;`, the `const` already read. -/
def constantDecl (keyword : Token) (parent : Nat) : Parse Nat := do
  emit keyword .keyword
  let name ← expectIdent "constant name"
  let assign ← expect [.assign] "'=' after constant name"
  emit assign .operator
  let value ← expression [.semicolon]
  let semi ← expect [.semicolon] "';' after constant"
  emit semi .special
  let id ← add parent name.text name.line (.constant (some value))
  let d ← here id
  emitRef name .constantName (some (.decl d)) ((← view).fullName d)
  return id

/-- `class Name [: Parent] [replaces Other] flags { body }`, given its `class` token and the
    `extend` before it, if any. -/
def classDecl (keyword : Token) (extend : Option Token) : Parse Unit := do
  if let some e := extend then emit e .keyword
  emit keyword .keyword
  let name ← expectIdent "class name"
  let parentName ← match ← accept [.colon] with
    | some colon => do
      emit colon .special
      let p ← expectIdent "parent class name"
      emitRef p .typeName none p.text
      pure (some p.text)
    | none => pure none
  let replaceName ← match ← acceptKeyword "replaces" with
    | some r => do
      emit r .keyword
      let other ← expectIdent "replaced class name"
      emitRef other .typeName none other.text
      pure (some other.text)
    | none => pure none
  let mods ← typeFlags (← fuel) {}
  let body ← bracedBody "class body"
  let extendName := extend.map fun _ => name.text
  let info : ClassInfo := ⟨typeInfo mods body, parentName, extendName, replaceName, {}⟩
  let id ← add 0 name.text name.line (.classDecl info)
  if extend.isSome then emitRef name .typeName none name.text
  else emitRef name .typeName (some (.decl (← here id))) name.text

/-- `#include "file"` on one line, the `#` already read. -/
def directive (hash : Token) : Parse Unit := do
  let some d := (← peek).filter fun t => t.kind == .identifier && t.line == hash.line
    | throw ⟨.noDirective, hash.line⟩
  let _ ← next
  unless d.isKeyword "include" do throw ⟨.unsupportedDirective d.text, d.line⟩
  let some path := (← peek).filter fun t => t.kind == .string && t.line == hash.line
    | throw ⟨.noFileName, d.line⟩
  let _ ← next
  emit hash .preprocessor
  emit d .preprocessor
  emit path .string
  let _ ← add 0 path.content hash.line (.inclusion path.content none)

/-- `version "x"`, the `version` already read. -/
def version (word : Token) : Parse Unit := do
  let some value := (← peek).filter fun t => t.kind == .string && t.line == word.line
    | unexpected "version string"
  let _ ← next
  emit word .keyword
  emit value .string
  modifyKind 0 fun
    | .root _ => .root (some value.content)
    | k => k

/-- The top-level items; `leading` holds for the first one only. -/
def items : Nat → Bool → Parse Unit
  | 0, _ => tooDeep
  | fuel + 1, leading => do
    let some t ← next | return
    match t.kind with
    | .semicolon => emit t .special
    | .preprocessor => directive t
    | .identifier =>
      if leading && t.isKeyword "version" then version t
      else if t.isKeyword "class" then classDecl t none
      else if t.isKeyword "extend" then
        let some c ← acceptKeyword "class" | unexpected "'class' after 'extend'"
        classDecl c (some t)
      else if t.isKeyword "struct" then discard <| structDecl t 0
      else if t.isKeyword "enum" then discard <| enumDecl t 0
      else if t.isKeyword "const" then discard <| constantDecl t 0
      else throw (ParseError.unexpectedToken t "top-level declaration")
    | _ => throw (ParseError.unexpectedToken t "top-level declaration")
    items fuel false

end Declarations

/-- Tag every comment. -/
def Analysis.tagComments (a : Analysis) : Analysis :=
  { a with semantic := a.semantic ++ (a.tokens.filter fun t =>
      t.kind == .lineComment || t.kind == .blockComment).toArray.map (.ofToken · .comment) }

/-- Tag every invalid or unterminated token as unresolved, under its own text. -/
def Analysis.tagAnomalies (a : Analysis) : Analysis :=
  { a with semantic := a.semantic ++ (a.tokens.filter fun t =>
      t.kind == .invalid || !t.valid).toArray.map fun t => .ofToken t .invalid none (some t.text) }

/-- Read the skeleton of file `file` from its text: the first analysis phase. It sees nothing of
    the rest of the project. -/
def Analysis.skeleton (file : Nat) (text : String) : Step Unit := withReader (fun _ => {}) do
  let tokens := Token.lex text
  Step.change fun _ => Analysis.tagComments { file, tokens }
  let significant := tokens.filter (!·.isTrivia)
  let fuel := significant.length + 1
  match ← ((Declarations.items fuel true).run (Cursor.ofList significant)).run with
  | .ok _ => pure ()
  | .error e => Step.fail e
  Step.change Analysis.tagAnomalies
  let a ← Step.current
  Step.log .debug .declarations ("file " ++ toString file ++ ": " ++ toString a.tokens.length ++
    " tokens, " ++ toString a.tree.declarations.length ++ " declarations")

end ZScript
