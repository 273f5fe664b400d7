import ZScript.Analysis.Tagging

/-!
# Reading written types

```text
type ::= builtin ["<" type ("," type)* ">"]
       | ident ("." ident)* ["<" type ("," type)* ">"]
```

A builtin name is stored lowercased and refers to its catalog entry. Another name is looked up
as seen from the context (a class or struct of this file), and each further dotted part as a type
nested in the one before, or else as the whole dotted path so far. Every part is tagged as a type
name; a part that is not found yet keeps the spelling qualified by the context, so that it can be
looked up again once the whole project is known.

A `>>` token closes two argument lists at once. `compoundType` fails when a `>>` closes one list
more than is open.
-/

namespace ZScript

namespace Types

open Step Parse

/-- Tag one part of a type name. An unresolved part keeps the context-qualified spelling. -/
def emitTypeName (t : Token) (resolved : Option DeclRef) (context : Option Nat) : Step Unit := do
  let v ← view
  match resolved with
  | some d => emitRef t .typeName (some (.decl d)) (v.fullName d)
  | none =>
    let q := match context with
      | some c => v.fullName ⟨v.file, c⟩ ++ "." ++ t.text
      | none => t.text
    emitRef t .typeName none q

/-- The further dotted parts of a type name, given the path and what it resolves to so far. -/
def dotted (context : Option Nat) : Nat → String → Option DeclRef → Parse (String × Option DeclRef)
  | 0, _, _ => tooDeep
  | fuel + 1, path, resolved => do
    let more := (← check .dot) && ((← peekAt 1).any (·.kind == .identifier))
    if !more then return (path, resolved)
    if let some dot ← next then emit dot .special
    let part ← expectIdent "type name"
    let path := path ++ "." ++ part.text
    let v ← view
    let scope := context.map (⟨v.file, ·⟩)
    let resolved := (resolved.bind (v.findNestedType · part.text)).orElse fun _ =>
      v.resolveType path scope
    emitTypeName part resolved context
    dotted context fuel path resolved

mutual

/-- A type, and whether a `>>` in it also closed the argument list around it. -/
def reference (context : Option Nat) : Nat → Parse (Ty × Bool)
  | 0 => tooDeep
  | fuel + 1 => do
    let name ← expectIdent "type name"
    let base ← match Builtin.find? name.text with
      | some i => do
        let lower := name.text.toLower
        emitRef name .typeName (some (.builtin i)) lower
        pure (Ty.named lower (some (.builtin i)))
      | none => do
        let v ← view
        let resolved := v.resolveType name.text (context.map (⟨v.file, ·⟩))
        emitTypeName name resolved context
        let (path, resolved) ← dotted context (← Parse.fuel) name.text resolved
        pure (Ty.named path (resolved.map .decl))
    match ← accept [.lessThan] with
    | none => return (base, false)
    | some opening =>
      emit opening .special
      let (args, closes) ← arguments context fuel
      return ({ base with args }, closes)

/-- The arguments of a type after its `<`, and whether a `>>` closed the enclosing list too. -/
def arguments (context : Option Nat) : Nat → Parse (List Ty × Bool)
  | 0 => tooDeep
  | fuel + 1 => do
    let (arg, closed) ← reference context fuel
    if closed then return ([arg], false)
    let sep ← expect [.comma, .greaterThan, .rightShift] "',' or '>'"
    emit sep .special
    match sep.kind with
    | .comma =>
      let (more, closes) ← arguments context fuel
      return (arg :: more, closes)
    | .rightShift => return ([arg], true)
    | _ => return ([arg], false)

end

end Types

open Step Parse in
/-- Read a type as seen from `context`, a class or struct of this file. -/
def Parse.compoundType (context : Option Nat) : Parse Ty := do
  let (ty, closes) ← Types.reference context (← fuel)
  if closes then throw ⟨.unbalancedShift, (← get).lastLine⟩
  return ty

open Step Parse in
/-- Read `[size]` and `[]` suffixes, each a dimension of the type. -/
def Parse.dimensions : Nat → Parse (List (Option Expr))
  | 0 => tooDeep
  | fuel + 1 => do
    match ← accept [.openSquare] with
    | none => return []
    | some opening =>
      emit opening .special
      let size ← balanced []
      let closing ← expect [.closeSquare] "']'"
      emit closing .special
      let dim ← if size.isEmpty then pure none else some <$> ofExcept (ExprParser.run size opening.line)
      return dim :: (← Parse.dimensions fuel)

end ZScript
