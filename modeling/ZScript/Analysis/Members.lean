import ZScript.Analysis.Declarations

/-!
# Members

The second phase reads the stored body of every top-level class and struct, once every type
name of the project is known:

- fields: `flags Type name [dims] [= expr] [, name2 …];`
- method signatures: `flags Type[, Type2] Name(args) [const] (; | { body })`, whose bodies are
  kept as tokens until the last phase;
- nested `enum`, `struct` (whose own body is read at once) and `const`;
- `property Name: field, field;`;
- `default { … }`, `states { … }`, `flagdef …;` and `mixin …;`, which are skipped.

Every class and struct first gets a synthetic local `self`, typed as the class, or as the class
an `extend class` extends. Method arguments are locals whose parent is the method but which are
not among its children. A method without a body that is not `native` is worth a warning. An
error stops the reading of the file, as in the first phase.
-/

namespace ZScript

namespace Members

open Step Parse Declarations

/-- The words allowed before a member's type. -/
def memberFlagWords : List String :=
  ["abstract", "action", "clearscope", "const", "deprecated", "final", "internal", "latent", "meta",
   "native", "override", "play", "private", "protected", "readonly", "static", "transient", "ui",
   "vararg", "version", "virtual", "virtualscope"]

/-- Give the class or struct `owner` its synthetic `self`. -/
def selfVar (owner : Nat) : Step Unit := do
  let v ← view
  let some node := v.tree.get? owner | return
  let target := match node.kind with
    | .classDecl ⟨_, _, some extended, _, _⟩ => (v.world.index.findType extended).map .decl
    | _ => some (.decl ⟨v.file, owner⟩)
  let id ← alloc (some owner) "self" node.line (.localVar (some (Ty.named node.name target)) [])
  modifyKind owner fun k => match k.typeInfo? with
    | some i => k.setTypeInfo { i with selfVar := some id }
    | none => k

/-- The fields after `property Name:`. -/
def propertyFields : Nat → List String → Parse (List String)
  | 0, _ => tooDeep
  | fuel + 1, acc => do
    let f ← expectIdent "property field"
    emitRef f .field none f.text
    let sep ← expect [.comma, .semicolon] "',' or ';'"
    emit sep .special
    if sep.kind == .semicolon then return acc ++ [f.text]
    propertyFields fuel (acc ++ [f.text])

/-- `property Name: field, field;`, the `property` already read. -/
def property (keyword : Token) (owner : Nat) : Parse Unit := do
  emit keyword .keyword
  let name ← expectIdent "property name"
  let colon ← expect [.colon] "':' after property name"
  emit colon .special
  let fields ← propertyFields (← fuel) []
  let id ← add owner name.text name.line (.property fields)
  let d ← here id
  emitRef name .field (some (.decl d)) ((← view).fullName d)

/-- The flags before a member's type; a flag word followed by `<` is a type (`readonly<T>`). -/
def memberFlags : Nat → Modifiers → Parse Modifiers
  | 0, _ => tooDeep
  | fuel + 1, mods => do
    let some t ← peek | return mods
    let generic := (← peekAt 1).any (·.kind == .lessThan)
    unless t.kind == .identifier && memberFlagWords.any t.isKeyword && !generic do return mods
    let _ ← next
    emit t .keyword
    memberFlags fuel (← flag t mods)

/-- More types after the first, each after a `,`. -/
def moreTypes (owner : Nat) : Nat → Parse (List Ty)
  | 0 => tooDeep
  | fuel + 1 => do
    match ← accept [.comma] with
    | none => return []
    | some comma =>
      emit comma .special
      let ty ← compoundType (some owner)
      return ty :: (← moreTypes owner fuel)

/-- The names of a field declaration, each with its dimensions and initializer. -/
def fieldNames (owner : Nat) (base : Ty) (mods : Modifiers) : Nat → Token → Parse Unit
  | 0, _ => tooDeep
  | fuel + 1, name => do
    let dims ← dimensions (← Parse.fuel)
    let init ← match ← accept [.assign] with
      | some assign => do
        emit assign .operator
        pure (some (← expression [.semicolon, .comma]))
      | none => pure none
    let id ← add owner name.text name.line (.field ⟨{ base with dims := base.dims ++ dims }, mods, init⟩)
    let d ← here id
    emitRef name .field (some (.decl d)) ((← view).fullName d)
    let sep ← expect [.semicolon, .comma] "';' after field"
    emit sep .special
    if sep.kind == .semicolon then return
    fieldNames owner base mods fuel (← expectIdent "field name")

/-- The modifiers before an argument's type: `out` and `ref`. -/
def argumentFlags : Nat → List String → Parse (List String)
  | 0, _ => tooDeep
  | fuel + 1, acc => do
    match (← peek).filter fun t => t.isKeyword "out" || t.isKeyword "ref" with
    | none => return acc
    | some t =>
      let _ ← next
      emit t .keyword
      argumentFlags fuel (acc ++ [t.text.toLower])

/-- The arguments of `method` after its `(`, up to and including the `)`: their locals, and
    whether the list ends with `...`. -/
def arguments (owner method : Nat) : Nat → List Nat → Parse (List Nat × Bool)
  | 0, _ => tooDeep
  | fuel + 1, args => do
    if let some dots ← accept [.ellipsis] then
      emit dots .special
      let closing ← expect [.closeParen] "')' after '...'"
      emit closing .special
      return (args, true)
    let flags ← argumentFlags (← Parse.fuel) []
    let ty ← compoundType (some owner)
    if args.isEmpty && ty.name == "void" then
      if let some closing ← accept [.closeParen] then
        emit closing .special
        return (args, false)
    let name ← expectIdent "argument name"
    let arg ← alloc (some method) name.text name.line (.localVar (some ty) flags)
    emitRef name .argument (some (.decl (← here arg))) name.text
    if let some assign ← accept [.assign] then
      emit assign .operator
      let value ← expression [.comma, .closeParen]
      let _ ← add arg "" assign.line (.expression value)
    let args := args ++ [arg]
    let sep ← expect [.comma, .closeParen] "',' or ')'"
    emit sep .special
    if sep.kind == .closeParen then return (args, false)
    arguments owner method fuel args

/-- A method after its name: arguments, `const`, then `;` or a body kept as tokens. The method is
    listed among its owner's children only once complete. -/
def method (owner : Nat) (returns : List Ty) (name : Token) (mods : Modifiers) : Parse Unit := do
  let opening ← expect [.openParen] "'('"
  emit opening .special
  let id ← alloc (some owner) name.text name.line (.method { returns, mods })
  let d ← here id
  emitRef name .method (some (.decl d)) ((← view).fullName d)
  let (args, ellipsis) ← match ← accept [.closeParen] with
    | some closing => do
      emit closing .special
      pure ([], false)
    | none => arguments owner id (← Parse.fuel) []
  let isConst ← match ← acceptKeyword "const" with
    | some t => do
      emit t .keyword
      pure true
    | none => pure false
  let body ← match ← accept [.semicolon] with
    | some semi => do
      emit semi .special
      unless mods.flags.contains "native" do
        warn ("method '" ++ name.text ++ "' has no body but is not native") name.line
      pure none
    | none =>
      if ← check .openCurly then pure (some (← bracedBody "method body"))
      else unexpected "';' or method body"
  modifyKind id fun
    | .method m => .method { m with arguments := args, ellipsis, isConst, body }
    | k => k
  attach owner id

/-- A field or method: flags, types and name, then the rest. -/
def member (owner : Nat) : Parse Unit := do
  let mods ← memberFlags (← Parse.fuel) {}
  let first ← compoundType (some owner)
  let types := first :: (← moreTypes owner (← Parse.fuel))
  let name ← expectIdent "member name"
  if ← check .openParen then method owner types name mods
  else
    if types.length > 1 then throw ⟨.fieldTypes name.text, name.line⟩
    fieldNames owner first mods (← Parse.fuel) name

/-- The items of a body, until its tokens run out; `nested` reads the body of a nested struct. -/
def items (nested : Nat → ExceptT ParseError Step Unit) (owner : Nat) : Nat → Parse Unit
  | 0 => tooDeep
  | fuel + 1 => do
    let some t ← peek | return
    match t.kind with
    | .semicolon =>
      let _ ← next
      emit t .special
    | .identifier =>
      if t.isKeyword "enum" then
        let _ ← next
        discard <| enumDecl t owner
      else if t.isKeyword "struct" then
        let _ ← next
        let id ← structDecl t owner
        monadLift (nested id)
      else if t.isKeyword "const" && (← peekAt 2).any (·.kind == .assign) then
        let _ ← next
        discard <| constantDecl t owner
      else if t.isKeyword "property" then
        let _ ← next
        property t owner
      else if t.isKeyword "flagdef" || t.isKeyword "mixin" then
        let _ ← next
        emit t .keyword
        let _ ← balanced [.semicolon]
        let semi ← expect [.semicolon] "';'"
        emit semi .special
      else if t.isKeyword "default" || t.isKeyword "states" then
        let _ ← next
        emit t .keyword
        if let some opening ← accept [.openParen] then
          emit opening .special
          let _ ← balanced []
          let closing ← expect [.closeParen] "')'"
          emit closing .special
        let _ ← bracedBody t.text
      else member owner
    | _ => member owner
    items nested owner fuel

/-- Read the stored body of class or struct `owner`; `depth` bounds the nesting of structs. -/
def body : Nat → Nat → ExceptT ParseError Step Unit
  | 0, owner => do throw ⟨.tooDeep, (((← tree).get? owner).map (·.line)).getD 1⟩
  | depth + 1, owner => do
    let some node := (← tree).get? owner | return
    let some info := node.kind.typeInfo? | return
    modifyKind owner fun k => k.setTypeInfo { info with body := [] }
    selfVar owner
    runOn info.body (items (body depth) owner (info.body.length + 1))

end Members

/-- The second phase: read the members of every top-level class and struct. A failure stops the
    file; a file that failed before is left alone. -/
def Analysis.addMembers : Step Unit := do
  let a ← Step.current
  if a.failed then return
  let owners := a.tree.declarations.filter (a.tree.holds · NodeKind.isTypeDecl)
  go owners
where
  /-- Read each owner's body in turn, stopping at the first failure. -/
  go : List Nat → Step Unit
    | [] => return
    | owner :: rest => do
      let a ← Step.current
      match ← (Members.body (a.tokens.length + 1) owner).run with
      | .ok _ => go rest
      | .error e => Step.fail e

end ZScript
