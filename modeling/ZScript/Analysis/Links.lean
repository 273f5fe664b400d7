import ZScript.Analysis.Lookup

/-!
# Class links

The third phase links each top-level class of a file to the classes its header names (parent,
extended and replaced class), looked up in the project index; a class never links to itself, and
a name that is not found is worth a warning. A class that is not an `extend class` also lists the
classes of the index that name it: its children, its extensions and the classes replacing it, in
index order. These lists depend only on the index, so every file's links can be computed on its
own.

Then every type name tagged so far without a reference is looked up again by its stored
qualified name (`recheckTypeNames`); one that still cannot be found gets an `invalid` token over
it and a warning on its line. The last phase does the same for the type names it tags.
-/

namespace ZScript

namespace Links

open Step

/-- Whether the class named `target` is `me`. -/
def pointsTo (idx : TypeIndex) (me : DeclRef) (target : Option String) : Bool :=
  (target.bind idx.findType) == some me

/-- Link the class `id` of this file. -/
def linkClass (id : Nat) : Step Unit := do
  let v ← view
  let some node := v.tree.get? id | return
  let .classDecl c := node.kind | return
  let me : DeclRef := ⟨v.file, id⟩
  let idx := v.world.index
  let find (what : String) (target : Option String) : Step (Option DeclRef) := do
    match target with
    | none => return none
    | some t =>
      let found := (idx.findType t).filter (· != me)
      if found.isNone then
        warn ("class '" ++ node.name ++ "': " ++ what ++ " class '" ++ t ++ "' not found") node.line
      return found
  let parent ← find "parent" c.parentName
  let extend ← find "extended" c.extendName
  let replace ← find "replaced" c.replaceName
  let reverse := if extend.isNone && c.extendName.isNone then
      idx.classes.toList.filter (·.decl != me)
    else []
  let links : ClassLinks :=
    { parent, extend, replace,
      children := (reverse.filter (pointsTo idx me ·.parent)).map (·.decl),
      extensions := (reverse.filter (pointsTo idx me ·.extend)).map (·.decl),
      replacedBy := (reverse.filter (pointsTo idx me ·.replace)).map (·.decl) }
  log .debug .links ("linked class " ++ node.name ++ ": " ++ toString links.children.length ++
    " children, " ++ toString links.extensions.length ++ " extensions")
  modifyKind id fun
    | .classDecl c => .classDecl { c with links }
    | k => k

end Links

/-- Look again for the types of the unresolved type names tagged from position `start` on. -/
def Step.recheckTypeNames (start : Nat) : Step Unit := do
  let a ← current
  let pending := ((a.semantic.toList.drop start).zipIdx start).filterMap fun (s, i) =>
    if s.kind == .typeName && s.ref.isNone then s.name.map (i, ·) else none
  for (i, n) in pending do
    let v ← view
    match v.resolveQualified n with
    | some d =>
      let q := v.fullName d
      change fun a => { a with semantic := a.semantic.modify i fun s =>
        { s with ref := some (.decl d), name := some q } }
    | none =>
      let a ← current
      let s := a.semantic[i]?.getD default
      emitToken { s with kind := .invalid }
      warn ("unresolved type '" ++ n ++ "'") (a.lineAt s.start)

/-- The third phase: link the file's classes, then look again for unresolved type names. -/
def Analysis.link : Step Unit := do
  let a ← Step.current
  for id in a.tree.declarations.filter (a.tree.holds · fun k => k matches .classDecl _) do
    Links.linkClass id
  Step.recheckTypeNames 0

end ZScript
