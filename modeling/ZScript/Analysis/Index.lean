import Std.Data.HashMap
import ZScript.Analysis.Basic

/-!
# The type index

The index of a project lists its top-level declarations, file by file in order, and answers two
questions by name, ignoring ASCII case: which type is called `n` (`findType`: a struct, an enum
or a class that is not an `extend class`), and which constant is called `n` (`findSymbol`: a
top-level constant or a member of a top-level enum). Where several declarations share a name the
first one wins. It also keeps, for every top-level class, the lowercased names in its header.

A `Universe` is what one file sees of the rest of the project while it is analysed: the index,
and the syntax trees of the other files.
-/

namespace ZScript

/-- The header of a class as the index keeps it: its handle and lowercased names. -/
structure ClassEntry where
  decl : DeclRef
  name : String
  parent : Option String
  extend : Option String
  replace : Option String
  deriving Inhabited

/-- Top-level declarations of a project, with their names. -/
structure TypeIndex where
  declarations : Array DeclRef := #[]
  types : Std.HashMap String DeclRef := {}
  symbols : Std.HashMap String DeclRef := {}
  classes : Array ClassEntry := #[]
  deriving Inhabited

namespace TypeIndex

/-- Enter the members of an enum that are constants into `symbols`. -/
def addMembers (file : Nat) (t : Tree) (symbols : Std.HashMap String DeclRef) (ids : List Nat) :
    Std.HashMap String DeclRef :=
  ids.foldl (fun acc m => match t.get? m with
    | some node@⟨_, _, _, _, .constant _⟩ => acc.insertIfNew node.name.toLower ⟨file, m⟩
    | _ => acc) symbols

/-- Enter one top-level declaration. -/
def addDecl (file : Nat) (t : Tree) (idx : TypeIndex) (id : Nat) : TypeIndex :=
  match t.get? id with
  | none => idx
  | some node =>
    let decl : DeclRef := ⟨file, id⟩
    let key := node.name.toLower
    let idx := { idx with declarations := idx.declarations.push decl }
    match node.kind with
    | .classDecl c =>
      let entry : ClassEntry := ⟨decl, key, c.parentName.map (·.toLower),
        c.extendName.map (·.toLower), c.replaceName.map (·.toLower)⟩
      let idx := { idx with classes := idx.classes.push entry }
      if c.extendName.isNone then { idx with types := idx.types.insertIfNew key decl } else idx
    | .structDecl _ => { idx with types := idx.types.insertIfNew key decl }
    | .enumDecl _ =>
      { idx with types := idx.types.insertIfNew key decl,
                 symbols := addMembers file t idx.symbols (t.children id) }
    | .constant _ => { idx with symbols := idx.symbols.insertIfNew key decl }
    | _ => idx

/-- Enter the top-level declarations of a file. -/
def addFile (idx : TypeIndex) (a : Analysis) : TypeIndex :=
  a.tree.declarations.foldl (addDecl a.file a.tree) idx

/-- The index of the given files, in order. -/
def build (files : List Analysis) : TypeIndex := files.foldl addFile {}

/-- The type called `n`, ignoring ASCII case. -/
def findType (idx : TypeIndex) (n : String) : Option DeclRef := idx.types[n.toLower]?

/-- The constant or enum member called `n`, ignoring ASCII case. -/
def findSymbol (idx : TypeIndex) (n : String) : Option DeclRef := idx.symbols[n.toLower]?

end TypeIndex

/-- What a file sees of its project while it is analysed. -/
structure Universe where
  index : TypeIndex := {}
  /-- The other files' trees, by file index; the file being analysed has none. -/
  trees : Array (Option Tree) := #[]
  deriving Inhabited

/-- The node a handle names in another file. -/
def Universe.node? (u : Universe) (d : DeclRef) : Option Node :=
  (u.trees[d.file]?).bind fun t => t.bind (·.get? d.node)

end ZScript
