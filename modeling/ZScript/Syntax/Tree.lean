import ZScript.Syntax.Expr

/-!
# Syntax trees

A file's declarations and statements live in one arena: node `i` is the `i`-th node created, and
nodes name each other by these indices. Node `0` is the file root. Every node records its parent
and its ordered children; a node can be created before it is listed among its parent's children
(`alloc`) and listed later (`attach`), or never, as method arguments, the synthetic `self` of a
type and the initializers of a `for` are. `truncate` drops every node from an index on, and the
children that point there, which is how a failed construct is undone.

The views are `get?`, `children`, `ancestors` (a node, then its parents up to the root),
`declarations` (the root's children but the includes) and `typeDecls` (classes and structs,
nested ones included, parents before children).
-/

namespace ZScript

/-- Modifiers of a declaration: its flag words (lowercased), and the arguments of `version(...)`
    and `deprecated(...)`. -/
structure Modifiers where
  flags : List String := []
  version : Option String := none
  deprecated : Option String := none
  deriving Inhabited

/-- What a class or struct declares about itself. -/
structure TypeInfo where
  flags : List String := []
  version : Option String := none
  deprecated : Option String := none
  /-- The body's tokens, kept until the members are read. -/
  body : List Token := []
  /-- The synthetic `self` local, created with the members. -/
  selfVar : Option Nat := none
  deriving Inhabited

/-- How a class is related to the others, once linked: the classes it names, and those that
    name it. -/
structure ClassLinks where
  parent : Option DeclRef := none
  extend : Option DeclRef := none
  replace : Option DeclRef := none
  extensions : List DeclRef := []
  children : List DeclRef := []
  replacedBy : List DeclRef := []
  deriving Inhabited

/-- A class: what it declares, the names in its header, and its links. -/
structure ClassInfo where
  info : TypeInfo := {}
  parentName : Option String := none
  /-- Set for `extend class`: the name of the class it adds to. -/
  extendName : Option String := none
  replaceName : Option String := none
  links : ClassLinks := {}
  deriving Inhabited

/-- A field: its type, modifiers and initializer. -/
structure FieldInfo where
  type : Ty
  mods : Modifiers
  init : Option Expr
  deriving Inhabited

/-- A method: its return types, argument locals, modifiers, and its body's tokens until the body
    is read (`none` for a method declared without one, and once it has been read). -/
structure MethodInfo where
  returns : List Ty
  arguments : List Nat := []
  mods : Modifiers := {}
  ellipsis : Bool := false
  isConst : Bool := false
  body : Option (List Token) := none
  deriving Inhabited

/-- The jump a control statement makes. -/
inductive Jump where
  | exitMethod
  | exitLoop
  | nextIteration
  deriving DecidableEq, Inhabited

/-- What a node is, with what it holds. -/
inductive NodeKind where
  | root (version : Option String)
  | inclusion (location : String) (target : Option Nat)
  | enumDecl (base : Option Ty)
  | classDecl (c : ClassInfo)
  | structDecl (info : TypeInfo)
  | field (f : FieldInfo)
  | method (m : MethodInfo)
  | block
  | expression (e : Expr)
  | forLoop (initializers : List Nat) (condition : Option Expr) (steps : List Expr)
  | whileLoop (condition : Expr) (post : Bool)
  | cond (condition : Expr) (elseBlock : Option Nat)
  | constant (value : Option Expr)
  | property (fields : List String)
  | localVar (type : Option Ty) (flags : List String)
  | control (jump : Jump)
  deriving Inhabited

/-- A node of the arena. -/
structure Node where
  name : String
  parent : Option Nat
  children : List Nat
  line : Nat
  kind : NodeKind
  deriving Inhabited

namespace NodeKind

/-- Whether the node is a class or a struct. -/
def isTypeDecl : NodeKind → Bool
  | .classDecl _ | .structDecl _ => true
  | _ => false

/-- Whether the node declares a type: a class, a struct or an enum. -/
def isType : NodeKind → Bool
  | .classDecl _ | .structDecl _ | .enumDecl _ => true
  | _ => false

/-- What a class or struct declares about itself. -/
def typeInfo? : NodeKind → Option TypeInfo
  | .classDecl c => some c.info
  | .structDecl i => some i
  | _ => none

/-- Replace what a class or struct declares about itself. -/
def setTypeInfo (k : NodeKind) (i : TypeInfo) : NodeKind :=
  match k with
  | .classDecl c => .classDecl { c with info := i }
  | .structDecl _ => .structDecl i
  | k => k

/-- Whether the node is an include directive. -/
def isInclusion : NodeKind → Bool
  | .inclusion _ _ => true
  | _ => false

end NodeKind

/-- Whether the node's name is `n`, ignoring ASCII case. -/
def Node.isNamed (node : Node) (n : String) : Bool := node.name.toLower == n.toLower

/-- The arena of one file's nodes. -/
structure Tree where
  nodes : Array Node
  deriving Inhabited

namespace Tree

/-- The file root: no name, no parent, line 1. -/
def rootNode : Node := ⟨"", none, [], 1, .root none⟩

/-- A tree with only the root. -/
def empty : Tree := ⟨#[rootNode]⟩

/-- The number of nodes. -/
def size (t : Tree) : Nat := t.nodes.size

/-- Whether the tree has no node besides the root. -/
def isEmpty (t : Tree) : Bool := t.size ≤ 1

/-- The node with index `id`. -/
def get? (t : Tree) (id : Nat) : Option Node := t.nodes[id]?

/-- Change node `id` (nothing happens when there is none). -/
def modify (t : Tree) (id : Nat) (f : Node → Node) : Tree := ⟨t.nodes.modify id f⟩

/-- Change what node `id` holds. -/
def modifyKind (t : Tree) (id : Nat) (f : NodeKind → NodeKind) : Tree :=
  t.modify id fun n => { n with kind := f n.kind }

/-- Create a node without listing it among its parent's children; its index is the old size. -/
def alloc (t : Tree) (parent : Option Nat) (name : String) (line : Nat) (kind : NodeKind) :
    Nat × Tree :=
  (t.size, ⟨t.nodes.push ⟨name, parent, [], line, kind⟩⟩)

/-- Make `child` the last child of `parent`. -/
def attach (t : Tree) (parent child : Nat) : Tree :=
  (t.modify child fun n => { n with parent := some parent }).modify parent
    fun n => { n with children := n.children ++ [child] }

/-- Create a node as the last child of `parent`. -/
def add (t : Tree) (parent : Nat) (name : String) (line : Nat) (kind : NodeKind) : Nat × Tree :=
  let (id, t) := t.alloc (some parent) name line kind
  (id, t.modify parent fun n => { n with children := n.children ++ [id] })

/-- Drop every node from index `mark` on (the root always stays), and every child entry that
    points to a dropped node. -/
def truncate (t : Tree) (mark : Nat) : Tree :=
  let mark := max mark 1
  if t.size ≤ mark then t
  else ⟨(t.nodes.extract 0 mark).map fun n => { n with children := n.children.filter (· < mark) }⟩

/-- The children of node `id`, in order. -/
def children (t : Tree) (id : Nat) : List Nat := ((t.get? id).map (·.children)).getD []

/-- The parent chain from `id`, with at most `fuel` entries. -/
def chain (t : Tree) : Nat → Option Nat → List Nat
  | 0, _ => []
  | _, none => []
  | fuel + 1, some id => id :: chain t fuel ((t.get? id).bind (·.parent))

/-- `id`, then its parents up to the root. A parent always has a smaller index than its child,
    so the chain has at most `size + 1` entries. -/
def ancestors (t : Tree) (id : Nat) : List Nat := t.chain (t.size + 1) (some id)

/-- Whether node `id` exists and satisfies `p`. -/
def holds (t : Tree) (id : Nat) (p : NodeKind → Bool) : Bool := (t.get? id).any (p ·.kind)

/-- The top-level declarations in source order: the root's children but the includes. -/
def declarations (t : Tree) : List Nat := (t.children 0).filter (!t.holds · NodeKind.isInclusion)

/-- The loop of `typeDecls` over its stack `pending`, top first: it pops a node; a class or struct
    is found and its children are pushed, the first child on top; any other node is dropped with
    everything under it. `fuel` bounds the number of nodes popped. -/
def typeDeclsLoop (t : Tree) : Nat → List Nat → Array Nat → Array Nat
  | 0, _, found => found
  | _ + 1, [], found => found
  | fuel + 1, id :: pending, found =>
    if t.holds id NodeKind.isTypeDecl then
      typeDeclsLoop t fuel (t.children id ++ pending) (found.push id)
    else typeDeclsLoop t fuel pending found

/-- Every class and struct, nested ones included, parents before children: the loop starts from
    the root's children, the first on top. Each node is popped once at most, so `size` pops are
    enough. -/
def typeDecls (t : Tree) : List Nat := (t.typeDeclsLoop t.size (t.children 0) #[]).toList

/-- The version the file declares. -/
def version (t : Tree) : Option String :=
  match t.get? 0 with
  | some ⟨_, _, _, _, .root v⟩ => v
  | _ => none

end Tree

end ZScript
