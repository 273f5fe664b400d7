import ZScript.Analysis.Work

/-!
# Looking names up

Every comparison of names ignores ASCII case.

*Types.* The first part of a dotted name is looked for among the types nested in the context, in
the types enclosing it, and in each of their class ancestors, then in the project index; each
further part is a type nested in the one before (`resolveType`). A stored qualified name is
retried whole, then without its first part, and so on (`resolveQualified`).

*Classes.* An `extend class` stands for the class it extends. The chain of a class is the class,
its extensions, then each ancestor followed by its extensions, without repeats and at most 64
entries, which also stops an inheritance cycle (`classChain`). Links are used where they are set
and names looked up in the index where they are not.

*Symbols.* `self` and `super` name the synthetic `self` of the context class and of its parent.
Otherwise the first match wins: a local (an initializer of an enclosing `for`, an argument of the
method, a declaration of an enclosing block, innermost first), a member of the context class's
chain, a global constant or enum member (`resolveSymbol`).

All of this reads a `View`: the file's own tree and what the universe lends of the others.
-/

namespace ZScript

/-- What lookups read: the file being analysed and the universe around it. -/
structure View where
  file : Nat
  tree : Tree
  world : Universe

/-- The view at this point of the analysis. -/
def Step.view : Step View := do
  let a ← Step.current
  return ⟨a.file, a.tree, ← read⟩

namespace View

/-- The node behind a handle. -/
def node? (v : View) (d : DeclRef) : Option Node :=
  if d.file == v.file then v.tree.get? d.node else v.world.node? d

/-- The children of a node that exist, with their handles. -/
def members (v : View) (d : DeclRef) : List (DeclRef × Node) :=
  ((v.node? d).map (·.children)).getD [] |>.filterMap fun c =>
    (v.node? ⟨d.file, c⟩).map (⟨d.file, c⟩, ·)

/-- The type called `n` in the project index. -/
def indexType (v : View) (n : String) : Option DeclRef := v.world.index.findType n

/-- The class an `extend class` adds to, or `d` itself. -/
def extensionTarget (v : View) (d : DeclRef) : DeclRef :=
  match v.node? d with
  | some ⟨_, _, _, _, .classDecl c⟩ =>
    match c.extendName with
    | some n => ((c.links.extend.orElse fun _ => v.indexType n)).getD d
    | none => d
  | _ => d

/-- The parent class, linked or looked up by name. -/
def classParent (v : View) (d : DeclRef) : Option DeclRef :=
  match v.node? (v.extensionTarget d) with
  | some ⟨_, _, _, _, .classDecl c⟩ => c.links.parent.orElse fun _ => c.parentName.bind v.indexType
  | _ => none

/-- The extensions of a class, linked or looked up by name. -/
def classExtensions (v : View) (d : DeclRef) : List DeclRef :=
  match v.node? d with
  | some node@⟨_, _, _, _, .classDecl c⟩ =>
    if !c.links.extensions.isEmpty then c.links.extensions
    else
      let n := node.name.toLower
      (v.world.index.classes.toList.filter (·.extend == some n)).map (·.decl)
  | _ => []

/-- Grow a class chain from `current`, for at most `fuel` more classes. -/
def chainFrom (v : View) : Nat → Option DeclRef → List DeclRef → List DeclRef
  | 0, _, chain => chain
  | _, none, chain => chain
  | fuel + 1, some c, chain =>
    if chain.contains c || chain.length ≥ 64 then chain
    else
      let chain := (v.classExtensions c).foldl
        (fun acc e => if acc.contains e then acc else acc ++ [e]) (chain ++ [c])
      v.chainFrom fuel (v.classParent c) chain

/-- The class, its extensions, then each ancestor followed by its extensions; an extension
    starts from the class it extends. -/
def classChain (v : View) (d : DeclRef) : List DeclRef :=
  v.chainFrom 64 (some (v.extensionTarget d)) []

/-- A type declared inside `owner` or one of its class ancestors. -/
def findNestedType (v : View) (owner : DeclRef) (n : String) : Option DeclRef :=
  (v.classChain owner).findSome? fun d =>
    ((v.members d).find? fun (_, node) => node.kind.isType && node.isNamed n).map (·.1)

/-- Look `n` up in `context` and the types enclosing it, then in the index. -/
def resolveTypeRoot (v : View) (n : String) : Nat → Option DeclRef → Option DeclRef
  | 0, _ => v.indexType n
  | _, none => v.indexType n
  | fuel + 1, some d =>
    match v.findNestedType d n with
    | some found => some found
    | none =>
      let up := ((v.node? d).bind (·.parent)).bind fun p =>
        if p == 0 then none else some (⟨d.file, p⟩ : DeclRef)
      v.resolveTypeRoot n fuel up

/-- Resolve a possibly dotted type name as seen from `context`. -/
def resolveType (v : View) (n : String) (context : Option DeclRef) : Option DeclRef :=
  match n.splitOn "." with
  | [] => none
  | first :: rest =>
    let fuel := (context.map (·.node)).getD 0 + 1
    rest.foldl (fun acc part => acc.bind (v.findNestedType · part))
      (v.resolveTypeRoot first fuel context)

/-- Retry a stored qualified name: the whole path first, then shorter suffixes. -/
def resolveQualified (v : View) (n : String) : Option DeclRef :=
  let parts := n.splitOn "."
  (List.range parts.length).findSome? fun skip => v.resolveType (".".intercalate (parts.drop skip)) none

/-- A field, method, constant, property or enum member called `n` directly inside `owner`. -/
def findMember (v : View) (owner : DeclRef) (n : String) : Option DeclRef :=
  (v.members owner).findSome? fun (m, node) =>
    match node.kind with
    | .field _ | .method _ | .constant _ | .property _ => if node.isNamed n then some m else none
    | .enumDecl _ => ((v.members m).find? fun (_, value) => value.isNamed n).map (·.1)
    | _ => none

/-- `findMember` over the whole class chain. -/
def findMemberInChain (v : View) (owner : DeclRef) (n : String) : Option DeclRef :=
  (v.classChain owner).findSome? (v.findMember · n)

/-- The synthetic `self` of a class or struct. -/
def selfVar (v : View) (d : DeclRef) : Option DeclRef :=
  (v.node? d).bind fun node => node.kind.typeInfo?.bind fun i => i.selfVar.map (⟨d.file, ·⟩)

/-- The candidates a node in this file's tree offers as locals, or `none` at a class or struct,
    where the search for locals ends. -/
def localCandidates (node : Node) : Option (List Nat) :=
  match node.kind with
  | .forLoop inits _ _ => some inits
  | .method m => some m.arguments
  | .block => some node.children
  | .classDecl _ | .structDecl _ => none
  | _ => some []

/-- The local called `n` visible from node `scope` of this file: the first match going outward. -/
def findLocal (v : View) (n : String) (scope : Nat) : Option DeclRef :=
  go (v.tree.ancestors scope)
where
  /-- Search the enclosing nodes in turn. -/
  go : List Nat → Option DeclRef
    | [] => none
    | id :: ids =>
      match (v.tree.get? id).map localCandidates with
      | some none => none
      | some (some cands) =>
        let hit := cands.find? fun c => (v.tree.get? c).any fun l =>
          (match l.kind with
            | .localVar _ _ | .constant _ => true
            | _ => false) && l.isNamed n
        match hit with
        | some c => some ⟨v.file, c⟩
        | none => go ids
      | none => go ids

/-- What an identifier used at node `scope` of this file, inside type `context`, names. -/
def resolveSymbol (v : View) (n : String) (scope : Option Nat) (context : Option DeclRef) :
    Option DeclRef :=
  if n.toLower == "self" then context.bind v.selfVar
  else if n.toLower == "super" then (context.bind v.classParent).bind v.selfVar
  else
    ((scope.bind (v.findLocal n ·)).orElse fun _ =>
      (context.bind (v.findMemberInChain · n))).orElse fun _ =>
      v.world.index.findSymbol n

/-- The names of a node and of the types enclosing it, innermost first, for `fuel` steps. -/
def pathNames (v : View) (d : DeclRef) : Nat → Option Nat → List String
  | 0, _ => []
  | _, none => []
  | fuel + 1, some id =>
    match v.node? ⟨d.file, id⟩ with
    | none => []
    | some node =>
      match node.kind with
      | .root _ => []
      | k =>
        let rest := v.pathNames d fuel node.parent
        if id == d.node || k.isType then node.name :: rest else rest

/-- The dotted path of enclosing types down to `d`, as shown in tooltips. -/
def fullName (v : View) (d : DeclRef) : String :=
  ".".intercalate (v.pathNames d (d.node + 2) (some d.node)).reverse

/-- The type of a builtin, by name. -/
def builtinType (n : String) : Option Ty := (Builtin.find? n).map fun i => Ty.named n (some (.builtin i))

/-- The static type of a declaration, when it has one. -/
def typeOf (v : View) (d : DeclRef) : Option Ty :=
  (v.node? d).bind fun node =>
    match node.kind with
    | .field f => some f.type
    | .method m => m.returns.head?
    | .localVar (some ty) _ => some ty
    | .localVar none _ => node.children.findSome? fun c =>
      match v.node? ⟨d.file, c⟩ with
      | some ⟨_, _, _, _, .expression e⟩ => e.type
      | _ => none
    | .constant value => value.bind (·.type)
    | .classDecl _ | .structDecl _ | .enumDecl _ => some (Ty.named (v.fullName d) (some (.decl d)))
    | _ => none

/-- The declaration whose members follow a `.` on a value of type `ty`: the declaration a type
    names; for a builtin class or readonly reference, that of its first argument; for another
    builtin, the struct that carries its methods. -/
def typeScope (v : View) : Ty → Option DeclRef
  | ⟨_, some (.decl d), _, _⟩ => some d
  | ⟨_, some (.builtin i), args, _⟩ =>
    (Builtin.get? i).bind fun b =>
      match b.kind with
      | .class | .readonly =>
        match args with
        | a :: _ => v.typeScope a
        | [] => none
      | _ => b.methods.bind v.indexType
  | ⟨_, none, _, _⟩ => none

end View

end ZScript
