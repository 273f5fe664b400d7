import ZScript.Analysis.Lookup

/-!
# Tagging expressions

Every token of an expression gets a semantic token, and every node a static type when one can be
derived. Operator tokens are operators; structural tokens are punctuation, except the labels of
named call arguments. Types flow upward: a literal has its builtin type, a name the type of what
it names, a call its callee's type, a comparison `bool`, `<=>` `int`, a concatenation `string`,
and arithmetic, bitwise, assignment and increment nodes the type of their left operand.

A member chain `a.b.c` looks each link up in the type of the one before. It stops quietly at a
value whose type has no members, and at a link that cannot be found, which is marked
unresolved with a warning; the links after either are left untagged. `new("T")` and `new('T')`
name the class `T` and have its type.
-/

namespace ZScript

/-- Where an expression sits: the innermost node around it (for locals) and the enclosing type
    (for members). -/
structure Scope where
  node : Option Nat := none
  context : Option DeclRef := none
  deriving Inhabited

/-- Operators whose value is a `bool`. -/
def Operator.isComparison : Operator → Bool
  | .cmpLT | .cmpGT | .cmpLTEQ | .cmpGTEQ | .cmpEq | .cmpNotEq | .cmpSomewhatEq
  | .logicalAnd | .logicalOr | .unaryNot => true
  | _ => false

/-- How a reference to `node` is classified; a local is an argument when its parent is a
    method. -/
def Node.semanticKind (node : Node) (parent : Option Node) : SemanticKind :=
  match node.kind with
  | .field _ | .property _ => .field
  | .method _ => .method
  | .constant _ => .constantName
  | .localVar _ _ =>
    match parent with
    | some ⟨_, _, _, _, .method _⟩ => .argument
    | _ => .localVar
  | .classDecl _ | .structDecl _ | .enumDecl _ => .typeName
  | _ => .localVar

/-- The type of an element after `count` subscripts: each subscript drops the last array
    dimension, or else takes the last type argument of a builtin container. -/
def Ty.element : Nat → Ty → Option Ty
  | 0, ty => some ty
  | count + 1, ⟨n, ref, args, dims⟩ =>
    match dims.reverse with
    | _ :: rest => Ty.element count ⟨n, ref, args, rest.reverse⟩
    | [] =>
      let container := match ref with
        | some (.builtin i) => (Builtin.get? i).any (·.kind == .array)
        | _ => false
      if !container then none
      else
        match args.getLast? with
        | some a => Ty.element count a
        | none => none

namespace Tagging

open Step

/-- Name a declaration at `t` and give its type; nothing happens when the node is missing. -/
def emitDecl (t : Token) (d : DeclRef) : Step (Option Ty) := do
  let v ← view
  match v.node? d with
  | none => return none
  | some node =>
    let parent := node.parent.bind fun p => v.node? ⟨d.file, p⟩
    let name := match node.kind with
      | .localVar _ _ => node.name
      | _ => v.fullName d
    emitRef t (node.semanticKind parent) (some (.decl d)) name
    return v.typeOf d

/-- Tag an identifier used in `scope`. -/
def ident (t : Token) (scope : Scope) : Step (Option Ty) := do
  let v ← view
  if t.isKeyword "null" then
    emit t .keyword
    return none
  if t.isKeyword "self" || t.isKeyword "super" then
    let var := v.resolveSymbol t.text scope.node scope.context
    emitRef t .keyword (var.map .decl) t.text.toLower
    return var.bind v.typeOf
  match v.resolveSymbol t.text scope.node scope.context with
  | some d => emitDecl t d
  | none =>
  match v.resolveType t.text scope.context with
  | some d => emitDecl t d
  | none =>
  match Builtin.find? t.text with
  | some i =>
    let n := t.text.toLower
    emitRef t .typeName (some (.builtin i)) n
    return some (Ty.named n (some (.builtin i)))
  | none =>
    emitRef t .invalid none t.text
    warn ("unresolved identifier '" ++ t.text ++ "'") t.line
    return none

/-- Tag the links of a member chain, given the type of what comes before them. -/
def links (current : Option Ty) : List Leaf → Step (Option Ty)
  | [] => return current
  | .ident t :: rest => do
    let v ← view
    match current.bind v.typeScope with
    | none => return none
    | some owner =>
      match (v.findMemberInChain owner t.text).orElse fun _ => v.findNestedType owner t.text with
      | some d => links (← emitDecl t d) rest
      | none =>
        let ownerName := v.fullName owner
        emitRef t .invalid none (ownerName ++ "." ++ t.text)
        warn ("unresolved member '" ++ t.text ++ "' in '" ++ ownerName ++ "'") t.line
        return none
  | _ :: _ => return none

/-- The class named by the first argument of `new`, when it is a string or name literal. -/
def newClassName : List Leaf → Option Token
  | .expr ⟨.literal, _, .string t :: _, _, _, _⟩ :: _ => some t
  | _ => none

/-- Tag `new("T")`: the literal names a class. -/
def newClass (t : Token) (scope : Scope) : Step (Option Ty) := do
  let v ← view
  let n := t.content
  match v.resolveType n scope.context with
  | some d =>
    let q := v.fullName d
    emitRef t .typeName (some (.decl d)) q
    return some (Ty.named q (some (.decl d)))
  | none =>
    emitRef t .invalid none n
    warn ("unresolved class '" ++ n ++ "' in new()") t.line
    return none

/-- The type a node with operator `op` and operands of types `tys` has, for the operators whose
    type does not depend on lookups. -/
def resultOf (op : Operator) (leaves : List Leaf) (tys : List (Option Ty)) : Option Ty :=
  match op with
  | .ternary => tys[1]?.join
  | .concat => View.builtinType "string"
  | .vectorDot => View.builtinType "double"
  | .vectorCross => View.builtinType "vector3"
  | .vectorInitialization =>
    match leaves.length with
    | 2 => View.builtinType "vector2"
    | 3 => View.builtinType "vector3"
    | _ => none
  | .arrayInitialization => none
  | .arraySubscript => tys.head?.join.bind (Ty.element (leaves.length - 1))
  | .cmpSpaceship => View.builtinType "int"
  | op => if op.isComparison then View.builtinType "bool" else tys.head?.join

mutual

/-- Tag an expression in `scope`; the result has its type, and every node below its own. -/
def expr (scope : Scope) : Expr → Step (Expr × Option Ty)
  | ⟨op, assign, leaves, operators, special, _⟩ => do
    for t in operators do emit t .operator
    for t in special do emit t (if t.kind == .identifier then .argument else .special)
    let (leaves, ty) ← operands scope op leaves
    return (⟨op, assign, leaves, operators, special, ty⟩, ty)

/-- Tag the operands of an `op` node, and give the node's type. -/
def operands (scope : Scope) (op : Operator) : List Leaf → Step (List Leaf × Option Ty)
  | [] => return ([], if op == .member || op == .call || op == .cast then none
      else resultOf op [] [])
  | first :: rest =>
    match op with
    | .member => do
      let (first, ty) ← leaf scope first
      return (first :: rest, ← links ty rest)
    | .call =>
      match first with
      | .ident t =>
        if t.isKeyword "new" then do
          emit t .keyword
          match newClassName rest with
          | some name => return (first :: rest, ← newClass name scope)
          | none =>
            let (rest, _) ← leaves scope rest
            return (first :: rest, none)
        else do
          let (first, ty) ← leaf scope first
          let (rest, _) ← leaves scope rest
          return (first :: rest, ty)
      | _ => do
        let (first, ty) ← leaf scope first
        let (rest, _) ← leaves scope rest
        return (first :: rest, ty)
    | .cast => do
      let (rest, _) ← leaves scope rest
      match first with
      | .ident t =>
        let n := t.text.toLower
        let ty := View.builtinType n
        emitRef t .typeName (ty.bind (·.ref)) n
        return (first :: rest, ty)
      | _ => return (first :: rest, none)
    | op => do
      let (first, ty) ← leaf scope first
      let (rest, tys) ← leaves scope rest
      return (first :: rest, resultOf op (first :: rest) (ty :: tys))

/-- Tag a list of operands, giving each one's type. -/
def leaves (scope : Scope) : List Leaf → Step (List Leaf × List (Option Ty))
  | [] => return ([], [])
  | l :: ls => do
    let (l, ty) ← leaf scope l
    let (ls, tys) ← leaves scope ls
    return (l :: ls, ty :: tys)

/-- Tag one operand. -/
def leaf (scope : Scope) : Leaf → Step (Leaf × Option Ty)
  | .integer t => do emit t .number; return (.integer t, View.builtinType "int")
  | .double t => do emit t .number; return (.double t, View.builtinType "double")
  | .boolean t => do emit t .keyword; return (.boolean t, View.builtinType "bool")
  | .string t => do
    emit t .string
    return (.string t, View.builtinType (if t.kind == .name then "name" else "string"))
  | .ident t => return (.ident t, ← ident t scope)
  | .expr e => do
    let (e, ty) ← expr scope e
    return (.expr e, ty)

end

end Tagging

/-- Tag an expression in `scope` and store the derived types in it. -/
def Expr.tag (e : Expr) (scope : Scope) : Step Expr := return (← Tagging.expr scope e).1

end ZScript
