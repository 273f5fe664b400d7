import ZScript.Proofs.ClassLinks

/-!
# The type index answers as a scan of the declarations

`TypeIndex.build` fills the index in one pass over the files, entering each top-level declaration
into a hash map under its lowercased name unless that name is already there. The main statement,
`TypeIndex.build_eq_scan`, says that the index answers what a scan of the declarations answers:

* `findType n` is the first declaration, file by file and in source order within a file, that is
  a struct, an enum or a class that does not extend another, and whose name equals `n` ignoring
  ASCII case (`TypeIndex.scanType`);
* `findSymbol n` is the first constant so named among the top-level constants and the constant
  members of the top-level enums, each enum's members at the enum's place
  (`TypeIndex.scanSymbol`);
* the declarations are the top-level declarations but the includes, in that order;
* the classes are the top-level classes, with their lowercased names.

A scan compares names as `equalsIgnoringCase` does, letter by letter once ASCII capitals are
lowered. Two names are so equal exactly when their lowercased forms are
(`equalsIgnoringCase_iff`), which is why a map keyed by lowercased names can answer for the scan;
a map whose entries are added first-wins answers, for each key, the first entry added under it
(`TypeIndex.getElem?_foldl_insertIfNew`).
-/

namespace ZScript

/-- Whether two texts are equal ignoring ASCII case: they have one length and, once ASCII capitals
    are lowered, the same letter at every place. -/
def equalsIgnoringCase (a b : String) : Bool :=
  a.length == b.length && (a.toList.zip b.toList).all fun p => p.1.toLower == p.2.toLower

/-- Two letter lists agree ignoring ASCII case exactly when their lowered forms are equal. -/
theorem lowered_eq_iff (x y : List Char) :
    (x.length == y.length && (x.zip y).all fun p => p.1.toLower == p.2.toLower) = true ↔
      x.map Char.toLower = y.map Char.toLower := by
  induction x generalizing y with
  | nil => cases y <;> simp
  | cons a x ih =>
    cases y with
    | nil => simp
    | cons b y =>
      rw [List.map_cons, List.map_cons, List.cons.injEq, ← ih]
      simp only [List.length_cons, List.zip_cons_cons, List.all_cons, Bool.and_eq_true,
        beq_iff_eq, Nat.add_right_cancel_iff]
      tauto

/-- Two texts are equal ignoring ASCII case exactly when their lowercased forms are equal. -/
theorem equalsIgnoringCase_iff (a b : String) :
    equalsIgnoringCase a b = true ↔ a.toLower = b.toLower := by
  rw [equalsIgnoringCase, ← String.length_toList, ← String.length_toList, lowered_eq_iff,
    ← String.toList_inj]
  show _ ↔ (a.map Char.toLower).toList = (b.map Char.toLower).toList
  rw [String.toList_map, String.toList_map]

/-- Only ASCII capitals are lowered. -/
example : equalsIgnoringCase "Actor" "aCTOR" = true ∧ equalsIgnoringCase "Ä" "ä" = false := by
  decide

theorem equalsIgnoringCase_eq_beq (a b : String) :
    equalsIgnoringCase a b = (a.toLower == b.toLower) := by
  rw [Bool.eq_iff_iff, equalsIgnoringCase_iff, beq_iff_eq]

/-- A node is named `n` exactly when its name equals `n` ignoring ASCII case. -/
theorem Node.isNamed_eq (node : Node) (n : String) :
    node.isNamed n = equalsIgnoringCase node.name n := by
  rw [Node.isNamed, equalsIgnoringCase_eq_beq]

/-- Whether the index finds a declaration as a type: a struct, an enum, or a class that does not
    extend another. -/
def Node.indexedType (node : Node) : Bool :=
  match node.kind with
  | .classDecl c => c.extendName.isNone
  | .structDecl _ | .enumDecl _ => true
  | _ => false

namespace Analysis

/-- The top-level declarations of a file with their nodes, in source order. -/
def declared (a : Analysis) : List (DeclRef × Node) :=
  a.tree.declarations.filterMap fun id => (a.tree.get? id).map (⟨a.file, id⟩, ·)

end Analysis

/-- The constants among nodes `ids` of the tree of file `file`, with their handles. -/
def Tree.constantsAmong (t : Tree) (file : Nat) (ids : List Nat) : List (DeclRef × Node) :=
  ids.filterMap fun m => (t.get? m).bind fun node =>
    match node.kind with
    | .constant _ => some (⟨file, m⟩, node)
    | _ => none

/-- The constants a top-level declaration of the tree of file `file` stands for: itself when it
    is a constant, and its members that are constants when it is an enum. -/
def Tree.constantsOf (t : Tree) (file : Nat) (e : DeclRef × Node) : List (DeclRef × Node) :=
  match e.2.kind with
  | .constant _ => [e]
  | .enumDecl _ => t.constantsAmong file e.2.children
  | _ => []

/-- The top-level constants of a file and the constant members of its top-level enums, each
    enum's members at the enum's place. -/
def Analysis.constants (a : Analysis) : List (DeclRef × Node) :=
  a.declared.flatMap (a.tree.constantsOf a.file)

namespace TypeIndex

/-- The first declaration of the files that is a type named `n`, ignoring ASCII case. -/
def scanType (files : List Analysis) (n : String) : Option DeclRef :=
  ((files.flatMap Analysis.declared).find? fun e =>
    e.2.indexedType && equalsIgnoringCase e.2.name n).map (·.1)

/-- The first constant of the files named `n`, ignoring ASCII case. -/
def scanSymbol (files : List Analysis) (n : String) : Option DeclRef :=
  ((files.flatMap Analysis.constants).find? fun e => equalsIgnoringCase e.2.name n).map (·.1)

/-! ## Maps filled first-wins -/

/-- Adding entries to a map first-wins answers, for each key, what the map had, or else the first
    entry added under that key. -/
theorem getElem?_foldl_insertIfNew (entries : List (String × DeclRef))
    (m : Std.HashMap String DeclRef) (k : String) :
    (entries.foldl (fun m p => m.insertIfNew p.1 p.2) m)[k]? =
      m[k]?.or ((entries.find? (·.1 == k)).map (·.2)) := by
  induction entries generalizing m with
  | nil => simp
  | cons p entries ih =>
    rw [List.foldl_cons, ih, Std.HashMap.getElem?_insertIfNew, List.find?_cons]
    by_cases hk : p.1 = k
    · -- a key already in the map keeps its entry
      subst hk
      by_cases hm : p.1 ∈ m <;> simp [hm]
    · simp [beq_false_of_ne hk]

/-! ## What one declaration enters -/

/-- The entry a declaration makes in the type map, when the index finds it as a type. -/
def typeKey (e : DeclRef × Node) : Option (String × DeclRef) :=
  if e.2.indexedType then some (e.2.name.toLower, e.1) else none

/-- The entry a constant makes in the symbol map. -/
def symbolKey (e : DeclRef × Node) : String × DeclRef := (e.2.name.toLower, e.1)

/-- The declaration at node `id` of the tree of file `file`, with its handle. -/
def declaredAt (t : Tree) (file id : Nat) : List (DeclRef × Node) :=
  ((t.get? id).map (⟨file, id⟩, ·)).toList

theorem types_addDecl (file : Nat) (t : Tree) (idx : TypeIndex) (id : Nat) :
    (addDecl file t idx id).types = ((declaredAt t file id).filterMap typeKey).foldl
      (fun m p => m.insertIfNew p.1 p.2) idx.types := by
  unfold addDecl declaredAt
  cases t.get? id with
  | none => rfl
  | some node =>
    obtain ⟨name, parent, children, line, kind⟩ := node
    cases kind with
    | classDecl c => cases h : c.extendName <;> simp [typeKey, Node.indexedType, h]
    | _ => simp [typeKey, Node.indexedType]

theorem addMembers_eq (file : Nat) (t : Tree) (symbols : Std.HashMap String DeclRef)
    (ids : List Nat) :
    addMembers file t symbols ids = ((t.constantsAmong file ids).map symbolKey).foldl
      (fun m p => m.insertIfNew p.1 p.2) symbols := by
  unfold addMembers Tree.constantsAmong
  induction ids generalizing symbols with
  | nil => rfl
  | cons m ids ih =>
    rw [List.foldl_cons, ih, List.filterMap_cons]
    cases t.get? m with
    | none => rfl
    | some node =>
      obtain ⟨name, parent, children, line, kind⟩ := node
      cases kind <;> rfl

theorem symbols_addDecl (file : Nat) (t : Tree) (idx : TypeIndex) (id : Nat) :
    (addDecl file t idx id).symbols = (((declaredAt t file id).flatMap (t.constantsOf file)).map
      symbolKey).foldl (fun m p => m.insertIfNew p.1 p.2) idx.symbols := by
  unfold addDecl declaredAt
  cases h : t.get? id with
  | none => rfl
  | some node =>
    obtain ⟨name, parent, children, line, kind⟩ := node
    cases kind with
    | classDecl c => cases hc : c.extendName <;> simp [hc, Tree.constantsOf]
    | enumDecl base =>
      simp only [addMembers_eq, Tree.children, h, Option.map_some, Option.getD_some,
        Option.toList_some, List.flatMap_singleton]
      rfl
    | _ => rfl

theorem declarations_addDecl (file : Nat) (t : Tree) (idx : TypeIndex) (id : Nat) :
    (addDecl file t idx id).declarations =
      ((declaredAt t file id).map (·.1)).foldl Array.push idx.declarations := by
  unfold addDecl declaredAt
  cases t.get? id with
  | none => simp
  | some node =>
    obtain ⟨name, parent, children, line, kind⟩ := node
    cases kind with
    | classDecl c => cases hc : c.extendName <;> simp [hc]
    | _ => simp

/-! ## What the files enter -/

/-- When each step extends a view of the accumulator by a fold over the step's items, a fold of
    steps extends it by the fold over all their items. -/
theorem foldl_view {σ τ β γ : Type} (π : σ → τ) (step : σ → β → σ) (g : τ → γ → τ)
    (items : β → List γ) (h : ∀ s b, π (step s b) = (items b).foldl g (π s)) (bs : List β)
    (s : σ) : π (bs.foldl step s) = (bs.flatMap items).foldl g (π s) := by
  induction bs generalizing s with
  | nil => rfl
  | cons b bs ih => rw [List.foldl_cons, ih, h, List.flatMap_cons, List.foldl_append]

theorem declared_eq (a : Analysis) :
    a.declared = a.tree.declarations.flatMap (declaredAt a.tree a.file) :=
  List.filterMap_eq_flatMap_toList _ _

theorem types_addFile (idx : TypeIndex) (a : Analysis) :
    (addFile idx a).types = (a.declared.filterMap typeKey).foldl
      (fun m p => m.insertIfNew p.1 p.2) idx.types := by
  rw [declared_eq, List.filterMap_flatMap]
  exact foldl_view TypeIndex.types _ _ _ (types_addDecl a.file a.tree) _ _

theorem symbols_addFile (idx : TypeIndex) (a : Analysis) :
    (addFile idx a).symbols = (a.constants.map symbolKey).foldl
      (fun m p => m.insertIfNew p.1 p.2) idx.symbols := by
  rw [Analysis.constants, declared_eq, List.flatMap_assoc, List.map_flatMap]
  exact foldl_view TypeIndex.symbols _ _ _ (symbols_addDecl a.file a.tree) _ _

theorem declarations_addFile (idx : TypeIndex) (a : Analysis) :
    (addFile idx a).declarations = (a.declared.map (·.1)).foldl Array.push idx.declarations := by
  rw [declared_eq, List.map_flatMap]
  exact foldl_view TypeIndex.declarations _ _ _ (declarations_addDecl a.file a.tree) _ _

theorem types_build (files : List Analysis) :
    (build files).types = ((files.flatMap Analysis.declared).filterMap typeKey).foldl
      (fun m p => m.insertIfNew p.1 p.2) {} := by
  rw [List.filterMap_flatMap]
  exact foldl_view TypeIndex.types addFile _ _ types_addFile files {}

theorem symbols_build (files : List Analysis) :
    (build files).symbols = ((files.flatMap Analysis.constants).map symbolKey).foldl
      (fun m p => m.insertIfNew p.1 p.2) {} := by
  rw [List.map_flatMap]
  exact foldl_view TypeIndex.symbols addFile _ _ symbols_addFile files {}

theorem declarations_build (files : List Analysis) :
    (build files).declarations.toList = (files.flatMap Analysis.declared).map (·.1) := by
  have h := foldl_view TypeIndex.declarations addFile Array.push _ declarations_addFile files {}
  rw [← List.map_flatMap] at h
  simp only [build, h]
  simp

/-! ## Lookups -/

/-- The entry of a declaration under the key `n.toLower` is there exactly when the index finds
    the declaration as a type named `n`. -/
theorem typeKey_matches (e : DeclRef × Node) (n : String) :
    (typeKey e).any (·.1 == n.toLower) = (e.2.indexedType && equalsIgnoringCase e.2.name n) := by
  unfold typeKey
  split <;> simp [*, equalsIgnoringCase_eq_beq]

theorem findType_build (files : List Analysis) (n : String) :
    (build files).findType n = scanType files n := by
  rw [findType, types_build, getElem?_foldl_insertIfNew, List.find?_filterMap]
  simp only [Std.HashMap.getElem?_empty, Option.none_or, typeKey_matches]
  unfold scanType
  cases h : (files.flatMap Analysis.declared).find? fun e =>
      e.2.indexedType && equalsIgnoringCase e.2.name n with
  | none => rfl
  | some e =>
    -- the declaration found is a type, so its entry is its handle under its lowercased name
    have he : e.2.indexedType = true := by
      have := List.find?_some h
      simp_all
    simp [typeKey, he]

theorem findSymbol_build (files : List Analysis) (n : String) :
    (build files).findSymbol n = scanSymbol files n := by
  rw [findSymbol, symbols_build, getElem?_foldl_insertIfNew, List.find?_map]
  simp only [Std.HashMap.getElem?_empty, Option.none_or, Option.map_map]
  unfold scanSymbol
  have hp : ((·.1 == n.toLower) ∘ symbolKey) = fun e => equalsIgnoringCase e.2.name n := by
    funext e
    simp [symbolKey, equalsIgnoringCase_eq_beq]
  rw [hp]
  rfl

/-- The index entry of a declaration that is a class: its handle and the lowercased names of its
    header. -/
def classEntry (e : DeclRef × Node) : Option ClassEntry :=
  match e.2.kind with
  | .classDecl c => some (c.entry e.1 e.2.name)
  | _ => none

theorem classes_build_declared (files : List Analysis) :
    (build files).classes.toList = (files.flatMap Analysis.declared).filterMap classEntry := by
  rw [classes_build, List.filterMap_flatMap]
  congr 1
  funext a
  rw [Analysis.declared, List.filterMap_filterMap]
  congr 1
  funext id
  unfold Tree.classEntryAt
  cases a.tree.get? id <;> rfl

/-- The type index answers as a scan of the top-level declarations of its files, file by file and
    in source order within a file. A type is found under the name of the first struct, enum or
    class that does not extend another whose name equals it ignoring ASCII case, and a symbol
    under the name of the first such constant among the top-level constants and the constant
    members of top-level enums, each enum's members at its place; the declarations are the
    top-level declarations but the includes, and the classes are the top-level classes with the
    lowercased names of their headers. -/
theorem build_eq_scan (files : List Analysis) :
    (∀ n, (build files).findType n = scanType files n) ∧
      (∀ n, (build files).findSymbol n = scanSymbol files n) ∧
      (build files).declarations.toList = (files.flatMap Analysis.declared).map (·.1) ∧
      (build files).classes.toList = (files.flatMap Analysis.declared).filterMap classEntry :=
  ⟨findType_build files, findSymbol_build files, declarations_build files,
    classes_build_declared files⟩

end TypeIndex

end ZScript
