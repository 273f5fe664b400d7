import ZScript.Proofs.SymmetricLinks
import ZScript.Proofs.IndexScan
import ZScript.Proofs.LinkPhase

/-!
# Inheritance lookups do not depend on class links

The lookups that walk inheritance (`View.extensionTarget`, `View.classParent`,
`View.classExtensions` and `View.classChain`) use a class's links where they are set, and fall
back on looking its header's names up in the index where they are not. This file shows that the
two ways agree: a view whose classes hold either the default links or the links that the third
phase computes from the view's own index (`View.LinksFromIndex`) answers every lookup as the
same view with every link forgotten (`View.forgetLinks`).

Two facts carry the agreement:

* a forward link is the type the index finds under the header's name unless that type is the
  class itself, and the fallback looks up the same name: both give the index's answer, the
  self-named class included (`ClassInfo.LinkedOrNot.extend_orElse`,
  `ClassInfo.LinkedOrNot.parent_orElse`);
* the extensions that the third phase lists are the classes whose `extend` name the index finds
  as the class, and the fallback scans the classes whose `extend` name is the class's name. The
  two agree when they are not empty, provided the index was built from what the view shows
  (`View.IndexAgrees`): the index finds a class only under its own lowercased name, and it stores
  every header lowercased (`View.namers_eq_scan`). An empty list falls back on the scan anyway.
-/

namespace ZScript

/-- The class a node declares, if it is a class. -/
def Node.classInfo? (node : Node) : Option ClassInfo :=
  match node.kind with
  | .classDecl c => some c
  | _ => none

/-- A tree with the links of its classes forgotten. -/
def Tree.forgetLinks (t : Tree) : Tree := ⟨t.unlinked⟩

theorem Tree.get?_forgetLinks (t : Tree) (i : Nat) :
    t.forgetLinks.get? i = (t.get? i).map Node.unlinked := by
  simp [Tree.forgetLinks, Tree.get?, Tree.unlinked]

/-- Linking forgets nothing but links. -/
@[simp] theorem NodeKind.unlinked_relink (idx : TypeIndex) (me : DeclRef) (k : NodeKind) :
    (k.relink idx me).unlinked = k.unlinked := by
  cases k <;> rfl

theorem Tree.forgetLinks_relinkAll (t : Tree) (idx : TypeIndex) (f : Nat) (ids : List Nat) :
    (t.relinkAll idx f ids).forgetLinks = t.forgetLinks := by
  induction ids generalizing t with
  | nil => rfl
  | cons id ids ih =>
    rw [Tree.relinkAll, List.foldl_cons, ← Tree.relinkAll, ih, Tree.forgetLinks, Tree.forgetLinks,
      Tree.unlinked_modifyKind _ _ _ (NodeKind.unlinked_relink idx ⟨f, id⟩)]

/-! ## Links as the third phase leaves them -/

/-- The links of class `c`, whose handle is `me`: the default ones, or those the third phase
    computes in the index `idx`. -/
def ClassInfo.LinkedOrNot (c : ClassInfo) (idx : TypeIndex) (me : DeclRef) : Prop :=
  c.links = {} ∨ c.links = c.linksIn idx me

/-- An option filtered, else the option itself, is the option. -/
theorem Option.orElse_filter_self {α : Type} (o : Option α) (p : α → Bool) :
    ((o.filter p).orElse fun _ => o) = o := by
  cases o with
  | none => rfl
  | some a => by_cases h : p a <;> simp [Option.filter, h]

namespace ClassInfo.LinkedOrNot

variable {c : ClassInfo} {idx : TypeIndex} {me : DeclRef}

/-- The class an `extend class` adds to is the type the index finds under its name, linked or
    not: the link leaves out the class itself only to fall back on the same lookup. -/
theorem extend_orElse (h : c.LinkedOrNot idx me) {n : String} (hn : c.extendName = some n) :
    (c.links.extend.orElse fun _ => idx.findType n) = idx.findType n := by
  rcases h with h | h <;> rw [h]
  · rfl
  · simp only [ClassInfo.linksIn, TypeIndex.target, hn, Option.bind_some]
    exact Option.orElse_filter_self _ _

/-- The parent is the type the index finds under the parent's name, linked or not. -/
theorem parent_orElse (h : c.LinkedOrNot idx me) :
    (c.links.parent.orElse fun _ => c.parentName.bind idx.findType) =
      c.parentName.bind idx.findType := by
  rcases h with h | h <;> rw [h]
  · rfl
  · simp only [ClassInfo.linksIn, TypeIndex.target]
    cases c.parentName with
    | none => rfl
    | some n => exact Option.orElse_filter_self _ _

/-- The extensions, linked or not, are those the scan `scan` finds, when the extensions the third
    phase lists for a class that extends no other are the scan's whenever there are any. -/
theorem extensions_eq {scan : List DeclRef} (h : c.LinkedOrNot idx me)
    (hscan : c.extendName = none → idx.namers me (·.extend) ≠ [] →
      idx.namers me (·.extend) = scan) :
    (if !c.links.extensions.isEmpty then c.links.extensions else scan) = scan := by
  rcases h with h | h <;> rw [h]
  · rfl
  · simp only [ClassInfo.linksIn]
    -- an `extend class` lists no extensions; a class with none falls back on the scan
    by_cases hx : c.extendName = none
    · by_cases hne : idx.namers me (·.extend) = []
      · simp [hx, hne]
      · simp [hx, hscan hx hne]
    · simp [hx]

end ClassInfo.LinkedOrNot

/-! ## Views -/

namespace View

/-- The view with the links of every class forgotten, in its own file and in the others. -/
def forgetLinks (v : View) : View :=
  ⟨v.file, v.tree.forgetLinks, { v.world with trees := v.world.trees.map (Option.map Tree.forgetLinks) }⟩

@[simp] theorem node?_forgetLinks (v : View) (d : DeclRef) :
    v.forgetLinks.node? d = (v.node? d).map Node.unlinked := by
  unfold forgetLinks node? Universe.node?
  split
  · exact Tree.get?_forgetLinks _ _
  · simp only [Array.getElem?_map]
    cases v.world.trees[d.file]? with
    | none => rfl
    | some t =>
      cases t with
      | none => rfl
      | some t => exact Tree.get?_forgetLinks t d.node

@[simp] theorem index_forgetLinks (v : View) : v.forgetLinks.world.index = v.world.index := rfl

/-- Every class of the view holds the default links or those that the third phase computes from
    the view's index, under the class's own handle. -/
def LinksFromIndex (v : View) : Prop :=
  ∀ d node c, v.node? d = some node → node.kind = .classDecl c → c.LinkedOrNot v.world.index d

/-- The view's index was built from what the view shows: the index finds a type under a name only
    where the view has a node so named, ignoring ASCII case, and each class entry records the
    header of the class the view shows at its handle. -/
structure IndexAgrees (v : View) : Prop where
  findType_named : ∀ n d, v.world.index.findType n = some d →
    ∃ node, v.node? d = some node ∧ node.name.toLower = n.toLower
  describes : v.world.index.Describes fun d => (v.node? d).bind Node.classInfo?

/-- Lowering ASCII capitals twice lowers them once. -/
theorem toLower_toLower (s : String) : s.toLower.toLower = s.toLower := by
  simp only [String.toLower, String.map_map, Function.comp_def, Char.toLower_toLower_eq_toLower]

namespace IndexAgrees

variable {v : View}

/-- An index entry stores its `extend` name lowercased. -/
theorem extend_lower (hv : v.IndexAgrees) {e : ClassEntry} (he : e ∈ v.world.index.classes.toList)
    {x : String} (hx : e.extend = some x) : x.toLower = x := by
  obtain ⟨c, -, name, he'⟩ := hv.describes e he
  rw [he'] at hx
  simp only [ClassInfo.entry, Option.map_eq_some_iff] at hx
  obtain ⟨y, -, rfl⟩ := hx
  exact toLower_toLower y

/-- The index finds a node only under the node's own name, ignoring case. -/
theorem toLower_of_findType (hv : v.IndexAgrees) {x : String} {me : DeclRef} {node : Node}
    (hnode : v.node? me = some node) (hx : v.world.index.findType x = some me) :
    x.toLower = node.name.toLower := by
  obtain ⟨node', hnode', hname⟩ := hv.findType_named x me hx
  rw [hnode', Option.some.injEq] at hnode
  rw [← hname, hnode]

/-- The entry of a class records the class's own `extend` name. -/
theorem extend_of_decl (hv : v.IndexAgrees) {e : ClassEntry} (he : e ∈ v.world.index.classes.toList)
    {node : Node} {c : ClassInfo} (hnode : v.node? e.decl = some node)
    (hk : node.kind = .classDecl c) : e.extend = c.extendName.map (·.toLower) := by
  obtain ⟨c', hc', name, he'⟩ := hv.describes e he
  simp only [hnode, Option.bind_some, Node.classInfo?, hk, Option.some.injEq] at hc'
  rw [he', ← hc']
  rfl

end IndexAgrees

/-- The classes of the index whose `extend` name the index finds as the class `me` are the classes
    whose `extend` name is the name of `me`, when there is one of them and `me` extends no class:
    the index finds a class only under its own lowercased name. -/
theorem namers_eq_scan {v : View} (hv : v.IndexAgrees) {me : DeclRef} {node : Node}
    {c : ClassInfo} (hnode : v.node? me = some node) (hk : node.kind = .classDecl c)
    (hc : c.extendName = none) (hne : v.world.index.namers me (·.extend) ≠ []) :
    v.world.index.namers me (·.extend) =
      (v.world.index.classes.toList.filter (·.extend == some node.name.toLower)).map (·.decl) := by
  -- some entry names `me`, so the index finds `me` under its own name
  have hfind : v.world.index.findType node.name.toLower = some me := by
    obtain ⟨B, hB⟩ := List.exists_mem_of_ne_nil _ hne
    obtain ⟨e₀, he₀, -⟩ := List.mem_map.1 hB
    simp only [List.mem_filter, Links.pointsTo, beq_iff_eq, Option.bind_eq_some_iff] at he₀
    obtain ⟨-, x₀, -, hfind₀⟩ := he₀
    rw [← hv.toLower_of_findType hnode hfind₀, TypeIndex.findType_toLower, hfind₀]
  unfold TypeIndex.namers
  rw [List.filter_filter]
  congr 1
  refine List.filter_congr fun e he => ?_
  beta_reduce
  cases hx : e.extend with
  | none => simp [Links.pointsTo]
  | some x =>
    by_cases hxn : x = node.name.toLower
    · -- `me` extends no class, so an entry that names it is another class's
      have hdecl : e.decl ≠ me := fun hd => by
        rw [hv.extend_of_decl he (hd ▸ hnode) hk, hc] at hx
        cases hx
      simp [Links.pointsTo, hxn, hfind, hdecl]
    · have hnot : v.world.index.findType x ≠ some me := fun h =>
        hxn (by rw [← hv.extend_lower he hx]; exact hv.toLower_of_findType hnode h)
      simp [Links.pointsTo, beq_eq_false_iff_ne.2 hnot, beq_eq_false_iff_ne.2 hxn]

variable {v : View}

/-- An `extend class` stands for the same class whether its link is set or not. -/
theorem extensionTarget_forgetLinks (hl : v.LinksFromIndex) (d : DeclRef) :
    v.forgetLinks.extensionTarget d = v.extensionTarget d := by
  unfold extensionTarget
  rw [node?_forgetLinks]
  cases hd : v.node? d with
  | none => rfl
  | some node =>
    obtain ⟨name, parent, children, line, kind⟩ := node
    cases kind with
    | classDecl c =>
      simp only [Option.map_some, Node.unlinked, NodeKind.unlinked]
      cases hn : c.extendName with
      | none => rfl
      | some n =>
        simp only [indexType, index_forgetLinks]
        rw [(hl d _ c hd rfl).extend_orElse hn]
        rfl
    | _ => rfl

/-- The parent of a class is the same whether links are set or not. -/
theorem classParent_forgetLinks (hl : v.LinksFromIndex) (d : DeclRef) :
    v.forgetLinks.classParent d = v.classParent d := by
  unfold classParent
  rw [extensionTarget_forgetLinks hl, node?_forgetLinks]
  cases hd : v.node? (v.extensionTarget d) with
  | none => rfl
  | some node =>
    obtain ⟨name, parent, children, line, kind⟩ := node
    cases kind with
    | classDecl c =>
      simp only [Option.map_some, Node.unlinked, NodeKind.unlinked]
      exact ((hl _ _ c hd rfl).parent_orElse).symm
    | _ => rfl

/-- The extensions of a class are the same whether links are set or not. -/
theorem classExtensions_forgetLinks (hv : v.IndexAgrees) (hl : v.LinksFromIndex) (d : DeclRef) :
    v.forgetLinks.classExtensions d = v.classExtensions d := by
  unfold classExtensions
  rw [node?_forgetLinks]
  cases hd : v.node? d with
  | none => rfl
  | some node =>
    obtain ⟨name, parent, children, line, kind⟩ := node
    cases kind with
    | classDecl c =>
      simp only [Option.map_some, Node.unlinked, NodeKind.unlinked]
      exact ((hl d _ c hd rfl).extensions_eq fun hc hne => namers_eq_scan hv hd rfl hc hne).symm
    | _ => rfl

/-- A class chain grown through the same extensions and parents is the same chain. The induction
    is on the fuel, as `chainFrom` recurses. -/
theorem chainFrom_forgetLinks (hv : v.IndexAgrees) (hl : v.LinksFromIndex) (fuel : Nat)
    (current : Option DeclRef) (chain : List DeclRef) :
    v.forgetLinks.chainFrom fuel current chain = v.chainFrom fuel current chain := by
  induction fuel generalizing current chain with
  | zero => rfl
  | succ fuel ih =>
    cases current with
    | none => rfl
    | some c =>
      simp only [chainFrom, classExtensions_forgetLinks hv hl, classParent_forgetLinks hl, ih]

/-- Every inheritance lookup of a view whose index was built from it, and whose links are the
    default ones or those the third phase computes, answers as if no link were set. -/
theorem lookups_forgetLinks (hv : v.IndexAgrees) (hl : v.LinksFromIndex) (d : DeclRef) :
    v.forgetLinks.extensionTarget d = v.extensionTarget d ∧
      v.forgetLinks.classParent d = v.classParent d ∧
      v.forgetLinks.classExtensions d = v.classExtensions d ∧
      v.forgetLinks.classChain d = v.classChain d := by
  refine ⟨extensionTarget_forgetLinks hl d, classParent_forgetLinks hl d,
    classExtensions_forgetLinks hv hl d, ?_⟩
  unfold classChain
  rw [extensionTarget_forgetLinks hl, chainFrom_forgetLinks hv hl]

end View

end ZScript
