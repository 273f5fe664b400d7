import ZScript.Proofs.LinkFreeLookups

/-!
# Inheritance lookups while a project is linked

The third phase links the documents of a project one after the other, against the index of the
project as it stood before the phase, and every later phase reads the linked project. A phase
shows file `i` the file's own tree and the trees of the other files (`Project.view`).

`Project.PartlyLinked p q index` says that each document of `q` is that of `p`, or that of `p`
with its top-level classes linked against `index` as the third phase links them: the project
before the phase (every document as it was), while the phase runs (the documents it has reached
are linked), and after it (`Project.runPhase_link_partlyLinked`).

The main statement (`Project.inheritance_lookups_ignore_links`): take a project whose documents
stand at their index and whose classes all hold the default links, as the second phase leaves
it. Every project partly linked from it against its index has the same index, and shows every
file the same `extend class` targets, parents, extensions and class chains.

The proof goes through `View.lookups_forgetLinks`: both views answer as the same view with all
links forgotten, since linking changes links and nothing else (`Tree.forgetLinks_relinkAll`),
and the index reads no link (`TypeIndex.build_congr`).
-/

namespace ZScript

/-! ## The index reads no link -/

/-- What the index reads of an analysis: its file and its tree, links apart. -/
def Analysis.linkFree (a : Analysis) : Nat × Tree := (a.file, a.tree.forgetLinks)

theorem Tree.children_forgetLinks (t : Tree) (id : Nat) :
    t.forgetLinks.children id = t.children id := by
  unfold children
  rw [get?_forgetLinks]
  cases t.get? id <;> rfl

theorem Tree.declarations_forgetLinks (t : Tree) : t.forgetLinks.declarations = t.declarations := by
  unfold declarations holds
  rw [children_forgetLinks]
  congr 1
  funext id
  rw [get?_forgetLinks]
  cases t.get? id with
  | none => rfl
  | some node =>
    obtain ⟨name, parent, children, line, kind⟩ := node
    cases kind <;> rfl

theorem Tree.forgetLinks_getD (o : Option Tree) :
    (o.getD ⟨#[]⟩).forgetLinks = (o.map Tree.forgetLinks).getD ⟨#[]⟩ := by
  cases o with
  | none => simp [Tree.forgetLinks, Tree.unlinked]
  | some t => rfl

namespace TypeIndex

theorem addMembers_forgetLinks (file : Nat) (t : Tree) (symbols : Std.HashMap String DeclRef)
    (ids : List Nat) : addMembers file t.forgetLinks symbols ids = addMembers file t symbols ids := by
  unfold addMembers
  congr 1
  funext acc m
  rw [Tree.get?_forgetLinks]
  cases t.get? m with
  | none => rfl
  | some node =>
    obtain ⟨name, parent, children, line, kind⟩ := node
    cases kind <;> rfl

/-- A declaration enters the index by its name, its kind and a class's header names, none of
    which is a link. -/
theorem addDecl_forgetLinks (file : Nat) (t : Tree) (idx : TypeIndex) (id : Nat) :
    addDecl file t.forgetLinks idx id = addDecl file t idx id := by
  unfold addDecl
  rw [Tree.get?_forgetLinks]
  cases hget : t.get? id with
  | none => rfl
  | some node =>
    obtain ⟨name, parent, children, line, kind⟩ := node
    cases kind
    case enumDecl e =>
      simp only [Option.map_some, Node.unlinked, NodeKind.unlinked, Tree.children_forgetLinks,
        addMembers_forgetLinks]
    all_goals rfl

theorem addFile_congr (idx : TypeIndex) {a a' : Analysis} (h : a'.linkFree = a.linkFree) :
    addFile idx a' = addFile idx a := by
  obtain ⟨hfile, htree⟩ := Prod.mk.inj h
  have hdecl : a'.tree.declarations = a.tree.declarations := by
    rw [← Tree.declarations_forgetLinks, htree, Tree.declarations_forgetLinks]
  have hadd : addDecl a'.file a'.tree = addDecl a.file a.tree := by
    funext idx id
    rw [hfile, ← addDecl_forgetLinks, htree, addDecl_forgetLinks]
  unfold addFile
  rw [hdecl, hadd]

/-- Files that agree but for links give one index. The induction is on the files, as `build`
    folds over them. -/
theorem build_congr {files files' : List Analysis}
    (h : files'.map Analysis.linkFree = files.map Analysis.linkFree) :
    build files' = build files := by
  unfold build
  generalize ({} : TypeIndex) = idx
  induction files generalizing files' idx with
  | nil =>
    rw [List.map_nil, List.map_eq_nil_iff] at h
    rw [h]
  | cons a files ih =>
    cases files' with
    | nil => cases h
    | cons a' files' =>
      obtain ⟨ha, hfiles⟩ := List.cons.inj h
      rw [List.foldl_cons, List.foldl_cons, addFile_congr idx ha, ih hfiles]

end TypeIndex

/-- A relation between options that holds with a value on the right holds with one on the left. -/
theorem Option.rel_some_right {α β : Type} {r : α → β → Prop} {x : Option α} {b : β}
    (h : Option.Rel r x (some b)) : ∃ a, x = some a ∧ r a b := by
  cases h with
  | some h => exact ⟨_, rfl, h⟩

/-- A document changed as `S` says is changed as any weaker `T` says. -/
theorem Document.Changed.imp {S T : Analysis → Analysis → Prop} {d d' : Document}
    (h : Document.Changed S d d') (hST : ∀ a a', S a a' → T a a') : Document.Changed T d d' := by
  obtain ⟨hid, ha⟩ := h
  refine ⟨hid, ?_⟩
  generalize d.analysis = x at ha
  generalize d'.analysis = y at ha
  cases ha with
  | none => exact .none
  | some ha => exact .some (hST _ _ ha)

/-- A class the third phase has linked holds the links computed from the index. -/
theorem NodeKind.relink_eq_classDecl {idx : TypeIndex} {me : DeclRef} {k : NodeKind}
    {c : ClassInfo} (h : k.relink idx me = .classDecl c) :
    ∃ c₀, k = .classDecl c₀ ∧ c = { c₀ with links := c₀.linksIn idx me } := by
  cases k
  case classDecl c₀ => exact ⟨c₀, rfl, (NodeKind.classDecl.inj h).symm⟩
  all_goals nomatch h

namespace Project

/-! ## Projects partly linked -/

/-- The node behind a handle in the project. -/
def nodeAt (p : Project) (d : DeclRef) : Option Node :=
  ((p.documents[d.file]?).bind (·.analysis)).bind (·.tree.get? d.node)

/-- The view a phase gives file `i` against the index `index`: the file's own tree and the trees
    of the other files. A file with no analysis shows no node. -/
def view (p : Project) (index : TypeIndex) (i : Nat) : View :=
  ⟨i, (((p.documents[i]?).bind (·.analysis)).map (·.tree)).getD ⟨#[]⟩,
    ⟨index, p.documents.mapIdx fun j d => if j == i then none else d.analysis.map (·.tree)⟩⟩

/-- Every class of the project holds the default links, as before the third phase. -/
def LinksDefault (p : Project) : Prop :=
  ∀ d node c, p.nodeAt d = some node → node.kind = .classDecl c → c.links = {}

/-- What the third phase has done to one analysis: linked its top-level classes against `index`,
    or nothing yet. -/
def Linking (index : TypeIndex) (a a' : Analysis) : Prop :=
  Relinked index a a' ∨ a' = a

/-- Each document of `q` is that of `p`, with its top-level classes linked against `index` or
    not. -/
def PartlyLinked (p q : Project) (index : TypeIndex) : Prop :=
  ∀ i : Nat, Option.Rel (Document.Changed (Linking index)) p.documents[i]? q.documents[i]?

variable {p q : Project} {index : TypeIndex}

theorem node?_view (p : Project) (index : TypeIndex) (i : Nat) (d : DeclRef) :
    (p.view index i).node? d = p.nodeAt d := by
  unfold view View.node? Universe.node? nodeAt
  by_cases h : d.file = i
  · subst h
    simp only [beq_self_eq_true, if_true]
    cases (p.documents[d.file]?).bind (·.analysis) with
    | none => simp [Tree.get?]
    | some a => rfl
  · simp only [beq_iff_eq, h, if_false, Array.getElem?_mapIdx]
    cases p.documents[d.file]? with
    | none => rfl
    | some doc =>
      simp only [Option.map_some, Option.bind_some]
      cases doc.analysis <;> rfl

theorem classAt_eq_bind (p : Project) (d : DeclRef) :
    p.classAt d = (p.nodeAt d).bind Node.classInfo? := by
  simp only [classAt, nodeAt, Option.bind_assoc]
  rfl

theorem linkFree_of_linking {a a' : Analysis} (h : Linking index a a') :
    a'.linkFree = a.linkFree := by
  rcases h with ⟨hfile, htree⟩ | rfl
  · rw [Analysis.linkFree, Analysis.linkFree, hfile, htree, Tree.forgetLinks_relinkAll]
  · rfl

/-- The link phase links every document. -/
theorem runPhase_link_partlyLinked (p : Project) :
    p.PartlyLinked (p.runPhase Analysis.link) (TypeIndex.build p.analyses) := by
  intro i
  have h := runPhase_link_getElem? (p := p) i
  generalize p.documents[i]? = x at h ⊢
  generalize (p.runPhase Analysis.link).documents[i]? = y at h ⊢
  cases h with
  | none => exact .none
  | some hd =>
    exact .some (hd.imp fun _ _ => .inl)

theorem PartlyLinked.build_eq (hq : p.PartlyLinked q index) :
    TypeIndex.build q.analyses = TypeIndex.build p.analyses :=
  TypeIndex.build_congr (analyses_map_eq hq fun _ _ => linkFree_of_linking)

/-- A document of `q` is one of `p` at the same index, linked or not. -/
theorem PartlyLinked.document (hq : p.PartlyLinked q index) {j : Nat} {d' : Document}
    (h : q.documents[j]? = some d') :
    ∃ d, p.documents[j]? = some d ∧ Document.Changed (Linking index) d d' := by
  have hrel := hq j
  rw [h] at hrel
  exact Option.rel_some_right hrel

/-- An analysis of `q` is one of `p` at the same index, linked or not. -/
theorem PartlyLinked.analysis (hq : p.PartlyLinked q index) {j : Nat} {a' : Analysis}
    (h : (q.documents[j]?).bind (·.analysis) = some a') :
    ∃ a, (p.documents[j]?).bind (·.analysis) = some a ∧ Linking index a a' := by
  obtain ⟨d', hd', ha'⟩ := Option.bind_eq_some_iff.1 h
  obtain ⟨d, hd, -, hrel⟩ := hq.document hd'
  rw [ha'] at hrel
  obtain ⟨a, ha, hlink⟩ := Option.rel_some_right hrel
  exact ⟨a, by rw [hd, Option.bind_some, ha], hlink⟩

theorem Filed.file_of_analysis (hp : p.Filed) {j : Nat} {a : Analysis}
    (h : (p.documents[j]?).bind (·.analysis) = some a) : a.file = j := by
  obtain ⟨d, hd, ha⟩ := Option.bind_eq_some_iff.1 h
  exact (hp j d hd).2 a ha

theorem PartlyLinked.filed (hp : p.Filed) (hq : p.PartlyLinked q index) : q.Filed := by
  intro j d' hd'
  obtain ⟨d, hd, hid, -⟩ := hq.document hd'
  refine ⟨hid.trans (hp j d hd).1, fun a' ha' => ?_⟩
  obtain ⟨a, ha, hlink⟩ := hq.analysis (by rw [hd', Option.bind_some]; exact ha')
  calc a'.file = a.file := congrArg Prod.fst (linkFree_of_linking hlink)
    _ = j := hp.file_of_analysis ha

/-- A declaration the index lists is the node the project holds at its handle. -/
theorem Filed.nodeAt_of_mem_declared (hp : p.Filed) {a : Analysis} (ha : a ∈ p.analyses)
    {e : DeclRef × Node} (he : e ∈ a.declared) : p.nodeAt e.1 = some e.2 := by
  obtain ⟨d, hd, hda⟩ := List.mem_filterMap.1 ha
  obtain ⟨j, hj⟩ := List.mem_iff_getElem?.1 hd
  rw [Array.getElem?_toList] at hj
  have hfile : a.file = j := (hp j d hj).2 a hda
  obtain ⟨id, -, hid⟩ := List.mem_filterMap.1 he
  obtain ⟨node, hget, rfl⟩ := Option.map_eq_some_iff.1 hid
  simp [nodeAt, hfile, hj, hda, hget]

/-- In a project whose documents stand at their index, the index that the project builds agrees
    with what every file is shown. -/
theorem Filed.indexAgrees (hp : p.Filed) (i : Nat) :
    (p.view (TypeIndex.build p.analyses) i).IndexAgrees where
  findType_named n d h := by
    -- the index finds the first declared type whose name matches
    have h : (TypeIndex.build p.analyses).findType n = some d := h
    rw [TypeIndex.findType_build, TypeIndex.scanType, Option.map_eq_some_iff] at h
    obtain ⟨e, hfind, rfl⟩ := h
    have hmatch := List.find?_some hfind
    obtain ⟨a, ha, he⟩ := List.mem_flatMap.1 (List.mem_of_find?_eq_some hfind)
    refine ⟨e.2, by rw [node?_view]; exact hp.nodeAt_of_mem_declared ha he, ?_⟩
    rw [Bool.and_eq_true] at hmatch
    exact (equalsIgnoringCase_iff _ _).1 hmatch.2
  describes e he := by
    obtain ⟨c, hc, hname⟩ := hp.describes e he
    refine ⟨c, ?_, hname⟩
    beta_reduce
    rw [node?_view, ← classAt_eq_bind]
    exact hc

theorem LinksDefault.linksFromIndex (h : p.LinksDefault) (idx : TypeIndex) (i : Nat) :
    (p.view idx i).LinksFromIndex := fun d node c hn hk =>
  .inl (h d node c (by rwa [node?_view] at hn) hk)

/-- In a project partly linked from one with default links, every class holds the default links
    or those the third phase computes from `index`. -/
theorem PartlyLinked.linksFromIndex (hp : p.Filed) (hdef : p.LinksDefault)
    (hq : p.PartlyLinked q index) (i : Nat) : (q.view index i).LinksFromIndex := by
  intro d node c hnode hk
  rw [node?_view, nodeAt, Option.bind_eq_some_iff] at hnode
  obtain ⟨a', ha', hget⟩ := hnode
  obtain ⟨a, ha, hlink⟩ := hq.analysis ha'
  have hfile : a.file = d.file := hp.file_of_analysis ha
  -- a node of `p` holds the default links
  have hdefault : ∀ n₀ c₀, a.tree.get? d.node = some n₀ → n₀.kind = .classDecl c₀ →
      c₀.links = {} := fun n₀ c₀ h₀ hk₀ =>
    hdef d n₀ c₀ (by rw [nodeAt, ha, Option.bind_some]; exact h₀) hk₀
  rcases hlink with ⟨-, htree⟩ | rfl
  · rw [htree, Tree.get?_relinkAll, Option.map_eq_some_iff] at hget
    obtain ⟨n₀, h₀, rfl⟩ := hget
    split at hk
    · obtain ⟨c₀, -, rfl⟩ := NodeKind.relink_eq_classDecl hk
      exact .inr (by rw [hfile]; rfl)
    · exact .inl (hdefault n₀ c h₀ hk)
  · exact .inl (hdefault node c hget hk)

theorem Linking.tree_forgetLinks {a a' : Analysis} (h : Linking index a a') :
    a'.tree.forgetLinks = a.tree.forgetLinks :=
  congrArg Prod.snd (linkFree_of_linking h)

/-- Projects partly linked from one another show each file the same trees, links apart. -/
theorem PartlyLinked.forgetLinks_view (hq : p.PartlyLinked q index) (idx : TypeIndex) (i : Nat) :
    (q.view idx i).forgetLinks = (p.view idx i).forgetLinks := by
  -- the file's own tree
  have hown : (q.view idx i).tree.forgetLinks = (p.view idx i).tree.forgetLinks := by
    have h := hq i
    simp only [view, Tree.forgetLinks_getD, Option.map_map]
    generalize p.documents[i]? = x at h ⊢
    generalize q.documents[i]? = y at h ⊢
    cases h with
    | none => rfl
    | @some d d' hd =>
      simp only [Option.bind_some]
      exact congrArg (Option.getD · ⟨#[]⟩) (hd.map_analysis fun _ _ => Linking.tree_forgetLinks)
  -- the trees of the other files, document by document
  have hothers : (q.view idx i).world.trees.map (Option.map Tree.forgetLinks) =
      (p.view idx i).world.trees.map (Option.map Tree.forgetLinks) := by
    apply Array.ext_getElem?
    intro j
    have h := hq j
    simp only [view, Array.getElem?_map, Array.getElem?_mapIdx, Option.map_map]
    generalize p.documents[j]? = x at h ⊢
    generalize q.documents[j]? = y at h ⊢
    cases h with
    | none => rfl
    | @some d d' hd =>
      simp only [Option.map_some, Function.comp_apply]
      split
      · rfl
      · rw [Option.map_map, Option.map_map]
        exact congrArg some (hd.map_analysis fun _ _ => Linking.tree_forgetLinks)
  unfold View.forgetLinks
  rw [hown, hothers]
  rfl

/-- While a project is linked, each of its files is shown the classes the project shows with its
    default links: the same index, and for every handle the same `extend class` target, parent,
    extensions and class chain. Every document of the linked project may have been reached by
    the third phase or not. -/
theorem inheritance_lookups_ignore_links (hp : p.Filed) (hdef : p.LinksDefault)
    (hq : p.PartlyLinked q (TypeIndex.build p.analyses)) (i : Nat) (d : DeclRef) :
    TypeIndex.build q.analyses = TypeIndex.build p.analyses ∧
      (q.view (TypeIndex.build p.analyses) i).extensionTarget d =
        (p.view (TypeIndex.build p.analyses) i).extensionTarget d ∧
      (q.view (TypeIndex.build p.analyses) i).classParent d =
        (p.view (TypeIndex.build p.analyses) i).classParent d ∧
      (q.view (TypeIndex.build p.analyses) i).classExtensions d =
        (p.view (TypeIndex.build p.analyses) i).classExtensions d ∧
      (q.view (TypeIndex.build p.analyses) i).classChain d =
        (p.view (TypeIndex.build p.analyses) i).classChain d := by
  have hbuild := hq.build_eq
  -- both views agree with the index, and hold default links or those computed from it
  have hv := hp.indexAgrees i
  have hv' : (q.view (TypeIndex.build p.analyses) i).IndexAgrees := by
    have h := (hq.filed hp).indexAgrees i
    rwa [hbuild] at h
  have hl := hdef.linksFromIndex (TypeIndex.build p.analyses) i
  have hl' := hq.linksFromIndex hp hdef i
  -- so both answer as the same view with every link forgotten
  have hforget := hq.forgetLinks_view (TypeIndex.build p.analyses) i
  obtain ⟨e, pa, ex, ch⟩ := View.lookups_forgetLinks hv hl d
  obtain ⟨e', pa', ex', ch'⟩ := View.lookups_forgetLinks hv' hl' d
  rw [hforget] at e' pa' ex' ch'
  exact ⟨hbuild, e'.symm.trans e, pa'.symm.trans pa, ex'.symm.trans ex, ch'.symm.trans ch⟩

end Project

/-- The tree of `class Base {} class Derived : Base {} extend class Base {}`. -/
def Tree.inheritanceSample : Tree :=
  ⟨#[⟨"", none, [1, 2, 3], 1, .root none⟩, ⟨"Base", some 0, [], 1, .classDecl {}⟩,
    ⟨"Derived", some 0, [], 1, .classDecl { parentName := some "Base" }⟩,
    ⟨"Base", some 0, [], 1, .classDecl { extendName := some "Base" }⟩]⟩

/-- A project of one file holding `Tree.inheritanceSample`, before the third phase. -/
def Project.inheritanceSample : Project :=
  { documents := #[
      { id := 0, path := "base.zs", kind := .zscript, text := "",
        analysis := some { file := 0, tokens := [], tree := Tree.inheritanceSample } }] }

/-- Linking the sample project changes none of the lookups of its extension `Base`. -/
theorem Project.inheritance_lookups_ignore_links_sample :
    Project.inheritanceSample.Filed ∧ Project.inheritanceSample.LinksDefault ∧
      Project.inheritanceSample.PartlyLinked (Project.inheritanceSample.runPhase Analysis.link)
        (TypeIndex.build Project.inheritanceSample.analyses) ∧
      (TypeIndex.build (Project.inheritanceSample.runPhase Analysis.link).analyses =
          TypeIndex.build Project.inheritanceSample.analyses ∧
        ((Project.inheritanceSample.runPhase Analysis.link).view
            (TypeIndex.build Project.inheritanceSample.analyses) 0).extensionTarget ⟨0, 3⟩ =
          (Project.inheritanceSample.view
            (TypeIndex.build Project.inheritanceSample.analyses) 0).extensionTarget ⟨0, 3⟩ ∧
        ((Project.inheritanceSample.runPhase Analysis.link).view
            (TypeIndex.build Project.inheritanceSample.analyses) 0).classParent ⟨0, 3⟩ =
          (Project.inheritanceSample.view
            (TypeIndex.build Project.inheritanceSample.analyses) 0).classParent ⟨0, 3⟩ ∧
        ((Project.inheritanceSample.runPhase Analysis.link).view
            (TypeIndex.build Project.inheritanceSample.analyses) 0).classExtensions ⟨0, 3⟩ =
          (Project.inheritanceSample.view
            (TypeIndex.build Project.inheritanceSample.analyses) 0).classExtensions ⟨0, 3⟩ ∧
        ((Project.inheritanceSample.runPhase Analysis.link).view
            (TypeIndex.build Project.inheritanceSample.analyses) 0).classChain ⟨0, 3⟩ =
          (Project.inheritanceSample.view
            (TypeIndex.build Project.inheritanceSample.analyses) 0).classChain ⟨0, 3⟩) := by
  have hf : Project.inheritanceSample.Filed := by
    intro j d hd
    rcases j with _ | j
    · simp only [Project.inheritanceSample, List.getElem?_toArray, List.getElem?_cons_zero,
        Option.some.injEq] at hd
      subst hd
      exact ⟨rfl, fun a ha => by cases ha; rfl⟩
    · simp [Project.inheritanceSample] at hd
  have hdef : Project.inheritanceSample.LinksDefault := by
    -- every class of the one file was built with the default links
    rintro ⟨_ | f, n⟩ node c h hk
    · simp only [Project.nodeAt, Project.inheritanceSample, Tree.inheritanceSample, Tree.get?,
        List.getElem?_toArray, List.getElem?_cons_zero, Option.bind_some] at h
      rcases n with _ | _ | _ | _ | n <;> simp at h <;> subst h <;> cases hk <;> rfl
    · simp [Project.nodeAt, Project.inheritanceSample] at h
  have hq := Project.runPhase_link_partlyLinked Project.inheritanceSample
  exact ⟨hf, hdef, hq, Project.inheritance_lookups_ignore_links hf hdef hq 0 ⟨0, 3⟩⟩

end ZScript
