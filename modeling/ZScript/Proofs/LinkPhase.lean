import ZScript.Project.Basic

/-!
# The link phase keeps every stored type

The third phase of a project links each class to the classes its header names and looks again
for the type names that the members phase tagged without a reference. It writes class links,
semantic tokens, diagnostics and the log, and nothing else: every node of every tree is what the
members phase left, the links of classes apart (`Project.link_keeps_trees`).

So the second look repairs the semantic tokens of a type name, never the type stored in the
tree. A type that the members phase could not resolve stays unresolved in the field, argument,
local, return or enum base that holds it. That phase reads the classes in source order, and the
types nested in a class exist only once its body has been read: a field typed `Outer.Inner`
keeps no reference when `Outer` is declared after the field's class.

The proof is a small calculus of steps that keep the tree (`Step.KeepsTree`): it holds of the
reading and reporting primitives, of `modifyKind` with a change that only touches links, and is
closed under `bind`, `if` and `for` loops; each phase step is then checked along its `do` block.
-/

namespace ZScript

/-- What a node holds, with the links of a class forgotten. -/
def NodeKind.unlinked : NodeKind → NodeKind
  | .classDecl c => .classDecl { c with links := {} }
  | k => k

/-- A node with the links of a class forgotten. -/
def Node.unlinked (n : Node) : Node := { n with kind := n.kind.unlinked }

/-- The nodes of a tree, with the links of classes forgotten. -/
def Tree.unlinked (t : Tree) : Array Node := t.nodes.map Node.unlinked

/-- Changing only what nodes link to keeps the tree, links apart. -/
theorem Tree.unlinked_modifyKind (t : Tree) (id : Nat) (f : NodeKind → NodeKind)
    (hf : ∀ k, (f k).unlinked = k.unlinked) : (t.modifyKind id f).unlinked = t.unlinked := by
  apply Array.ext
  · simp [Tree.unlinked, Tree.modifyKind, Tree.modify]
  · intro j _ _
    simp only [Tree.unlinked, Tree.modifyKind, Tree.modify, Array.getElem_map, Array.getElem_modify]
    split
    · simp [Node.unlinked, hf]
    · rfl

namespace Step

/-- A step that changes nothing in the file's tree but the links of classes. -/
def KeepsTree {α : Type} (x : Step α) : Prop :=
  ∀ u w, (x u w).2.file.tree.unlinked = w.file.tree.unlinked

theorem keepsTree_pure {α : Type} (a : α) : KeepsTree (pure a : Step α) := fun _ _ => rfl

theorem KeepsTree.bind {α β : Type} {x : Step α} {f : α → Step β} (hx : KeepsTree x)
    (hf : ∀ a, KeepsTree (f a)) : KeepsTree (x >>= f) := by
  intro u w
  show ((f (x u w).1) u (x u w).2).2.file.tree.unlinked = _
  rw [hf _ u, hx u w]

theorem keepsTree_ite {α : Type} {c : Prop} [Decidable c] {x y : Step α} (hx : KeepsTree x)
    (hy : KeepsTree y) : KeepsTree (if c then x else y) := by
  split
  · exact hx
  · exact hy

/-- A loop whose body keeps the tree keeps it. -/
theorem KeepsTree.forIn {β σ : Type} (xs : List β) (init : σ)
    (f : β → σ → Step (ForInStep σ)) (hf : ∀ b s, KeepsTree (f b s)) : KeepsTree (forIn xs init f) := by
  induction xs generalizing init with
  | nil => exact keepsTree_pure init
  | cons b bs ih =>
    rw [List.forIn_cons]
    refine KeepsTree.bind (hf b init) fun r => ?_
    cases r with
    | done s => exact keepsTree_pure s
    | yield s => exact ih s

theorem keepsTree_change (f : Analysis → Analysis) (hf : ∀ a, (f a).tree = a.tree) :
    KeepsTree (change f) := by
  intro u w
  show (f w.file).tree.unlinked = _
  rw [hf]

theorem keepsTree_current : KeepsTree current := fun _ _ => rfl

theorem keepsTree_view : KeepsTree view := fun _ _ => rfl

theorem keepsTree_log (level : LogLevel) (source : LogSource) (message : String) :
    KeepsTree (log level source message) := fun _ _ => rfl

theorem keepsTree_warn (message : String) (line : Nat) : KeepsTree (warn message line) :=
  fun _ _ => rfl

theorem keepsTree_emitToken (s : SemanticToken) : KeepsTree (emitToken s) := fun _ _ => rfl

theorem keepsTree_modifyKind (id : Nat) (f : NodeKind → NodeKind)
    (hf : ∀ k, (f k).unlinked = k.unlinked) : KeepsTree (modifyKind id f) := by
  intro u w
  exact Tree.unlinked_modifyKind w.file.tree id f hf

/-! ## The steps of the link phase -/

theorem linkClass_keepsTree (id : Nat) : KeepsTree (Links.linkClass id) := by
  unfold Links.linkClass
  refine KeepsTree.bind keepsTree_view fun v => ?_
  split
  · split
    · dsimp only
      refine KeepsTree.bind ?_ fun _ => KeepsTree.bind ?_ fun _ => KeepsTree.bind ?_ fun _ =>
        KeepsTree.bind (keepsTree_log _ _ _) fun _ => keepsTree_modifyKind _ _ ?_
      -- each lookup of a header name at most warns
      iterate 3
        split
        · exact keepsTree_pure _
        · exact keepsTree_ite (KeepsTree.bind (keepsTree_warn _ _) fun _ => keepsTree_pure _)
            (keepsTree_pure _)
      -- the new links replace the old ones, which the comparison forgets
      intro k
      cases k <;> rfl
    · exact keepsTree_pure _
  · exact keepsTree_pure _

theorem recheckTypeNames_keepsTree (start : Nat) : KeepsTree (recheckTypeNames start) := by
  unfold recheckTypeNames
  refine KeepsTree.bind keepsTree_current fun a => ?_
  refine KeepsTree.forIn _ _ _ fun ⟨i, n⟩ _ => ?_
  refine KeepsTree.bind keepsTree_view fun v => ?_
  -- a name found again gets its reference, one still missing an invalid token and a warning
  split
  · exact KeepsTree.bind (keepsTree_change _ fun _ => rfl) fun _ => keepsTree_pure _
  · exact KeepsTree.bind keepsTree_current fun _ => KeepsTree.bind (keepsTree_emitToken _) fun _ =>
      KeepsTree.bind (keepsTree_warn _ _) fun _ => keepsTree_pure _

/-- The link phase changes nothing in the file's tree but the links of classes. -/
theorem link_keepsTree : KeepsTree Analysis.link := by
  unfold Analysis.link
  refine KeepsTree.bind keepsTree_current fun a => KeepsTree.bind ?_ fun _ =>
    recheckTypeNames_keepsTree 0
  exact KeepsTree.forIn _ _ _ fun id _ => KeepsTree.bind (linkClass_keepsTree id) fun _ =>
    keepsTree_pure _

end Step

/-! ## Over a whole project -/

theorem map_setIfInBounds_of_eq {α β : Type} {xs : Array α} {g : α → β} {i : Nat} {d d' : α}
    (hi : xs[i]? = some d) (h : g d' = g d) : (xs.setIfInBounds i d').map g = xs.map g := by
  rw [Array.map_setIfInBounds, h]
  obtain ⟨hlt, rfl⟩ := Array.getElem?_eq_some_iff.1 hi
  have hlt' : i < (xs.map g).size := by simpa using hlt
  rw [Array.setIfInBounds, dif_pos hlt', ← Array.getElem_map g hlt', Array.set_getElem_self]

/-- The trees of a project's documents, with the links of classes forgotten. -/
def Project.unlinkedTrees (p : Project) : Array (Option (Array Node)) :=
  p.documents.map fun d => d.analysis.map (·.tree.unlinked)

theorem Project.runStep_unlinked {x : Step Unit} (h : Step.KeepsTree x) (u : Universe)
    (a : Analysis) (log : Array LogRecord) :
    (Project.runStep x u a log).1.tree.unlinked = a.tree.unlinked :=
  h u ⟨a, log⟩

/-- A phase whose step keeps each file's tree keeps the trees of the whole project. -/
theorem Project.runPhase_unlinkedTrees {phase : Step Unit} (h : Step.KeepsTree phase)
    (p : Project) : (p.runPhase phase).unlinkedTrees = p.unlinkedTrees := by
  unfold Project.runPhase
  dsimp only
  -- the documents are visited in turn against one index, each replaced by its new analysis
  generalize TypeIndex.build p.analyses = index
  generalize List.range p.documents.size = ids
  induction ids generalizing p with
  | nil => rfl
  | cons i ids ih =>
    rw [List.foldl_cons, ih]
    split
    · next d hd =>
      split
      · next a ha =>
        refine map_setIfInBounds_of_eq hd ?_
        simp only [ha, Option.map_some, Project.runStep_unlinked h]
      · rfl
    · rfl

/-- The link phase of a project changes no tree but the links of its classes: every type stored
    in a field, an argument, a local, a return or an enum base is the one the members phase
    stored, resolved or not. -/
theorem Project.link_keeps_trees (p : Project) :
    (p.runPhase Analysis.link).unlinkedTrees = p.unlinkedTrees :=
  Project.runPhase_unlinkedTrees Step.link_keepsTree p

end ZScript
