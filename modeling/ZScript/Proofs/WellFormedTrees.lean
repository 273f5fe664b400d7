import ZScript.Proofs.MemberReaders
import ZScript.Proofs.MethodBody
import ZScript.Proofs.LinkPhase

/-!
# Every tree of a project is well formed

A file's syntax tree is well formed (`Tree.WellFormed`): node `0` is the only root, every other
node has a parent made before it, children are listed in order under the node they name as parent,
the nodes a node holds name it as parent, and every `break` and `continue` stands under a loop of
its own method. Each phase of a file's analysis keeps this:

* the skeleton reader builds a well-formed tree (`Analysis.wellFormed_skeleton`);
* the members phase keeps it (`Analysis.wellFormed_addMembers`);
* the link phase changes nothing but the links of classes (`Step.link_keepsTree`), which the shape
  of a tree does not see (`Tree.WellFormed.of_unlinked`);
* the bodies phase tags the stored expressions in place and reads each method body
  (`Bodies.wellFormed_methodBody`), so it keeps it too (`Analysis.wellFormed_addBodies`).

A project runs these phases over its documents and points each include at its document, which
changes only what the include names. So every analysis of a project made from sources, and of
every project reached from one by adding documents and replacing texts, has a well-formed tree;
so has every stage of a lone file (`trees_wellFormed`).
-/

namespace ZScript

/-! ## What the shape of a tree sees -/

namespace NodeKind

theorem sameShape_unlinked (k : NodeKind) : SameShape k k.unlinked := by
  unfold unlinked
  split <;> exact ⟨rfl, rfl, rfl, rfl⟩

theorem held_unlinked (k : NodeKind) : k.unlinked.held = k.held := by
  unfold unlinked
  split <;> rfl

end NodeKind

namespace Tree

variable {t : Tree}

/-- Well-formedness depends only on each node's parent, children, shape and held nodes. -/
theorem WellFormed.of_agree {t t' : Tree} (h : t.WellFormed) (hsize : t'.size = t.size)
    (hget : ∀ i node', t'.get? i = some node' → ∃ node, t.get? i = some node ∧
      node'.parent = node.parent ∧ node'.children = node.children ∧
      NodeKind.SameShape node.kind node'.kind ∧ node'.kind.held = node.kind.held) :
    t'.WellFormed := by
  -- every node of `t` has its counterpart in `t'`
  have hback : ∀ i node, t.get? i = some node → ∃ node', t'.get? i = some node' ∧
      node'.parent = node.parent ∧ node'.children = node.children ∧
      NodeKind.SameShape node.kind node'.kind ∧ node'.kind.held = node.kind.held := by
    intro i node hg
    obtain ⟨node', hg'⟩ := get?_of_lt (t := t') (hsize ▸ lt_size_of_get? hg)
    obtain ⟨node₀, hg₀, hrest⟩ := hget i node' hg'
    rw [hg] at hg₀
    cases hg₀
    exact ⟨node', hg', hrest⟩
  have hpar : ∀ c, t'.parentOf c = t.parentOf c := by
    intro c
    cases hg' : t'.get? c with
    | none =>
      have : t.get? c = none := by
        cases hg : t.get? c with
        | none => rfl
        | some node =>
          obtain ⟨node', hn', -⟩ := hback c node hg
          rw [hg'] at hn'
          cases hn'
      simp [parentOf, hg', this]
    | some node' =>
      obtain ⟨node, hg, hp, -⟩ := hget c node' hg'
      simp [parentOf, hg', hg, hp]
  refine ⟨?_, ?_, ?_, ?_, ?_, ?_, ?_⟩
  · obtain ⟨node, hg, hr, hn⟩ := h.root
    obtain ⟨node', hg', hp, -, hs, -⟩ := hback 0 node hg
    exact ⟨node', hg', hs.root ▸ hr, hp ▸ hn⟩
  · intro i node' hg' hr
    obtain ⟨node, hg, -, -, hs, -⟩ := hget i node' hg'
    exact h.root_only i node hg (hs.root ▸ hr)
  · intro i node' hg' hi
    obtain ⟨node, hg, hp, -⟩ := hget i node' hg'
    rw [hp]
    exact h.parent_lt i node hg hi
  · intro q node' x hg' hx
    obtain ⟨node, hg, -, hch, -⟩ := hget q node' hg'
    rw [hpar]
    exact h.child_parent q node x hg (hch ▸ hx)
  · intro q node' hg'
    obtain ⟨node, hg, -, hch, -⟩ := hget q node' hg'
    exact hch ▸ h.children_sorted q node hg
  · intro q node' x hg' hx
    obtain ⟨node, hg, -, -, -, hheld⟩ := hget q node' hg'
    rw [hpar]
    exact h.held_parent q node x hg (hheld ▸ hx)
  · intro i node' hg' hj
    obtain ⟨node, hg, hp, -, hs, -⟩ := hget i node' hg'
    obtain ⟨q, hq, hu⟩ := h.jump_under_loop i node hg (hs.jump ▸ hj)
    refine ⟨q, hp ▸ hq, hu.of_shape fun j n hn => ?_⟩
    obtain ⟨n', hn', hp', -, hs', -⟩ := hback j n hn
    exact ⟨n', hn', hp', hs'.loop, hs'.method⟩

/-- Well-formedness does not see the links of classes. -/
theorem WellFormed.of_unlinked {t t' : Tree} (h : t.WellFormed) (ht : t'.unlinked = t.unlinked) :
    t'.WellFormed := by
  have hmap : ∀ i, (t'.get? i).map Node.unlinked = (t.get? i).map Node.unlinked := by
    intro i
    have := congrArg (·[i]?) ht
    simpa [Tree.unlinked, Tree.get?] using this
  have hsize : t'.size = t.size := by
    have := congrArg Array.size ht
    simpa [Tree.unlinked, Tree.size] using this
  refine h.of_agree hsize fun i node' hg' => ?_
  have hi := hmap i
  rw [hg'] at hi
  obtain ⟨node, hg, hn⟩ := Option.map_eq_some_iff.1 hi.symm
  -- the two nodes differ at most in the links of a class
  have hk : node'.kind.unlinked = node.kind.unlinked := congrArg Node.kind hn.symm
  have hp : node'.unlinked.parent = node.unlinked.parent := congrArg Node.parent hn.symm
  have hch : node'.unlinked.children = node.unlinked.children := congrArg Node.children hn.symm
  refine ⟨node, hg, hp, hch, ?_, ?_⟩
  · have h₁ := NodeKind.sameShape_unlinked node.kind
    have h₂ := NodeKind.sameShape_unlinked node'.kind
    rw [hk] at h₂
    exact ⟨h₂.root.symm.trans h₁.root, h₂.method.symm.trans h₁.method,
      h₂.loop.symm.trans h₁.loop, h₂.jump.symm.trans h₁.jump⟩
  · rw [← NodeKind.held_unlinked node'.kind, hk, NodeKind.held_unlinked]

/-- Replacing what node `id` holds by a kind of the same shape that holds no node. -/
theorem WellFormed.setKind (h : t.WellFormed) {id : Nat} {node : Node} {k' : NodeKind}
    (hg : t.get? id = some node) (hs : NodeKind.SameShape node.kind k') (hheld : k'.held = []) :
    (t.modifyKind id fun _ => k').WellFormed := by
  refine h.modifyKind fun node' hg' => ?_
  rw [hg] at hg'
  cases hg'
  exact ⟨hs, fun x hx => by rw [hheld] at hx; cases hx⟩

/-- Changing every kind into one of the same shape that holds no more nodes. -/
theorem WellFormed.modifyKind_of_held (h : t.WellFormed) {id : Nat} {f : NodeKind → NodeKind}
    (hf : ∀ k, NodeKind.SameShape k (f k) ∧ ∀ x ∈ (f k).held, x ∈ k.held) :
    (t.modifyKind id f).WellFormed :=
  h.modifyKind fun node hg =>
    ⟨(hf node.kind).1, fun x hx => h.held_parent id node x hg ((hf node.kind).2 x hx)⟩

end Tree

/-! ## Steps that keep a tree well formed -/

namespace Step

variable {α : Type}

/-- A step followed by a value, as a loop body that runs a step and goes on. -/
theorem Triple.seq_pure {β : Type} {P Q : Work → Prop} {x : Step α} {b : β}
    (h : Triple P x fun _ => Q) : Triple P (x >>= fun _ => (Pure.pure b : Step β)) fun _ => Q :=
  Triple.bind h fun _ => Triple.pure fun _ h => h

/-- A step that changes only the links of classes keeps a tree well formed. -/
theorem KeepsTree.wellFormed {x : Step α} (h : KeepsTree x) :
    Triple (fun w => w.file.tree.WellFormed) x fun _ w => w.file.tree.WellFormed :=
  fun u w hw => hw.of_unlinked (h u w)

/-- A step that only tags keeps a tree well formed. -/
theorem Tags.wellFormed {x : Step α} (h : Tags x) :
    Triple (fun w => w.file.tree.WellFormed) x fun _ w => w.file.tree.WellFormed :=
  Triple.ofTree fun u w => (h u w).tree

theorem wellFormed_modifyKind {id : Nat} {f : NodeKind → NodeKind}
    (hf : ∀ k, NodeKind.SameShape k (f k) ∧ ∀ x ∈ (f k).held, x ∈ k.held) :
    Triple (fun w => w.file.tree.WellFormed) (modifyKind id f) fun _ w => w.file.tree.WellFormed := by
  intro u w hwf
  rw [modifyKind_run]
  exact hwf.modifyKind_of_held hf

end Step

/-! ## The bodies phase -/

namespace Bodies

open Step

/-- Emptying node `id`, as the tree read at the start of the step has it, into a kind of the same
    shape that holds no node. -/
theorem wellFormed_setKind_of_read {t : Tree} {id : Nat} {node : Node} {k' : NodeKind}
    (hg : t.get? id = some node) (hs : NodeKind.SameShape node.kind k') (hheld : k'.held = []) :
    Triple (fun w => w.file.tree.WellFormed ∧ t = w.file.tree) (modifyKind id fun _ => k')
      fun _ w => w.file.tree.WellFormed := by
  rintro u w ⟨hwf, rfl⟩
  rw [modifyKind_run]
  exact hwf.setKind hg hs hheld

theorem wellFormed_tagConstant (id : Nat) (scope : Scope) :
    Triple (fun w => w.file.tree.WellFormed) (tagConstant id scope)
      fun _ w => w.file.tree.WellFormed := by
  unfold tagConstant
  refine Triple.bind triple_tree fun t => ?_
  split
  · next hg =>
    -- the value is out of the node while it is tagged, then put back
    refine Triple.bind (wellFormed_setKind_of_read hg ⟨rfl, rfl, rfl, rfl⟩ rfl) fun _ => ?_
    refine Triple.bind (Tags.optionMapM (fun e => Expr.tags_tag e scope) _).wellFormed fun _ => ?_
    exact wellFormed_modifyKind fun k => by
      cases k <;> exact ⟨⟨rfl, rfl, rfl, rfl⟩, fun _ hx => hx⟩
  · exact Triple.pure fun _ h => h.1

/-- A `for` loop whose body keeps a tree well formed. -/
theorem wellFormed_forIn {γ σ : Type} (xs : List γ) (init : σ) {f : γ → σ → Step (ForInStep σ)}
    (hf : ∀ b s, Triple (fun w => w.file.tree.WellFormed) (f b s) fun _ w => w.file.tree.WellFormed) :
    Triple (fun w => w.file.tree.WellFormed) (forIn xs init f) fun _ w => w.file.tree.WellFormed :=
  Triple.forIn xs init fun b _ s => hf b s

theorem wellFormed_tagEnum (id : Nat) :
    Triple (fun w => w.file.tree.WellFormed) (tagEnum id) fun _ w => w.file.tree.WellFormed := by
  unfold tagEnum
  refine Triple.bind (tags_here id).wellFormed fun _ => ?_
  refine Triple.bind tags_tree.wellFormed fun t => ?_
  exact wellFormed_forIn _ _ fun m _ =>
    (wellFormed_tagConstant m _).seq_pure

theorem wellFormed_tagField (id : Nat) (scope : Scope) :
    Triple (fun w => w.file.tree.WellFormed) (tagField id scope)
      fun _ w => w.file.tree.WellFormed := by
  unfold tagField
  refine Triple.bind triple_tree fun t => ?_
  split
  · next hg =>
    -- the dimensions and the initializer are out of the node while they are tagged
    refine Triple.bind (wellFormed_setKind_of_read hg ⟨rfl, rfl, rfl, rfl⟩ rfl) fun _ => ?_
    refine Triple.bind (tags_tagDims _ scope).wellFormed fun _ => ?_
    refine Triple.bind (Tags.optionMapM (fun e => Expr.tags_tag e scope) _).wellFormed fun _ => ?_
    exact wellFormed_modifyKind fun k => by
      cases k <;> exact ⟨⟨rfl, rfl, rfl, rfl⟩, fun _ hx => hx⟩
  · exact Triple.pure fun _ h => h.1

theorem wellFormed_tagDefaults (method : Nat) (scope : Scope) :
    Triple (fun w => w.file.tree.WellFormed) (tagDefaults method scope)
      fun _ w => w.file.tree.WellFormed := by
  unfold tagDefaults
  refine Triple.bind triple_tree fun t => ?_
  split
  · refine (wellFormed_forIn _ _ fun arg _ => ?_).pre fun _ h => h.1
    refine Triple.bind tags_tree.wellFormed fun t => ?_
    refine (wellFormed_forIn _ _ fun child _ => ?_).seq_pure
    refine Triple.bind triple_tree fun t' => ?_
    split
    · next e hg' =>
      refine Triple.bind (wellFormed_setKind_of_read hg' ⟨rfl, rfl, rfl, rfl⟩ rfl) fun _ => ?_
      refine Triple.bind (Expr.tags_tag e _).wellFormed fun _ => ?_
      exact (wellFormed_modifyKind fun k => by
        cases k <;> exact ⟨⟨rfl, rfl, rfl, rfl⟩, fun _ hx => hx⟩).seq_pure
    · exact Triple.pure fun _ h => h.1
  · exact Triple.pure fun _ h => h.1

theorem wellFormed_tagDeclarations :
    Triple (fun w => w.file.tree.WellFormed) tagDeclarations fun _ w => w.file.tree.WellFormed := by
  unfold tagDeclarations
  refine Triple.bind tags_tree.wellFormed fun t => ?_
  refine Triple.bind (wellFormed_forIn _ _ fun id _ => ?_) fun _ => ?_
  · refine Triple.bind tags_tree.wellFormed fun t => ?_
    split
    · exact (wellFormed_tagConstant id _).seq_pure
    · exact (wellFormed_tagEnum id).seq_pure
    · exact Triple.pure fun _ h => h
  refine Triple.bind tags_tree.wellFormed fun t => ?_
  refine wellFormed_forIn _ _ fun owner _ => ?_
  refine Triple.bind (tags_here owner).wellFormed fun _ => ?_
  refine Triple.bind tags_tree.wellFormed fun t => ?_
  refine (wellFormed_forIn _ _ fun child _ => ?_).seq_pure
  refine Triple.bind tags_tree.wellFormed fun t => ?_
  split
  · exact (wellFormed_tagField child _).seq_pure
  · exact (wellFormed_tagConstant child _).seq_pure
  · exact (wellFormed_tagEnum child).seq_pure
  · exact (wellFormed_tagDefaults child _).seq_pure
  · exact Triple.pure fun _ h => h

end Bodies

/-- The bodies phase keeps a well-formed tree well formed, whatever it sees of the project. -/
theorem Analysis.wellFormed_addBodies :
    Step.Triple (fun w => w.file.tree.WellFormed) Analysis.addBodies
      fun _ w => w.file.tree.WellFormed := by
  unfold Analysis.addBodies
  refine Step.Triple.bind Step.tags_current.wellFormed fun a => ?_
  split
  · exact Step.Triple.pure fun _ h => h
  refine Step.Triple.bind Bodies.wellFormed_tagDeclarations fun _ => ?_
  refine Step.Triple.bind Step.tags_tree.wellFormed fun t => ?_
  refine Step.Triple.bind (Bodies.wellFormed_forIn _ _ fun owner _ => ?_) fun _ => ?_
  · refine Step.Triple.bind Step.tags_tree.wellFormed fun t => ?_
    refine Step.Triple.bind (Bodies.wellFormed_forIn _ _ fun m _ => ?_) fun _ => ?_
    · exact (Bodies.wellFormed_methodBody owner m).seq_pure
    · exact Step.Triple.pure fun _ h => h
  refine Step.Triple.bind (Step.recheckTypeNames_keepsTree _).wellFormed fun _ => ?_
  exact (Step.tags_log _ _ _).wellFormed

/-! ## Projects -/

namespace Project

/-- Every analysis the project holds satisfies `R`. -/
def Every (R : Analysis → Prop) (p : Project) : Prop :=
  ∀ d ∈ p.documents, ∀ a, d.analysis = some a → R a

variable {R : Analysis → Prop} {p : Project}

theorem Every.analyses (h : Every R p) : ∀ a ∈ p.analyses, R a := by
  intro a ha
  obtain ⟨d, hd, hda⟩ := List.mem_filterMap.1 ha
  exact h d (Array.mem_toList_iff.1 hd) a hda

/-- Replacing a document by one whose analysis, if any, satisfies `R`. -/
theorem Every.set (h : Every R p) (i : Nat) {d : Document} (hd : ∀ a, d.analysis = some a → R a) :
    ∀ x ∈ p.documents.set! i d, ∀ a, x.analysis = some a → R a := fun x hx =>
  (Array.mem_or_eq_of_mem_setIfInBounds hx).elim (h x) fun hx => hx ▸ hd

theorem Every.record (h : Every R p) (level : LogLevel) (message : String) :
    Every R (p.record level message) := h

theorem Every.push (h : Every R p) (path text : String) (kind : Option FileKind) :
    Every R (p.push path text kind).2 := by
  intro x hx
  rcases Array.mem_push.1 hx with hx | rfl
  · exact h x hx
  · intro a ha
    cases ha

/-- A step that keeps `R` of the file's analysis keeps it when run on a file. -/
theorem runStep_of_triple {x : Step Unit}
    (h : Step.Triple (fun w => R w.file) x fun _ w => R w.file) (u : Universe) {a : Analysis}
    (log : Array LogRecord) (ha : R a) : R (runStep x u a log).1 :=
  h u ⟨a, log⟩ ha

/-- A phase whose step keeps `R` keeps it of every analysis of the project. -/
theorem Every.runPhase {phase : Step Unit}
    (h : Step.Triple (fun w => R w.file) phase fun _ w => R w.file) (hp : Every R p) :
    Every R (p.runPhase phase) := by
  unfold Project.runPhase
  refine List.foldlRecOn (motive := Every R) _ _ hp fun q hq i _ => ?_
  split
  · next d hd =>
    split
    · next a ha =>
      exact hq.set i fun a' ha' => by
        cases ha'
        exact runStep_of_triple h _ _ (hq d (Array.mem_of_getElem? hd) a ha)
    · exact hq
  · exact hq

theorem Every.readSkeletons
    (h : ∀ file text, Step.Triple (fun _ => True) (Analysis.skeleton file text) fun _ w => R w.file)
    (hp : Every R p) : Every R p.readSkeletons := by
  unfold Project.readSkeletons
  refine Array.foldl_induction (fun _ q => Every R q) hp fun i q hq => ?_
  split
  · exact hq.set _ fun a ha => by
      cases ha
      exact h _ _ {} _ trivial
  · exact hq.set _ fun a ha => nomatch ha

/-- Pointing the includes of one document at their documents keeps every tree well formed: an
    include stays an include, and the project only gains log records meanwhile. -/
theorem Every.resolveIn (paths : List String) (i : Nat) (hp : Every (·.tree.WellFormed) p) :
    Every (·.tree.WellFormed) (p.resolveIn paths i) := by
  unfold Project.resolveIn
  split
  · next d hd =>
    split
    · exact hp
    · next a ha =>
      split
      · next a' p' hfold =>
        have hinv : (fun s : Analysis × Project =>
            s.1.tree.WellFormed ∧ s.2.documents = p.documents) (a', p') :=
          hfold ▸ List.foldlRecOn (motive := fun s : Analysis × Project =>
            s.1.tree.WellFormed ∧ s.2.documents = p.documents) _ _
            ⟨hp d (Array.mem_of_getElem? hd) a ha, rfl⟩ fun s hs id _ => by
              obtain ⟨a₀, q⟩ := s
              obtain ⟨hwf, hq⟩ := hs
              dsimp only
              split
              · next hg =>
                split
                · exact ⟨hwf.setKind hg ⟨rfl, rfl, rfl, rfl⟩ rfl, hq⟩
                · exact ⟨hwf.setKind hg ⟨rfl, rfl, rfl, rfl⟩ rfl, hq⟩
              · exact ⟨hwf, hq⟩
        obtain ⟨hwf, hdocs⟩ := hinv
        have hp' : Every (·.tree.WellFormed) p' := fun x hx => hp x (hdocs ▸ hx)
        exact hp'.set i fun a'' h'' => by
          cases h''
          exact hwf
  · exact hp

theorem Every.resolveIncludes (hp : Every (·.tree.WellFormed) p) :
    Every (·.tree.WellFormed) p.resolveIncludes := by
  unfold Project.resolveIncludes
  exact List.foldlRecOn (motive := Every (·.tree.WellFormed)) _ _ hp fun q hq i _ =>
    hq.resolveIn _ i

/-- Rebuilding a project keeps every tree well formed: the skeletons are well formed, and each
    later step keeps them so. -/
theorem Every.rebuild (hp : Every (·.tree.WellFormed) p) : Every (·.tree.WellFormed) p.rebuild := by
  unfold Project.rebuild
  have h := (((hp.readSkeletons fun file text => (Analysis.wellFormed_skeleton file text).post
    fun _ _ h => h.1) |>.resolveIncludes.runPhase
      (Step.Triple.of_file (R := fun a => a.tree.WellFormed) Analysis.wellFormed_addMembers)).runPhase
    Step.link_keepsTree.wellFormed).runPhase Analysis.wellFormed_addBodies
  dsimp only
  exact h.record _ _

theorem every_ofSources (files : List (String × String)) :
    Every (·.tree.WellFormed) (ofSources files) := by
  unfold Project.ofSources
  refine Every.rebuild (List.foldlRecOn (motive := Every (·.tree.WellFormed)) _ _ ?_
    fun q hq f _ => ?_)
  · intro d hd
    simp at hd
  · obtain ⟨path, text⟩ := f
    exact hq.push _ _ _

theorem Every.addDocument (hp : Every (·.tree.WellFormed) p) (path text : String) :
    Every (·.tree.WellFormed) (p.addDocument path text).2 := by
  unfold Project.addDocument
  have h := hp.push path text (some .zscript)
  generalize p.push path text (some .zscript) = r at h ⊢
  obtain ⟨id, q⟩ := r
  dsimp only
  exact h.rebuild

theorem Every.setContents (hp : Every (·.tree.WellFormed) p) {id : Nat} {text : String}
    {p' : Project} (h : p.setContents id text = .ok p') : Every (·.tree.WellFormed) p' := by
  unfold Project.setContents at h
  split at h
  · exact nomatch h
  · next d hd =>
    obtain rfl := Except.ok.inj h
    have hset : Every (·.tree.WellFormed)
        { p with documents := p.documents.set! id { d with text, modified := true } } :=
      hp.set id fun a ha => hp d (Array.mem_of_getElem? hd) a ha
    exact hset.rebuild

/-- The projects made from sources, then changed by adding documents and replacing texts. -/
inductive Reachable : Project → Prop
  | ofSources (files : List (String × String)) : Reachable (ofSources files)
  | addDocument {p : Project} (path text : String) : Reachable p →
      Reachable (p.addDocument path text).2
  | setContents {p p' : Project} (id : Nat) (text : String) : Reachable p →
      p.setContents id text = .ok p' → Reachable p'

theorem Reachable.every_wellFormed (h : p.Reachable) : Every (·.tree.WellFormed) p := by
  induction h with
  | ofSources files => exact every_ofSources files
  | addDocument path text _ ih => exact ih.addDocument path text
  | setContents id text _ hset ih => exact ih.setContents hset

end Project

/-! ## The stages of a lone file -/

/-- Each stage of a lone file has a well-formed tree. -/
theorem Analysis.wellFormed_stages (text : String) (upto : Nat) :
    ∀ a ∈ Analysis.stages text upto, a.tree.WellFormed := by
  unfold Analysis.stages
  dsimp only
  have hphases : ∀ phase ∈ [Analysis.addMembers, Analysis.link, Analysis.addBodies],
      Step.Triple (fun w => w.file.tree.WellFormed) phase fun _ w => w.file.tree.WellFormed := by
    intro phase hphase
    simp only [List.mem_cons, List.not_mem_nil, or_false] at hphase
    rcases hphase with rfl | rfl | rfl
    · exact Step.Triple.of_file (R := fun a => a.tree.WellFormed) Analysis.wellFormed_addMembers
    · exact Step.link_keepsTree.wellFormed
    · exact Analysis.wellFormed_addBodies
  have hfirst : (Project.runStep (Analysis.skeleton 0 text) {} { file := 0, tokens := [] }
      #[]).1.tree.WellFormed :=
    (Analysis.wellFormed_skeleton 0 text {} _ trivial).1
  -- the states gathered so far and the last one are well formed
  intro a ha
  refine (List.foldlRecOn (motive := fun s : List Analysis × Analysis =>
    (∀ x ∈ s.1, x.tree.WellFormed) ∧ s.2.tree.WellFormed) _ _ ?_ ?_).1 a (List.mem_of_mem_take ha)
  · exact ⟨fun x hx => by rw [List.mem_singleton.1 hx]; exact hfirst, hfirst⟩
  · intro s hs phase hphase
    have hnew := Project.runStep_of_triple (R := (·.tree.WellFormed)) (hphases phase hphase)
      { index := TypeIndex.build [s.2] } #[] hs.2
    refine ⟨fun x hx => ?_, hnew⟩
    rcases List.mem_append.1 hx with hx | hx
    · exact hs.1 x hx
    · rw [List.mem_singleton.1 hx]
      exact hnew
/-- Every syntax tree the analysis builds is well formed: at each stage of a lone file, and in
    every document of every project made from sources and then changed by adding documents and
    replacing texts. -/
theorem trees_wellFormed :
    (∀ text upto, ∀ a ∈ Analysis.stages text upto, a.tree.WellFormed) ∧
      ∀ p : Project, p.Reachable → ∀ a ∈ p.analyses, a.tree.WellFormed :=
  ⟨Analysis.wellFormed_stages, fun _ hp => hp.every_wellFormed.analyses⟩

/-- A project of two files, one with a `break` in a loop, holds only well-formed trees. -/
theorem trees_wellFormed_ofSources :
    (Project.ofSources
      [("a.zs", "class A \x7b void f() \x7b while (true) \x7b break; \x7d \x7d \x7d"),
        ("b.zs", "#include \"a.zs\"\nclass B : A \x7b int x; \x7d")]).analyses.Forall
      (·.tree.WellFormed) :=
  List.forall_iff_forall_mem.2 (trees_wellFormed.2 _ (.ofSources _))

end ZScript
