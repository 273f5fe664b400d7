import ZScript.Proofs.ClassLinks

/-!
# Class links are symmetric

The third phase of a rebuild links every top-level class of every file: the forward links look
the names of its header up in the index, and the reverse lists collect the classes of the index
whose header names it. The index is built once, before the phase, from the trees the members
phase left, and the phase changes the links of classes only, so the index of the linked project
lists the same classes.

`Project.linked_linksSymmetric` shows that the two sides agree across the whole project
(`Project.LinksSymmetric`): a class `B` of the index is among the children of a class `A` that is
not an `extend class` exactly when `A` is the parent of `B`, and likewise for extensions and
replacements; the reverse lists follow the order of the index and repeat no class; an
`extend class` is named by none, and no class links to itself.

Two facts about projects carry the proof. Every document sits at its own index and its analysis
is of that file (`Project.Filed`), so an entry of the index leads back to the document it came
from; reading the skeletons makes this so of any project whose ids are its indices
(`Project.Numbered`). And a phase changes each document on its own
(`Project.runPhase_getElem?`), so after the link phase every class of the index holds the links
that `ClassInfo.linksIn` computes from that one index.
-/

namespace ZScript

/-- What a phase does to one document, given what one run of its step does to an analysis: the
    document keeps its id, and its analysis, if it has one, changes as `S` says. -/
def Document.Changed (S : Analysis → Analysis → Prop) (d d' : Document) : Prop :=
  d'.id = d.id ∧ Option.Rel S d.analysis d'.analysis

/-- A document changed as `S` says has the analysis it had, as far as a function kept by `S`
    sees. -/
theorem Document.Changed.map_analysis {S : Analysis → Analysis → Prop} {d d' : Document}
    (h : Document.Changed S d d') {β : Type} {f : Analysis → β} (hf : ∀ a a', S a a' → f a' = f a) :
    d'.analysis.map f = d.analysis.map f := by
  obtain ⟨-, h⟩ := h
  generalize d.analysis = x at h ⊢
  generalize d'.analysis = y at h ⊢
  cases h with
  | none => rfl
  | some h => simp [hf _ _ h]

namespace Project

/-- Each document's id is its index, as `push` makes it. -/
def Numbered (p : Project) : Prop :=
  ∀ i (d : Document), p.documents[i]? = some d → d.id = i

/-- Each document's id is its index, and its analysis, if any, is of that file. -/
def Filed (p : Project) : Prop :=
  ∀ i (d : Document), p.documents[i]? = some d → d.id = i ∧ ∀ a, d.analysis = some a → a.file = i

/-- The project after the first three phases of a rebuild: skeletons and includes, members, class
    links. -/
def linked (p : Project) : Project :=
  ((p.readSkeletons.resolveIncludes).runPhase Analysis.addMembers).runPhase Analysis.link

/-- The handles of the classes of the project's index, in index order. -/
def indexClasses (p : Project) : List DeclRef :=
  (TypeIndex.build p.analyses).classes.toList.map (·.decl)

/-- The class that a handle names in the project, if it names one. -/
def classAt (p : Project) (r : DeclRef) : Option ClassInfo :=
  ((p.documents[r.file]?).bind (·.analysis)).bind (·.tree.classAt? r.node)

/-- `A` is a class of the project's index, and `a` is what it holds. -/
def Indexed (p : Project) (A : DeclRef) (a : ClassInfo) : Prop :=
  A ∈ p.indexClasses ∧ p.classAt A = some a

/-- The class links of a project agree with each other and with its index. `A` and `B` range over
    the classes of the index, `a` and `b` over what they hold. -/
structure LinksSymmetric (p : Project) : Prop where
  /-- Every class of the index is a class of the project. -/
  indexed : ∀ A ∈ p.indexClasses, ∃ a, p.Indexed A a
  /-- `B` is a child of `A` exactly when `A` is the parent of `B`, unless `A` is an
      `extend class`. -/
  children_iff : ∀ {A B a b}, p.Indexed A a → p.Indexed B b → a.extendName = none →
    (B ∈ a.links.children ↔ b.links.parent = some A)
  /-- `B` extends `A` exactly when `A` lists it among its extensions. -/
  extensions_iff : ∀ {A B a b}, p.Indexed A a → p.Indexed B b → a.extendName = none →
    (B ∈ a.links.extensions ↔ b.links.extend = some A)
  /-- `B` replaces `A` exactly when `A` lists it among the classes that replace it. -/
  replacedBy_iff : ∀ {A B a b}, p.Indexed A a → p.Indexed B b → a.extendName = none →
    (B ∈ a.links.replacedBy ↔ b.links.replace = some A)
  /-- The reverse lists follow the order of the index. -/
  ordered : ∀ {A a}, p.Indexed A a → a.links.children.Sublist p.indexClasses ∧
    a.links.extensions.Sublist p.indexClasses ∧ a.links.replacedBy.Sublist p.indexClasses
  /-- The reverse lists name each class once. -/
  nodup : ∀ {A a}, p.Indexed A a →
    a.links.children.Nodup ∧ a.links.extensions.Nodup ∧ a.links.replacedBy.Nodup
  /-- An `extend class` is named by no class. -/
  extend_unnamed : ∀ {A a}, p.Indexed A a → a.extendName.isSome →
    a.links.children = [] ∧ a.links.extensions = [] ∧ a.links.replacedBy = []
  /-- No class links to itself. -/
  irreflexive : ∀ {A a}, p.Indexed A a →
    a.links.parent ≠ some A ∧ a.links.extend ≠ some A ∧ a.links.replace ≠ some A ∧
      A ∉ a.links.children ∧ A ∉ a.links.extensions ∧ A ∉ a.links.replacedBy

variable {p : Project}

/-! ## A phase changes each document on its own -/

/-- A fold over the positions of a project whose step `j` changes position `j` only, as `R` says,
    relates each document to the one at its position at the end. -/
theorem foldl_range_getElem? {F : Project → Nat → Project} {R : Document → Document → Prop}
    (hstep : ∀ q j, Option.Rel R q.documents[j]? (F q j).documents[j]?)
    (hframe : ∀ q j i, j ≠ i → (F q j).documents[i]? = q.documents[i]?) (i : Nat) :
    Option.Rel R p.documents[i]? ((List.range p.documents.size).foldl F p).documents[i]? := by
  -- after `n` steps the positions below `n` are changed and the others are as they were
  have key : ∀ n i, (i < n → Option.Rel R p.documents[i]? ((List.range n).foldl F p).documents[i]?) ∧
      (n ≤ i → ((List.range n).foldl F p).documents[i]? = p.documents[i]?) := by
    intro n
    induction n with
    | zero => exact fun i => ⟨fun h => absurd h (Nat.not_lt_zero i), fun _ => rfl⟩
    | succ n ih =>
      intro i
      rw [List.range_succ, List.foldl_append, List.foldl_cons, List.foldl_nil]
      by_cases hi : i = n
      · subst hi
        refine ⟨fun _ => ?_, fun h => absurd h (by omega)⟩
        rw [← (ih i).2 le_rfl]
        exact hstep _ i
      · rw [hframe _ n i (Ne.symm hi)]
        exact ⟨fun h => (ih i).1 (by omega), fun h => (ih i).2 (by omega)⟩
  by_cases hi : i < p.documents.size
  · exact (key _ i).1 hi
  · rw [(key _ i).2 (by omega), Array.getElem?_eq_none (by omega)]
    exact Option.Rel.none

/-- A phase changes each document as one run of its step does, against the index of the project
    before the phase; no document moves, and none is added. -/
theorem runPhase_getElem? {phase : Step Unit} {S : Analysis → Analysis → Prop}
    (hS : ∀ trees a log, S a (runStep phase ⟨TypeIndex.build p.analyses, trees⟩ a log).1)
    (i : Nat) :
    Option.Rel (Document.Changed S) p.documents[i]? (p.runPhase phase).documents[i]? := by
  unfold runPhase
  refine foldl_range_getElem? (fun q j => ?_) (fun q j i hji => ?_) i
  · dsimp only
    split
    · next d hd =>
      split
      · next a ha =>
        have hj : j < q.documents.size := (Array.getElem?_eq_some_iff.1 hd).1
        simp only [hd, Array.set!_eq_setIfInBounds, Array.getElem?_setIfInBounds, if_pos hj,
          if_true, Option.rel_some_some]
        exact ⟨rfl, by rw [ha]; exact Option.Rel.some (hS _ a q.log)⟩
      · next ha =>
        rw [hd]
        exact Option.Rel.some ⟨rfl, by rw [ha]; exact Option.Rel.none⟩
    · next hd =>
      rw [hd]
      exact Option.Rel.none
  · dsimp only
    split
    · split
      · simp only [Array.set!_eq_setIfInBounds, Array.getElem?_setIfInBounds, if_neg hji]
      · rfl
    · rfl

/-! ## Documents stay at their index -/

/-- Setting the document at index `i` to one of id `i` whose analysis is of file `i`. -/
theorem Filed.set (hp : p.Filed) {i : Nat} {d : Document} (hid : d.id = i)
    (ha : ∀ a, d.analysis = some a → a.file = i) :
    ∀ j (x : Document), (p.documents.set! i d)[j]? = some x →
      x.id = j ∧ ∀ a, x.analysis = some a → a.file = j := by
  intro j x hx
  rw [Array.set!_eq_setIfInBounds, Array.getElem?_setIfInBounds] at hx
  split at hx
  · next hij =>
    subst hij
    split at hx
    · cases hx
      exact ⟨hid, ha⟩
    · cases hx
  · exact hp j x hx

/-- Reading the skeletons gives the document at each index an analysis of that file, with a
    well-formed tree, or none: every analysis held before is replaced. -/
theorem Numbered.readSkeletons (hp : p.Numbered) :
    p.readSkeletons.Filed ∧ Every (·.tree.WellFormed) p.readSkeletons := by
  -- after `k` steps the documents below `k` hold their new analyses
  let Done (k : Nat) (q : Project) : Prop := q.documents.size = p.documents.size ∧
    ∀ j (d : Document), q.documents[j]? = some d → d.id = j ∧
      (j < k → ∀ a, d.analysis = some a → a.file = j ∧ a.tree.WellFormed)
  suffices h : Done p.documents.size p.readSkeletons by
    obtain ⟨hsize, hdocs⟩ := h
    have hlt : ∀ j (x : Document), p.readSkeletons.documents[j]? = some x →
        j < p.documents.size :=
      fun j x hx => hsize ▸ (Array.getElem?_eq_some_iff.1 hx).1
    refine ⟨fun j x hx => ⟨(hdocs j x hx).1, fun a ha => ((hdocs j x hx).2 (hlt j x hx) a ha).1⟩,
      fun x hx a ha => ?_⟩
    obtain ⟨j, hj⟩ := Array.mem_iff_getElem?.1 hx
    exact ((hdocs j x hj).2 (hlt j x hj) a ha).2
  unfold Project.readSkeletons
  refine Array.foldl_induction Done ⟨rfl, fun j d hd => ⟨hp j d hd, fun hj => absurd hj (Nat.not_lt_zero j)⟩⟩
    fun i q hq => ?_
  obtain ⟨hsize, hdocs⟩ := hq
  have hid : p.documents[i].id = i := hp i _ (Array.getElem?_eq_getElem i.2)
  have hi : (i : Nat) < q.documents.size := by rw [hsize]; exact i.2
  -- the document at `i` is replaced by one of id `i`, the others are kept
  have hset : ∀ (x : Document) (r : Project), x.id = i →
      (∀ a, x.analysis = some a → a.file = i ∧ a.tree.WellFormed) →
      r.documents = q.documents.set! i x → Done (i + 1) r := by
    intro x r hx hxa hr
    refine ⟨by simp [hr, hsize], fun j y hy => ?_⟩
    rw [hr, Array.set!_eq_setIfInBounds, Array.getElem?_setIfInBounds] at hy
    split at hy
    · next hij =>
      subst hij
      cases hy
      exact ⟨hx, fun _ => hxa⟩
    · exact ⟨(hdocs j y hy).1, fun hj => (hdocs j y hy).2 (by omega)⟩
  split
  · split
    next a log heq =>
    have hskel := Analysis.wellFormed_skeleton (p.documents[i]).id (p.documents[i]).text {}
      ⟨{ file := (p.documents[i]).id, tokens := [] }, q.log⟩ trivial
    have ha : (runStep _ _ _ _).1 = a := congrArg Prod.fst heq
    refine hset { p.documents[i] with analysis := some a } _ hid (fun a' ha' => ?_) (by dsimp only; rw [hid])
    cases ha'
    rw [← ha]
    exact ⟨hskel.2.trans hid, hskel.1⟩
  · exact hset { p.documents[i] with analysis := none } _ hid (fun a ha => by cases ha) (by dsimp only; rw [hid])

/-- Pointing the includes of one document at their documents keeps every analysis of its file:
    the tree and the diagnostics change, and the project only gains log records meanwhile. -/
theorem Filed.resolveIn (paths : List String) (i : Nat) (hp : p.Filed) :
    (p.resolveIn paths i).Filed := by
  unfold Project.resolveIn
  split
  · next d hd =>
    split
    · exact hp
    · next a ha =>
      split
      · next a' p' hfold =>
        have hinv : (fun s : Analysis × Project =>
            s.1.file = a.file ∧ s.2.documents = p.documents) (a', p') :=
          hfold ▸ List.foldlRecOn (motive := fun s : Analysis × Project =>
            s.1.file = a.file ∧ s.2.documents = p.documents) _ _ ⟨rfl, rfl⟩ fun s hs id _ => by
              obtain ⟨a₀, q⟩ := s
              dsimp only
              split
              · split <;> exact hs
              · exact hs
        obtain ⟨hfile, hdocs⟩ := hinv
        have hp' : p'.Filed := fun j x hx => hp j x (hdocs ▸ hx)
        obtain ⟨hid, ha'⟩ := hp i d hd
        exact hp'.set hid fun b hb => by
          cases hb
          rw [hfile]
          exact ha' a ha
  · exact hp

theorem Filed.resolveIncludes (hp : p.Filed) : p.resolveIncludes.Filed := by
  unfold Project.resolveIncludes
  exact List.foldlRecOn (motive := Filed) _ _ hp fun q hq i _ => hq.resolveIn _ i

/-- A phase whose step keeps the file of every analysis satisfying `R` keeps a project filed. -/
theorem Filed.runPhase {phase : Step Unit} {R : Analysis → Prop} (hp : p.Filed) (hR : Every R p)
    (h : ∀ u a log, R a → (runStep phase u a log).1.file = a.file) : (p.runPhase phase).Filed := by
  intro i x hx
  have hrel := runPhase_getElem? (p := p) (S := fun a a' => R a → a'.file = a.file)
    (fun trees a log => h _ a log) i
  rw [hx] at hrel
  cases hd : p.documents[i]? with
  | none => simp [hd] at hrel
  | some d =>
    rw [hd, Option.rel_some_some] at hrel
    obtain ⟨hid, hrel⟩ := hrel
    obtain ⟨hid', hfile⟩ := hp i d hd
    refine ⟨hid.trans hid', fun a' ha' => ?_⟩
    rw [ha'] at hrel
    cases hda : d.analysis with
    | none => simp [hda] at hrel
    | some a =>
      rw [hda, Option.rel_some_some] at hrel
      rw [hrel (hR d (Array.mem_of_getElem? hd) a hda)]
      exact hfile a hda

/-- The link phase's change to an analysis: the file stays, and every top-level class of the tree
    is linked against `index`. -/
def Relinked (index : TypeIndex) (a a' : Analysis) : Prop :=
  a'.file = a.file ∧ a'.tree = a.tree.relinkAll index a.file
    (a.tree.declarations.filter (a.tree.holds · fun k => k matches .classDecl _))

theorem runPhase_link_getElem? (i : Nat) :
    Option.Rel (Document.Changed (Relinked (TypeIndex.build p.analyses))) p.documents[i]?
      (p.runPhase Analysis.link).documents[i]? :=
  runPhase_getElem? (fun trees a log =>
    (Analysis.tripleIn_link ⟨TypeIndex.build p.analyses, trees⟩ a.tree a.file ⟨a, log⟩
      ⟨rfl, rfl⟩).symm) i

/-! ## The index of a filed project -/

/-- When each document is changed as `S` says, the analyses give what they gave to a function
    that `S` keeps. -/
theorem analyses_map_eq {q : Project} {S : Analysis → Analysis → Prop}
    (hrel : ∀ i : Nat, Option.Rel (Document.Changed S) p.documents[i]? q.documents[i]?)
    {β : Type} {f : Analysis → β} (hf : ∀ a a', S a a' → f a' = f a) :
    q.analyses.map f = p.analyses.map f := by
  have hform : ∀ r : Project,
      r.analyses.map f = (r.documents.toList.map fun d => d.analysis.map f).filterMap id := by
    intro r
    simp [analyses, List.map_filterMap, List.filterMap_map]
  rw [hform, hform]
  congr 1
  refine List.ext_getElem? fun i => ?_
  simp only [List.getElem?_map, Array.getElem?_toList]
  have h := hrel i
  generalize p.documents[i]? = x at h ⊢
  generalize q.documents[i]? = y at h ⊢
  cases h with
  | none => rfl
  | some h => simp [h.map_analysis hf]

/-- The link phase keeps the classes of the index: it changes links, which the index does not
    read. -/
theorem classes_runPhase_link :
    (TypeIndex.build (p.runPhase Analysis.link).analyses).classes.toList =
      (TypeIndex.build p.analyses).classes.toList := by
  rw [TypeIndex.classes_build, TypeIndex.classes_build, List.flatMap_def, List.flatMap_def,
    analyses_map_eq (fun i => runPhase_link_getElem? (p := p) i) fun a a' h => ?_]
  rw [h.1, h.2, Tree.declarations_relinkAll, Tree.classEntryAt_relinkAll]

theorem indexClasses_runPhase_link :
    (p.runPhase Analysis.link).indexClasses = p.indexClasses := by
  rw [indexClasses, indexClasses, classes_runPhase_link]

/-- In a filed project, an entry of the index is the entry of a top-level class of the document at
    its file index. -/
theorem Filed.mem_classes (hp : p.Filed) {e : ClassEntry}
    (he : e ∈ (TypeIndex.build p.analyses).classes.toList) :
    ∃ d a, p.documents[e.decl.file]? = some d ∧ d.analysis = some a ∧
      e.decl.node ∈ a.tree.declarations ∧ a.tree.classEntryAt e.decl.file e.decl.node = some e := by
  rw [TypeIndex.classes_build] at he
  obtain ⟨a, ha, he⟩ := List.mem_flatMap.1 he
  obtain ⟨id, hid, hent⟩ := List.mem_filterMap.1 he
  obtain ⟨d, hd, hda⟩ := List.mem_filterMap.1 ha
  obtain ⟨i, hi⟩ := List.mem_iff_getElem?.1 hd
  rw [Array.getElem?_toList] at hi
  have hfile : a.file = i := (hp i d hi).2 a hda
  rw [(Tree.classEntryAt_spec hent).1]
  exact ⟨d, a, by rw [hfile]; exact hi, hda, hid, hent⟩

/-- The classes of a filed project describe its index. -/
theorem Filed.describes (hp : p.Filed) : (TypeIndex.build p.analyses).Describes p.classAt := by
  intro e he
  obtain ⟨d, a, hd, hda, -, hent⟩ := hp.mem_classes he
  obtain ⟨-, -, c, hc, hname⟩ := Tree.classEntryAt_spec hent
  exact ⟨c, by simp [classAt, hd, hda, hc], hname⟩

/-- The link phase gives every class of the index the links that `ClassInfo.linksIn` computes
    from the index. -/
theorem Filed.classAt_runPhase_link (hp : p.Filed) {A : DeclRef} (hA : A ∈ p.indexClasses) :
    (p.runPhase Analysis.link).classAt A =
      (p.classAt A).map fun c => { c with links := c.linksIn (TypeIndex.build p.analyses) A } := by
  obtain ⟨e, he, rfl⟩ := List.mem_map.1 hA
  obtain ⟨d, a, hd, hda, hdecl, hent⟩ := hp.mem_classes he
  obtain ⟨-, hclass, -⟩ := Tree.classEntryAt_spec hent
  have hfile : a.file = e.decl.file := (hp _ d hd).2 a hda
  have hrel := runPhase_link_getElem? (p := p) e.decl.file
  rw [hd] at hrel
  cases hd' : (p.runPhase Analysis.link).documents[e.decl.file]? with
  | none => rw [hd'] at hrel; exact absurd hrel Option.not_rel_some_none
  | some d' =>
    rw [hd', Option.rel_some_some] at hrel
    obtain ⟨-, hrel⟩ := hrel
    rw [hda] at hrel
    cases hda' : d'.analysis with
    | none => rw [hda'] at hrel; exact absurd hrel Option.not_rel_some_none
    | some a' =>
      rw [hda', Option.rel_some_some] at hrel
      -- the class is among the top-level classes that the phase links
      have hmem : e.decl.node ∈
          a.tree.declarations.filter (a.tree.holds · fun k => k matches .classDecl _) :=
        List.mem_filter.2 ⟨hdecl, hclass⟩
      simp only [classAt, hd, hd', hda, hda', Option.bind_some, hrel.2, Tree.classAt?_relinkAll,
        hfile, if_pos hmem]

/-- The classes of the index of a filed project with well-formed trees are distinct: each is a
    top-level class of its own file, and a tree lists its top-level declarations once. -/
theorem Filed.nodup_indexClasses (hp : p.Filed) (hwf : Every (·.tree.WellFormed) p) :
    p.indexClasses.Nodup := by
  have hdecl : ∀ (a : Analysis) (x : DeclRef), x ∈ (a.tree.declarations.filterMap (a.tree.classEntryAt a.file)).map (·.decl) →
      x.file = a.file := by
    intro a x hx
    obtain ⟨e, he, rfl⟩ := List.mem_map.1 hx
    obtain ⟨id, -, hent⟩ := List.mem_filterMap.1 he
    rw [(Tree.classEntryAt_spec hent).1]
  -- distinct documents hold analyses of distinct files
  have hfiles : p.analyses.Pairwise fun a b => a.file ≠ b.file := by
    refine List.pairwise_filterMap.2 (List.pairwise_iff_getElem.2 fun i j hi hj hij a ha b hb => ?_)
    have hi' : i < p.documents.size := by simpa using hi
    have hj' : j < p.documents.size := by simpa using hj
    rw [(hp i _ (Array.getElem?_eq_getElem hi')).2 a (by simpa using ha),
      (hp j _ (Array.getElem?_eq_getElem hj')).2 b (by simpa using hb)]
    exact Nat.ne_of_lt hij
  rw [indexClasses, TypeIndex.classes_build, List.map_flatMap]
  refine List.nodup_flatMap.2 ⟨fun a ha => ?_, hfiles.imp fun hab x hxa hxb => hab ?_⟩
  · -- the classes of one file are distinct nodes of its tree
    rw [List.map_filterMap]
    refine List.Nodup.filterMap (fun i i' x hx hx' => ?_) (hwf.analyses a ha).nodup_declarations
    obtain ⟨e, he, rfl⟩ := Option.mem_map.1 hx
    obtain ⟨e', he', hee⟩ := Option.mem_map.1 hx'
    have h := (Tree.classEntryAt_spec he).1
    have h' := (Tree.classEntryAt_spec he').1
    rw [h', h] at hee
    exact (DeclRef.mk.inj hee).2.symm
  · exact (hdecl _ x hxa).symm.trans (hdecl _ x hxb)

/-! ## The linked project -/

/-- A class of the index after the link phase holds the class it held before, with the links
    that `ClassInfo.linksIn` computes. -/
theorem Filed.indexed_runPhase_link (hp : p.Filed) {A : DeclRef} {a : ClassInfo}
    (h : (p.runPhase Analysis.link).Indexed A a) :
    ∃ c, p.Indexed A c ∧ a = { c with links := c.linksIn (TypeIndex.build p.analyses) A } := by
  obtain ⟨hA, ha⟩ := h
  rw [indexClasses_runPhase_link] at hA
  rw [hp.classAt_runPhase_link hA] at ha
  obtain ⟨c, hc, rfl⟩ := Option.map_eq_some_iff.1 ha
  exact ⟨c, ⟨hA, hc⟩, rfl⟩

section Roles

variable (r : LinkRole) {A B : DeclRef} {a b : ClassInfo}

theorem Filed.mem_reverse_iff (hp : p.Filed) (hA : (p.runPhase Analysis.link).Indexed A a)
    (hB : (p.runPhase Analysis.link).Indexed B b) (hx : a.extendName = none) :
    B ∈ r.reverse a.links ↔ r.forward b.links = some A := by
  obtain ⟨c, -, rfl⟩ := hp.indexed_runPhase_link hA
  obtain ⟨c', hc', rfl⟩ := hp.indexed_runPhase_link hB
  exact r.mem_reverse_iff hp.describes hc'.1 hc'.2 hx

theorem Filed.reverse_sublist (hp : p.Filed) (hA : (p.runPhase Analysis.link).Indexed A a) :
    (r.reverse a.links).Sublist (p.runPhase Analysis.link).indexClasses := by
  obtain ⟨c, -, rfl⟩ := hp.indexed_runPhase_link hA
  rw [indexClasses_runPhase_link]
  exact r.reverse_sublist

theorem Filed.reverse_of_extend (hp : p.Filed) (hA : (p.runPhase Analysis.link).Indexed A a)
    (hx : a.extendName.isSome) : r.reverse a.links = [] := by
  obtain ⟨c, -, rfl⟩ := hp.indexed_runPhase_link hA
  exact r.reverse_of_extend hx

theorem Filed.not_self (hp : p.Filed) (hA : (p.runPhase Analysis.link).Indexed A a) :
    r.forward a.links ≠ some A ∧ A ∉ r.reverse a.links := by
  obtain ⟨c, -, rfl⟩ := hp.indexed_runPhase_link hA
  exact ⟨r.forward_ne_self, r.not_mem_reverse_self⟩

end Roles

/-- In a filed project with well-formed trees, the link phase leaves the class links symmetric. -/
theorem Filed.linksSymmetric_runPhase_link (hp : p.Filed) (hwf : Every (·.tree.WellFormed) p) :
    (p.runPhase Analysis.link).LinksSymmetric := by
  have hnodup : (p.runPhase Analysis.link).indexClasses.Nodup := by
    rw [indexClasses_runPhase_link]
    exact hp.nodup_indexClasses hwf
  refine ⟨fun A hA => ?_, hp.mem_reverse_iff .parent, hp.mem_reverse_iff .extend,
    hp.mem_reverse_iff .replace, fun hA => ?_, fun hA => ?_, fun hA hx => ?_, fun hA => ?_⟩
  · -- every class of the index holds a class, linked
    have hA' : A ∈ p.indexClasses := by rwa [indexClasses_runPhase_link] at hA
    obtain ⟨e, he, rfl⟩ := List.mem_map.1 hA'
    obtain ⟨c, hc, -⟩ := hp.describes e he
    exact ⟨_, hA, by rw [hp.classAt_runPhase_link hA', hc]; rfl⟩
  · exact ⟨hp.reverse_sublist .parent hA, hp.reverse_sublist .extend hA,
      hp.reverse_sublist .replace hA⟩
  · exact ⟨(hp.reverse_sublist .parent hA).nodup hnodup, (hp.reverse_sublist .extend hA).nodup hnodup,
      (hp.reverse_sublist .replace hA).nodup hnodup⟩
  · exact ⟨hp.reverse_of_extend .parent hA hx, hp.reverse_of_extend .extend hA hx,
      hp.reverse_of_extend .replace hA hx⟩
  · obtain ⟨hparent, hchildren⟩ := hp.not_self .parent hA
    obtain ⟨hextend, hextensions⟩ := hp.not_self .extend hA
    obtain ⟨hreplace, hreplacedBy⟩ := hp.not_self .replace hA
    exact ⟨hparent, hextend, hreplace, hchildren, hextensions, hreplacedBy⟩

/-- Class links are symmetric once the third phase of a rebuild has run, in every project whose
    documents sit at their ids. -/
theorem linked_linksSymmetric (hp : p.Numbered) : p.linked.LinksSymmetric := by
  obtain ⟨hfiled, hwf⟩ := hp.readSkeletons
  have hwf' := hwf.resolveIncludes
  have hmembers : ((p.readSkeletons.resolveIncludes).runPhase Analysis.addMembers).Filed :=
    hfiled.resolveIncludes.runPhase hwf' fun u a log ha =>
      (Analysis.wellFormed_addMembers a.file u ⟨a, log⟩ ⟨ha, rfl⟩).2
  exact hmembers.linksSymmetric_runPhase_link (hwf'.runPhase
    (Step.Triple.of_file (R := fun a => a.tree.WellFormed) Analysis.wellFormed_addMembers))

theorem numbered_empty : ({} : Project).Numbered := fun i d hd => by simp at hd

/-- `push` puts the new document at its id. -/
theorem Numbered.push (hp : p.Numbered) (path text : String) (kind : Option FileKind) :
    (p.push path text kind).2.Numbered := by
  intro i d hd
  simp only [Project.push, Array.getElem?_push] at hd
  split at hd
  · next hi =>
    cases hd
    exact hi.symm
  · exact hp i d hd

/-- Two files: a class, a child of it and an `extend class` of it in one, a class that replaces
    the child in the other. -/
theorem linked_linksSymmetric_twoFiles :
    ((({} : Project).push "a.zs" "class Actor \x7b \x7d class Monster : Actor \x7b \x7d"
      (some .zscript)).2.push "b.zs" "class Imp : Monster replaces Monster \x7b \x7d extend class Actor \x7b \x7d"
      (some .zscript)).2.Numbered ∧
    ((({} : Project).push "a.zs" "class Actor \x7b \x7d class Monster : Actor \x7b \x7d"
      (some .zscript)).2.push "b.zs" "class Imp : Monster replaces Monster \x7b \x7d extend class Actor \x7b \x7d"
      (some .zscript)).2.linked.LinksSymmetric :=
  ⟨(numbered_empty.push _ _ _).push _ _ _,
    linked_linksSymmetric ((numbered_empty.push _ _ _).push _ _ _)⟩

end Project

end ZScript
