import ZScript.Proofs.LiveBodies
import ZScript.Proofs.SemanticRanges

/-!
# No handle dangles in a project

Every phase of a rebuild keeps each file alive in the universe it is analysed in
(`Analysis.keepsAlive_addMembers`, `Analysis.keepsAlive_link`, `Analysis.keepsAlive_addBodies`).
This module lifts that to whole projects. While document `i` is analysed, the universe lends it
the trees the other documents hold at that moment (`Project.lent`), and a handle alive there,
counting the nodes the document had when the phase began, is alive in the project
(`Project.live_lent`).

A project is `Fit` when each analysis is well formed and alive in the trees lent to it. The
index of a phase names only nodes of the analyses the project held before the phase
(`TypeIndex.holds_build`), and analyses only grow during a phase (`Project.Grows`), so each
document's universe is sound and each phase keeps a project fit (`Project.Fit.runPhase`). The
skeletons are alive on their own, and include resolution only points includes at documents, so
every rebuild, and hence every reachable project, is fit. From that, `Project.handles_alive`:
no handle of a reachable project dangles.
-/

namespace ZScript

namespace TypeIndex

/-- The declarations an index holds: its types, its symbols and its classes. -/
def Holds (idx : TypeIndex) (d : DeclRef) : Prop :=
  (∃ k : String, idx.types[k]? = some d) ∨ (∃ k : String, idx.symbols[k]? = some d) ∨ ∃ e ∈ idx.classes, e.decl = d

theorem getElem?_insertIfNew_eq_some {m : Std.HashMap String DeclRef} {k k' : String}
    {v d : DeclRef} (h : (m.insertIfNew k v)[k']? = some d) : m[k']? = some d ∨ d = v := by
  rw [Std.HashMap.getElem?_insertIfNew] at h
  split at h
  · exact .inr (Option.some.inj h).symm
  · exact .inl h

/-- The members an enum enters name nodes of its tree. -/
theorem getElem?_addMembers {file : Nat} {t : Tree} {ids : List Nat} :
    ∀ {symbols : Std.HashMap String DeclRef} {k : String} {d : DeclRef},
      (addMembers file t symbols ids)[k]? = some d →
        symbols[k]? = some d ∨ d.file = file ∧ d.node < t.size := by
  induction ids with
  | nil => exact fun h => .inl h
  | cons m ms ih =>
    intro symbols k d h
    rw [addMembers, List.foldl_cons] at h
    rcases ih h with h | hnew
    · split at h
      · next node hg =>
        rcases getElem?_insertIfNew_eq_some h with h | rfl
        · exact .inl h
        · exact .inr ⟨rfl, Tree.lt_size_of_get? hg⟩
      · exact .inl h
    · exact .inr hnew

/-- An index whose tables keep the old entries and add only nodes of the tree of `file` holds only
    what the old one holds and such nodes. -/
theorem holds_of_tables (idx : TypeIndex) {idx' : TypeIndex} {file : Nat} {t : Tree} {d : DeclRef}
    (h : idx'.Holds d)
    (htypes : ∀ k : String, idx'.types[k]? = some d →
      idx.types[k]? = some d ∨ d.file = file ∧ d.node < t.size)
    (hsymbols : ∀ k : String, idx'.symbols[k]? = some d →
      idx.symbols[k]? = some d ∨ d.file = file ∧ d.node < t.size)
    (hclasses : ∀ e ∈ idx'.classes, e.decl = d → e ∈ idx.classes ∨ d.file = file ∧ d.node < t.size) :
    idx.Holds d ∨ d.file = file ∧ d.node < t.size := by
  rcases h with ⟨k, hk⟩ | ⟨k, hk⟩ | ⟨e, he, hed⟩
  · exact (htypes k hk).imp_left fun hk => .inl ⟨k, hk⟩
  · exact (hsymbols k hk).imp_left fun hk => .inr (.inl ⟨k, hk⟩)
  · exact (hclasses e he hed).imp_left fun he => .inr (.inr ⟨e, he, hed⟩)

/-- A declaration entered into the index adds entries that name nodes of its tree. -/
theorem holds_addDecl {file : Nat} {t : Tree} {idx : TypeIndex} {id : Nat} {d : DeclRef}
    (h : (addDecl file t idx id).Holds d) : idx.Holds d ∨ d.file = file ∧ d.node < t.size := by
  unfold addDecl at h
  split at h
  · exact .inl h
  · next node hg =>
    have hid : id < t.size := Tree.lt_size_of_get? hg
    have htype : ∀ (m : Std.HashMap String DeclRef) k k', (m.insertIfNew k ⟨file, id⟩)[k']? = some d →
        m[k']? = some d ∨ d.file = file ∧ d.node < t.size := fun m k k' h' =>
      (getElem?_insertIfNew_eq_some h').imp_right fun (h : d = ⟨file, id⟩) => h ▸ ⟨rfl, hid⟩
    have hclass : ∀ e e', e ∈ idx.classes.push e' → e'.decl = ⟨file, id⟩ → e.decl = d →
        e ∈ idx.classes ∨ d.file = file ∧ d.node < t.size := by
      intro e e' he he' hed
      rcases Array.mem_push.1 he with he | rfl
      · exact .inl he
      · exact .inr (hed ▸ he' ▸ ⟨rfl, hid⟩)
    dsimp only at h
    -- each kind of declaration keeps or extends each table
    split at h
    · split at h
      all_goals
        refine idx.holds_of_tables h (fun k hk => ?_) (fun k hk => .inl hk)
          fun e he hed => hclass e _ he rfl hed
      · exact htype _ _ _ hk
      · exact .inl hk
    · exact idx.holds_of_tables h (fun k hk => htype _ _ _ hk) (fun k hk => .inl hk) fun e he _ => .inl he
    · exact idx.holds_of_tables h (fun k hk => htype _ _ _ hk) (fun k hk => getElem?_addMembers hk)
        fun e he _ => .inl he
    · exact idx.holds_of_tables h (fun k hk => .inl hk) (fun k hk => htype _ _ _ hk) fun e he _ => .inl he
    · exact idx.holds_of_tables h (fun k hk => .inl hk) (fun k hk => .inl hk) fun e he _ => .inl he

/-- A file entered into the index adds entries that name nodes of its tree. -/
theorem holds_addFile {idx : TypeIndex} {a : Analysis} {d : DeclRef} (h : (addFile idx a).Holds d) :
    idx.Holds d ∨ d.file = a.file ∧ d.node < a.tree.size := by
  unfold addFile at h
  generalize a.tree.declarations = ids at h
  induction ids generalizing idx with
  | nil => exact .inl h
  | cons id ids ih =>
    rw [List.foldl_cons] at h
    rcases ih h with h | hnew
    · exact holds_addDecl h
    · exact .inr hnew

/-- Every entry of the index of some files names a node of one of their trees. -/
theorem holds_build {files : List Analysis} {d : DeclRef} (h : (build files).Holds d) :
    ∃ a ∈ files, d.file = a.file ∧ d.node < a.tree.size := by
  unfold build at h
  -- the fold adds to what the index held only nodes of the files it enters
  suffices hfold : ∀ idx : TypeIndex, (files.foldl addFile idx).Holds d →
      idx.Holds d ∨ ∃ a ∈ files, d.file = a.file ∧ d.node < a.tree.size by
    rcases hfold {} h with h | h
    · simp [Holds] at h
    · exact h
  clear h
  induction files with
  | nil => exact fun idx h => .inl h
  | cons a as ih =>
    intro idx h
    rw [List.foldl_cons] at h
    rcases ih _ h with h | ⟨b, hb, hd⟩
    · exact (holds_addFile h).imp_right fun hd => ⟨a, List.mem_cons_self, hd⟩
    · exact .inr ⟨b, List.mem_cons_of_mem _ hb, hd⟩

end TypeIndex

/-! ## Universes that lend larger trees -/

/-- `u'` lends every tree `u` lends, at least as large, and perhaps more files. -/
structure Universe.Grows (u u' : Universe) : Prop where
  size : u.trees.size ≤ u'.trees.size
  trees : ∀ (j : Nat) (t : Tree), u.trees[j]? = some (some t) →
    ∃ t' : Tree, u'.trees[j]? = some (some t') ∧ t.size ≤ t'.size

namespace Universe

variable {u u' : Universe} {i n : Nat}

/-- The empty universe lends nothing. -/
theorem grows_empty (u : Universe) : ({} : Universe).Grows u :=
  ⟨Nat.zero_le _, fun j t h => by simp at h⟩

/-- Universes that lend the same trees, whatever their indexes. -/
theorem grows_of_trees {u u' : Universe} (h : u.trees = u'.trees) : u.Grows u' :=
  ⟨Nat.le_of_eq (congrArg Array.size h), fun _ t ht => ⟨t, h ▸ ht, Nat.le_refl _⟩⟩

theorem Live.grow {r : Target} (h : u.Live i n r) (hg : u.Grows u') : u'.Live i n r := by
  cases r with
  | decl d =>
    simp only [Universe.Live] at h ⊢
    split_ifs at h ⊢
    · exact h
    · obtain ⟨t, ht, hlt⟩ := h
      obtain ⟨t', ht', hle⟩ := hg.trees _ t ht
      exact ⟨t', ht', Nat.lt_of_lt_of_le hlt hle⟩
  | builtin b => exact h

end Universe

theorem NodeKind.AliveIn.grow {u u' : Universe} {i n : Nat} {k : NodeKind} (h : k.AliveIn u i n)
    (hg : u.Grows u') : k.AliveIn u' i n :=
  ⟨fun r hr => (h.handles r hr).grow hg, h.self, fun f hf => Nat.lt_of_lt_of_le (h.included f hf) hg.size⟩

/-- What is alive in a universe stays alive in one that lends larger trees. -/
theorem Alive.grow {u u' : Universe} {i m : Nat} {a : Analysis} (h : Alive u i m a)
    (hg : u.Grows u') : Alive u' i m a :=
  ⟨h.file, h.size, fun s hs r hr => (h.semantic s hs r hr).grow hg,
    fun id node hn => (h.nodes id node hn).grow hg⟩

theorem Alive.modifyKind {u : Universe} {i m : Nat} {a : Analysis} (h : Alive u i m a) {id : Nat}
    {f : NodeKind → NodeKind}
    (hf : ∀ node, a.tree.get? id = some node → (f node.kind).AliveIn u i a.tree.size) :
    Alive u i m { a with tree := a.tree.modifyKind id f } :=
  Step.alive_modifyKind (u := u) id f ⟨a, #[]⟩ ⟨h, hf⟩

/-- An include is fit for any tree once its target, if it has one, is a file of the universe. -/
theorem NodeKind.aliveIn_inclusion {u : Universe} {i n : Nat} (location : String)
    {target : Option Nat} (h : ∀ f ∈ target, f < u.trees.size) :
    (NodeKind.inclusion location target).AliveIn u i n :=
  ⟨fun r hr => (by cases hr), fun x hx => (by cases hx), h⟩

/-! ## The trees a project lends -/

namespace Project

variable {p q : Project} {i : Nat} {d : Document} {a : Analysis}

/-- The trees the other documents lend document `i` while a phase runs over it. -/
def lent (p : Project) (i : Nat) : Array (Option Tree) :=
  p.documents.mapIdx fun j d => if j == i then none else d.analysis.map (·.tree)

@[simp] theorem size_lent (p : Project) (i : Nat) : (p.lent i).size = p.documents.size :=
  Array.size_mapIdx

theorem getElem?_lent (p : Project) (i j : Nat) :
    (p.lent i)[j]? = p.documents[j]?.map fun d => if j = i then none else d.analysis.map (·.tree) := by
  simp [lent, Array.getElem?_mapIdx]

/-- A tree lent to document `i` is the tree of another document's analysis. -/
theorem getElem?_lent_eq_some {j : Nat} {t : Tree} (h : (p.lent i)[j]? = some (some t)) :
    j ≠ i ∧ ∃ d a, p.documents[j]? = some d ∧ d.analysis = some a ∧ a.tree = t := by
  rw [getElem?_lent] at h
  obtain ⟨d, hd, h⟩ := Option.map_eq_some_iff.1 h
  split at h
  · cases h
  · next hj =>
    obtain ⟨a, ha, rfl⟩ := Option.map_eq_some_iff.1 h
    exact ⟨hj, d, a, hd, ha, rfl⟩

theorem lent_congr (h : q.documents = p.documents) (i : Nat) : q.lent i = p.lent i := by
  simp only [lent, h]

/-- While document `i` is analysed against the trees the others lend it, a handle is alive,
    counting the `a.tree.size` nodes its analysis had, exactly when it is alive in the project. -/
theorem live_lent (hd : p.documents[i]? = some d) (ha : d.analysis = some a) (idx : TypeIndex)
    (r : Target) : Universe.Live ⟨idx, p.lent i⟩ i a.tree.size r ↔ p.Live r := by
  cases r with
  | builtin b => exact Iff.rfl
  | decl x =>
    simp only [Universe.Live, Project.Live]
    split_ifs with hx
    · subst hx
      simp [hd, ha]
    · simp only [getElem?_lent, hx, if_false, Option.map_eq_some_iff]
      constructor
      · rintro ⟨_, ⟨doc, hdoc, b, hb, rfl⟩, hlt⟩
        exact ⟨doc, b, hdoc, hb, hlt⟩
      · rintro ⟨doc, b, hdoc, hb, hlt⟩
        exact ⟨_, ⟨doc, hdoc, b, hb, rfl⟩, hlt⟩

/-- A project fit for its phases: each document sits at its index, and each analysis has a
    well-formed tree and is alive in the trees the other documents lend it. -/
structure Fit (p : Project) : Prop where
  numbered : p.Numbered
  alive : ∀ (i : Nat) (d : Document) (a : Analysis), p.documents[i]? = some d →
    d.analysis = some a → Alive { trees := p.lent i } i 0 a ∧ a.tree.WellFormed

/-- Fitness depends on the documents only. -/
theorem Fit.of_documents (hp : p.Fit) (h : q.documents = p.documents) : q.Fit where
  numbered j x hx := hp.numbered j x (h ▸ hx)
  alive j x b hx hb := lent_congr h j ▸ hp.alive j x b (h ▸ hx) hb

theorem Fit.record (hp : p.Fit) (level : LogLevel) (message : String) :
    (p.record level message).Fit := hp.of_documents rfl

/-- Analysing document `i` of a fit project in the trees the others lend it is sound, against an
    index that names only handles alive in the project. -/
theorem Fit.sound (hp : p.Fit) (hd : p.documents[i]? = some d) (ha : d.analysis = some a)
    {idx : TypeIndex} (hidx : ∀ x, idx.Holds x → p.Live (.decl x)) :
    Universe.Sound ⟨idx, p.lent i⟩ i a.tree.size := by
  have hlive := live_lent hd ha idx
  refine ⟨fun k x hk => (hlive _).2 (hidx x (.inl ⟨k, hk⟩)),
    fun k x hk => (hlive _).2 (hidx x (.inr (.inl ⟨k, hk⟩))),
    fun e he => (hlive _).2 (hidx _ (.inr (.inr ⟨e, he, rfl⟩))), fun j t ht id node hg r hr => ?_,
    fun j t ht id node hg x hx => ?_⟩
  all_goals
    obtain ⟨-, dj, aj, hdj, haj, rfl⟩ := getElem?_lent_eq_some ht
    have hnode := (hp.alive j dj aj hdj haj).1.nodes id node hg
  · exact (hlive r).2 ((live_lent hdj haj {} r).1 (hnode.handles r hr))
  · exact hnode.self x hx

/-- Every analysis of `p` has one at its index in `q`, with a tree at least as large. -/
def Grows (p q : Project) : Prop :=
  ∀ (j : Nat) (d : Document) (a : Analysis), p.documents[j]? = some d → d.analysis = some a →
    ∃ (d' : Document) (a' : Analysis), q.documents[j]? = some d' ∧ d'.analysis = some a' ∧ a.tree.size ≤ a'.tree.size

theorem Grows.refl (p : Project) : p.Grows p :=
  fun _ d a hd ha => ⟨d, a, hd, ha, Nat.le_refl _⟩

/-- A handle alive in a project stays alive in every project its analyses grow into. -/
theorem Grows.live (hg : p.Grows q) {r : Target} (hr : p.Live r) : q.Live r := by
  cases r with
  | decl x =>
    obtain ⟨d, a, hd, ha, hlt⟩ := hr
    obtain ⟨d', a', hd', ha', hle⟩ := hg _ d a hd ha
    exact ⟨d', a', hd', ha', Nat.lt_of_lt_of_le hlt hle⟩
  | builtin b => exact hr

/-- The index of a fit project names only handles alive in it. -/
theorem Fit.live_index (hp : p.Fit) {x : DeclRef} (hx : (TypeIndex.build p.analyses).Holds x) :
    p.Live (.decl x) := by
  obtain ⟨a, ha, hfile, hlt⟩ := TypeIndex.holds_build hx
  obtain ⟨d, hd, hda⟩ := List.mem_filterMap.1 ha
  obtain ⟨j, hj⟩ := Array.mem_iff_getElem?.1 (Array.mem_toList_iff.1 hd)
  have hfile' : a.file = j := (hp.alive j d a hj hda).1.file
  exact ⟨d, a, hfile.trans hfile' ▸ hj, hda, hlt⟩

/-- The documents after document `i` of `p` is set to `x`. -/
theorem getElem?_set (hd : p.documents[i]? = some d) {x : Document}
    (hq : q.documents = p.documents.set! i x) (k : Nat) :
    q.documents[k]? = if i = k then some x else p.documents[k]? := by
  have hi : i < p.documents.size := (Array.getElem?_eq_some_iff.1 hd).1
  rw [hq, Array.set!_eq_setIfInBounds, Array.getElem?_setIfInBounds]
  split_ifs <;> simp_all

/-- Setting document `i` to one whose analysis has a tree at least as large makes every document
    lent larger trees. -/
theorem grows_lent_set (hd : p.documents[i]? = some d) (ha : d.analysis = some a) {b : Analysis}
    (hsize : a.tree.size ≤ b.tree.size)
    (hq : q.documents = p.documents.set! i { d with analysis := some b }) (j : Nat)
    (idx idx' : TypeIndex) : Universe.Grows ⟨idx, p.lent j⟩ ⟨idx', q.lent j⟩ := by
  refine ⟨by simp [hq], fun k t hk => ?_⟩
  obtain ⟨hkj, dk, ak, hdk, hak, rfl⟩ := getElem?_lent_eq_some hk
  dsimp only
  rw [getElem?_lent, getElem?_set hd hq]
  by_cases hik : i = k
  · subst hik
    rw [hd] at hdk
    cases hdk
    rw [ha] at hak
    cases hak
    exact ⟨b.tree, by simp [hkj], hsize⟩
  · exact ⟨ak.tree, by simp [hik, hdk, hkj, hak], Nat.le_refl _⟩

/-- Giving document `i` of a fit project a well-formed analysis alive in the trees lent to it,
    with a tree at least as large as the one it had, keeps the project fit. -/
theorem Fit.set (hp : p.Fit) (hd : p.documents[i]? = some d) (ha : d.analysis = some a)
    {b : Analysis} {idx : TypeIndex} {m : Nat} (hb : Alive ⟨idx, p.lent i⟩ i m b)
    (hwf : b.tree.WellFormed) (hsize : a.tree.size ≤ b.tree.size)
    (hq : q.documents = p.documents.set! i { d with analysis := some b }) : q.Fit where
  numbered j x hx := by
    rw [getElem?_set hd hq] at hx
    split_ifs at hx with hij
    · cases hx
      exact hij ▸ hp.numbered i d hd
    · exact hp.numbered j x hx
  alive j x c hx hc := by
    have hg := grows_lent_set hd ha hsize hq j
    rw [getElem?_set hd hq] at hx
    split_ifs at hx with hij
    · subst hij
      cases hx
      cases hc
      exact ⟨(hb.grow (hg idx {})).weaken (Nat.zero_le _), hwf⟩
    · obtain ⟨hc, hcwf⟩ := hp.alive j x c hx hc
      exact ⟨hc.grow (hg {} {}), hcwf⟩

/-- Setting document `i` to one whose analysis has a larger tree keeps what `p` grew into. -/
theorem Grows.set {r : Project} (hg : r.Grows p) (hd : p.documents[i]? = some d)
    (ha : d.analysis = some a) {b : Analysis} (hsize : a.tree.size ≤ b.tree.size)
    (hq : q.documents = p.documents.set! i { d with analysis := some b }) : r.Grows q := by
  intro j x c hx hc
  obtain ⟨x', c', hx', hc', hle⟩ := hg j x c hx hc
  rw [getElem?_set hd hq]
  split_ifs with hij
  · subst hij
    rw [hd] at hx'
    cases hx'
    rw [ha] at hc'
    cases hc'
    exact ⟨_, b, rfl, rfl, Nat.le_trans hle hsize⟩
  · exact ⟨x', c', hx', hc', hle⟩

/-- A phase whose step keeps a well-formed file alive in every universe sound for it, and keeps
    trees well formed, keeps a project fit. Each document is analysed against the index of the
    project before the phase and the trees the others hold at its turn: the index names nodes of
    the analyses before the phase, and those only grow. -/
theorem Fit.runPhase {phase : Step Unit}
    (halive : ∀ (u : Universe) i m, u.Sound i m → Step.TripleIn u
      (fun w => Alive u i m w.file ∧ w.file.tree.WellFormed) phase fun _ w => Alive u i m w.file)
    (hwf : Step.Triple (fun w => w.file.tree.WellFormed) phase fun _ w => w.file.tree.WellFormed)
    (hp : p.Fit) : (p.runPhase phase).Fit := by
  unfold Project.runPhase
  refine (List.foldlRecOn (motive := fun q => q.Fit ∧ p.Grows q) _ _ ⟨hp, Grows.refl p⟩
    fun q hq i _ => ?_).1
  obtain ⟨hq, hg⟩ := hq
  split
  · next d hd =>
    split
    · next a ha =>
      obtain ⟨ha₀, hwf₀⟩ := hq.alive i d a hd ha
      let u : Universe := ⟨TypeIndex.build p.analyses, q.lent i⟩
      have hu : u.Sound i a.tree.size := hq.sound hd ha fun x hx => hg.live (hp.live_index hx)
      have hb := halive u i a.tree.size hu ⟨a, q.log⟩
        ⟨(ha₀.grow (show Universe.Grows _ u from Universe.grows_of_trees rfl)).raise, hwf₀⟩
      exact ⟨hq.set hd ha hb (hwf u ⟨a, q.log⟩ hwf₀) hb.size rfl, hg.set hd ha hb.size rfl⟩
    · exact ⟨hq, hg⟩
  · exact ⟨hq, hg⟩

/-! ## Rebuilding -/

/-- Reading the skeletons leaves only analyses that a skeleton read produced, so whatever every
    such read ensures of its file holds of each analysis after. -/
theorem Numbered.every_readSkeletons {R : Analysis → Prop}
    (h : ∀ file text, Step.Triple (fun _ => True) (Analysis.skeleton file text) fun _ w => R w.file)
    (hp : p.Numbered) : Every R p.readSkeletons := by
  -- after `k` steps the documents below `k` hold their new analyses
  let Done (k : Nat) (q : Project) : Prop := q.documents.size = p.documents.size ∧
    ∀ j (d : Document), q.documents[j]? = some d → j < k → ∀ a, d.analysis = some a → R a
  suffices hdone : Done p.documents.size p.readSkeletons by
    obtain ⟨hsize, hdocs⟩ := hdone
    intro x hx
    obtain ⟨j, hj⟩ := Array.mem_iff_getElem?.1 hx
    exact hdocs j x hj (hsize ▸ (Array.getElem?_eq_some_iff.1 hj).1)
  unfold Project.readSkeletons
  refine Array.foldl_induction Done ⟨rfl, fun j d _ hj => absurd hj (Nat.not_lt_zero j)⟩
    fun i q hq => ?_
  obtain ⟨hsize, hdocs⟩ := hq
  have hid : p.documents[i].id = i := hp i _ (Array.getElem?_eq_getElem i.2)
  -- the document at `i` is replaced, the others are kept
  have hset : ∀ (x : Document) (r : Project), (∀ a, x.analysis = some a → R a) →
      r.documents = q.documents.set! i x → Done (i + 1) r := by
    intro x r hxa hr
    refine ⟨by simp [hr, hsize], fun j y hy hj => ?_⟩
    rw [hr, Array.set!_eq_setIfInBounds, Array.getElem?_setIfInBounds] at hy
    split at hy
    · next hij =>
      subst hij
      split at hy
      · cases hy
        exact hxa
      · cases hy
    · exact hdocs j y hy (by omega)
  split
  · split
    next a log heq =>
    refine hset { p.documents[i] with analysis := some a } _ (fun a' ha' => ?_)
      (by dsimp only; rw [hid])
    cases ha'
    have hread : (runStep _ _ _ _).1 = a := congrArg Prod.fst heq
    rw [← hread]
    exact h _ _ {} _ trivial
  · exact hset { p.documents[i] with analysis := none } _ (fun a ha => by cases ha)
      (by dsimp only; rw [hid])

/-- Reading the skeletons makes a project fit: each skeleton is well formed, and alive with no
    tree lent to it, so with any. -/
theorem Numbered.fit_readSkeletons (hp : p.Numbered) : p.readSkeletons.Fit := by
  obtain ⟨hfiled, hwf⟩ := hp.readSkeletons
  have halive := hp.every_readSkeletons (R := fun a => Alive {} a.file 0 a) fun file text =>
    (Analysis.keepsAlive_skeleton file text).post fun _ w h => h.file ▸ h
  refine ⟨hfiled.numbered, fun j d a hd ha => ⟨?_, hwf d (Array.mem_of_getElem? hd) a ha⟩⟩
  have h : Alive {} a.file 0 a := halive d (Array.mem_of_getElem? hd) a ha
  rw [(hfiled j d hd).2 a ha] at h
  exact h.grow (Universe.grows_empty _)

/-- Pointing the includes of document `i` at the documents `paths` lists keeps a project fit
    when there are no more paths than documents: each target is a document, and only kinds of
    includes, diagnostics and the log change. -/
theorem Fit.resolveIn {paths : List String} (hpaths : paths.length ≤ p.documents.size)
    (hp : p.Fit) (i : Nat) :
    (p.resolveIn paths i).Fit ∧ (p.resolveIn paths i).documents.size = p.documents.size := by
  unfold Project.resolveIn
  split
  · next d hd =>
    split
    · exact ⟨hp, rfl⟩
    · next a ha =>
      obtain ⟨ha₀, hwf₀⟩ := hp.alive i d a hd ha
      split
      · next a' p' hfold =>
        -- the fold keeps the analysis fit at its size, and the documents as they were
        let Kept (s : Analysis × Project) : Prop :=
          (Alive { trees := p.lent i } i 0 s.1 ∧ s.1.tree.WellFormed ∧ s.1.tree.size = a.tree.size) ∧
            s.2.documents = p.documents
        have hinv : Kept (a', p') := hfold ▸ List.foldlRecOn (motive := Kept) _ _
            ⟨⟨ha₀, hwf₀, rfl⟩, rfl⟩ fun s hs id _ => by
          obtain ⟨a₀, q⟩ := s
          obtain ⟨⟨hs, hwf, hsize⟩, hq⟩ := hs
          dsimp only
          split
          · next hg =>
            have hinc : ∀ location target, (∀ f ∈ target, f < paths.length) →
                Kept ({ a₀ with tree := a₀.tree.modifyKind id fun _ => .inclusion location target },
                  q) := fun location target htarget =>
              ⟨⟨hs.modifyKind fun _ _ => NodeKind.aliveIn_inclusion location fun f hf => by
                  simpa using Nat.lt_of_lt_of_le (htarget f hf) hpaths,
                hwf.setKind hg ⟨rfl, rfl, rfl, rfl⟩ rfl, by simpa using hsize⟩, hq⟩
            have htarget : ∀ location, ∀ f ∈ paths.findIdx? (· == includeKey location),
                f < paths.length :=
              fun _ f hf => (List.findIdx?_eq_some_iff_findIdx_eq.1 hf).1
            split
            · exact hinc _ _ (htarget _)
            · obtain ⟨⟨hs', hwf', hsize'⟩, hq'⟩ := hinc _ _ (htarget _)
              exact ⟨⟨hs'.congr rfl rfl rfl, hwf', hsize'⟩, hq'⟩
          · exact ⟨⟨hs, hwf, hsize⟩, hq⟩
        obtain ⟨⟨hs, hwf, hsize⟩, hdocs⟩ := hinv
        dsimp only at hs hwf hsize hdocs
        refine ⟨(hp.of_documents hdocs).set (hdocs ▸ hd) ha (lent_congr hdocs i ▸ hs) hwf
          hsize.ge rfl, by simp [hdocs]⟩
  · exact ⟨hp, rfl⟩

theorem Fit.resolveIncludes (hp : p.Fit) : p.resolveIncludes.Fit := by
  unfold Project.resolveIncludes
  have hpaths : (p.documents.toList.map (·.path.toLower)).length ≤ p.documents.size := by simp
  refine (List.foldlRecOn (motive := fun q : Project => q.Fit ∧ q.documents.size = p.documents.size) _ _
    ⟨hp, rfl⟩ fun q hq i _ => ?_).1
  obtain ⟨hq, hsize⟩ := hq
  obtain ⟨hq', hsize'⟩ := hq.resolveIn (hsize ▸ hpaths) i
  exact ⟨hq', hsize'.trans hsize⟩

/-- Rebuilding a project whose documents sit at their ids makes it fit: the skeletons are, and
    each later step keeps a fit project so. -/
theorem Numbered.fit_rebuild (hp : p.Numbered) : p.rebuild.Fit := by
  unfold Project.rebuild
  have h := ((hp.fit_readSkeletons.resolveIncludes.runPhase
      (fun _ _ _ hu => ((Analysis.keepsAlive_addMembers hu).pre fun _ h => h.1).post fun _ _ h => h.2)
      (Step.Triple.of_file (R := fun a => a.tree.WellFormed) Analysis.wellFormed_addMembers)).runPhase
      (fun _ _ _ hu => ((Analysis.keepsAlive_link hu).pre fun _ h => h.1).post fun _ _ h => h.2)
      Step.link_keepsTree.wellFormed).runPhase (fun _ _ _ hu => Analysis.keepsAlive_addBodies hu)
      Analysis.wellFormed_addBodies
  dsimp only
  exact h.record _ _

theorem Reachable.fit (h : p.Reachable) : p.Fit :=
  h.rebuilt _ fun _ hq => hq.fit_rebuild

/-- In every reachable project each handle an analysis holds is alive: its semantic tokens and
    the kinds of its nodes (class links, types of fields, locals and returns, expressions) name
    only nodes of documents that have an analysis, below the size of its tree, or entries of the
    builtin catalog; and every include it resolved names a document of the project. -/
theorem handles_alive (hp : p.Reachable) :
    ∀ d ∈ p.documents, ∀ a, d.analysis = some a →
      a.HandlesOk p.Live ∧ ∀ id node location f, a.tree.get? id = some node →
        node.kind = .inclusion location (some f) → f < p.documents.size := by
  intro d hd a ha
  obtain ⟨i, hi⟩ := Array.mem_iff_getElem?.1 hd
  have halive := (hp.fit.alive i d a hi ha).1
  -- alive in the trees lent to the document is alive in the project
  have hlive := fun r => (live_lent hi ha {} r).1
  refine ⟨⟨fun s hs r hr => hlive r (halive.semantic s hs r hr),
    fun id node hg r hr => hlive r ((halive.nodes id node hg).handles r hr)⟩,
    fun id node location f hg hk => ?_⟩
  have h := (halive.nodes id node hg).included f (by rw [hk]; rfl)
  simpa using h

/-- Two files, the first including the second and declaring a class that extends the second's,
    with a field of its type and a method whose body declares a local of it. -/
theorem handles_alive_ofSources :
    (ofSources [("a.zs", "#include \"b.zs\"\nclass A : B \x7b B b; void F() \x7b B c = b; \x7d \x7d"),
      ("b.zs", "class B \x7b int y; \x7d")]).Reachable ∧
    ∀ d ∈ (ofSources [("a.zs",
      "#include \"b.zs\"\nclass A : B \x7b B b; void F() \x7b B c = b; \x7d \x7d"),
      ("b.zs", "class B \x7b int y; \x7d")]).documents, ∀ a, d.analysis = some a →
      a.HandlesOk (ofSources [("a.zs",
        "#include \"b.zs\"\nclass A : B \x7b B b; void F() \x7b B c = b; \x7d \x7d"),
        ("b.zs", "class B \x7b int y; \x7d")]).Live ∧
      ∀ id node location f, a.tree.get? id = some node →
        node.kind = .inclusion location (some f) → f < (ofSources [("a.zs",
          "#include \"b.zs\"\nclass A : B \x7b B b; void F() \x7b B c = b; \x7d \x7d"),
          ("b.zs", "class B \x7b int y; \x7d")]).documents.size :=
  ⟨.ofSources _, handles_alive (.ofSources _)⟩

end Project

end ZScript
