import ZScript.Proofs.Handles
import ZScript.Proofs.WellFormedTrees

/-!
# How the third phase links the classes of a file

The third phase of a rebuild (`Analysis.link`) links every top-level class of a file. Its parent,
the class it extends and the class it replaces are the types that its header names, looked up in
the project's index ignoring ASCII case, never the class itself (`TypeIndex.target`); its reverse
lists are the other classes of the index whose header names it (`TypeIndex.namers`), and an
`extend class` keeps them empty. `Analysis.tripleIn_link` shows that the phase gives every
top-level class exactly these links (`ClassInfo.linksIn`) and changes nothing else in the tree.

The index lists the classes of its files, file by file, each with the lowercased names of its
header (`TypeIndex.classes_build`). A `LinkRole` is one of the three relations a header names,
with the fields of the header, the index and the links that serve it; `LinkRole.mem_reverse_iff`
shows once for all three that a reverse list holds a class exactly when the forward link of that
class points back.
-/

namespace ZScript

/-- The class that the header name `target` of class `me` names: the type of that name in the
    index, unless that is `me` itself. -/
def TypeIndex.target (idx : TypeIndex) (me : DeclRef) (target : Option String) : Option DeclRef :=
  target.bind fun t => (idx.findType t).filter (· != me)

/-- The classes of the index other than `me` whose header name `sel` names `me`, in index
    order. -/
def TypeIndex.namers (idx : TypeIndex) (me : DeclRef) (sel : ClassEntry → Option String) :
    List DeclRef :=
  ((idx.classes.toList.filter (·.decl != me)).filter fun e => Links.pointsTo idx me (sel e)).map
    (·.decl)

/-- The links that the third phase gives class `me`, whose header is `c`, in the index `idx`: the
    classes its header names, and, unless it is an `extend class`, the classes that name it. -/
def ClassInfo.linksIn (c : ClassInfo) (idx : TypeIndex) (me : DeclRef) : ClassLinks :=
  { parent := idx.target me c.parentName, extend := idx.target me c.extendName,
    replace := idx.target me c.replaceName,
    children := if c.extendName.isNone then idx.namers me (·.parent) else [],
    extensions := if c.extendName.isNone then idx.namers me (·.extend) else [],
    replacedBy := if c.extendName.isNone then idx.namers me (·.replace) else [] }

/-- What node `me` holds once the third phase has linked it. -/
def NodeKind.relink (idx : TypeIndex) (me : DeclRef) : NodeKind → NodeKind
  | .classDecl c => .classDecl { c with links := c.linksIn idx me }
  | k => k

theorem Tree.get?_modifyKind (t : Tree) (id : Nat) (f : NodeKind → NodeKind) (i : Nat) :
    (t.modifyKind id f).get? i =
      if id = i then (t.get? i).map fun n => { n with kind := f n.kind } else t.get? i :=
  Tree.get?_modify t id _ i

/-- Changing a node as it already is changes nothing. -/
theorem Tree.modifyKind_of_fixed {t : Tree} {n : Nat} {f : NodeKind → NodeKind}
    (hf : ∀ node, t.get? n = some node → f node.kind = node.kind) : t.modifyKind n f = t := by
  refine Tree.ext_get? fun i => ?_
  rw [Tree.get?_modifyKind]
  split
  · subst_vars
    cases hg : t.get? i with
    | none => rfl
    | some node => simp [hf node hg]
  · rfl

theorem Tree.modifyKind_congr {t : Tree} {n : Nat} {f g : NodeKind → NodeKind}
    (hfg : ∀ node, t.get? n = some node → f node.kind = g node.kind) :
    t.modifyKind n f = t.modifyKind n g := by
  refine Tree.ext_get? fun i => ?_
  rw [Tree.get?_modifyKind, Tree.get?_modifyKind]
  split
  · subst_vars
    cases hg : t.get? i with
    | none => rfl
    | some node => simp [hfg node hg]
  · rfl

namespace Links

open Step

/-- Looking up a header name, warning when it is not found, keeps the tree and the file index. -/
theorem tripleIn_lookup {α : Type} (u : Universe) (t : Tree) (f : Nat) (b : Bool) (m : String)
    (l : Nat) (r : α) :
    TripleIn u (fun w => w.file.tree = t ∧ w.file.file = f)
      (if b = true then warn m l >>= fun _ => pure r else pure r)
      (fun r' w => r' = r ∧ w.file.tree = t ∧ w.file.file = f) := by
  intro w hw
  split
  · exact ⟨rfl, hw⟩
  · exact ⟨rfl, hw⟩

theorem tripleIn_linkClass (id : Nat) (u : Universe) (t : Tree) (f : Nat) :
    TripleIn u (fun w => w.file.tree = t ∧ w.file.file = f) (linkClass id)
      (fun _ w => w.file.tree = t.modifyKind id (NodeKind.relink u.index ⟨f, id⟩) ∧
        w.file.file = f) := by
  unfold linkClass
  refine TripleIn.bind (Q := fun v w => v = ⟨f, t, u⟩ ∧ w.file.tree = t ∧ w.file.file = f)
    (fun w hw => ⟨by rw [Step.view_run, hw.1, hw.2], hw⟩) fun v => ?_
  refine TripleIn.of_fact fun hv => ?_
  subst hv
  split
  · next node hg =>
    split
    · next c hk =>
      dsimp only
      refine TripleIn.bind (Q := fun r w => r = u.index.target ⟨f, id⟩ c.parentName ∧
        w.file.tree = t ∧ w.file.file = f) ?_ fun parent => TripleIn.of_fact fun hp => ?_
      · split
        · next heq => exact TripleIn.pure fun w hw => ⟨by rw [heq]; rfl, hw⟩
        · next s heq => exact (tripleIn_lookup u t f _ _ _ _).post fun r w hw =>
            ⟨by rw [hw.1, heq]; rfl, hw.2⟩
      refine TripleIn.bind (Q := fun r w => r = u.index.target ⟨f, id⟩ c.extendName ∧
        w.file.tree = t ∧ w.file.file = f) ?_ fun extend => TripleIn.of_fact fun he => ?_
      · split
        · next heq => exact TripleIn.pure fun w hw => ⟨by rw [heq]; rfl, hw⟩
        · next s heq => exact (tripleIn_lookup u t f _ _ _ _).post fun r w hw =>
            ⟨by rw [hw.1, heq]; rfl, hw.2⟩
      refine TripleIn.bind (Q := fun r w => r = u.index.target ⟨f, id⟩ c.replaceName ∧
        w.file.tree = t ∧ w.file.file = f) ?_ fun replace => TripleIn.of_fact fun hr => ?_
      · split
        · next heq => exact TripleIn.pure fun w hw => ⟨by rw [heq]; rfl, hw⟩
        · next s heq => exact (tripleIn_lookup u t f _ _ _ _).post fun r w hw =>
            ⟨by rw [hw.1, heq]; rfl, hw.2⟩
      refine TripleIn.bind (Q := fun _ w => w.file.tree = t ∧ w.file.file = f) (fun w hw => hw)
        fun _ => ?_
      rintro w ⟨ht, hf⟩
      rw [Step.modifyKind_run]
      refine ⟨?_, hf⟩
      dsimp only
      rw [ht]
      refine Tree.modifyKind_congr fun node' hg' => ?_
      obtain rfl : node' = node := Option.some.inj (hg'.symm.trans hg)
      rw [hk]
      subst hp he hr
      -- an `extend class` has no reverse lists, whether or not its target is found
      have hcond : ((u.index.target ⟨f, id⟩ c.extendName).isNone && c.extendName.isNone) =
          c.extendName.isNone := by
        cases c.extendName <;> simp [TypeIndex.target]
      simp only [hcond, NodeKind.relink, ClassInfo.linksIn, TypeIndex.namers]
      by_cases h : c.extendName.isNone = true <;> simp [h]
    · next hk =>
      refine TripleIn.pure fun w hw => ⟨?_, hw.2⟩
      rw [hw.1, Tree.modifyKind_of_fixed]
      intro node' hg'
      obtain rfl : node' = node := Option.some.inj (hg'.symm.trans hg)
      revert hk
      cases node'.kind <;> simp [NodeKind.relink]
  · next hg =>
    refine TripleIn.pure fun w hw => ⟨?_, hw.2⟩
    rw [hw.1, Tree.modifyKind_of_fixed]
    intro node' hg'
    exact absurd hg' (hg node')

end Links

/-- The tree once the classes `ids` of file `f` are linked against the index `idx`, in turn. -/
def Tree.relinkAll (t : Tree) (idx : TypeIndex) (f : Nat) (ids : List Nat) : Tree :=
  ids.foldl (fun t id => t.modifyKind id (NodeKind.relink idx ⟨f, id⟩)) t

/-- Links depend on the header only, so linking twice is linking once. -/
@[simp] theorem NodeKind.relink_relink (idx : TypeIndex) (me : DeclRef) (k : NodeKind) :
    (k.relink idx me).relink idx me = k.relink idx me := by
  cases k <;> rfl

theorem Tree.get?_relinkAll (t : Tree) (idx : TypeIndex) (f : Nat) (ids : List Nat) (i : Nat) :
    (t.relinkAll idx f ids).get? i =
      (t.get? i).map fun n => if i ∈ ids then { n with kind := n.kind.relink idx ⟨f, i⟩ } else n := by
  induction ids generalizing t with
  | nil => simp [Tree.relinkAll]
  | cons id ids ih =>
    rw [Tree.relinkAll, List.foldl_cons, ← Tree.relinkAll, ih, Tree.get?_modifyKind]
    by_cases h : id = i
    · subst h
      cases t.get? id <;> simp
    · cases t.get? i <;> simp [h, Ne.symm h]

theorem Tree.children_relinkAll (t : Tree) (idx : TypeIndex) (f : Nat) (ids : List Nat) (i : Nat) :
    (t.relinkAll idx f ids).children i = t.children i := by
  simp only [Tree.children, Tree.get?_relinkAll, Option.map_map]
  cases t.get? i with
  | none => rfl
  | some n => by_cases h : i ∈ ids <;> simp [h]

theorem Tree.holds_relinkAll (t : Tree) (idx : TypeIndex) (f : Nat) (ids : List Nat) (i : Nat)
    {p : NodeKind → Bool} (hp : ∀ me k, p (k.relink idx me) = p k) :
    (t.relinkAll idx f ids).holds i p = t.holds i p := by
  simp only [Tree.holds, Tree.get?_relinkAll]
  cases t.get? i with
  | none => rfl
  | some n => by_cases h : i ∈ ids <;> simp [h, hp]

/-- Linking keeps the top-level declarations of a tree. -/
@[simp] theorem Tree.declarations_relinkAll (t : Tree) (idx : TypeIndex) (f : Nat)
    (ids : List Nat) : (t.relinkAll idx f ids).declarations = t.declarations := by
  have hinclusion : ∀ me (k : NodeKind), (k.relink idx me).isInclusion = k.isInclusion := by
    intro me k
    cases k <;> rfl
  simp only [Tree.declarations, Tree.children_relinkAll, Tree.holds_relinkAll _ _ _ _ _ hinclusion]

namespace Step

theorem triple_recheckTypeNames (start : Nat) (t : Tree) (f : Nat) :
    Triple (fun w => w.file.tree = t ∧ w.file.file = f) (recheckTypeNames start)
      (fun _ w => w.file.tree = t ∧ w.file.file = f) := by
  unfold recheckTypeNames
  refine Triple.bind (Triple.keep fun _ _ hw => hw) fun a => Triple.forIn _ _ fun p _ _ => ?_
  obtain ⟨i, n⟩ := p
  refine Triple.bind (Triple.keep fun _ _ hw => hw) fun v => ?_
  -- a name found again changes its token, one still missing adds a token and a warning
  split
  · exact Triple.bind (Triple.keep fun _ _ hw => hw) fun _ => Triple.pure fun _ hw => hw
  · exact Triple.bind (Triple.keep fun _ _ hw => hw) fun _ =>
      Triple.bind (Triple.keep fun _ _ hw => hw) fun _ =>
      Triple.bind (Triple.keep fun _ _ hw => hw) fun _ => Triple.pure fun _ hw => hw

end Step

namespace Links

open Step

/-- Linking the classes `ids` in turn links each of them. -/
theorem tripleIn_forIn_linkClass (u : Universe) (f : Nat) (ids : List Nat) (t : Tree) :
    TripleIn u (fun w => w.file.tree = t ∧ w.file.file = f)
      (forIn ids PUnit.unit fun id _ => do linkClass id; pure (ForInStep.yield PUnit.unit))
      (fun _ w => w.file.tree = t.relinkAll u.index f ids ∧ w.file.file = f) := by
  induction ids generalizing t with
  | nil => exact TripleIn.pure fun _ hw => hw
  | cons id ids ih =>
    rw [List.forIn_cons]
    refine TripleIn.bind (Q := fun r w => r = ForInStep.yield PUnit.unit ∧
        w.file.tree = t.modifyKind id (NodeKind.relink u.index ⟨f, id⟩) ∧ w.file.file = f) ?_
      fun r => TripleIn.of_fact fun hr => ?_
    · exact TripleIn.bind (tripleIn_linkClass id u t f) fun _ => TripleIn.pure fun _ hw => ⟨rfl, hw⟩
    · subst hr
      exact ih _

end Links

/-- The link phase links every top-level class of the file against the universe's index, and
    changes nothing else in the tree. -/
theorem Analysis.tripleIn_link (u : Universe) (t : Tree) (f : Nat) :
    Step.TripleIn u (fun w => w.file.tree = t ∧ w.file.file = f) Analysis.link
      (fun _ w => w.file.tree = t.relinkAll u.index f
        (t.declarations.filter (t.holds · fun k => k matches .classDecl _)) ∧ w.file.file = f) := by
  unfold Analysis.link
  refine Step.TripleIn.bind (Q := fun a w => a.tree = t ∧ w.file.tree = t ∧ w.file.file = f)
    (fun w hw => ⟨hw.1, hw⟩) fun a => Step.TripleIn.of_fact fun ha => ?_
  subst ha
  exact Step.TripleIn.bind (Links.tripleIn_forIn_linkClass u f _ a.tree) fun _ =>
    Step.TripleIn.of_triple (Step.triple_recheckTypeNames 0 _ f)


/-! ## The index's classes -/

/-- The class that node `id` of a tree holds, if it holds one. -/
def Tree.classAt? (t : Tree) (id : Nat) : Option ClassInfo :=
  (t.get? id).bind fun node => match node.kind with
    | .classDecl c => some c
    | _ => none

/-- The index entry of class `decl`, called `name`, whose header is `c`. -/
def ClassInfo.entry (c : ClassInfo) (decl : DeclRef) (name : String) : ClassEntry :=
  ⟨decl, name.toLower, c.parentName.map (·.toLower), c.extendName.map (·.toLower),
    c.replaceName.map (·.toLower)⟩

/-- The index entry of node `id` of a tree of file `file`, when that node is a class. -/
def Tree.classEntryAt (t : Tree) (file id : Nat) : Option ClassEntry :=
  (t.get? id).bind fun node => match node.kind with
    | .classDecl c => some (c.entry ⟨file, id⟩ node.name)
    | _ => none

theorem Tree.classEntryAt_eq_some {t : Tree} {file id : Nat} {e : ClassEntry} :
    t.classEntryAt file id = some e ↔
      ∃ node c, t.get? id = some node ∧ node.kind = .classDecl c ∧
        e = c.entry ⟨file, id⟩ node.name := by
  unfold Tree.classEntryAt
  cases t.get? id with
  | none => simp
  | some node =>
    simp only [Option.bind_some, Option.some.injEq, exists_and_left, exists_eq_left']
    split <;> simp_all [eq_comm]

/-- An entry is the entry of a class of the tree, at the node it names. -/
theorem Tree.classEntryAt_spec {t : Tree} {file id : Nat} {e : ClassEntry}
    (h : t.classEntryAt file id = some e) :
    e.decl = ⟨file, id⟩ ∧ t.holds id (fun k => k matches .classDecl _) ∧
      ∃ c, t.classAt? id = some c ∧ ∃ name, e = c.entry e.decl name := by
  obtain ⟨node, c, hget, hk, rfl⟩ := Tree.classEntryAt_eq_some.1 h
  refine ⟨rfl, ?_, c, ?_, node.name, rfl⟩
  · simp [Tree.holds, hget, hk]
  · simp [Tree.classAt?, hget, hk]

namespace TypeIndex

theorem classes_addDecl (file : Nat) (t : Tree) (idx : TypeIndex) (id : Nat) :
    (addDecl file t idx id).classes.toList = idx.classes.toList ++ (t.classEntryAt file id).toList := by
  unfold addDecl Tree.classEntryAt
  cases t.get? id with
  | none => simp
  | some node =>
    dsimp only [Option.bind_some]
    split
    · -- a class enters the class list whether or not it is an `extend class`
      next c hk => by_cases h : c.extendName = none <;> simp_all [ClassInfo.entry]
    all_goals simp_all

theorem classes_addFile (idx : TypeIndex) (a : Analysis) :
    (idx.addFile a).classes.toList =
      idx.classes.toList ++ a.tree.declarations.filterMap (a.tree.classEntryAt a.file) := by
  unfold addFile
  generalize a.tree.declarations = ids
  induction ids generalizing idx with
  | nil => simp
  | cons id ids ih =>
    rw [List.foldl_cons, ih, classes_addDecl, List.filterMap_cons]
    cases a.tree.classEntryAt a.file id <;> simp

/-- The classes of an index are the top-level classes of its files, file by file, each file's in
    source order. -/
theorem classes_build (files : List Analysis) :
    (build files).classes.toList =
      files.flatMap fun a => a.tree.declarations.filterMap (a.tree.classEntryAt a.file) := by
  unfold build
  suffices ∀ idx : TypeIndex, (files.foldl addFile idx).classes.toList =
      idx.classes.toList ++ files.flatMap fun a => a.tree.declarations.filterMap (a.tree.classEntryAt a.file) by
    simpa using this {}
  induction files with
  | nil => simp
  | cons a files ih =>
    intro idx
    rw [List.foldl_cons, ih, classes_addFile, List.flatMap_cons, List.append_assoc]

end TypeIndex

/-! ## Reverse lists -/

namespace TypeIndex

/-- The index ignores ASCII case, so a lowercased name finds what the name finds. -/
@[simp] theorem findType_toLower (idx : TypeIndex) (t : String) :
    idx.findType t.toLower = idx.findType t := by
  simp only [findType, String.toLower, String.map_map, Function.comp_def,
    Char.toLower_toLower_eq_toLower]

theorem target_eq_some {idx : TypeIndex} {me A : DeclRef} {name : Option String} :
    idx.target me name = some A ↔ A ≠ me ∧ name.bind idx.findType = some A := by
  cases name with
  | none => simp [target]
  | some t =>
    simp only [target, Option.bind_some, Option.filter_eq_some_iff, bne_iff_ne, ne_eq]
    tauto

/-- A class of the index, whose entries all store the header name `name` under `sel`, names
    `me` exactly when that name is the type `me`, and it is another class. -/
theorem mem_namers {idx : TypeIndex} {me B : DeclRef} {sel : ClassEntry → Option String}
    {name : Option String} (hB : B ∈ idx.classes.toList.map (·.decl))
    (hsel : ∀ e ∈ idx.classes.toList, e.decl = B → sel e = name.map (·.toLower)) :
    B ∈ idx.namers me sel ↔ B ≠ me ∧ name.bind idx.findType = some me := by
  have hpoints : ∀ e ∈ idx.classes.toList, e.decl = B →
      (Links.pointsTo idx me (sel e) = true ↔ name.bind idx.findType = some me) := by
    intro e he hd
    rw [hsel e he hd]
    cases name <;> simp [Links.pointsTo]
  constructor
  · intro h
    obtain ⟨e, he, rfl⟩ := List.mem_map.1 h
    simp only [List.mem_filter, bne_iff_ne, ne_eq] at he
    exact ⟨he.1.2, (hpoints e he.1.1 rfl).1 he.2⟩
  · rintro ⟨hne, hfind⟩
    obtain ⟨e, he, rfl⟩ := List.mem_map.1 hB
    refine List.mem_map.2 ⟨e, ?_, rfl⟩
    simp only [List.mem_filter, bne_iff_ne, ne_eq]
    exact ⟨⟨he, hne⟩, (hpoints e he rfl).2 hfind⟩

theorem namers_sublist (idx : TypeIndex) (me : DeclRef) (sel : ClassEntry → Option String) :
    (idx.namers me sel).Sublist (idx.classes.toList.map (·.decl)) :=
  ((List.filter_sublist).trans List.filter_sublist).map _

theorem not_mem_namers (idx : TypeIndex) (me : DeclRef) (sel : ClassEntry → Option String) :
    me ∉ idx.namers me sel := by
  simp [namers]

end TypeIndex

theorem Tree.classAt?_relinkAll (t : Tree) (idx : TypeIndex) (f : Nat) (ids : List Nat) (i : Nat) :
    (t.relinkAll idx f ids).classAt? i =
      (t.classAt? i).map fun c => if i ∈ ids then { c with links := c.linksIn idx ⟨f, i⟩ } else c := by
  simp only [Tree.classAt?, Tree.get?_relinkAll]
  cases t.get? i with
  | none => rfl
  | some n => by_cases h : i ∈ ids <;> cases hk : n.kind <;> simp [h, hk, NodeKind.relink]

/-- Linking keeps the index entries of a tree: they read the header, not the links. -/
@[simp] theorem Tree.classEntryAt_relinkAll (t : Tree) (idx : TypeIndex) (f : Nat) (ids : List Nat)
    (file : Nat) : (t.relinkAll idx f ids).classEntryAt file = t.classEntryAt file := by
  funext i
  simp only [Tree.classEntryAt, Tree.get?_relinkAll]
  cases t.get? i with
  | none => rfl
  | some n => by_cases h : i ∈ ids <;> cases hk : n.kind <;> simp [h, hk, NodeKind.relink, ClassInfo.entry]

/-- A well-formed tree lists its top-level declarations once each. -/
theorem Tree.WellFormed.nodup_declarations {t : Tree} (h : t.WellFormed) : t.declarations.Nodup := by
  refine List.Nodup.filter _ ?_
  obtain ⟨root, hroot, -⟩ := h.root
  simp only [Tree.children, hroot, Option.map_some, Option.getD_some]
  exact (h.children_sorted 0 root hroot).imp Nat.ne_of_lt

/-! ## The three links -/

/-- One of the three relations that a class header names: `class B : A` makes `A` the parent of
    `B`, `extend class B` extends `B`, and `class B replaces A` replaces `A`. A role reads the
    name in the header, finds it lowercased in the index, and gives the forward link and the
    reverse list; how the third phase fills both is part of the role. -/
structure LinkRole where
  header : ClassInfo → Option String
  stored : ClassEntry → Option String
  forward : ClassLinks → Option DeclRef
  reverse : ClassLinks → List DeclRef
  stored_entry : ∀ (c : ClassInfo) decl name,
    stored (c.entry decl name) = (header c).map (·.toLower)
  forward_linksIn : ∀ (c : ClassInfo) (idx : TypeIndex) me,
    forward (c.linksIn idx me) = idx.target me (header c)
  reverse_linksIn : ∀ (c : ClassInfo) (idx : TypeIndex) me,
    reverse (c.linksIn idx me) = if c.extendName.isNone then idx.namers me stored else []

namespace LinkRole

/-- `class B : A`: the parent and the children. -/
def parent : LinkRole :=
  ⟨(·.parentName), (·.parent), (·.parent), (·.children), fun _ _ _ => rfl, fun _ _ _ => rfl,
    fun _ _ _ => rfl⟩

/-- `extend class B`: the class extended and its extensions. -/
def extend : LinkRole :=
  ⟨(·.extendName), (·.extend), (·.extend), (·.extensions), fun _ _ _ => rfl, fun _ _ _ => rfl,
    fun _ _ _ => rfl⟩

/-- `class B replaces A`: the class replaced and those that replace it. -/
def replace : LinkRole :=
  ⟨(·.replaceName), (·.replace), (·.replace), (·.replacedBy), fun _ _ _ => rfl, fun _ _ _ => rfl,
    fun _ _ _ => rfl⟩

variable (r : LinkRole) {idx : TypeIndex} {c : ClassInfo} {me : DeclRef}

theorem forward_ne_self : r.forward (c.linksIn idx me) ≠ some me := by
  rw [r.forward_linksIn]
  intro h
  exact (TypeIndex.target_eq_some.1 h).1 rfl

theorem not_mem_reverse_self : me ∉ r.reverse (c.linksIn idx me) := by
  rw [r.reverse_linksIn]
  split
  · exact TypeIndex.not_mem_namers idx me r.stored
  · exact List.not_mem_nil

theorem reverse_sublist : (r.reverse (c.linksIn idx me)).Sublist (idx.classes.toList.map (·.decl)) := by
  rw [r.reverse_linksIn]
  split
  · exact TypeIndex.namers_sublist idx me r.stored
  · exact List.nil_sublist _

/-- An `extend class` is named by no class: the classes it adds to keep the reverse lists. -/
theorem reverse_of_extend (h : c.extendName.isSome) : r.reverse (c.linksIn idx me) = [] := by
  rw [r.reverse_linksIn, if_neg (by simpa [Option.isNone_iff_eq_none, Option.isSome_iff_ne_none] using h)]

end LinkRole

/-- `cls` knows the class of every entry of the index, and the entry is that class's. -/
def TypeIndex.Describes (idx : TypeIndex) (cls : DeclRef → Option ClassInfo) : Prop :=
  ∀ e ∈ idx.classes.toList, ∃ c, cls e.decl = some c ∧ ∃ name, e = c.entry e.decl name

/-- The reverse lists agree with the forward links: a class `B` of the index is in the reverse
    list of a class `me` that is not an `extend class` exactly when the forward link of `B`
    is `me`. Both sides look the header name of `B` up in the same index, ignoring case, and
    neither links a class to itself. -/
theorem LinkRole.mem_reverse_iff (r : LinkRole) {idx : TypeIndex} {cls : DeclRef → Option ClassInfo}
    (hidx : idx.Describes cls) {B me : DeclRef} {b c : ClassInfo}
    (hB : B ∈ idx.classes.toList.map (·.decl)) (hb : cls B = some b) (hc : c.extendName = none) :
    B ∈ r.reverse (c.linksIn idx me) ↔ r.forward (b.linksIn idx B) = some me := by
  -- every entry of `B` stores the header name of `b`
  have hstored : ∀ e ∈ idx.classes.toList, e.decl = B → r.stored e = (r.header b).map (·.toLower) := by
    intro e he hd
    obtain ⟨c', hc', name, he'⟩ := hidx e he
    rw [hd, hb, Option.some.injEq] at hc'
    rw [he', r.stored_entry, hc']
  rw [r.reverse_linksIn, if_pos (by simp [hc]), TypeIndex.mem_namers hB hstored, r.forward_linksIn,
    TypeIndex.target_eq_some]
  exact ⟨fun h => ⟨h.1.symm, h.2⟩, fun h => ⟨h.1.symm, h.2⟩⟩

end ZScript
