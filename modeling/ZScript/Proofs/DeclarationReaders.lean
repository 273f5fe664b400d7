import ZScript.Proofs.BodyReaders

/-!
# Reading a skeleton keeps the tree well formed

The readers of the first phase add includes, classes, structs and constants as children of the
root or of the type they stand in, and set the root's version. An enum is created before its
members and listed under its parent once they are read; its members are read above a floor raised
to the enum, which fixes every node before it, so that the parent's children all come before the
enum when it is listed.

Each reader keeps the reader invariant (`Bodies.Reads`), whether it succeeds or fails, and so does
a whole file's reading (`Declarations.reads_items`). Main statement: whatever the work it starts
from, reading the skeleton of a text leaves a well-formed tree of the file it was asked to read
(`Analysis.wellFormed_skeleton`).
-/

namespace ZScript

/-- The node `add` creates is the last one, and holds what it was given. -/
theorem Tree.get?_add_self {t : Tree} {p : Nat} (name : String) (line : Nat) (kind : NodeKind)
    (hp : p < t.size) : (t.add p name line kind).2.get? t.size = some ⟨name, some p, [], line, kind⟩ := by
  rw [Tree.add_eq]
  dsimp only
  rw [Tree.get?_modify_of_ne (by omega), Tree.get?_alloc, if_pos rfl]

/-- A well-formed tree has its root. -/
theorem Tree.WellFormed.size_pos {t : Tree} (h : t.WellFormed) : 0 < t.size := by
  obtain ⟨root, hroot, -⟩ := h.root
  exact Tree.lt_size_of_get? hroot

/-- A well-formed tree is the invariant of a reader with the floor at the root. -/
theorem Kept.ofWellFormed {a : Analysis} (h : a.tree.WellFormed) :
    Kept (Floor.ofAnalysis a 0) a.tree.size [] a :=
  ⟨h, Nat.le_refl _, Nat.zero_le _, (fun _ hq => nomatch hq), Floor.keeps_ofAnalysis a 0⟩

/-- Failing above a floor raised to a state `b` that keeps `fl` is failing safely over `fl`. -/
theorem Floor.Safe.lower {fl : Floor} {a b : Analysis} {m : Nat} (h : (Floor.ofAnalysis b m).Safe a)
    (hb : fl.Keeps b) (hm : fl.nodes ≤ m) : fl.Safe a :=
  (Kept.lower h hb hm).weaken (Nat.succ_le_succ hm) (Nat.le_succ _) fun _ => id

/-- Reading above a floor raised to the state `b` just after node `id` was made under `p`: the
    reader may use that `p` had only children before `id` in `b`, and whatever it does to the nodes
    before `id`, it leaves the old floor's nodes alone. -/
theorem Parse.Triple.raiseFloor {α : Type} {x : Parse α} {Q : α → Work → Prop} {fl : Floor}
    {n id p : Nat} {ps : List (Nat × Nat)} (hfn : fl.nodes ≤ n)
    (h : ∀ b, fl.Keeps b → n ≤ id →
      (∀ node, b.tree.get? p = some node → ∀ c ∈ node.children, c < id) →
      Parse.Triple (fun w => Kept (Floor.ofAnalysis b id) (id + 1) ((id, p) :: ps) w.file) x Q
        fun w => (Floor.ofAnalysis b id).Safe w.file) :
    Parse.Triple (fun w => Kept fl (id + 1) ps w.file ∧ n ≤ id ∧ w.file.tree.parentOf id = some p ∧
        ∀ node, w.file.tree.get? p = some node → ∀ c ∈ node.children, c < id) x Q
      fun w => fl.Safe w.file := by
  refine Parse.Triple.ghost fun b => ?_
  refine Parse.Triple.pre (P := fun w => (fl.Keeps b ∧ n ≤ id ∧
      ∀ node, b.tree.get? p = some node → ∀ c ∈ node.children, c < id) ∧
      Kept (Floor.ofAnalysis b id) (id + 1) ((id, p) :: ps) w.file)
    (Parse.Triple.of_fact fun hfact => ?_) ?_
  · obtain ⟨hb, hid, hch⟩ := hfact
    exact (h b hb hid hch).mono (fun _ h => h) (fun _ _ h => h) fun _ hs =>
      Floor.Safe.lower hs hb (by omega)
  · rintro w ⟨rfl, hk, hid, hpar, hch⟩
    exact ⟨⟨hk.floor, hid, hch⟩, (hk.cons hpar).raise (by omega)⟩

section Kept

variable {fl : Floor} {n : Nat} {ps : List (Nat × Nat)}

/-- Adding a plain node as the last child of `p`, a node past the floor: the invariant now covers
    the new node, which holds what it was given. -/
theorem Kept.addKind {p : Nat} {name : String} {line : Nat} {kind : NodeKind} (hp : p < n)
    (hfp : fl.nodes ≤ p) (hheld : kind.held = []) (hroot : kind.isRoot = false)
    (hjump : kind.isJump = false) :
    Parse.Triple (fun w => Kept fl n ps w.file) (monadLift (Step.add p name line kind) : Parse Nat)
      (fun id w => n ≤ id ∧ Kept fl (id + 1) ps w.file ∧
        (w.file.tree.get? id).map (·.kind) = some kind) (fun w => fl.Safe w.file) := by
  refine Parse.Triple.lift fun u w hk => ?_
  have hadd := @Step.kept_add fl n ps p name line kind hp hfp hheld hroot u w ⟨hk, by simp [hjump]⟩
  rw [Step.add_run] at hadd ⊢
  refine ⟨hadd.2.1, hadd.1, ?_⟩
  rw [Tree.get?_add_self _ _ _ (by have := hk.size; omega)]
  rfl

/-- Changing node `id`, past the floor, from a kind known to it to one of the same shape that
    holds nothing. -/
theorem Kept.setKind {id : Nat} {k k' : NodeKind} (hfi : fl.nodes ≤ id)
    (hshape : NodeKind.SameShape k k') (hheld : k'.held = []) :
    Parse.Triple (fun w => Kept fl n ps w.file ∧ (w.file.tree.get? id).map (·.kind) = some k)
      (monadLift (Step.modifyKind id fun _ => k') : Parse Unit) (fun _ w => Kept fl n ps w.file)
      (fun w => fl.Safe w.file) := by
  refine Parse.Triple.lift ((Step.kept_modifyKind hfi).pre fun w ⟨hk, hkind⟩ => ⟨hk, ?_⟩)
  intro node hg
  rw [hg] at hkind
  cases hkind
  exact ⟨hshape, fun x hx => by rw [hheld] at hx; nomatch hx⟩

end Kept

/-- A reader under the root, run from a well-formed tree of file `f`, leaves a well-formed tree of
    the same file either way. -/
theorem Bodies.Reads.wellFormed {α : Type} {x : Parse α} {post : α → Tree → Prop} (h : Reads 0 x post)
    (f : Nat) :
    Parse.Triple (fun w => w.file.tree.WellFormed ∧ w.file.file = f) x
      (fun _ w => w.file.tree.WellFormed ∧ w.file.file = f)
      (fun w => w.file.tree.WellFormed ∧ w.file.file = f) := by
  refine Parse.Triple.ghost fun a => ?_
  refine Parse.Triple.pre (P := fun w => (a.tree.WellFormed ∧ a.file = f) ∧ w.file = a ∧
      w.file.tree.WellFormed) (Parse.Triple.of_fact fun ha => ?_) fun w hw =>
    ⟨⟨hw.1 ▸ hw.2.1, hw.1 ▸ hw.2.2⟩, hw.1, hw.2.1⟩
  refine (h (Floor.ofAnalysis a 0) a.tree.size [] (Nat.le_refl 0) ha.1.size_pos).mono ?_
    (fun _ _ hw => ⟨hw.1.wf, hw.1.floor.file.trans ha.2⟩) fun _ hw => ⟨hw.wf, hw.floor.file.trans ha.2⟩
  rintro w ⟨hw, -⟩
  subst hw
  exact Kept.ofWellFormed ha.1

namespace Declarations

open Parse (Triple)
open Bodies (Reads)

/-! ## Readers that only tag -/

open Parse.Tags in
theorem tags_flagArgument (flag : String) : Parse.Tags (flagArgument flag) :=
  bind (quiet (Parse.quiet_expect _ _)) fun _ => bind (quiet (Parse.quiet_expect _ _)) fun _ =>
    bind (quiet (Parse.quiet_expect _ _)) fun _ => bind (lift (Step.tags_emit _ _)) fun _ =>
      bind (lift (Step.tags_emit _ _)) fun _ => bind (lift (Step.tags_emit _ _)) fun _ => pure _

open Parse.Tags in
theorem tags_flag (t : Token) (mods : Modifiers) : Parse.Tags (flag t mods) := by
  unfold flag
  split
  · exact bind (tags_flagArgument _) fun _ => pure _
  split
  · exact bind (tags_flagArgument _) fun _ => pure _
  · exact pure _

open Parse.Tags in
theorem tags_typeFlags (fuel : Nat) : ∀ mods, Parse.Tags (typeFlags fuel mods) := by
  induction fuel with
  | zero => exact fun _ => quiet Parse.quiet_tooDeep
  | succ fuel ih =>
    intro mods
    rw [typeFlags]
    refine bind (quiet (Parse.quiet_accept _)) fun _ => ?_
    split
    · exact pure _
    · dsimp only
      split
      · exact bind (lift (Step.tags_emit _ _)) fun _ => bind (tags_flag _ _) fun _ => ih _
      · exact bind throw fun _ => bind (lift (Step.tags_emit _ _)) fun _ =>
          bind (tags_flag _ _) fun _ => ih _

/-! ## Declarations -/

section

variable {fl : Floor} {n : Nat} {ps : List (Nat × Nat)}

/-- A struct is added under `parent`; the invariant then covers it. -/
theorem kept_structDecl (keyword : Token) (parent : Nat) (hfp : fl.nodes ≤ parent)
    (hpn : parent < n) :
    Triple (fun w => Kept fl n ps w.file) (structDecl keyword parent)
      (fun id w => n ≤ id ∧ Kept fl (id + 1) ((id, parent) :: ps) w.file)
      (fun w => fl.Safe w.file) := by
  have hfn : fl.nodes < n := by omega
  unfold structDecl
  refine Triple.bind ((Step.tags_emit _ _).kept hfn) fun _ => ?_
  refine Triple.bind ((Parse.quiet_expectIdent _).kept hfn) fun _ => ?_
  refine Triple.bind (Parse.quiet_fuel.kept hfn) fun _ => ?_
  refine Triple.bind ((tags_typeFlags _ _).kept hfn) fun _ => ?_
  refine Triple.bind ((Parse.tags_bracedBody _).kept hfn) fun _ => ?_
  refine Triple.bind (Kept.addChild hpn hfp rfl rfl rfl) fun id => Triple.of_fact fun hid => ?_
  have hfi : fl.nodes < id + 1 := by omega
  refine Triple.bind ((Step.tags_here _).kept hfi) fun _ => ?_
  refine Triple.bind (Step.tags_view.kept hfi) fun _ => ?_
  exact Triple.bind ((Step.tags_emitRef _ _ _ _).kept hfi) fun _ =>
    Triple.pure fun _ hk => ⟨hid, hk⟩

theorem reads_enumMembers (enum fuel : Nat) : Reads enum (enumMembers enum fuel) fun _ _ => True := by
  induction fuel with
  | zero =>
    intro fl n ps hfe hen
    rw [enumMembers]
    exact Kept.tooDeep (by omega)
  | succ fuel ih =>
    intro fl n ps hfe hen
    have hfn : fl.nodes < n := by omega
    rw [enumMembers]
    refine Triple.bind ((Parse.quiet_expect _ _).kept hfn) fun t => ?_
    split
    · exact Triple.bind ((Step.tags_emit _ _).kept hfn) fun _ =>
        Triple.pure fun _ hk => ⟨hk, trivial⟩
    refine Triple.bind (Kept.addKind hen hfe rfl rfl rfl) fun member =>
      Triple.of_fact fun hm => ?_
    have hfm : fl.nodes < member + 1 := by omega
    -- the member is a constant without a value until its value is read
    let R : Tree → Prop := fun t => (t.get? member).map (·.kind) = some (.constant none)
    refine Triple.bind ((Parse.Tags.lift (Step.tags_here _)).keptWith hfm (R := R)) fun _ => ?_
    refine Triple.bind ((Parse.Tags.lift Step.tags_view).keptWith hfm (R := R)) fun _ => ?_
    refine Triple.bind ((Parse.Tags.lift (Step.tags_emitRef _ _ _ _)).keptWith hfm (R := R))
      fun _ => ?_
    refine Triple.bind ((Parse.Tags.quiet (Parse.quiet_expect _ _)).keptWith hfm (R := R))
      fun _ => ?_
    extract_lets jp
    -- the rest of the list, after the member's separator
    have hjp : ∀ sep, Triple (fun w => Kept fl (member + 1) ps w.file) (jp sep)
        (fun _ w => Kept fl n ps w.file ∧ True) (fun w => fl.Safe w.file) := by
      intro sep
      dsimp only [jp]
      have done : ∀ w : Work, Kept fl (member + 1) ps w.file → Kept fl n ps w.file ∧ True :=
        fun _ hk => ⟨hk.weaken (by omega) (by omega) (fun _ => id), trivial⟩
      refine Triple.bind ((Step.tags_emit _ _).kept hfm) fun _ => ?_
      split
      · exact Triple.pure done
      · exact (ih fl (member + 1) ps hfe (by omega)).post fun _ w hk => done w hk.1
    split
    · refine Triple.bind ((Parse.Tags.lift (Step.tags_emit _ _)).keptWith hfm (R := R)) fun _ => ?_
      refine Triple.bind ((Parse.Tags.quiet (Parse.quiet_expression _)).keptWith hfm (R := R))
        fun _ => ?_
      refine Triple.bind (Kept.setKind (by omega) ⟨rfl, rfl, rfl, rfl⟩ rfl) fun _ => ?_
      exact Triple.bind ((Parse.quiet_expect _ _).kept hfm) hjp
    · exact Triple.bind (Triple.pure fun _ hk => hk.1) hjp

/-- An enum is created under `parent`, its members are read, and it is listed under `parent`. -/
theorem reads_enumDecl (keyword : Token) (parent : Nat) :
    Reads parent (enumDecl keyword parent) fun _ _ => True := by
  intro fl n ps hfp hpn
  have hfn : fl.nodes < n := by omega
  unfold enumDecl
  refine Triple.bind ((Step.tags_emit _ _).kept hfn) fun _ => ?_
  refine Triple.bind ((Parse.quiet_expectIdent _).kept hfn) fun _ => ?_
  refine Triple.bind ((Parse.quiet_accept _).kept hfn) fun colon => ?_
  extract_lets jp
  suffices hjp : ∀ base, Triple (fun w => Kept fl n ps w.file) (jp base)
      (fun _ w => Kept fl n ps w.file ∧ True) (fun w => fl.Safe w.file) by
    split
    · exact Triple.bind ((Step.tags_emit _ _).kept hfn) fun _ =>
        Triple.bind ((Parse.tags_compoundType _).kept hfn) fun _ => hjp _
    · exact hjp none
  -- the enum, once its base type is read
  intro base
  dsimp only [jp]
  refine Triple.bind ((Parse.quiet_expect _ _).kept hfn) fun _ => ?_
  refine Triple.bind ((Step.tags_emit _ _).kept hfn) fun _ => ?_
  refine Triple.bind (Triple.lift ((Step.kept_alloc hpn rfl rfl).pre
    fun _ hk => ⟨hk, fun h => by simp [NodeKind.isJump] at h⟩)) fun id => ?_
  -- the members are read above a floor raised to the enum: the parent keeps its children
  refine Triple.raiseFloor (Nat.le_of_lt hfn) fun b hb hid hch => ?_
  have hfi : (Floor.ofAnalysis b id).nodes < id + 1 := Nat.lt_succ_self id
  refine Triple.bind ((Step.tags_here _).kept hfi) fun _ => ?_
  refine Triple.bind (Step.tags_view.kept hfi) fun _ => ?_
  refine Triple.bind ((Step.tags_emitRef _ _ _ _).kept hfi) fun _ => ?_
  refine Triple.bind (Parse.quiet_fuel.kept hfi) fun f => ?_
  refine Triple.bind (reads_enumMembers id f _ _ _ (Nat.le_refl id) (Nat.lt_succ_self id)) fun _ => ?_
  refine Triple.bind (Triple.lift ((Step.kept_attach (n := id + 1) hfp).pre fun w hw => ?_)) fun _ =>
    Triple.pure fun _ hk => ⟨hk.weaken (by omega) (by omega) (fun _ h => h), trivial⟩
  -- the parent lies below the raised floor, so its children are those it had in `b`
  have hk := hw.1
  obtain ⟨hk', hpar⟩ := (hk.lower hb (by omega)).pop (id + 1) (Nat.le_refl _) (by omega)
  refine ⟨hk', hpar, fun node hg => hch node ?_⟩
  rw [← hg]
  exact (hk.floor.nodes parent (show parent < id by omega)).symm

theorem reads_constantDecl (keyword : Token) (parent : Nat) :
    Reads parent (constantDecl keyword parent) fun _ _ => True := by
  intro fl n ps hfp hpn
  have hfn : fl.nodes < n := by omega
  unfold constantDecl
  refine Triple.bind ((Step.tags_emit _ _).kept hfn) fun _ => ?_
  refine Triple.bind ((Parse.quiet_expectIdent _).kept hfn) fun _ => ?_
  refine Triple.bind ((Parse.quiet_expect _ _).kept hfn) fun _ => ?_
  refine Triple.bind ((Step.tags_emit _ _).kept hfn) fun _ => ?_
  refine Triple.bind ((Parse.quiet_expression _).kept hfn) fun _ => ?_
  refine Triple.bind ((Parse.quiet_expect _ _).kept hfn) fun _ => ?_
  refine Triple.bind ((Step.tags_emit _ _).kept hfn) fun _ => ?_
  refine Triple.bind (Kept.add hpn hfp rfl rfl rfl) fun _ => ?_
  refine Triple.bind ((Step.tags_here _).kept hfn) fun _ => ?_
  refine Triple.bind (Step.tags_view.kept hfn) fun _ => ?_
  exact Triple.bind ((Step.tags_emitRef _ _ _ _).kept hfn) fun _ =>
    Triple.pure fun _ hk => ⟨hk, trivial⟩

/-- A class is added under the root, whatever names its header gives. -/
theorem reads_classDecl (keyword : Token) (extend : Option Token) :
    Reads 0 (classDecl keyword extend) fun _ _ => True := by
  intro fl n ps hf0 h0n
  have hfn : fl.nodes < n := by omega
  have tags : ∀ {β : Type} {x : Parse β}, Parse.Tags x →
      Triple (fun w => Kept fl n ps w.file) x (fun _ w => Kept fl n ps w.file)
        (fun w => fl.Safe w.file) := fun h => h.kept hfn
  unfold classDecl
  -- the header is read in three parts, each continuing the one before
  extract_lets afterExtend
  suffices h : ∀ r, Triple (fun w => Kept fl n ps w.file) (afterExtend r)
      (fun _ w => Kept fl n ps w.file ∧ True) (fun w => fl.Safe w.file) by
    split
    · exact Triple.bind (tags (Parse.Tags.lift (Step.tags_emit _ _))) h
    · exact h ()
  intro r
  dsimp -zeta only [afterExtend]
  refine Triple.bind (tags (Parse.Tags.lift (Step.tags_emit _ _))) fun _ => ?_
  refine Triple.bind (tags (Parse.Tags.quiet (Parse.quiet_expectIdent _))) fun name => ?_
  refine Triple.bind (tags (Parse.Tags.quiet (Parse.quiet_accept _))) fun _ => ?_
  extract_lets extendName afterParent
  suffices h : ∀ parentName, Triple (fun w => Kept fl n ps w.file) (afterParent parentName)
      (fun _ w => Kept fl n ps w.file ∧ True) (fun w => fl.Safe w.file) by
    split
    · refine Triple.bind (tags (Parse.Tags.lift (Step.tags_emit _ _))) fun _ => ?_
      refine Triple.bind (tags (Parse.Tags.quiet (Parse.quiet_expectIdent _))) fun _ => ?_
      refine Triple.bind (tags (Parse.Tags.lift (Step.tags_emitRef _ _ _ _))) fun _ => ?_
      exact Triple.bind (Triple.pure fun _ hk => hk) h
    · exact Triple.bind (Triple.pure fun _ hk => hk) h
  intro parentName
  dsimp -zeta only [afterParent]
  refine Triple.bind (tags (Parse.Tags.quiet (Parse.quiet_acceptKeyword _))) fun _ => ?_
  extract_lets afterReplace
  suffices h : ∀ replaceName, Triple (fun w => Kept fl n ps w.file) (afterReplace replaceName)
      (fun _ w => Kept fl n ps w.file ∧ True) (fun w => fl.Safe w.file) by
    split
    · refine Triple.bind (tags (Parse.Tags.lift (Step.tags_emit _ _))) fun _ => ?_
      refine Triple.bind (tags (Parse.Tags.quiet (Parse.quiet_expectIdent _))) fun _ => ?_
      refine Triple.bind (tags (Parse.Tags.lift (Step.tags_emitRef _ _ _ _))) fun _ => ?_
      exact Triple.bind (Triple.pure fun _ hk => hk) h
    · exact Triple.bind (Triple.pure fun _ hk => hk) h
  intro replaceName
  dsimp only [afterReplace]
  refine Triple.bind (tags (Parse.Tags.quiet Parse.quiet_fuel)) fun _ => ?_
  refine Triple.bind (tags (tags_typeFlags _ _)) fun _ => ?_
  refine Triple.bind (tags (Parse.tags_bracedBody _)) fun _ => ?_
  refine Triple.bind (Kept.add h0n hf0 rfl rfl rfl) fun _ => ?_
  refine Triple.post ?_ fun _ _ hk => ⟨hk, trivial⟩
  split
  · exact tags (Parse.Tags.lift (Step.tags_emitRef _ _ _ _))
  · exact Triple.bind (tags (Parse.Tags.lift (Step.tags_here _))) fun _ =>
      tags (Parse.Tags.lift (Step.tags_emitRef _ _ _ _))

/-- An include is added under the root. -/
theorem reads_directive (hash : Token) : Reads 0 (directive hash) fun _ _ => True := by
  intro fl n ps hf0 h0n
  have hfn : fl.nodes < n := by omega
  unfold directive
  refine Triple.bind (Parse.quiet_peek.kept hfn) fun _ => ?_
  split
  · refine Triple.bind (Parse.quiet_next.kept hfn) fun _ => ?_
    extract_lets afterWord
    suffices h : ∀ r, Triple (fun w => Kept fl n ps w.file) (afterWord r)
        (fun _ w => Kept fl n ps w.file ∧ True) (fun w => fl.Safe w.file) by
      split
      · exact h ()
      · exact Triple.bind (Kept.throw hfn) fun _ => Triple.of_false
    intro r
    dsimp only [afterWord]
    refine Triple.bind (Parse.quiet_peek.kept hfn) fun _ => ?_
    split
    · refine Triple.bind (Parse.quiet_next.kept hfn) fun _ => ?_
      refine Triple.bind ((Step.tags_emit _ _).kept hfn) fun _ => ?_
      refine Triple.bind ((Step.tags_emit _ _).kept hfn) fun _ => ?_
      refine Triple.bind ((Step.tags_emit _ _).kept hfn) fun _ => ?_
      exact Triple.bind (Kept.add h0n hf0 rfl rfl rfl) fun _ =>
        Triple.pure fun _ hk => ⟨hk, trivial⟩
    · exact (Kept.throw hfn).post fun _ _ h => h.elim
  · exact (Kept.throw hfn).post fun _ _ h => h.elim

/-- The version goes into the root, which holds no other node. -/
theorem reads_version (word : Token) : Reads 0 (version word) fun _ _ => True := by
  intro fl n ps hf0 h0n
  have hfn : fl.nodes < n := by omega
  unfold version
  refine Triple.bind (Parse.quiet_peek.kept hfn) fun _ => ?_
  split
  · refine Triple.bind (Parse.quiet_next.kept hfn) fun _ => ?_
    refine Triple.bind ((Step.tags_emit _ _).kept hfn) fun _ => ?_
    refine Triple.bind ((Step.tags_emit _ _).kept hfn) fun _ => ?_
    refine ((Kept.modifyKind [] hf0 (fun k => by cases k <;> exact ⟨rfl, rfl, rfl, rfl⟩)
      fun k x hx => ?_).pre fun _ hk => ⟨hk, fun _ hx => nomatch hx⟩).post
        fun _ _ hk => ⟨hk, trivial⟩
    cases k with
    | root => simp [NodeKind.held] at hx
    | _ => exact .inl hx
  · exact Kept.unexpected hfn

/-- Every top-level item keeps the invariant, and so does the reading of a whole file. -/
theorem reads_items (fuel : Nat) : ∀ leading, Reads 0 (items fuel leading) fun _ _ => True := by
  induction fuel with
  | zero =>
    intro _ fl n ps _ h0n
    rw [items]
    exact Kept.tooDeep (by omega)
  | succ fuel ih =>
    intro leading fl n ps hf0 h0n
    have hfn : fl.nodes < n := by omega
    have discarded : ∀ {β : Type} {x : Parse β}, Reads 0 x (fun _ _ => True) →
        Triple (fun w => Kept fl n ps w.file) (discard x) (fun _ w => Kept fl n ps w.file ∧ True)
          (fun w => fl.Safe w.file) :=
      fun h => Triple.discard (h fl n ps hf0 h0n)
    rw [items]
    refine Triple.bind (Parse.quiet_next.kept hfn) fun _ => ?_
    -- no token left ends the file; otherwise one item is read
    split
    rotate_left
    · exact Triple.pure fun _ hk => ⟨hk, trivial⟩
    extract_lets next
    -- after each item, the items that follow
    have hnext : ∀ r, Triple (fun w => Kept fl n ps w.file ∧ True) (next r)
        (fun _ w => Kept fl n ps w.file ∧ True) (fun w => fl.Safe w.file) :=
      fun _ => (ih false fl n ps hf0 h0n).pre fun _ hw => hw.1
    have item : ∀ {x : Parse Unit}, Reads 0 x (fun _ _ => True) →
        Triple (fun w => Kept fl n ps w.file) (x >>= next)
          (fun _ w => Kept fl n ps w.file ∧ True) (fun w => fl.Safe w.file) :=
      fun h => Triple.bind (h fl n ps hf0 h0n) hnext
    have fails : ∀ e : ParseError, Triple (fun w => Kept fl n ps w.file)
        ((MonadExcept.throw e : Parse Unit) >>= next) (fun _ w => Kept fl n ps w.file ∧ True)
          (fun w => fl.Safe w.file) :=
      fun _ => Triple.bind (Kept.throw hfn) fun _ => Triple.of_false
    split
    · exact Triple.bind ((Step.tags_emit _ _).kept hfn) fun _ => hnext () |>.pre fun _ hk => ⟨hk, trivial⟩
    · exact item (reads_directive _)
    · split
      · exact item (reads_version _)
      split
      · exact item (reads_classDecl _ _)
      split
      · refine Triple.bind ((Parse.quiet_acceptKeyword _).kept hfn) fun _ => ?_
        split
        · exact item (reads_classDecl _ _)
        · exact Triple.bind (Kept.unexpected hfn) hnext
      split
      · refine Triple.bind (Triple.discard ((kept_structDecl _ 0 hf0 h0n).post fun _ _ h =>
          (⟨h.2.weaken (by omega) (by omega) fun _ hq => List.mem_cons_of_mem _ hq, trivial⟩ :
            Kept fl n ps _ ∧ True))) hnext
      split
      · exact Triple.bind (discarded (reads_enumDecl _ 0)) hnext
      split
      · exact Triple.bind (discarded (reads_constantDecl _ 0)) hnext
      · exact fails _
    · exact fails _

end

end Declarations

/-- Reading the skeleton of file `file` leaves a well-formed tree of that file, whatever the work
    it starts from: the file starts over from its root, and every reader keeps the tree well
    formed, whether the reading succeeds or stops at an error. -/
theorem Analysis.wellFormed_skeleton (file : Nat) (text : String) :
    Step.Triple (fun _ => True) (Analysis.skeleton file text)
      fun _ w => w.file.tree.WellFormed ∧ w.file.file = file := by
  unfold Analysis.skeleton
  refine Step.Triple.withReader ?_ _
  dsimp only
  refine Step.Triple.bind (Q := fun _ w => w.file.tree.WellFormed ∧ w.file.file = file)
    (fun _ _ _ => ⟨Tree.WellFormed.empty, rfl⟩) fun _ => ?_
  refine Step.Triple.bind ((Declarations.reads_items _ true).wellFormed file _) fun r => ?_
  refine Step.Triple.pre ?_ fun _ h => Parse.outcome_same.1 h
  -- what follows records the error, if any, and only tags
  let P : Work → Prop := fun w => w.file.tree.WellFormed ∧ w.file.file = file
  have tail := Step.Triple.bind (Step.Triple.keep (P := P) (x := Step.change Analysis.tagAnomalies)
    fun _ _ hw => hw) fun _ =>
      Step.Triple.bind (Step.Triple.keep (P := P) (x := Step.current) fun _ _ hw => hw) fun a =>
        Step.Triple.keep (P := P) (x := Step.log .debug .declarations ("file " ++ toString file ++
          ": " ++ toString a.tokens.length ++ " tokens, " ++ toString a.tree.declarations.length ++
          " declarations")) fun _ _ hw => hw
  split
  · exact tail
  · exact Step.Triple.bind (Step.Triple.keep (P := P) fun _ _ hw => hw) fun _ => tail

end ZScript
