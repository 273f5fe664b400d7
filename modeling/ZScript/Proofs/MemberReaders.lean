import ZScript.Proofs.DeclarationReaders

/-!
# Reading members keeps the tree well formed

The second phase reads the stored body of every class and struct. A type first gets its
synthetic `self`, a local it holds without listing it; fields and properties are added under it,
and nested structs, enums and constants are read as in the first phase, a nested struct's own body
at once. A method is created before its arguments, which it holds without listing them, and is
listed under its type once its signature is read: as for an enum's members, the signature is read
above a floor raised to the method, so that the type's children all come before it.

Each reader keeps the reader invariant (`Bodies.Reads`), and the reading of a type's body keeps
it at every depth of nesting (`Members.readsBody_body`). Main statement: the members phase keeps a
well-formed tree well formed, and the file it belongs to, whatever it sees of the project
(`Analysis.wellFormed_addMembers`).
-/

namespace ZScript

namespace NodeKind

/-- A class or struct holds its `self`, if it has one. -/
theorem held_of_typeInfo? {k : NodeKind} {i : TypeInfo} (h : k.typeInfo? = some i) :
    k.held = i.selfVar.toList := by
  cases k <;> simp_all [typeInfo?, held]

theorem sameShape_setTypeInfo (k : NodeKind) (i : TypeInfo) : SameShape k (k.setTypeInfo i) := by
  cases k <;> exact ⟨rfl, rfl, rfl, rfl⟩

/-- What a class or struct declares about itself, given again: it holds the `self` given. -/
theorem held_setTypeInfo (k : NodeKind) (i : TypeInfo) (x : Nat) (hx : x ∈ (k.setTypeInfo i).held) :
    x ∈ k.held ∨ x ∈ i.selfVar.toList := by
  cases k <;> simp_all [setTypeInfo, held]

end NodeKind

theorem Tree.WellFormed.lt_of_mem_declarations {t : Tree} (h : t.WellFormed) {x : Nat}
    (hx : x ∈ t.declarations) : x < t.size := by
  unfold Tree.declarations Tree.children at hx
  cases hg : t.get? 0 with
  | none => simp [hg] at hx
  | some root =>
    simp only [hg, Option.map_some, Option.getD_some, List.mem_filter] at hx
    exact h.child_lt hg hx.1

namespace Members

open Parse (Triple)
open Bodies (Reads)

/-! ## Readers that only tag -/

open Parse.Tags in
theorem tags_propertyFields (fuel : Nat) : ∀ acc, Parse.Tags (propertyFields fuel acc) := by
  induction fuel with
  | zero => exact fun _ => quiet Parse.quiet_tooDeep
  | succ fuel ih =>
    intro acc
    rw [propertyFields]
    refine bind (quiet (Parse.quiet_expectIdent _)) fun _ => bind (lift (Step.tags_emitRef _ _ _ _))
      fun _ => bind (quiet (Parse.quiet_expect _ _)) fun _ => bind (lift (Step.tags_emit _ _))
        fun _ => ?_
    split
    · exact pure _
    · exact ih _

open Parse.Tags in
theorem tags_memberFlags (fuel : Nat) : ∀ mods, Parse.Tags (memberFlags fuel mods) := by
  induction fuel with
  | zero => exact fun _ => quiet Parse.quiet_tooDeep
  | succ fuel ih =>
    intro mods
    rw [memberFlags]
    refine bind (quiet Parse.quiet_peek) fun _ => ?_
    split
    rotate_left
    · exact pure _
    refine bind (quiet (Parse.quiet_peekAt _)) fun _ => ?_
    dsimp only
    split
    · exact bind (quiet Parse.quiet_next) fun _ => bind (lift (Step.tags_emit _ _)) fun _ =>
        bind (Declarations.tags_flag _ _) fun _ => ih _
    · exact pure _

open Parse.Tags in
theorem tags_moreTypes (owner fuel : Nat) : Parse.Tags (moreTypes owner fuel) := by
  induction fuel with
  | zero => exact quiet Parse.quiet_tooDeep
  | succ fuel ih =>
    rw [moreTypes]
    refine bind (quiet (Parse.quiet_accept _)) fun _ => ?_
    split
    · exact pure _
    · exact bind (lift (Step.tags_emit _ _)) fun _ => bind (Parse.tags_compoundType _) fun _ =>
        bind ih fun _ => pure _

open Parse.Tags in
theorem tags_argumentFlags (fuel : Nat) : ∀ acc, Parse.Tags (argumentFlags fuel acc) := by
  induction fuel with
  | zero => exact fun _ => quiet Parse.quiet_tooDeep
  | succ fuel ih =>
    intro acc
    rw [argumentFlags]
    refine bind (quiet Parse.quiet_peek) fun _ => ?_
    split
    · exact pure _
    · exact bind (quiet Parse.quiet_next) fun _ => bind (lift (Step.tags_emit _ _)) fun _ => ih _

/-! ## Members -/

section

variable {fl : Floor} {n : Nat} {ps : List (Nat × Nat)}

/-- A type gets its `self`: a local created under it, which it holds. -/
theorem kept_selfVar {owner : Nat} (hfo : fl.nodes ≤ owner) (hon : owner < n) :
    Step.Triple (fun w => Kept fl n ps w.file) (selfVar owner) (fun _ w => Kept fl n ps w.file) := by
  unfold selfVar
  refine Step.Triple.bind ((Step.tags_view.triple (R := fun _ => True)).mono
    (fun _ hk => ⟨hk, trivial⟩) fun _ _ hk => hk.1) fun _ => ?_
  split
  · dsimp only
    refine Step.Triple.bind ((Step.kept_alloc hon rfl rfl).pre
      fun _ hk => ⟨hk, fun h => by simp [NodeKind.isJump] at h⟩) fun id => ?_
    refine Step.Triple.pre (P := fun w => n ≤ id ∧ Kept fl (id + 1) ps w.file ∧
        w.file.tree.Under owner [id]) (Step.Triple.of_fact fun hid => ?_)
      fun w h => ⟨h.2.1, h.1, by simpa [Tree.Under] using h.2.2.1⟩
    refine (Step.kept_modifyKindUnder [id] hfo (fun k => ?_) fun k x hx => ?_).post
      fun _ _ hk => hk.weaken (by omega) (by omega) fun _ h => h
    · split
      · exact NodeKind.sameShape_setTypeInfo _ _
      · exact NodeKind.SameShape.refl _
    · split at hx
      · exact NodeKind.held_setTypeInfo _ _ x hx
      · exact .inl hx
  · exact Step.Triple.pure fun _ hk => hk

theorem reads_property (keyword : Token) (owner : Nat) :
    Reads owner (property keyword owner) fun _ _ => True := by
  intro fl n ps hfo hon
  have hfn : fl.nodes < n := by omega
  unfold property
  refine Triple.bind ((Step.tags_emit _ _).kept hfn) fun _ => ?_
  refine Triple.bind ((Parse.quiet_expectIdent _).kept hfn) fun _ => ?_
  refine Triple.bind ((Parse.quiet_expect _ _).kept hfn) fun _ => ?_
  refine Triple.bind ((Step.tags_emit _ _).kept hfn) fun _ => ?_
  refine Triple.bind (Parse.quiet_fuel.kept hfn) fun _ => ?_
  refine Triple.bind ((tags_propertyFields _ _).kept hfn) fun _ => ?_
  refine Triple.bind (Kept.add hon hfo rfl rfl rfl) fun _ => ?_
  refine Triple.bind ((Step.tags_here _).kept hfn) fun _ => ?_
  refine Triple.bind (Step.tags_view.kept hfn) fun _ => ?_
  exact ((Step.tags_emitRef _ _ _ _).kept hfn).post fun _ _ hk => ⟨hk, trivial⟩

theorem reads_fieldNames (owner : Nat) (base : Ty) (mods : Modifiers) (fuel : Nat) :
    ∀ name, Reads owner (fieldNames owner base mods fuel name) fun _ _ => True := by
  induction fuel with
  | zero =>
    intro _ fl n ps hfo hon
    rw [fieldNames]
    exact Kept.tooDeep (by omega)
  | succ fuel ih =>
    intro name fl n ps hfo hon
    have hfn : fl.nodes < n := by omega
    rw [fieldNames]
    refine Triple.bind (Parse.quiet_fuel.kept hfn) fun _ => ?_
    refine Triple.bind ((Parse.tags_dimensions _).kept hfn) fun _ => ?_
    refine Triple.bind ((Parse.quiet_accept _).kept hfn) fun _ => ?_
    extract_lets afterInit
    suffices h : ∀ init, Triple (fun w => Kept fl n ps w.file) (afterInit init)
        (fun _ w => Kept fl n ps w.file ∧ True) (fun w => fl.Safe w.file) by
      split
      · refine Triple.bind ((Step.tags_emit _ _).kept hfn) fun _ => ?_
        refine Triple.bind ((Parse.quiet_expression _).kept hfn) fun _ => ?_
        exact Triple.bind (Triple.pure fun _ hk => hk) h
      · exact Triple.bind (Triple.pure fun _ hk => hk) h
    -- the field, once its initializer is read, then the next name
    intro init
    dsimp only [afterInit]
    refine Triple.bind (Kept.add hon hfo rfl rfl rfl) fun _ => ?_
    refine Triple.bind ((Step.tags_here _).kept hfn) fun _ => ?_
    refine Triple.bind (Step.tags_view.kept hfn) fun _ => ?_
    refine Triple.bind ((Step.tags_emitRef _ _ _ _).kept hfn) fun _ => ?_
    refine Triple.bind ((Parse.quiet_expect _ _).kept hfn) fun _ => ?_
    refine Triple.bind ((Step.tags_emit _ _).kept hfn) fun _ => ?_
    split
    · exact Triple.pure fun _ hk => ⟨hk, trivial⟩
    · exact Triple.bind ((Parse.quiet_expectIdent _).kept hfn) fun name' =>
        ih name' fl n ps hfo hon

/-- The arguments of `method` are locals created under it; the reader answers them after the
    ones it was given. -/
theorem reads_arguments (owner method fuel : Nat) :
    ∀ args, Reads method (arguments owner method fuel args)
      fun r t => ∃ ys, r.1 = args ++ ys ∧ t.Under method ys := by
  induction fuel with
  | zero =>
    intro _ fl n ps hfm hmn
    rw [arguments]
    exact Kept.tooDeep (by omega)
  | succ fuel ih =>
    intro args fl n ps hfm hmn
    have hfn : fl.nodes < n := by omega
    rw [arguments]
    refine Triple.bind ((Parse.quiet_accept _).kept hfn) fun _ => ?_
    split
    · -- `...` ends the list
      refine Triple.bind ((Step.tags_emit _ _).kept hfn) fun _ => ?_
      refine Triple.bind ((Parse.quiet_expect _ _).kept hfn) fun _ => ?_
      refine Triple.bind ((Step.tags_emit _ _).kept hfn) fun _ => ?_
      exact Triple.pure fun _ hk => ⟨hk, [], by simp, fun _ hx => absurd hx List.not_mem_nil⟩
    refine Triple.bind (Parse.quiet_fuel.kept hfn) fun _ => ?_
    refine Triple.bind ((tags_argumentFlags _ _).kept hfn) fun _ => ?_
    refine Triple.bind ((Parse.tags_compoundType _).kept hfn) fun _ => ?_
    extract_lets named
    -- an argument with a name: a local created under the method
    have hnamed : ∀ u, Triple (fun w => Kept fl n ps w.file) (named u)
        (fun r w => Kept fl n ps w.file ∧ ∃ ys, r.1 = args ++ ys ∧ w.file.tree.Under method ys)
        (fun w => fl.Safe w.file) := by
      intro u
      dsimp -zeta only [named]
      refine Triple.bind ((Parse.quiet_expectIdent _).kept hfn) fun _ => ?_
      refine Triple.bind (Triple.lift ((Step.kept_alloc hmn rfl rfl).pre
        fun _ hk => ⟨hk, fun h => by simp [NodeKind.isJump] at h⟩)) fun arg => ?_
      refine Triple.pre (P := fun w => n ≤ arg ∧ Kept fl (arg + 1) ((arg, method) :: ps) w.file)
        (Triple.of_fact fun harg => ?_) fun w h => ⟨h.2.1, h.1.cons h.2.2.1⟩
      have hfa : fl.nodes < arg + 1 := by omega
      refine Triple.bind ((Step.tags_here _).kept hfa) fun _ => ?_
      refine Triple.bind ((Step.tags_emitRef _ _ _ _).kept hfa) fun _ => ?_
      refine Triple.bind ((Parse.quiet_accept _).kept hfa) fun _ => ?_
      extract_lets args' rest
      have hrest : ∀ u, Triple (fun w => Kept fl (arg + 1) ((arg, method) :: ps) w.file) (rest u)
          (fun r w => Kept fl n ps w.file ∧ ∃ ys, r.1 = args ++ ys ∧ w.file.tree.Under method ys)
          (fun w => fl.Safe w.file) := by
        intro u
        dsimp only [rest]
        refine Triple.bind ((Parse.quiet_expect _ _).kept hfa) fun _ => ?_
        refine Triple.bind ((Step.tags_emit _ _).kept hfa) fun _ => ?_
        split
        · refine Triple.pure fun w hk => ?_
          obtain ⟨hk, hpar⟩ := hk.pop n (by omega) (by omega)
          exact ⟨hk, [arg], rfl, by simpa [Tree.Under] using hpar⟩
        · refine (ih (args ++ [arg]) fl (arg + 1) ((arg, method) :: ps) hfm (by omega)).post
            fun r w hr => ?_
          obtain ⟨hk, ys, hr, hys⟩ := hr
          obtain ⟨hk, hpar⟩ := hk.pop n (by omega) (by omega)
          refine ⟨hk, arg :: ys, by simp [hr], fun x hx => ?_⟩
          rcases List.mem_cons.1 hx with rfl | hx
          · exact hpar
          · exact hys x hx
      split
      · -- a default value is an expression under the argument
        refine Triple.bind ((Step.tags_emit _ _).kept hfa) fun _ => ?_
        refine Triple.bind ((Parse.quiet_expression _).kept hfa) fun _ => ?_
        exact Triple.bind (Kept.add (Nat.lt_succ_self arg) (by omega) rfl rfl rfl) fun _ => hrest ()
      · exact hrest ()
    split
    · refine Triple.bind ((Parse.quiet_accept _).kept hfn) fun _ => ?_
      split
      · exact Triple.bind ((Step.tags_emit _ _).kept hfn) fun _ =>
          Triple.pure fun _ hk => ⟨hk, [], by simp, fun _ hx => absurd hx List.not_mem_nil⟩
      · exact hnamed ()
    · exact hnamed ()

/-- A method is created under its type, its signature is read above a floor raised to it, and it
    is listed under its type once it holds its arguments. -/
theorem reads_method (owner : Nat) (returns : List Ty) (name : Token) (mods : Modifiers) :
    Reads owner (method owner returns name mods) fun _ _ => True := by
  intro fl n ps hfo hon
  have hfn : fl.nodes < n := by omega
  unfold method
  refine Triple.bind ((Parse.quiet_expect _ _).kept hfn) fun _ => ?_
  refine Triple.bind ((Step.tags_emit _ _).kept hfn) fun _ => ?_
  refine Triple.bind (Triple.lift ((Step.kept_alloc hon rfl rfl).pre
    fun _ hk => ⟨hk, fun h => by simp [NodeKind.isJump] at h⟩)) fun id => ?_
  -- the signature is read above a floor raised to the method: the type keeps its children
  refine Triple.raiseFloor (Nat.le_of_lt hfn) fun b hb hid hch => ?_
  have hfi : (Floor.ofAnalysis b id).nodes < id + 1 := Nat.lt_succ_self id
  refine Triple.bind ((Step.tags_here _).kept hfi) fun _ => ?_
  refine Triple.bind (Step.tags_view.kept hfi) fun _ => ?_
  refine Triple.bind ((Step.tags_emitRef _ _ _ _).kept hfi) fun _ => ?_
  refine Triple.bind ((Parse.quiet_accept _).kept hfi) fun _ => ?_
  extract_lets afterArgs
  -- the rest of the signature, once the arguments are known to be children of the method
  suffices h : ∀ sig : List Nat × Bool, Triple (fun w => Kept (Floor.ofAnalysis b id) (id + 1)
      ((id, owner) :: ps) w.file ∧ w.file.tree.Under id sig.1) (afterArgs sig)
      (fun _ w => Kept fl n ps w.file ∧ True) (fun w => (Floor.ofAnalysis b id).Safe w.file) by
    split
    · refine Triple.bind ((Step.tags_emit _ _).kept hfi) fun _ => ?_
      exact Triple.bind (Triple.pure fun _ hk => ⟨hk, fun _ hx => absurd hx List.not_mem_nil⟩) h
    · refine Triple.bind (Parse.quiet_fuel.kept hfi) fun f => ?_
      exact Triple.bind ((reads_arguments owner id f [] _ _ _ (Nat.le_refl id)
        (Nat.lt_succ_self id)).post fun r w h =>
          ⟨h.1, by obtain ⟨ys, hr, hys⟩ := h.2; simpa [hr] using hys⟩) h
  rintro ⟨args, ellipsis⟩
  dsimp -zeta only [afterArgs]
  let R : Tree → Prop := fun t => t.Under id args
  have tags : ∀ {β : Type} {x : Parse β}, Parse.Tags x →
      Triple (fun w => Kept (Floor.ofAnalysis b id) (id + 1) ((id, owner) :: ps) w.file ∧
        R w.file.tree) x
      (fun _ w => Kept (Floor.ofAnalysis b id) (id + 1) ((id, owner) :: ps) w.file ∧
        R w.file.tree) (fun w => (Floor.ofAnalysis b id).Safe w.file) :=
    fun h => h.keptWith hfi
  refine Triple.bind (tags (Parse.Tags.quiet (Parse.quiet_acceptKeyword _))) fun _ => ?_
  extract_lets afterConst
  suffices h : ∀ isConst, Triple (fun w => Kept (Floor.ofAnalysis b id) (id + 1)
      ((id, owner) :: ps) w.file ∧ R w.file.tree) (afterConst isConst)
      (fun _ w => Kept fl n ps w.file ∧ True) (fun w => (Floor.ofAnalysis b id).Safe w.file) by
    split
    · exact Triple.bind (tags (Parse.Tags.lift (Step.tags_emit _ _))) fun _ =>
        Triple.bind (Triple.pure fun _ h => h) h
    · exact Triple.bind (Triple.pure fun _ h => h) h
  intro isConst
  dsimp -zeta only [afterConst]
  refine Triple.bind (tags (Parse.Tags.quiet (Parse.quiet_accept _))) fun _ => ?_
  extract_lets afterBody afterWarning
  suffices h : ∀ body, Triple (fun w => Kept (Floor.ofAnalysis b id) (id + 1)
      ((id, owner) :: ps) w.file ∧ R w.file.tree) (afterBody body)
      (fun _ w => Kept fl n ps w.file ∧ True) (fun w => (Floor.ofAnalysis b id).Safe w.file) by
    split
    · -- `;`, with a warning unless the method is native
      refine Triple.bind (tags (Parse.Tags.lift (Step.tags_emit _ _))) fun _ => ?_
      have hw : ∀ u, Triple (fun w => Kept (Floor.ofAnalysis b id) (id + 1)
          ((id, owner) :: ps) w.file ∧ R w.file.tree) (afterWarning u)
          (fun _ w => Kept fl n ps w.file ∧ True) (fun w => (Floor.ofAnalysis b id).Safe w.file) :=
        fun _ => Triple.bind (Triple.pure fun _ h => h) h
      split
      · exact hw ()
      · exact Triple.bind (tags (Parse.Tags.lift (Step.tags_warn _ _))) hw
    · refine Triple.bind (tags (Parse.Tags.quiet (Parse.quiet_check _))) fun _ => ?_
      split
      · exact Triple.bind (tags (Parse.tags_bracedBody _)) fun _ =>
          Triple.bind (Triple.pure fun _ h => h) h
      · exact Triple.bind ((Kept.unexpected hfi).pre fun _ h => h.1) fun _ => Triple.of_false
  intro body
  dsimp only [afterBody]
  -- the method holds its arguments, which are children of it
  refine Triple.bind (Kept.modifyKind args (Nat.le_refl id)
    (fun k => by cases k <;> exact ⟨rfl, rfl, rfl, rfl⟩) fun k x hx => ?_) fun _ => ?_
  · cases k with
    | method => exact .inr hx
    | _ => exact .inl hx
  -- it is listed under its type, which lies below the raised floor and keeps its children
  refine (Triple.lift ((Step.kept_attach (n := id + 1) hfo).pre fun w hk => ?_)).post
    fun _ _ hk => ⟨hk.weaken (by omega) (by omega) fun _ h => h, trivial⟩
  obtain ⟨hk', hpar⟩ := (hk.lower hb (by omega)).pop (id + 1) (Nat.le_refl _) (by omega)
  refine ⟨hk', hpar, fun node hg => hch node ?_⟩
  rw [← hg]
  exact (hk.floor.nodes owner (show owner < id by omega)).symm

/-- A field or a method. -/
theorem reads_member (owner : Nat) : Reads owner (member owner) fun _ _ => True := by
  intro fl n ps hfo hon
  have hfn : fl.nodes < n := by omega
  unfold member
  refine Triple.bind (Parse.quiet_fuel.kept hfn) fun _ => ?_
  refine Triple.bind ((tags_memberFlags _ _).kept hfn) fun _ => ?_
  refine Triple.bind ((Parse.tags_compoundType _).kept hfn) fun _ => ?_
  refine Triple.bind (Parse.quiet_fuel.kept hfn) fun _ => ?_
  refine Triple.bind ((tags_moreTypes _ _).kept hfn) fun _ => ?_
  dsimp only
  refine Triple.bind ((Parse.quiet_expectIdent _).kept hfn) fun _ => ?_
  refine Triple.bind ((Parse.quiet_check _).kept hfn) fun _ => ?_
  split
  · exact reads_method owner _ _ _ fl n ps hfo hon
  -- a field declaration names one type
  split
  · exact Triple.bind (Kept.throw hfn) fun _ => Triple.of_false
  · exact Triple.bind (Parse.quiet_fuel.kept hfn) fun _ =>
      reads_fieldNames _ _ _ _ _ fl n ps hfo hon

/-- The body readers that keep the invariant: run on a type past the floor, they keep it whether
    they succeed or fail. -/
def ReadsBody (x : Nat → ExceptT ParseError Step Unit) : Prop :=
  ∀ owner fl n ps, fl.nodes ≤ owner → owner < n →
    Step.Triple (fun w => Kept fl n ps w.file) (x owner).run
      (Outcome (fun _ w => Kept fl n ps w.file) fun w => fl.Safe w.file)

/-- The items of a type's body, whose nested structs are read by a body reader that keeps the
    invariant. -/
theorem reads_items {nested : Nat → ExceptT ParseError Step Unit} (hn : ReadsBody nested)
    (owner fuel : Nat) : Reads owner (items nested owner fuel) fun _ _ => True := by
  induction fuel with
  | zero =>
    intro fl n ps hfo hon
    rw [items]
    exact Kept.tooDeep (by omega)
  | succ fuel ih =>
    intro fl n ps hfo hon
    have hfn : fl.nodes < n := by omega
    rw [items]
    refine Triple.bind (Parse.quiet_peek.kept hfn) fun _ => ?_
    -- no token left ends the body; otherwise one item is read
    split
    rotate_left
    · exact Triple.pure fun _ hk => ⟨hk, trivial⟩
    extract_lets next block
    have item : ∀ {P : Work → Prop} {x : Parse Unit}, Triple P x
        (fun _ w => Kept fl n ps w.file) (fun w => fl.Safe w.file) →
        Triple P (x >>= next) (fun _ w => Kept fl n ps w.file ∧ True) (fun w => fl.Safe w.file) :=
      fun h => Triple.bind h fun _ => ih fl n ps hfo hon
    have reads : ∀ {β : Type} {x : Parse β}, Reads owner x (fun _ _ => True) →
        Triple (fun w => Kept fl n ps w.file) x (fun _ w => Kept fl n ps w.file)
          (fun w => fl.Safe w.file) :=
      fun h => (h fl n ps hfo hon).post fun _ _ hw => hw.1
    have skipNext : Triple (fun w => Kept fl n ps w.file) (Parse.next)
        (fun _ w => Kept fl n ps w.file) (fun w => fl.Safe w.file) :=
      Parse.quiet_next.kept hfn
    split
    · exact Triple.bind skipNext fun _ => item ((Step.tags_emit _ _).kept hfn)
    · split
      · exact Triple.bind skipNext fun _ =>
          item (Triple.discard (reads (Declarations.reads_enumDecl _ owner)))
      split
      · -- a nested struct, whose own body is read at once
        refine Triple.bind skipNext fun _ => Triple.bind
          (Declarations.kept_structDecl _ owner hfo hon) fun id => Triple.of_fact fun hid => item ?_
        exact (Parse.Triple.exceptLift (hn id fl (id + 1) ((id, owner) :: ps) (by omega)
          (Nat.lt_succ_self id))).post fun _ _ hk =>
            hk.weaken (by omega) (by omega) fun _ hq => List.mem_cons_of_mem _ hq
      refine Triple.bind ((Parse.quiet_peekAt _).kept hfn) fun _ => ?_
      split
      · exact Triple.bind skipNext fun _ =>
          item (Triple.discard (reads (Declarations.reads_constantDecl _ owner)))
      split
      · exact Triple.bind skipNext fun _ => item (reads (reads_property _ owner))
      split
      · -- `flagdef` and `mixin` are skipped
        refine Triple.bind skipNext fun _ => Triple.bind ((Step.tags_emit _ _).kept hfn) fun _ => ?_
        refine Triple.bind ((Parse.quiet_balanced _).kept hfn) fun _ => ?_
        exact Triple.bind ((Parse.quiet_expect _ _).kept hfn) fun _ =>
          item ((Step.tags_emit _ _).kept hfn)
      split
      · -- so are `default` and `states` blocks
        refine Triple.bind skipNext fun _ => ?_
        refine Triple.bind ((Step.tags_emit _ _).kept hfn) fun _ => ?_
        refine Triple.bind ((Parse.quiet_accept _).kept hfn) fun _ => ?_
        have hblock : ∀ u, Triple (fun w => Kept fl n ps w.file) (block u)
            (fun _ w => Kept fl n ps w.file ∧ True) (fun w => fl.Safe w.file) :=
          fun _ => Triple.bind ((Parse.tags_bracedBody _).kept hfn) fun _ => ih fl n ps hfo hon
        split
        · refine Triple.bind ((Step.tags_emit _ _).kept hfn) fun _ => ?_
          refine Triple.bind ((Parse.quiet_balanced _).kept hfn) fun _ => ?_
          refine Triple.bind ((Parse.quiet_expect _ _).kept hfn) fun _ => ?_
          exact Triple.bind ((Step.tags_emit _ _).kept hfn) hblock
        · exact hblock ()
      · exact item (reads (reads_member owner))
    · exact item (reads (reads_member owner))

end

/-- Reading a type's body keeps the invariant at every depth of nesting. -/
theorem readsBody_body (depth : Nat) : ReadsBody (body depth) := by
  induction depth with
  | zero =>
    intro owner fl n ps hfo hon
    rw [body]
    refine Step.Triple.except_bind (Step.Triple.except_lift Step.triple_tree) fun _ => ?_
    exact Step.Triple.except_throw.pre fun _ hw => hw.1.safe (by omega)
  | succ depth ih =>
    intro owner fl n ps hfo hon
    rw [body]
    refine Step.Triple.except_bind (Step.Triple.except_lift Step.triple_tree) fun t => ?_
    split
    · next node hg =>
      split
      · next info hi =>
        -- the body leaves the type, whose `self`, if it has one, is its own
        refine Step.Triple.except_bind (Step.Triple.except_lift
          ((Step.kept_modifyKindUnder (f := fun k => k.setTypeInfo { info with body := [] })
            info.selfVar.toList hfo
            (fun k => NodeKind.sameShape_setTypeInfo k _)
            fun k x hx => NodeKind.held_setTypeInfo k { info with body := [] } x hx).pre
            fun w ⟨hk, ht⟩ => ⟨hk, fun x hx => ?_⟩)) fun _ => ?_
        · rw [ht] at hg
          exact hk.wf.held_parent owner node x hg (by rw [NodeKind.held_of_typeInfo? hi]; exact hx)
        refine Step.Triple.except_bind (Step.Triple.except_lift (kept_selfVar hfo hon)) fun _ => ?_
        exact (Parse.Triple.runOn (reads_items ih owner _ fl n ps hfo hon) _).post
          (Outcome.imp (fun _ _ h => h.1) fun _ h => h)
      · exact Step.Triple.except_pure fun _ h => h.1
    · exact Step.Triple.except_pure fun _ h => h.1

end Members

/-- Reading the bodies of the types `owners`, every one a node before `m`, keeps a tree of at
    least `m` nodes of file `f` well formed; a failure stops the file. -/
theorem Analysis.wellFormed_addMembers_go (f m : Nat) (owners : List Nat)
    (hm : ∀ o ∈ owners, o < m) :
    Step.Triple (fun w => (w.file.tree.WellFormed ∧ w.file.file = f) ∧ m ≤ w.file.tree.size)
      (Analysis.addMembers.go owners) (fun _ w => w.file.tree.WellFormed ∧ w.file.file = f) := by
  induction owners with
  | nil => exact Step.Triple.pure fun _ h => h.1
  | cons o rest ih =>
    rw [Analysis.addMembers.go]
    refine Step.Triple.bind Step.triple_current fun a => ?_
    -- the body is read from the state `a`, with the floor at its root
    refine Step.Triple.bind (Q := fun r w => Outcome
        (fun _ w => (w.file.tree.WellFormed ∧ w.file.file = f) ∧ m ≤ w.file.tree.size)
        (fun w => w.file.tree.WellFormed ∧ w.file.file = f) r w) ?_ fun r => ?_
    · refine Step.Triple.pre (P := fun w => (m ≤ a.tree.size ∧ o < a.tree.size ∧ a.file = f) ∧
          Kept (Floor.ofAnalysis a 0) a.tree.size [] w.file) (Step.Triple.of_fact fun ha => ?_)
        fun w ⟨⟨⟨hwf, hf⟩, hsz⟩, ha⟩ => by
          subst ha
          exact ⟨⟨hsz, by have := hm o List.mem_cons_self; omega, hf⟩, Kept.ofWellFormed hwf⟩
      exact (Members.readsBody_body _ o _ _ [] (Nat.zero_le _) ha.2.1).post
        (Outcome.imp (fun _ _ hk => ⟨⟨hk.wf, hk.floor.file.trans ha.2.2⟩, Nat.le_trans ha.1 hk.size⟩)
          fun _ h => ⟨h.wf, h.floor.file.trans ha.2.2⟩)
    split
    · exact ih (fun o' ho' => hm o' (List.mem_cons_of_mem _ ho'))
    · exact Step.Triple.keep fun _ _ hw => hw

/-- The members phase keeps a well-formed tree of file `f` well formed, whatever it sees of the
    project. -/
theorem Analysis.wellFormed_addMembers (f : Nat) :
    Step.Triple (fun w => w.file.tree.WellFormed ∧ w.file.file = f) Analysis.addMembers
      fun _ w => w.file.tree.WellFormed ∧ w.file.file = f := by
  unfold Analysis.addMembers
  refine Step.Triple.bind Step.triple_current fun a => ?_
  split
  · exact Step.Triple.pure fun _ h => h.1
  · dsimp only
    refine Step.Triple.pre (P := fun w => a.tree.WellFormed ∧
        ((w.file.tree.WellFormed ∧ w.file.file = f) ∧ a.tree.size ≤ w.file.tree.size))
      (Step.Triple.of_fact fun hwf => ?_) fun w ⟨hw, ha⟩ => ⟨ha ▸ hw.1, hw, ha ▸ Nat.le_refl _⟩
    -- every type read is a declaration of the tree the phase starts from
    exact Analysis.wellFormed_addMembers_go f _ _ fun o ho =>
      hwf.lt_of_mem_declarations (List.mem_filter.1 ho).1

end ZScript
