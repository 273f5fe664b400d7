import ZScript.Proofs.LinedSteps
import ZScript.Proofs.SourcedReaders

/-!
# Reading declarations and members reports on lines of the file

The first two phases read a file's tokens and the bodies stored in its classes and structs, and
every error they raise is on the line of a token they hold or of the last token of their
cursor; so every reader keeps the file lined in its own tokens (`Analysis.Lined`). A body nested
too deeply is reported on the line of its struct, which the struct's declaration has just put in
the tree (`Declarations.lends_structDecl`). Reading the skeleton starts the file over from its
text (`Analysis.lined_skeleton`), and the members phase keeps it lined
(`Analysis.lined_addMembers`).
-/

namespace ZScript

namespace Step

/-- A node added with a kind that lends its line is one whose line diagnostics may name. -/
theorem lends_add (parent : Nat) (name : String) (line : Nat) {kind : NodeKind}
    (hk : kind.lendsLine = true) :
    Step.Triple (fun _ => True) (add parent name line kind) fun id w => w.file.tree.Lends id := by
  intro u w _ node hg
  simp only [add_run, Tree.add_eq] at hg
  obtain ⟨node₀, hg₀, hkind⟩ := Tree.kind_modify hg fun _ => rfl
  rw [Tree.get?_alloc, if_pos rfl] at hg₀
  cases hg₀
  rw [← hkind]
  exact hk

/-- A step that leaves the tree alone keeps the fact that a node lends its line. -/
theorem lends_of_tree {α : Type} {x : Step α} (id : Nat)
    (h : ∀ u w, (x u w).2.file.tree = w.file.tree) :
    Step.Triple (fun w => w.file.tree.Lends id) x fun _ w => w.file.tree.Lends id :=
  Step.Triple.ofTree (R := (·.Lends id)) h

end Step

namespace Declarations

open Parse Parse.Lined

variable {T : List Token}

theorem lined_flagArgument (flag : String) : Parse.Lined T (flagArgument flag) fun _ => True :=
  bind (lined_expect _ _) fun _ ho => bind (lined_expect _ _) fun _ hv =>
    bind (lined_expect _ _) fun _ hc => bind (lift (Step.lined_emit ho _)) fun _ _ =>
      bind (lift (Step.lined_emit hv _)) fun _ _ =>
        bind (lift (Step.lined_emit hc _)) fun _ _ => pure trivial

theorem lined_flag {t : Token} (mods : Modifiers) : Parse.Lined T (flag t mods) fun _ => True := by
  unfold flag
  split
  · exact bind (lined_flagArgument _) fun _ _ => pure trivial
  split
  · exact bind (lined_flagArgument _) fun _ _ => pure trivial
  · exact pure trivial

/-- A word that is no type flag is reported on its own line. -/
theorem lined_typeFlags (fuel : Nat) : ∀ mods, Parse.Lined T (typeFlags fuel mods) fun _ => True := by
  induction fuel with
  | zero => exact fun _ => lined_tooDeep
  | succ fuel ih =>
    intro mods
    rw [typeFlags]
    refine bind (lined_accept _) fun _ ht => ?_
    split
    · exact pure trivial
    · dsimp only
      split
      · exact bind (lift (Step.lined_emit (ht _ rfl) _)) fun _ _ =>
          bind (lined_flag _) fun _ _ => ih _
      · exact bind (throw (V := fun _ => True) (.of (ht _ rfl))) fun _ _ =>
          bind (lift (Step.lined_emit (ht _ rfl) _)) fun _ _ =>
          bind (lined_flag _) fun _ _ => ih _

theorem lined_structDecl {keyword : Token} (hk : keyword ∈ T) (parent : Nat) :
    Parse.Lined T (structDecl keyword parent) fun _ => True := by
  unfold structDecl
  refine bind (lift (Step.lined_emit hk _)) fun _ _ => ?_
  refine bind (lined_expectIdent _) fun _ hname => bind lined_fuel fun _ _ => ?_
  refine bind (lined_typeFlags _ _) fun _ _ => bind (lined_bracedBody _) fun _ hbody => ?_
  refine bind (lift (Step.lined_add _ _ hbody fun _ => .of hname)) fun _ _ => ?_
  exact bind (lift (Step.lined_here _)) fun _ _ => bind (lift Step.lined_view) fun _ _ =>
    bind (lift (Step.lined_emitRef hname _ _ _)) fun _ _ => pure trivial

/-- A struct declaration that succeeds answers the node it added, which lends its line. -/
theorem lends_structDecl (keyword : Token) (parent : Nat) :
    Parse.Triple (fun _ => True) (structDecl keyword parent) (fun id w => w.file.tree.Lends id)
      fun _ => True := by
  unfold structDecl
  refine Triple.bind (Triple.anything _) fun _ => Triple.bind (Triple.anything _) fun _ => ?_
  refine Triple.bind (Triple.anything _) fun _ => Triple.bind (Triple.anything _) fun _ => ?_
  refine Triple.bind (Triple.anything _) fun _ => ?_
  refine Triple.bind (Triple.lift (Step.lends_add _ _ _ rfl)) fun id => ?_
  -- the rest leaves the tree alone
  refine Triple.bind (Triple.lift (Step.lends_of_tree id fun _ _ => rfl)) fun _ => ?_
  refine Triple.bind (Triple.lift (Step.lends_of_tree id fun _ _ => rfl)) fun _ => ?_
  refine Triple.bind (Triple.lift (Step.lends_of_tree id fun _ _ => rfl)) fun _ => ?_
  exact Triple.pure fun _ h => h

theorem lined_enumMembers (enum fuel : Nat) :
    Parse.Lined T (enumMembers enum fuel) fun _ => True := by
  induction fuel with
  | zero =>
    rw [enumMembers]
    exact lined_tooDeep
  | succ fuel ih =>
    rw [enumMembers]
    refine bind (lined_expect _ _) fun t ht => ?_
    split
    · exact bind (lift (Step.lined_emit ht _)) fun _ _ => pure trivial
    refine bind (lift (Step.lined_add _ _ (by simp [NodeKind.tokens]) fun _ => .of ht))
      fun member _ => ?_
    refine bind (lift (Step.lined_here _)) fun _ _ => bind (lift Step.lined_view) fun _ _ => ?_
    refine bind (lift (Step.lined_emitRef ht _ _ _)) fun _ _ => ?_
    refine bind (lined_expect _ _) fun _ hsep => ?_
    extract_lets jp
    -- the rest of the list, after the member's separator
    have hjp : ∀ sep, sep ∈ T → Parse.Lined T (jp sep) fun _ => True := by
      intro sep hsep
      dsimp only [jp]
      refine bind (lift (Step.lined_emit hsep _)) fun _ _ => ?_
      split
      · exact pure trivial
      · exact ih
    split
    · refine bind (lift (Step.lined_emit hsep _)) fun _ _ => ?_
      refine bind (lined_expression _) fun value hv => ?_
      refine bind (lift (Step.lined_modifyKind member
        (fun _ _ => by simpa [NodeKind.tokens] using hv) fun _ h => by cases h)) fun _ _ => ?_
      exact bind (lined_expect _ _) hjp
    · exact hjp _ hsep

theorem lined_enumDecl {keyword : Token} (hk : keyword ∈ T) (parent : Nat) :
    Parse.Lined T (enumDecl keyword parent) fun _ => True := by
  unfold enumDecl
  refine bind (lift (Step.lined_emit hk _)) fun _ _ => ?_
  refine bind (lined_expectIdent _) fun _ hname => bind (lined_accept _) fun _ hcolon => ?_
  extract_lets jp
  -- the enum, once its base type is read: a base type has no dimensions
  suffices hjp : ∀ base : Option Ty, (∀ ty ∈ base, ty.dims = []) →
      Parse.Lined T (jp base) fun _ => True by
    split
    · exact bind (lift (Step.lined_emit (hcolon _ rfl) _)) fun _ _ =>
        bind (lined_compoundType _) fun _ hty => hjp _ fun _ h => Option.mem_some_iff.1 h ▸ hty
    · exact hjp none fun _ h => by cases h
  intro base hbase
  dsimp only [jp]
  have hkind : (NodeKind.enumDecl base).tokens ⊆ T := by
    cases base with
    | none => simp [NodeKind.tokens]
    | some ty => simp [NodeKind.tokens, hbase ty rfl]
  refine bind (lined_expect _ _) fun _ ho => bind (lift (Step.lined_emit ho _)) fun _ _ => ?_
  refine bind (lift (Step.lined_alloc _ _ hkind fun _ => .of hname)) fun _ _ => ?_
  refine bind (lift (Step.lined_here _)) fun _ _ => bind (lift Step.lined_view) fun _ _ => ?_
  refine bind (lift (Step.lined_emitRef hname _ _ _)) fun _ _ => bind lined_fuel fun _ _ => ?_
  exact bind (lined_enumMembers _ _) fun _ _ => bind (lift (Step.lined_attach _ _)) fun _ _ =>
    pure trivial

theorem lined_constantDecl {keyword : Token} (hk : keyword ∈ T) (parent : Nat) :
    Parse.Lined T (constantDecl keyword parent) fun _ => True := by
  unfold constantDecl
  refine bind (lift (Step.lined_emit hk _)) fun _ _ => ?_
  refine bind (lined_expectIdent _) fun _ hname => bind (lined_expect _ _) fun _ ha => ?_
  refine bind (lift (Step.lined_emit ha _)) fun _ _ => bind (lined_expression _) fun _ hv => ?_
  refine bind (lined_expect _ _) fun _ hs => bind (lift (Step.lined_emit hs _)) fun _ _ => ?_
  refine bind (lift (Step.lined_add _ _ (by simpa [NodeKind.tokens] using hv) fun _ => .of hname))
    fun _ _ => ?_
  exact bind (lift (Step.lined_here _)) fun _ _ => bind (lift Step.lined_view) fun _ _ =>
    bind (lift (Step.lined_emitRef hname _ _ _)) fun _ _ => pure trivial

theorem lined_classDecl {keyword : Token} (hk : keyword ∈ T) {extend : Option Token}
    (he : ∀ t ∈ extend, t ∈ T) : Parse.Lined T (classDecl keyword extend) fun _ => True := by
  unfold classDecl
  -- the header is read in three parts, each continuing the one before
  extract_lets afterExtend
  suffices h : ∀ r, Parse.Lined T (afterExtend r) fun _ => True by
    split
    · exact bind (lift (Step.lined_emit (he _ rfl) _)) fun r _ => h r
    · exact h ()
  intro r
  dsimp -zeta only [afterExtend]
  refine bind (lift (Step.lined_emit hk _)) fun _ _ => ?_
  refine bind (lined_expectIdent _) fun _ hname => bind (lined_accept _) fun _ hcolon => ?_
  extract_lets extendName afterParent
  suffices h : ∀ parentName, Parse.Lined T (afterParent parentName) fun _ => True by
    split
    · refine bind (lift (Step.lined_emit (hcolon _ rfl) _)) fun _ _ => ?_
      refine bind (lined_expectIdent _) fun _ hp => ?_
      exact bind (lift (Step.lined_emitRef hp _ _ _)) fun _ _ =>
        bind (pure (V := fun _ => True) trivial) fun _ _ => h _
    · exact bind (pure (V := fun _ => True) trivial) fun _ _ => h _
  intro parentName
  dsimp -zeta only [afterParent]
  refine bind (lined_acceptKeyword _) fun _ hr => ?_
  extract_lets afterReplace
  suffices h : ∀ replaceName, Parse.Lined T (afterReplace replaceName) fun _ => True by
    split
    · refine bind (lift (Step.lined_emit (hr _ rfl) _)) fun _ _ => ?_
      refine bind (lined_expectIdent _) fun _ ho => ?_
      exact bind (lift (Step.lined_emitRef ho _ _ _)) fun _ _ =>
        bind (pure (V := fun _ => True) trivial) fun _ _ => h _
    · exact bind (pure (V := fun _ => True) trivial) fun _ _ => h _
  intro replaceName
  dsimp only [afterReplace]
  refine bind lined_fuel fun _ _ => bind (lined_typeFlags _ _) fun _ _ => ?_
  refine bind (lined_bracedBody _) fun _ hbody => ?_
  refine bind (lift (Step.lined_add _ _ (by simpa [NodeKind.tokens, typeInfo] using hbody)
    fun _ => .of hname)) fun _ _ => ?_
  split
  · exact lift (Step.lined_emitRef hname _ _ _)
  · exact bind (lift (Step.lined_here _)) fun _ _ => lift (Step.lined_emitRef hname _ _ _)

/-- A directive without its word or its file name is reported on the line of the `#` or of the
    word, and an include is a node on the line of its `#`. -/
theorem lined_directive {hash : Token} (hh : hash ∈ T) :
    Parse.Lined T (directive hash) fun _ => True := by
  unfold directive
  refine bind lined_peek fun _ hd => ?_
  split
  · next d hfd =>
    have hdT : d ∈ T := mem_of_filter hd hfd
    refine bind lined_next fun _ _ => ?_
    extract_lets afterWord
    suffices h : ∀ r, Parse.Lined T (afterWord r) fun _ => True by
      split
      · exact h ()
      · exact bind (throw (V := fun _ => True) (.of hdT)) fun _ _ => h ()
    intro r
    dsimp only [afterWord]
    refine bind lined_peek fun _ hpath => ?_
    split
    · next path hfp =>
      refine bind lined_next fun _ _ => bind (lift (Step.lined_emit hh _)) fun _ _ => ?_
      refine bind (lift (Step.lined_emit hdT _)) fun _ _ => ?_
      refine bind (lift (Step.lined_emit (mem_of_filter hpath hfp) _)) fun _ _ => ?_
      exact bind (lift (Step.lined_add _ _ (by simp [NodeKind.tokens]) fun _ => .of hh)) fun _ _ =>
        pure trivial
    · exact throw (.of hdT)
  · exact throw (.of hh)

theorem lined_version {word : Token} (hw : word ∈ T) :
    Parse.Lined T (version word) fun _ => True := by
  unfold version
  refine bind lined_peek fun _ hv => ?_
  split
  · next value hfv =>
    refine bind lined_next fun _ _ => bind (lift (Step.lined_emit hw _)) fun _ _ => ?_
    refine bind (lift (Step.lined_emit (mem_of_filter hv hfv) _)) fun _ _ => ?_
    refine lift (Step.lined_modifyKind 0 (fun k hk => ?_) fun k hl => ?_)
    · split
      · simp [NodeKind.tokens]
      · exact hk
    · split at hl
      · cases hl
      · exact hl
  · exact lined_unexpected _

/-- Every top-level item keeps the file lined, and so does the reading of a whole file. -/
theorem lined_items (fuel : Nat) : ∀ leading, Parse.Lined T (items fuel leading) fun _ => True := by
  induction fuel with
  | zero =>
    intro _
    rw [items]
    exact lined_tooDeep
  | succ fuel ih =>
    intro leading
    rw [items]
    refine bind lined_next fun _ hnext => ?_
    -- no token left ends the file; otherwise one item is read
    split
    rotate_left
    · exact pure trivial
    next t =>
    have ht : t ∈ T := hnext t rfl
    extract_lets next
    have item : ∀ {x : Parse Unit}, Parse.Lined T x (fun _ => True) →
        Parse.Lined T (x >>= next) fun _ => True :=
      fun h => bind h fun _ _ => ih false
    split
    · exact item (lift (Step.lined_emit ht _))
    · exact item (lined_directive ht)
    · split
      · exact item (lined_version ht)
      split
      · exact item (lined_classDecl ht fun _ h => by cases h)
      split
      · refine bind (lined_acceptKeyword _) fun _ hc => ?_
        split
        · exact item (lined_classDecl (hc _ rfl) fun _ h => Option.mem_some_iff.1 h ▸ ht)
        · exact item (lined_unexpected _)
      split
      · exact item (discard (lined_structDecl ht 0))
      split
      · exact item (discard (lined_enumDecl ht 0))
      split
      · exact item (discard (lined_constantDecl ht 0))
      · exact item (throw (.of ht))
    · exact item (throw (.of ht))

end Declarations

namespace Members

open Parse Parse.Lined

variable {T : List Token}

/-- A type gets its `self`, a local on the type's line. -/
theorem lined_selfVar (owner : Nat) : Step.Lined T (selfVar owner) fun _ => True := by
  unfold selfVar
  refine Step.Lined.bind Step.lined_view fun _ _ => ?_
  split
  · dsimp only
    refine Step.Lined.bind (Step.lined_alloc _ _ (by simp [NodeKind.tokens, Ty.named])
      fun h => by cases h) fun _ _ => Step.lined_modifyKind owner (fun k hk => ?_) fun k hl => ?_
    · split
      · next i hi => rwa [NodeKind.tokens_setTypeInfo hi, ← NodeKind.tokens_of_typeInfo? hi]
      · exact hk
    · split at hl
      · rwa [NodeKind.lendsLine_setTypeInfo] at hl
      · exact hl
  · exact Step.Lined.pure trivial

theorem lined_propertyFields (fuel : Nat) :
    ∀ acc, Parse.Lined T (propertyFields fuel acc) fun _ => True := by
  induction fuel with
  | zero => exact fun _ => lined_tooDeep
  | succ fuel ih =>
    intro acc
    rw [propertyFields]
    refine bind (lined_expectIdent _) fun _ hf => bind (lift (Step.lined_emitRef hf _ _ _))
      fun _ _ => bind (lined_expect _ _) fun _ hs => bind (lift (Step.lined_emit hs _))
        fun _ _ => ?_
    split
    · exact pure trivial
    · exact ih _

theorem lined_property {keyword : Token} (hk : keyword ∈ T) (owner : Nat) :
    Parse.Lined T (property keyword owner) fun _ => True := by
  unfold property
  refine bind (lift (Step.lined_emit hk _)) fun _ _ => ?_
  refine bind (lined_expectIdent _) fun _ hname => bind (lined_expect _ _) fun _ hc => ?_
  refine bind (lift (Step.lined_emit hc _)) fun _ _ => bind lined_fuel fun _ _ => ?_
  refine bind (lined_propertyFields _ _) fun _ _ => ?_
  refine bind (lift (Step.lined_add _ _ (by simp [NodeKind.tokens]) fun _ => .of hname))
    fun _ _ => ?_
  exact bind (lift (Step.lined_here _)) fun _ _ => bind (lift Step.lined_view) fun _ _ =>
    lift (Step.lined_emitRef hname _ _ _)

theorem lined_memberFlags (fuel : Nat) :
    ∀ mods, Parse.Lined T (memberFlags fuel mods) fun _ => True := by
  induction fuel with
  | zero => exact fun _ => lined_tooDeep
  | succ fuel ih =>
    intro mods
    rw [memberFlags]
    refine bind lined_peek fun _ ht => ?_
    split
    rotate_left
    · exact pure trivial
    next t =>
    refine bind (lined_peekAt _) fun _ _ => ?_
    dsimp only
    split
    · exact bind lined_next fun _ _ => bind (lift (Step.lined_emit (ht t rfl) _)) fun _ _ =>
        bind (Declarations.lined_flag _) fun _ _ => ih _
    · exact pure trivial

/-- More types of a method, none with dimensions. -/
theorem lined_moreTypes (owner fuel : Nat) :
    Parse.Lined T (moreTypes owner fuel) fun tys => ∀ ty ∈ tys, ty.dims = [] := by
  induction fuel with
  | zero => exact lined_tooDeep
  | succ fuel ih =>
    rw [moreTypes]
    refine bind (lined_accept _) fun _ hc => ?_
    split
    · exact pure fun _ h => by cases h
    · refine bind (lift (Step.lined_emit (hc _ rfl) _)) fun _ _ =>
        bind (lined_compoundType _) fun _ hty => bind ih fun _ htys => pure ?_
      intro ty h
      rcases List.mem_cons.1 h with rfl | h
      · exact hty
      · exact htys ty h

theorem lined_fieldNames (owner : Nat) {base : Ty} (hbase : base.dims = []) (mods : Modifiers)
    (fuel : Nat) : ∀ name, name ∈ T → Parse.Lined T (fieldNames owner base mods fuel name)
      fun _ => True := by
  induction fuel with
  | zero =>
    intro _ _
    rw [fieldNames]
    exact lined_tooDeep
  | succ fuel ih =>
    intro name hname
    rw [fieldNames]
    refine bind lined_fuel fun _ _ => bind (lined_dimensions _) fun dims hdims => ?_
    refine bind (lined_accept _) fun _ ha => ?_
    extract_lets afterInit
    suffices h : ∀ init : Option Expr, (∀ e ∈ init, e.tokens ⊆ T) →
        Parse.Lined T (afterInit init) fun _ => True by
      split
      · refine bind (lift (Step.lined_emit (ha _ rfl) _)) fun _ _ => ?_
        exact bind (lined_expression _) fun e he =>
          bind (pure (V := fun init : Option Expr => ∀ e ∈ init, e.tokens ⊆ T)
            fun _ h => Option.mem_some_iff.1 h ▸ he) h
      · exact bind (pure (V := fun init : Option Expr => ∀ e ∈ init, e.tokens ⊆ T)
          fun _ h => by cases h) h
    -- the field, once its initializer is read, then the next name
    intro init hinit
    dsimp only [afterInit]
    have hkind : (NodeKind.field ⟨{ base with dims := base.dims ++ dims }, mods, init⟩).tokens ⊆ T := by
      rw [NodeKind.tokens, List.append_subset]
      refine ⟨by simpa [hbase] using hdims, ?_⟩
      cases init with
      | none => simp
      | some e => simpa using hinit e rfl
    refine bind (lift (Step.lined_add _ _ hkind fun _ => .of hname)) fun _ _ => ?_
    refine bind (lift (Step.lined_here _)) fun _ _ => bind (lift Step.lined_view) fun _ _ => ?_
    refine bind (lift (Step.lined_emitRef hname _ _ _)) fun _ _ => ?_
    refine bind (lined_expect _ _) fun _ hs => bind (lift (Step.lined_emit hs _)) fun _ _ => ?_
    split
    · exact pure trivial
    · exact bind (lined_expectIdent _) fun name' hname' => ih name' hname'

theorem lined_argumentFlags (fuel : Nat) :
    ∀ acc, Parse.Lined T (argumentFlags fuel acc) fun _ => True := by
  induction fuel with
  | zero => exact fun _ => lined_tooDeep
  | succ fuel ih =>
    intro acc
    rw [argumentFlags]
    refine bind lined_peek fun _ ht => ?_
    split
    · exact pure trivial
    · next t hft =>
      exact bind lined_next fun _ _ =>
        bind (lift (Step.lined_emit (Declarations.mem_of_filter ht hft) _)) fun _ _ => ih _

theorem lined_arguments (owner method fuel : Nat) :
    ∀ args, Parse.Lined T (arguments owner method fuel args) fun _ => True := by
  induction fuel with
  | zero =>
    intro _
    rw [arguments]
    exact lined_tooDeep
  | succ fuel ih =>
    intro args
    rw [arguments]
    refine bind (lined_accept _) fun _ hdots => ?_
    split
    · -- `...` ends the list
      refine bind (lift (Step.lined_emit (hdots _ rfl) _)) fun _ _ => ?_
      exact bind (lined_expect _ _) fun _ hc => bind (lift (Step.lined_emit hc _)) fun _ _ =>
        pure trivial
    refine bind lined_fuel fun _ _ => bind (lined_argumentFlags _ _) fun _ _ => ?_
    refine bind (lined_compoundType _) fun ty hty => ?_
    extract_lets named
    -- an argument with a name: a local of a type without dimensions, with its default value
    have hnamed : ∀ u, Parse.Lined T (named u) fun _ => True := by
      intro u
      dsimp -zeta only [named]
      refine bind (lined_expectIdent _) fun _ hname => ?_
      refine bind (lift (Step.lined_alloc _ _ (by simp [NodeKind.tokens, hty]) fun _ => .of hname))
        fun _ _ => ?_
      refine bind (lift (Step.lined_here _)) fun _ _ => ?_
      refine bind (lift (Step.lined_emitRef hname _ _ _)) fun _ _ => ?_
      refine bind (lined_accept _) fun _ ha => ?_
      extract_lets args' rest
      have hrest : ∀ u, Parse.Lined T (rest u) fun _ => True := by
        intro u
        dsimp only [rest]
        refine bind (lined_expect _ _) fun _ hs => bind (lift (Step.lined_emit hs _)) fun _ _ => ?_
        split
        · exact pure trivial
        · exact ih _
      split
      · refine bind (lift (Step.lined_emit (ha _ rfl) _)) fun _ _ => ?_
        refine bind (lined_expression _) fun _ hv => ?_
        exact bind (lift (Step.lined_add _ _ (by simpa [NodeKind.tokens] using hv)
          fun _ => .of (ha _ rfl))) fun _ _ => hrest ()
      · exact hrest ()
    split
    · refine bind (lined_accept _) fun _ hc => ?_
      split
      · exact bind (lift (Step.lined_emit (hc _ rfl) _)) fun _ _ => pure trivial
      · exact hnamed ()
    · exact hnamed ()

/-- A method without a body that is not native is worth a warning on the line of its name. -/
theorem lined_method (owner : Nat) {returns : List Ty} (hret : ∀ ty ∈ returns, ty.dims = [])
    {name : Token} (hname : name ∈ T) (mods : Modifiers) :
    Parse.Lined T (method owner returns name mods) fun _ => True := by
  unfold method
  have hreturns : (returns.flatMap fun ty => Expr.dimTokens ty.dims) = [] := by
    simp only [List.flatMap_eq_nil_iff]
    intro ty hty
    rw [hret ty hty, Expr.dimTokens_nil]
  refine bind (lined_expect _ _) fun _ ho => bind (lift (Step.lined_emit ho _)) fun _ _ => ?_
  refine bind (lift (Step.lined_alloc _ _ (by simp [NodeKind.tokens, hreturns]) fun _ => .of hname))
    fun id _ => ?_
  refine bind (lift (Step.lined_here _)) fun _ _ => bind (lift Step.lined_view) fun _ _ => ?_
  refine bind (lift (Step.lined_emitRef hname _ _ _)) fun _ _ => ?_
  refine bind (lined_accept _) fun _ hc => ?_
  extract_lets afterArgs
  suffices h : ∀ sig, Parse.Lined T (afterArgs sig) fun _ => True by
    split
    · exact bind (lift (Step.lined_emit (hc _ rfl) _)) fun _ _ =>
        bind (pure (V := fun _ => True) trivial) fun _ _ => h _
    · exact bind lined_fuel fun _ _ => bind (lined_arguments _ _ _ _) fun _ _ => h _
  intro sig
  dsimp -zeta only [afterArgs]
  refine bind (lined_acceptKeyword _) fun _ hconst => ?_
  extract_lets afterConst
  suffices h : ∀ isConst, Parse.Lined T (afterConst isConst) fun _ => True by
    split
    · exact bind (lift (Step.lined_emit (hconst _ rfl) _)) fun _ _ =>
        bind (pure (V := fun _ => True) trivial) fun _ _ => h _
    · exact bind (pure (V := fun _ => True) trivial) fun _ _ => h _
  intro isConst
  dsimp -zeta only [afterConst]
  refine bind (lined_accept _) fun _ hsemi => ?_
  extract_lets afterBody afterWarning
  -- a body, if there is one, is kept as tokens of `T`
  suffices h : ∀ body : Option (List Token), (∀ ts ∈ body, ts ⊆ T) →
      Parse.Lined T (afterBody body) fun _ => True by
    split
    · refine bind (lift (Step.lined_emit (hsemi _ rfl) _)) fun _ _ => ?_
      have hw : ∀ u, Parse.Lined T (afterWarning u) fun _ => True :=
        fun _ => bind (pure (V := fun body : Option (List Token) => ∀ ts ∈ body, ts ⊆ T)
          fun _ h => by cases h) h
      split
      · exact hw ()
      · exact bind (lift (Step.lined_warn _ (.of hname))) fun _ _ => hw ()
    · refine bind (lined_check _) fun _ _ => ?_
      split
      · exact bind (lined_bracedBody _) fun _ hb =>
          bind (pure (V := fun body : Option (List Token) => ∀ ts ∈ body, ts ⊆ T)
            fun _ h => Option.mem_some_iff.1 h ▸ hb) h
      · exact bind (lined_unexpected (V := fun _ => False) _) fun _ hf => hf.elim
  intro body hbody
  dsimp only [afterBody]
  refine bind (lift (Step.lined_modifyKind id (fun k hk => ?_) fun k hl => ?_)) fun _ _ =>
    lift (Step.lined_attach _ _)
  · split
    · next m =>
      simp only [NodeKind.tokens, List.append_subset] at hk ⊢
      refine ⟨hk.1, ?_⟩
      cases body with
      | none => simp
      | some ts => simpa using hbody ts rfl
    · exact hk
  · split at hl
    · cases hl
    · exact hl

/-- A field or a method; a field declaration with several types is reported on its name. -/
theorem lined_member (owner : Nat) : Parse.Lined T (member owner) fun _ => True := by
  unfold member
  refine bind lined_fuel fun _ _ => bind (lined_memberFlags _ _) fun _ _ => ?_
  refine bind (lined_compoundType _) fun _ hfirst => bind lined_fuel fun _ _ => ?_
  refine bind (lined_moreTypes _ _) fun _ hmore => ?_
  dsimp only
  refine bind (lined_expectIdent _) fun _ hname => bind (lined_check _) fun _ _ => ?_
  split
  · refine lined_method owner (fun ty h => ?_) hname _
    rcases List.mem_cons.1 h with rfl | h
    · exact hfirst
    · exact hmore ty h
  -- a field declaration names one type
  split
  · exact bind (Lined.throw (V := fun _ => False) (.of hname)) fun _ hf => hf.elim
  · exact bind lined_fuel fun _ _ => lined_fieldNames _ hfirst _ _ _ hname

/-- The items of a type's body, whose nested structs are read, each from the work where its
    node lends its line, by a body reader that keeps the file lined. -/
theorem lined_items {nested : Nat → ExceptT ParseError Step Unit}
    (hn : ∀ id, Step.Triple (fun w => w.file.Lined T ∧ w.file.tree.Lends id) (nested id).run
      fun r w => ExprParser.LinedRun (· ∈ T) (fun _ => True) r ∧ w.file.Lined T)
    (owner fuel : Nat) : Parse.Lined T (items nested owner fuel) fun _ => True := by
  induction fuel with
  | zero =>
    rw [items]
    exact lined_tooDeep
  | succ fuel ih =>
    rw [items]
    refine bind lined_peek fun _ hpeek => ?_
    -- no token left ends the body; otherwise one item is read
    split
    rotate_left
    · exact pure trivial
    next t =>
    have ht : t ∈ T := hpeek t rfl
    extract_lets next block
    have item : ∀ {x : Parse Unit}, Parse.Lined T x (fun _ => True) →
        Parse.Lined T (x >>= next) fun _ => True :=
      fun h => bind h fun _ _ => ih
    split
    · exact bind lined_next fun _ _ => item (lift (Step.lined_emit ht _))
    · split
      · exact bind lined_next fun _ _ => item (discard (Declarations.lined_enumDecl ht owner))
      split
      · -- a nested struct, whose own body is read at once, from the node just added
        exact bind lined_next fun _ _ => bind_of (Declarations.lined_structDecl ht owner)
          (Declarations.lends_structDecl _ owner) fun id _ =>
            LinedIf.bind (LinedIf.exceptLift (hn id)) fun _ _ => ih
      refine bind (lined_peekAt _) fun _ _ => ?_
      split
      · exact bind lined_next fun _ _ =>
          item (discard (Declarations.lined_constantDecl ht owner))
      split
      · exact bind lined_next fun _ _ => item (lined_property ht owner)
      split
      · -- `flagdef` and `mixin` are skipped
        refine bind lined_next fun _ _ => bind (lift (Step.lined_emit ht _)) fun _ _ => ?_
        refine bind (lined_balanced _) fun _ _ => ?_
        exact bind (lined_expect _ _) fun _ hs => item (lift (Step.lined_emit hs _))
      split
      · -- so are `default` and `states` blocks
        refine bind lined_next fun _ _ => bind (lift (Step.lined_emit ht _)) fun _ _ => ?_
        refine bind (lined_accept _) fun _ ho => ?_
        have hblock : ∀ u, Parse.Lined T (block u) fun _ => True :=
          fun _ => bind (lined_bracedBody _) fun _ _ => ih
        split
        · refine bind (lift (Step.lined_emit (ho _ rfl) _)) fun _ _ => ?_
          refine bind (lined_balanced _) fun _ _ => ?_
          exact bind (lined_expect _ _) fun _ hc => bind (lift (Step.lined_emit hc _))
            fun u _ => hblock u
        · exact hblock ()
      · exact item (lined_member owner)
    · exact item (lined_member owner)

/-- Reading a type's body, one level of nesting left or more: the body it reads is the one
    stored in the type, whose tokens are in `T`. -/
theorem lined_body_succ (depth : Nat)
    (ih : ∀ owner, Step.Triple (fun w => w.file.Lined T ∧ w.file.tree.Lends owner)
      (body depth owner).run fun r w => ExprParser.LinedRun (· ∈ T) (fun _ => True) r ∧ w.file.Lined T)
    (owner : Nat) : Step.LinedRun T (body (depth + 1) owner) fun _ => True := by
  rw [body]
  refine Step.LinedRun.bind (Step.LinedRun.lift Step.lined_tree) fun t ht => ?_
  split
  · next node hg =>
    split
    · next info hi =>
      have hbody : info.body ⊆ T := NodeKind.tokens_of_typeInfo? hi ▸ ht.1 owner node hg
      -- the body leaves the type
      refine Step.LinedRun.bind (Step.LinedRun.lift (Step.lined_modifyKind owner
        (fun k hk => ?_) fun k hl => ?_)) fun _ _ => ?_
      · exact List.Subset.trans (NodeKind.tokens_setTypeInfo_subset k _)
          (List.append_subset.2 ⟨hk, by simp⟩)
      · rwa [NodeKind.lendsLine_setTypeInfo] at hl
      refine Step.LinedRun.bind (Step.LinedRun.lift (lined_selfVar owner)) fun _ _ => ?_
      exact Parse.Lined.runOn (lined_items ih owner _) hbody
    · exact Step.LinedRun.pure trivial
  · exact Step.LinedRun.pure trivial

/-- Reading a type's body keeps the file lined at every depth of nesting, from a work where
    the type's node lends its line: a body nested too deeply is reported on that line. -/
theorem lined_body : ∀ (depth owner : Nat), Step.Triple
    (fun w => w.file.Lined T ∧ w.file.tree.Lends owner) (body depth owner).run
    fun r w => ExprParser.LinedRun (· ∈ T) (fun _ => True) r ∧ w.file.Lined T
  | 0, owner => by
    intro u w hw
    rw [body]
    refine ⟨?_, hw.1⟩
    show LineOf (· ∈ T) (((w.file.tree.get? owner).map (·.line)).getD 1)
    cases hg : w.file.tree.get? owner with
    | none => exact .one
    | some node => exact hw.1.nodes owner node hg (hw.2 node hg)
  | depth + 1, owner => (lined_body_succ depth (lined_body depth) owner).pre fun _ h => h.1

end Members

namespace Analysis

variable {T : List Token}

/-- A file with no node but the root and no diagnostic is lined in its tokens. -/
theorem lined_fresh (file : Nat) (T : List Token) : ({ file, tokens := T } : Analysis).Lined T := by
  refine ⟨sourced_fresh file T, fun d hd => by simp at hd, fun i node hg => ?_⟩
  -- the only node is the root, which lends no line
  simp only [Tree.empty, Tree.get?, List.getElem?_toArray, List.getElem?_singleton,
    Option.ite_none_right_eq_some, Option.some.injEq] at hg
  obtain ⟨-, rfl⟩ := hg
  exact fun h => by cases h

theorem Lined.tagComments {a : Analysis} (h : a.Lined T) : a.tagComments.Lined T :=
  ⟨h.toSourced.tagComments, h.diagnostics, h.nodes⟩

theorem Lined.tagAnomalies {a : Analysis} (h : a.Lined T) : a.tagAnomalies.Lined T :=
  ⟨h.toSourced.tagAnomalies, h.diagnostics, h.nodes⟩

/-- Reading the skeleton of a text leaves the file lined in the text's tokens, whatever the work
    it starts from: the file starts over from its tokens, and an error that stops the reading is
    on the line of one of them. -/
theorem lined_skeleton (file : Nat) (text : String) :
    Step.Triple (fun _ => True) (Analysis.skeleton file text)
      fun _ w => w.file.Lined (Token.lex text) := by
  unfold Analysis.skeleton
  refine Step.Triple.withReader ?_ _
  dsimp only
  refine Step.Triple.bind (Q := fun _ w => w.file.Lined (Token.lex text))
    (fun _ _ _ => (lined_fresh file _).tagComments) fun _ => ?_
  refine Step.Triple.bind (Declarations.lined_items _ true (Cursor.ofList _)
    (Cursor.Holds.ofList fun _ ht => List.mem_of_mem_filter ht)) fun r => ?_
  -- what follows records the error, if any, and tags the anomalies
  refine Step.Triple.post (Q := fun _ w => True ∧ w.file.Lined (Token.lex text)) ?_
    fun _ _ h => h.2
  split
  · exact Step.Triple.pre (Step.Lined.bind (V := fun _ => True)
      (fun _ _ hw => ⟨trivial, hw.tagAnomalies⟩) fun _ _ =>
        Step.Lined.bind Step.lined_current fun _ _ => Step.lined_log _ _ _) fun _ h => h.2
  · next e _ =>
    exact fun u w hw => Step.Lined.bind (Step.lined_fail hw.1)
      (fun _ _ => Step.Lined.bind (V := fun _ => True) (fun _ _ hw => ⟨trivial, hw.tagAnomalies⟩)
        fun _ _ => Step.Lined.bind Step.lined_current fun _ _ => Step.lined_log _ _ _) u w hw.2

/-- Reading the bodies of the types `owners` keeps the file lined; a failure stops the file,
    and is reported on its own line. -/
theorem lined_addMembers_go (owners : List Nat) :
    Step.Lined T (addMembers.go owners) fun _ => True := by
  induction owners with
  | nil => exact Step.Lined.pure trivial
  | cons o rest ih =>
    rw [addMembers.go]
    refine Step.Lined.bind Step.lined_current fun _ _ => ?_
    refine Step.Triple.bind (Members.lined_body_succ _ (Members.lined_body _) o) fun r => ?_
    split
    · exact Step.Triple.pre ih fun _ h => h.2
    · next e _ => exact fun u w hw => Step.lined_fail hw.1 u w hw.2

/-- The members phase keeps a file lined, whatever it sees of the project. -/
theorem lined_addMembers : Step.Lined T addMembers fun _ => True := by
  unfold addMembers
  refine Step.Lined.bind Step.lined_current fun _ _ => ?_
  split
  · exact Step.Lined.pure trivial
  · exact lined_addMembers_go _

end Analysis

end ZScript
