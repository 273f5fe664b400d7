import ZScript.Proofs.SourcedTokens

/-!
# Reading declarations and members keeps a file sourced

The first two phases read a file's tokens and the bodies stored in its classes and structs.
Every token they tag or store comes from the cursor they read, so every reader keeps the file
sourced in its own tokens (`Analysis.Sourced`). Reading the skeleton starts the file over from
its text, with its comments and anomalies tagged from its own tokens
(`Analysis.sourced_skeleton`), and reading the members of every class and struct keeps it
sourced (`Analysis.sourced_addMembers`).
-/

namespace ZScript

namespace Declarations

open Parse Parse.Sourced

variable {T : List Token}

theorem sourced_flagArgument (flag : String) : Parse.Sourced T (flagArgument flag) fun _ => True :=
  bind (sourced_expect _ _) fun _ ho => bind (sourced_expect _ _) fun _ hv =>
    bind (sourced_expect _ _) fun _ hc => bind (lift (Step.sourced_emit ho _)) fun _ _ =>
      bind (lift (Step.sourced_emit hv _)) fun _ _ =>
        bind (lift (Step.sourced_emit hc _)) fun _ _ => pure trivial

theorem sourced_flag {t : Token} (mods : Modifiers) : Parse.Sourced T (flag t mods) fun _ => True := by
  unfold flag
  split
  · exact bind (sourced_flagArgument _) fun _ _ => pure trivial
  split
  · exact bind (sourced_flagArgument _) fun _ _ => pure trivial
  · exact pure trivial

theorem sourced_typeFlags (fuel : Nat) : ∀ mods, Parse.Sourced T (typeFlags fuel mods) fun _ => True := by
  induction fuel with
  | zero => exact fun _ => sourced_tooDeep
  | succ fuel ih =>
    intro mods
    rw [typeFlags]
    refine bind (sourced_accept _) fun _ ht => ?_
    split
    · exact pure trivial
    · dsimp only
      split
      · exact bind (lift (Step.sourced_emit (ht _ rfl) _)) fun _ _ =>
          bind (sourced_flag _) fun _ _ => ih _
      · exact bind (throw (V := fun _ => True)) fun _ _ =>
          bind (lift (Step.sourced_emit (ht _ rfl) _)) fun _ _ =>
          bind (sourced_flag _) fun _ _ => ih _

theorem sourced_structDecl {keyword : Token} (hk : keyword ∈ T) (parent : Nat) :
    Parse.Sourced T (structDecl keyword parent) fun _ => True := by
  unfold structDecl
  refine bind (lift (Step.sourced_emit hk _)) fun _ _ => ?_
  refine bind (sourced_expectIdent _) fun _ hname => bind sourced_fuel fun _ _ => ?_
  refine bind (sourced_typeFlags _ _) fun _ _ => bind (sourced_bracedBody _) fun _ hbody => ?_
  refine bind (lift (Step.sourced_add _ _ _ hbody)) fun _ _ => ?_
  exact bind (lift (Step.sourced_here _)) fun _ _ => bind (lift Step.sourced_view) fun _ _ =>
    bind (lift (Step.sourced_emitRef hname _ _ _)) fun _ _ => pure trivial

theorem sourced_enumMembers (enum fuel : Nat) :
    Parse.Sourced T (enumMembers enum fuel) fun _ => True := by
  induction fuel with
  | zero =>
    rw [enumMembers]
    exact sourced_tooDeep
  | succ fuel ih =>
    rw [enumMembers]
    refine bind (sourced_expect _ _) fun t ht => ?_
    split
    · exact bind (lift (Step.sourced_emit ht _)) fun _ _ => pure trivial
    refine bind (lift (Step.sourced_add _ _ _ (by simp [NodeKind.tokens]))) fun member _ => ?_
    refine bind (lift (Step.sourced_here _)) fun _ _ => bind (lift Step.sourced_view) fun _ _ => ?_
    refine bind (lift (Step.sourced_emitRef ht _ _ _)) fun _ _ => ?_
    refine bind (sourced_expect _ _) fun _ hsep => ?_
    extract_lets jp
    -- the rest of the list, after the member's separator
    have hjp : ∀ sep, sep ∈ T → Parse.Sourced T (jp sep) fun _ => True := by
      intro sep hsep
      dsimp only [jp]
      refine bind (lift (Step.sourced_emit hsep _)) fun _ _ => ?_
      split
      · exact pure trivial
      · exact ih
    split
    · refine bind (lift (Step.sourced_emit hsep _)) fun _ _ => ?_
      refine bind (sourced_expression _) fun value hv => ?_
      refine bind (lift (Step.sourced_modifyKind member fun _ _ => by simpa [NodeKind.tokens] using hv))
        fun _ _ => ?_
      exact bind (sourced_expect _ _) hjp
    · exact hjp _ hsep

theorem sourced_enumDecl {keyword : Token} (hk : keyword ∈ T) (parent : Nat) :
    Parse.Sourced T (enumDecl keyword parent) fun _ => True := by
  unfold enumDecl
  refine bind (lift (Step.sourced_emit hk _)) fun _ _ => ?_
  refine bind (sourced_expectIdent _) fun _ hname => bind (sourced_accept _) fun _ hcolon => ?_
  extract_lets jp
  -- the enum, once its base type is read: a base type has no dimensions
  suffices hjp : ∀ base : Option Ty, (∀ ty ∈ base, ty.dims = []) →
      Parse.Sourced T (jp base) fun _ => True by
    split
    · exact bind (lift (Step.sourced_emit (hcolon _ rfl) _)) fun _ _ =>
        bind (sourced_compoundType _) fun _ hty => hjp _ fun _ h => Option.mem_some_iff.1 h ▸ hty
    · exact hjp none fun _ h => by cases h
  intro base hbase
  dsimp only [jp]
  have hkind : (NodeKind.enumDecl base).tokens ⊆ T := by
    cases base with
    | none => simp [NodeKind.tokens]
    | some ty => simp [NodeKind.tokens, hbase ty rfl]
  refine bind (sourced_expect _ _) fun _ ho => bind (lift (Step.sourced_emit ho _)) fun _ _ => ?_
  refine bind (lift (Step.sourced_alloc _ _ _ hkind)) fun _ _ => ?_
  refine bind (lift (Step.sourced_here _)) fun _ _ => bind (lift Step.sourced_view) fun _ _ => ?_
  refine bind (lift (Step.sourced_emitRef hname _ _ _)) fun _ _ => bind sourced_fuel fun _ _ => ?_
  exact bind (sourced_enumMembers _ _) fun _ _ => bind (lift (Step.sourced_attach _ _)) fun _ _ =>
    pure trivial

theorem sourced_constantDecl {keyword : Token} (hk : keyword ∈ T) (parent : Nat) :
    Parse.Sourced T (constantDecl keyword parent) fun _ => True := by
  unfold constantDecl
  refine bind (lift (Step.sourced_emit hk _)) fun _ _ => ?_
  refine bind (sourced_expectIdent _) fun _ hname => bind (sourced_expect _ _) fun _ ha => ?_
  refine bind (lift (Step.sourced_emit ha _)) fun _ _ => bind (sourced_expression _) fun _ hv => ?_
  refine bind (sourced_expect _ _) fun _ hs => bind (lift (Step.sourced_emit hs _)) fun _ _ => ?_
  refine bind (lift (Step.sourced_add _ _ _ (by simpa [NodeKind.tokens] using hv))) fun _ _ => ?_
  exact bind (lift (Step.sourced_here _)) fun _ _ => bind (lift Step.sourced_view) fun _ _ =>
    bind (lift (Step.sourced_emitRef hname _ _ _)) fun _ _ => pure trivial

theorem sourced_classDecl {keyword : Token} (hk : keyword ∈ T) {extend : Option Token}
    (he : ∀ t ∈ extend, t ∈ T) : Parse.Sourced T (classDecl keyword extend) fun _ => True := by
  unfold classDecl
  -- the header is read in three parts, each continuing the one before
  extract_lets afterExtend
  suffices h : ∀ r, Parse.Sourced T (afterExtend r) fun _ => True by
    split
    · exact bind (lift (Step.sourced_emit (he _ rfl) _)) fun r _ => h r
    · exact h ()
  intro r
  dsimp -zeta only [afterExtend]
  refine bind (lift (Step.sourced_emit hk _)) fun _ _ => ?_
  refine bind (sourced_expectIdent _) fun _ hname => bind (sourced_accept _) fun _ hcolon => ?_
  extract_lets extendName afterParent
  suffices h : ∀ parentName, Parse.Sourced T (afterParent parentName) fun _ => True by
    split
    · refine bind (lift (Step.sourced_emit (hcolon _ rfl) _)) fun _ _ => ?_
      refine bind (sourced_expectIdent _) fun _ hp => ?_
      exact bind (lift (Step.sourced_emitRef hp _ _ _)) fun _ _ =>
        bind (pure (V := fun _ => True) trivial) fun _ _ => h _
    · exact bind (pure (V := fun _ => True) trivial) fun _ _ => h _
  intro parentName
  dsimp -zeta only [afterParent]
  refine bind (sourced_acceptKeyword _) fun _ hr => ?_
  extract_lets afterReplace
  suffices h : ∀ replaceName, Parse.Sourced T (afterReplace replaceName) fun _ => True by
    split
    · refine bind (lift (Step.sourced_emit (hr _ rfl) _)) fun _ _ => ?_
      refine bind (sourced_expectIdent _) fun _ ho => ?_
      exact bind (lift (Step.sourced_emitRef ho _ _ _)) fun _ _ =>
        bind (pure (V := fun _ => True) trivial) fun _ _ => h _
    · exact bind (pure (V := fun _ => True) trivial) fun _ _ => h _
  intro replaceName
  dsimp only [afterReplace]
  refine bind sourced_fuel fun _ _ => bind (sourced_typeFlags _ _) fun _ _ => ?_
  refine bind (sourced_bracedBody _) fun _ hbody => ?_
  refine bind (lift (Step.sourced_add _ _ _ (by simpa [NodeKind.tokens, typeInfo] using hbody)))
    fun _ _ => ?_
  split
  · exact lift (Step.sourced_emitRef hname _ _ _)
  · exact bind (lift (Step.sourced_here _)) fun _ _ => lift (Step.sourced_emitRef hname _ _ _)

/-- A token the cursor shows, when it passes a test. -/
theorem mem_of_filter {o : Option Token} {p : Token → Bool} {t : Token} (ho : ∀ t ∈ o, t ∈ T)
    (h : o.filter p = some t) : t ∈ T :=
  ho t (Option.filter_eq_some_iff.1 h).1

theorem sourced_directive {hash : Token} (hh : hash ∈ T) :
    Parse.Sourced T (directive hash) fun _ => True := by
  unfold directive
  refine bind sourced_peek fun _ hd => ?_
  split
  · next d hfd =>
    refine bind sourced_next fun _ _ => ?_
    extract_lets afterWord
    suffices h : ∀ r, Parse.Sourced T (afterWord r) fun _ => True by
      split
      · exact h ()
      · exact bind (throw (V := fun _ => True)) fun _ _ => h ()
    intro r
    dsimp only [afterWord]
    refine bind sourced_peek fun _ hpath => ?_
    split
    · next path hfp =>
      refine bind sourced_next fun _ _ => bind (lift (Step.sourced_emit hh _)) fun _ _ => ?_
      refine bind (lift (Step.sourced_emit (mem_of_filter hd hfd) _)) fun _ _ => ?_
      refine bind (lift (Step.sourced_emit (mem_of_filter hpath hfp) _)) fun _ _ => ?_
      exact bind (lift (Step.sourced_add _ _ _ (by simp [NodeKind.tokens]))) fun _ _ =>
        pure trivial
    · exact throw
  · exact throw

theorem sourced_version {word : Token} (hw : word ∈ T) :
    Parse.Sourced T (version word) fun _ => True := by
  unfold version
  refine bind sourced_peek fun _ hv => ?_
  split
  · next value hfv =>
    refine bind sourced_next fun _ _ => bind (lift (Step.sourced_emit hw _)) fun _ _ => ?_
    refine bind (lift (Step.sourced_emit (mem_of_filter hv hfv) _)) fun _ _ => ?_
    refine lift (Step.sourced_modifyKind 0 fun k hk => ?_)
    split
    · simp [NodeKind.tokens]
    · exact hk
  · exact sourced_unexpected _

/-- Every top-level item keeps the file sourced, and so does the reading of a whole file. -/
theorem sourced_items (fuel : Nat) : ∀ leading, Parse.Sourced T (items fuel leading) fun _ => True := by
  induction fuel with
  | zero =>
    intro _
    rw [items]
    exact sourced_tooDeep
  | succ fuel ih =>
    intro leading
    rw [items]
    refine bind sourced_next fun _ hnext => ?_
    -- no token left ends the file; otherwise one item is read
    split
    rotate_left
    · exact pure trivial
    next t =>
    have ht : t ∈ T := hnext t rfl
    extract_lets next
    have item : ∀ {x : Parse Unit}, Parse.Sourced T x (fun _ => True) →
        Parse.Sourced T (x >>= next) fun _ => True :=
      fun h => bind h fun _ _ => ih false
    split
    · exact item (lift (Step.sourced_emit ht _))
    · exact item (sourced_directive ht)
    · split
      · exact item (sourced_version ht)
      split
      · exact item (sourced_classDecl ht fun _ h => by cases h)
      split
      · refine bind (sourced_acceptKeyword _) fun _ hc => ?_
        split
        · exact item (sourced_classDecl (hc _ rfl) fun _ h => Option.mem_some_iff.1 h ▸ ht)
        · exact item (sourced_unexpected _)
      split
      · exact item (discard (sourced_structDecl ht 0))
      split
      · exact item (discard (sourced_enumDecl ht 0))
      split
      · exact item (discard (sourced_constantDecl ht 0))
      · exact item throw
    · exact item throw

end Declarations

namespace Members

open Parse Parse.Sourced

variable {T : List Token}

/-- A type gets its `self`, a local whose type has no dimensions. -/
theorem sourced_selfVar (owner : Nat) : Step.Sourced T (selfVar owner) fun _ => True := by
  unfold selfVar
  refine Step.Sourced.bind Step.sourced_view fun _ _ => ?_
  split
  · dsimp only
    refine Step.Sourced.bind (Step.sourced_alloc _ _ _ (by simp [NodeKind.tokens, Ty.named]))
      fun _ _ => Step.sourced_modifyKind owner fun k hk => ?_
    split
    · next i hi => rwa [NodeKind.tokens_setTypeInfo hi, ← NodeKind.tokens_of_typeInfo? hi]
    · exact hk
  · exact Step.Sourced.pure trivial

theorem sourced_propertyFields (fuel : Nat) :
    ∀ acc, Parse.Sourced T (propertyFields fuel acc) fun _ => True := by
  induction fuel with
  | zero => exact fun _ => sourced_tooDeep
  | succ fuel ih =>
    intro acc
    rw [propertyFields]
    refine bind (sourced_expectIdent _) fun _ hf => bind (lift (Step.sourced_emitRef hf _ _ _))
      fun _ _ => bind (sourced_expect _ _) fun _ hs => bind (lift (Step.sourced_emit hs _))
        fun _ _ => ?_
    split
    · exact pure trivial
    · exact ih _

theorem sourced_property {keyword : Token} (hk : keyword ∈ T) (owner : Nat) :
    Parse.Sourced T (property keyword owner) fun _ => True := by
  unfold property
  refine bind (lift (Step.sourced_emit hk _)) fun _ _ => ?_
  refine bind (sourced_expectIdent _) fun _ hname => bind (sourced_expect _ _) fun _ hc => ?_
  refine bind (lift (Step.sourced_emit hc _)) fun _ _ => bind sourced_fuel fun _ _ => ?_
  refine bind (sourced_propertyFields _ _) fun _ _ => ?_
  refine bind (lift (Step.sourced_add _ _ _ (by simp [NodeKind.tokens]))) fun _ _ => ?_
  exact bind (lift (Step.sourced_here _)) fun _ _ => bind (lift Step.sourced_view) fun _ _ =>
    lift (Step.sourced_emitRef hname _ _ _)

theorem sourced_memberFlags (fuel : Nat) :
    ∀ mods, Parse.Sourced T (memberFlags fuel mods) fun _ => True := by
  induction fuel with
  | zero => exact fun _ => sourced_tooDeep
  | succ fuel ih =>
    intro mods
    rw [memberFlags]
    refine bind sourced_peek fun _ ht => ?_
    split
    rotate_left
    · exact pure trivial
    next t =>
    refine bind (sourced_peekAt _) fun _ _ => ?_
    dsimp only
    split
    · exact bind sourced_next fun _ _ => bind (lift (Step.sourced_emit (ht t rfl) _)) fun _ _ =>
        bind (Declarations.sourced_flag _) fun _ _ => ih _
    · exact pure trivial

/-- More types of a method, none with dimensions. -/
theorem sourced_moreTypes (owner fuel : Nat) :
    Parse.Sourced T (moreTypes owner fuel) fun tys => ∀ ty ∈ tys, ty.dims = [] := by
  induction fuel with
  | zero => exact sourced_tooDeep
  | succ fuel ih =>
    rw [moreTypes]
    refine bind (sourced_accept _) fun _ hc => ?_
    split
    · exact pure fun _ h => by cases h
    · refine bind (lift (Step.sourced_emit (hc _ rfl) _)) fun _ _ =>
        bind (sourced_compoundType _) fun _ hty => bind ih fun _ htys => pure ?_
      intro ty h
      rcases List.mem_cons.1 h with rfl | h
      · exact hty
      · exact htys ty h

theorem sourced_fieldNames (owner : Nat) {base : Ty} (hbase : base.dims = []) (mods : Modifiers)
    (fuel : Nat) : ∀ name, name ∈ T → Parse.Sourced T (fieldNames owner base mods fuel name)
      fun _ => True := by
  induction fuel with
  | zero =>
    intro _ _
    rw [fieldNames]
    exact sourced_tooDeep
  | succ fuel ih =>
    intro name hname
    rw [fieldNames]
    refine bind sourced_fuel fun _ _ => bind (sourced_dimensions _) fun dims hdims => ?_
    refine bind (sourced_accept _) fun _ ha => ?_
    extract_lets afterInit
    suffices h : ∀ init : Option Expr, (∀ e ∈ init, e.tokens ⊆ T) →
        Parse.Sourced T (afterInit init) fun _ => True by
      split
      · refine bind (lift (Step.sourced_emit (ha _ rfl) _)) fun _ _ => ?_
        exact bind (sourced_expression _) fun e he =>
          bind (pure (V := fun init : Option Expr => ∀ e ∈ init, e.tokens ⊆ T)
            fun _ h => Option.mem_some_iff.1 h ▸ he) h
      · exact bind (pure (V := fun init : Option Expr => ∀ e ∈ init, e.tokens ⊆ T)
          fun _ h => by cases h) h
    -- the field, once its initializer is read, then the next name
    intro init hinit
    dsimp only [afterInit]
    have hkind : (NodeKind.field ⟨{ base with dims := base.dims ++ dims }, mods, init⟩).tokens ⊆ T := by
      rw [NodeKind.tokens, List.append_subset]
      refine ⟨by simpa [hbase] using hdims, ?_⟩
      cases init with
      | none => simp
      | some e => simpa using hinit e rfl
    refine bind (lift (Step.sourced_add _ _ _ hkind)) fun _ _ => ?_
    refine bind (lift (Step.sourced_here _)) fun _ _ => bind (lift Step.sourced_view) fun _ _ => ?_
    refine bind (lift (Step.sourced_emitRef hname _ _ _)) fun _ _ => ?_
    refine bind (sourced_expect _ _) fun _ hs => bind (lift (Step.sourced_emit hs _)) fun _ _ => ?_
    split
    · exact pure trivial
    · exact bind (sourced_expectIdent _) fun name' hname' => ih name' hname'

theorem sourced_argumentFlags (fuel : Nat) :
    ∀ acc, Parse.Sourced T (argumentFlags fuel acc) fun _ => True := by
  induction fuel with
  | zero => exact fun _ => sourced_tooDeep
  | succ fuel ih =>
    intro acc
    rw [argumentFlags]
    refine bind sourced_peek fun _ ht => ?_
    split
    · exact pure trivial
    · next t hft =>
      exact bind sourced_next fun _ _ =>
        bind (lift (Step.sourced_emit (Declarations.mem_of_filter ht hft) _)) fun _ _ => ih _

theorem sourced_arguments (owner method fuel : Nat) :
    ∀ args, Parse.Sourced T (arguments owner method fuel args) fun _ => True := by
  induction fuel with
  | zero =>
    intro _
    rw [arguments]
    exact sourced_tooDeep
  | succ fuel ih =>
    intro args
    rw [arguments]
    refine bind (sourced_accept _) fun _ hdots => ?_
    split
    · -- `...` ends the list
      refine bind (lift (Step.sourced_emit (hdots _ rfl) _)) fun _ _ => ?_
      exact bind (sourced_expect _ _) fun _ hc => bind (lift (Step.sourced_emit hc _)) fun _ _ =>
        pure trivial
    refine bind sourced_fuel fun _ _ => bind (sourced_argumentFlags _ _) fun _ _ => ?_
    refine bind (sourced_compoundType _) fun ty hty => ?_
    extract_lets named
    -- an argument with a name: a local of a type without dimensions, with its default value
    have hnamed : ∀ u, Parse.Sourced T (named u) fun _ => True := by
      intro u
      dsimp -zeta only [named]
      refine bind (sourced_expectIdent _) fun _ hname => ?_
      refine bind (lift (Step.sourced_alloc _ _ _ (by simp [NodeKind.tokens, hty]))) fun _ _ => ?_
      refine bind (lift (Step.sourced_here _)) fun _ _ => ?_
      refine bind (lift (Step.sourced_emitRef hname _ _ _)) fun _ _ => ?_
      refine bind (sourced_accept _) fun _ ha => ?_
      extract_lets args' rest
      have hrest : ∀ u, Parse.Sourced T (rest u) fun _ => True := by
        intro u
        dsimp only [rest]
        refine bind (sourced_expect _ _) fun _ hs => bind (lift (Step.sourced_emit hs _)) fun _ _ => ?_
        split
        · exact pure trivial
        · exact ih _
      split
      · refine bind (lift (Step.sourced_emit (ha _ rfl) _)) fun _ _ => ?_
        refine bind (sourced_expression _) fun _ hv => ?_
        exact bind (lift (Step.sourced_add _ _ _ (by simpa [NodeKind.tokens] using hv))) fun _ _ =>
          hrest ()
      · exact hrest ()
    split
    · refine bind (sourced_accept _) fun _ hc => ?_
      split
      · exact bind (lift (Step.sourced_emit (hc _ rfl) _)) fun _ _ => pure trivial
      · exact hnamed ()
    · exact hnamed ()

theorem sourced_method (owner : Nat) {returns : List Ty} (hret : ∀ ty ∈ returns, ty.dims = [])
    {name : Token} (hname : name ∈ T) (mods : Modifiers) :
    Parse.Sourced T (method owner returns name mods) fun _ => True := by
  unfold method
  have hreturns : (returns.flatMap fun ty => Expr.dimTokens ty.dims) = [] := by
    simp only [List.flatMap_eq_nil_iff]
    intro ty hty
    rw [hret ty hty, Expr.dimTokens_nil]
  refine bind (sourced_expect _ _) fun _ ho => bind (lift (Step.sourced_emit ho _)) fun _ _ => ?_
  refine bind (lift (Step.sourced_alloc _ _ _ (by simp [NodeKind.tokens, hreturns]))) fun id _ => ?_
  refine bind (lift (Step.sourced_here _)) fun _ _ => bind (lift Step.sourced_view) fun _ _ => ?_
  refine bind (lift (Step.sourced_emitRef hname _ _ _)) fun _ _ => ?_
  refine bind (sourced_accept _) fun _ hc => ?_
  extract_lets afterArgs
  suffices h : ∀ sig, Parse.Sourced T (afterArgs sig) fun _ => True by
    split
    · exact bind (lift (Step.sourced_emit (hc _ rfl) _)) fun _ _ =>
        bind (pure (V := fun _ => True) trivial) fun _ _ => h _
    · exact bind sourced_fuel fun _ _ => bind (sourced_arguments _ _ _ _) fun _ _ => h _
  intro sig
  dsimp -zeta only [afterArgs]
  refine bind (sourced_acceptKeyword _) fun _ hconst => ?_
  extract_lets afterConst
  suffices h : ∀ isConst, Parse.Sourced T (afterConst isConst) fun _ => True by
    split
    · exact bind (lift (Step.sourced_emit (hconst _ rfl) _)) fun _ _ =>
        bind (pure (V := fun _ => True) trivial) fun _ _ => h _
    · exact bind (pure (V := fun _ => True) trivial) fun _ _ => h _
  intro isConst
  dsimp -zeta only [afterConst]
  refine bind (sourced_accept _) fun _ hsemi => ?_
  extract_lets afterBody afterWarning
  -- a body, if there is one, is kept as tokens of `T`
  suffices h : ∀ body : Option (List Token), (∀ ts ∈ body, ts ⊆ T) →
      Parse.Sourced T (afterBody body) fun _ => True by
    split
    · refine bind (lift (Step.sourced_emit (hsemi _ rfl) _)) fun _ _ => ?_
      have hw : ∀ u, Parse.Sourced T (afterWarning u) fun _ => True :=
        fun _ => bind (pure (V := fun body : Option (List Token) => ∀ ts ∈ body, ts ⊆ T)
          fun _ h => by cases h) h
      split
      · exact hw ()
      · exact bind (lift (Step.sourced_warn _ _)) fun _ _ => hw ()
    · refine bind (sourced_check _) fun _ _ => ?_
      split
      · exact bind (sourced_bracedBody _) fun _ hb =>
          bind (pure (V := fun body : Option (List Token) => ∀ ts ∈ body, ts ⊆ T)
            fun _ h => Option.mem_some_iff.1 h ▸ hb) h
      · exact bind (sourced_unexpected (V := fun _ => False) _) fun _ hf => hf.elim
  intro body hbody
  dsimp only [afterBody]
  refine bind (lift (Step.sourced_modifyKind id fun k hk => ?_)) fun _ _ =>
    lift (Step.sourced_attach _ _)
  split
  · next m =>
    simp only [NodeKind.tokens, List.append_subset] at hk ⊢
    refine ⟨hk.1, ?_⟩
    cases body with
    | none => simp
    | some ts => simpa using hbody ts rfl
  · exact hk

/-- A field or a method. -/
theorem sourced_member (owner : Nat) : Parse.Sourced T (member owner) fun _ => True := by
  unfold member
  refine bind sourced_fuel fun _ _ => bind (sourced_memberFlags _ _) fun _ _ => ?_
  refine bind (sourced_compoundType _) fun _ hfirst => bind sourced_fuel fun _ _ => ?_
  refine bind (sourced_moreTypes _ _) fun _ hmore => ?_
  dsimp only
  refine bind (sourced_expectIdent _) fun _ hname => bind (sourced_check _) fun _ _ => ?_
  split
  · refine sourced_method owner (fun ty h => ?_) hname _
    rcases List.mem_cons.1 h with rfl | h
    · exact hfirst
    · exact hmore ty h
  -- a field declaration names one type
  split
  · exact bind (Sourced.throw (V := fun _ => False)) fun _ hf => hf.elim
  · exact bind sourced_fuel fun _ _ => sourced_fieldNames _ hfirst _ _ _ hname

/-- The items of a type's body, whose nested structs are read by a body reader that keeps the
    file sourced. -/
theorem sourced_items {nested : Nat → ExceptT ParseError Step Unit}
    (hn : ∀ id, Step.SourcedRun T (nested id) fun _ => True) (owner fuel : Nat) :
    Parse.Sourced T (items nested owner fuel) fun _ => True := by
  induction fuel with
  | zero =>
    rw [items]
    exact sourced_tooDeep
  | succ fuel ih =>
    rw [items]
    refine bind sourced_peek fun _ hpeek => ?_
    -- no token left ends the body; otherwise one item is read
    split
    rotate_left
    · exact pure trivial
    next t =>
    have ht : t ∈ T := hpeek t rfl
    extract_lets next block
    have item : ∀ {x : Parse Unit}, Parse.Sourced T x (fun _ => True) →
        Parse.Sourced T (x >>= next) fun _ => True :=
      fun h => bind h fun _ _ => ih
    split
    · exact bind sourced_next fun _ _ => item (lift (Step.sourced_emit ht _))
    · split
      · exact bind sourced_next fun _ _ => item (discard (Declarations.sourced_enumDecl ht owner))
      split
      · -- a nested struct, whose own body is read at once
        exact bind sourced_next fun _ _ => bind (Declarations.sourced_structDecl ht owner)
          fun id _ => item (exceptLift (hn id))
      refine bind (sourced_peekAt _) fun _ _ => ?_
      split
      · exact bind sourced_next fun _ _ =>
          item (discard (Declarations.sourced_constantDecl ht owner))
      split
      · exact bind sourced_next fun _ _ => item (sourced_property ht owner)
      split
      · -- `flagdef` and `mixin` are skipped
        refine bind sourced_next fun _ _ => bind (lift (Step.sourced_emit ht _)) fun _ _ => ?_
        refine bind (sourced_balanced _) fun _ _ => ?_
        exact bind (sourced_expect _ _) fun _ hs => item (lift (Step.sourced_emit hs _))
      split
      · -- so are `default` and `states` blocks
        refine bind sourced_next fun _ _ => bind (lift (Step.sourced_emit ht _)) fun _ _ => ?_
        refine bind (sourced_accept _) fun _ ho => ?_
        have hblock : ∀ u, Parse.Sourced T (block u) fun _ => True :=
          fun _ => bind (sourced_bracedBody _) fun _ _ => ih
        split
        · refine bind (lift (Step.sourced_emit (ho _ rfl) _)) fun _ _ => ?_
          refine bind (sourced_balanced _) fun _ _ => ?_
          exact bind (sourced_expect _ _) fun _ hc => bind (lift (Step.sourced_emit hc _))
            fun u _ => hblock u
        · exact hblock ()
      · exact item (sourced_member owner)
    · exact item (sourced_member owner)

/-- Reading a type's body keeps the file sourced at every depth of nesting: the body it reads is
    the one stored in the type, whose tokens are in `T`. -/
theorem sourced_body (depth : Nat) : ∀ owner, Step.SourcedRun T (body depth owner) fun _ => True := by
  induction depth with
  | zero =>
    intro owner
    rw [body]
    exact Step.Triple.except_bind (Step.Triple.except_lift Step.sourced_tree) fun _ =>
      Step.Triple.except_throw.pre fun _ hw => hw.2
  | succ depth ih =>
    intro owner
    rw [body]
    refine Step.Triple.except_bind (Step.Triple.except_lift Step.sourced_tree) fun t => ?_
    refine Step.Triple.of_fact fun ht => ?_
    split
    · next node hg =>
      split
      · next info hi =>
        have hbody : info.body ⊆ T := NodeKind.tokens_of_typeInfo? hi ▸ ht owner node hg
        -- the body leaves the type
        refine Step.Triple.except_bind (Step.Triple.except_lift (Step.sourced_modifyKind owner
          fun k hk => ?_)) fun _ => ?_
        · exact List.Subset.trans (NodeKind.tokens_setTypeInfo_subset k _)
            (List.append_subset.2 ⟨hk, by simp⟩)
        refine Step.Triple.of_fact fun _ => ?_
        refine Step.Triple.except_bind (Step.Triple.except_lift (sourced_selfVar owner)) fun _ => ?_
        exact Step.Triple.of_fact fun _ => Parse.Sourced.runOn (sourced_items ih owner _) hbody
      · exact Step.Triple.except_pure fun _ hw => ⟨trivial, hw⟩
    · exact Step.Triple.except_pure fun _ hw => ⟨trivial, hw⟩

end Members

namespace Analysis

variable {T : List Token}

/-- A file with no node but the root and no semantic token is sourced in its tokens. -/
theorem sourced_fresh (file : Nat) (T : List Token) : ({ file, tokens := T } : Analysis).Sourced T := by
  refine ⟨rfl, fun s hs => by simp at hs, fun i node hg => ?_⟩
  -- the only node is the root
  simp only [Tree.empty, Tree.get?, List.getElem?_toArray, List.getElem?_singleton,
    Option.ite_none_right_eq_some, Option.some.injEq] at hg
  obtain ⟨-, rfl⟩ := hg
  simp [Tree.rootNode, NodeKind.tokens]

/-- Tags made from a selection of the file's own tokens keep it sourced. -/
theorem Sourced.append_ofTokens {a : Analysis} (h : a.Sourced T) (ts : List Token)
    (hts : ts ⊆ T) (f : Token → SemanticToken) (hf : ∀ t, (f t).range = t.range) :
    { a with semantic := a.semantic ++ ts.toArray.map f }.Sourced T := by
  refine ⟨h.tokens, fun s hs => ?_, h.tree⟩
  rcases Array.mem_append.1 hs with hs | hs
  · exact h.semantic s hs
  · obtain ⟨t, ht, rfl⟩ := Array.mem_map.1 hs
    rw [hf]
    exact List.mem_map_of_mem (hts (List.mem_toArray.1 ht))

theorem Sourced.tagComments {a : Analysis} (h : a.Sourced T) : a.tagComments.Sourced T :=
  h.append_ofTokens _ (h.tokens ▸ List.filter_subset_self _) _ fun _ => rfl

theorem Sourced.tagAnomalies {a : Analysis} (h : a.Sourced T) : a.tagAnomalies.Sourced T :=
  h.append_ofTokens _ (h.tokens ▸ List.filter_subset_self _) _ fun _ => rfl

/-- Reading the skeleton of a text leaves the file sourced in the text's tokens, whatever the
    work it starts from: the file starts over from its tokens, and every reader keeps it sourced,
    whether the reading succeeds or stops at an error. -/
theorem sourced_skeleton (file : Nat) (text : String) :
    Step.Triple (fun _ => True) (Analysis.skeleton file text)
      fun _ w => w.file.Sourced (Token.lex text) := by
  unfold Analysis.skeleton
  refine Step.Triple.withReader ?_ _
  dsimp only
  refine Step.Triple.bind (Q := fun _ w => w.file.Sourced (Token.lex text))
    (fun _ _ _ => (sourced_fresh file _).tagComments) fun _ => ?_
  refine Step.Triple.bind ((Declarations.sourced_items _ true (Cursor.ofList _)
    (List.filter_subset_self _)).post fun r w h =>
      Parse.outcome_same.1 (Outcome.imp (fun _ _ h => h.2.2) (fun _ => id) r w h)) fun r => ?_
  -- what follows records the error, if any, and tags the anomalies
  refine Step.Triple.post (Q := fun _ w => True ∧ w.file.Sourced (Token.lex text)) ?_
    fun _ _ h => h.2
  split
  · exact Step.Sourced.bind (V := fun _ => True) (fun _ _ hw => ⟨trivial, hw.tagAnomalies⟩) fun _ _ =>
      Step.Sourced.bind Step.sourced_current fun _ _ => Step.sourced_log _ _ _
  · exact Step.Sourced.bind (Step.sourced_fail _) fun _ _ =>
      Step.Sourced.bind (V := fun _ => True) (fun _ _ hw => ⟨trivial, hw.tagAnomalies⟩) fun _ _ =>
        Step.Sourced.bind Step.sourced_current fun _ _ => Step.sourced_log _ _ _

/-- Reading the bodies of the types `owners` keeps the file sourced; a failure stops the file. -/
theorem sourced_addMembers_go (owners : List Nat) :
    Step.Sourced T (addMembers.go owners) fun _ => True := by
  induction owners with
  | nil => exact Step.Sourced.pure trivial
  | cons o rest ih =>
    rw [addMembers.go]
    refine Step.Sourced.bind Step.sourced_current fun _ _ => ?_
    refine Step.Triple.bind (Members.sourced_body _ o) fun r => ?_
    split
    · exact Step.Triple.pre ih fun _ h => h.2
    · exact Step.sourced_fail _

/-- The members phase keeps a file sourced, whatever it sees of the project. -/
theorem sourced_addMembers : Step.Sourced T addMembers fun _ => True := by
  unfold addMembers
  refine Step.Sourced.bind Step.sourced_current fun _ _ => ?_
  split
  · exact Step.Sourced.pure trivial
  · exact sourced_addMembers_go _

end Analysis

end ZScript
