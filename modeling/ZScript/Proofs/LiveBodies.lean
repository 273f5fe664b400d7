import ZScript.Proofs.LiveReaders
import ZScript.Proofs.SourcedBodies

/-!
# Reading method bodies keeps every handle alive

The last phase stores handles as the first two do: a node it has just made, a node of the file's
own tree, or what a lookup in the current view answers. What is new is what it undoes.

A statement that might be a declaration is probed by reading a type. The probe only tags, so it
runs on the view of the tree at its mark; when it fails, the rollback keeps every node, since
there is none past the mark, and keeps some of the semantic tokens before
(`Bodies.keepsAlive_declaration`). A method body that fails drops the nodes made since its block,
and the semantic tokens made meanwhile forget their references into them, so no token names a
dropped node (`Bodies.keepsAlive_methodBody`).

The statement readers are mutually recursive on their fuel: `Bodies.AliveAt u i fuel` bundles one
fact per reader, above every floor, proved for every fuel from the facts at the fuel below.
-/

namespace ZScript

/-! ## Tagging -/

/-- A step that keeps every current view of a file fit for lookups keeps the file alive. -/
theorem Step.keepsAlive_of_current {α : Type} {u : Universe} {i m : Nat} {x : Step α}
    {R : α → Nat → Prop} (hu : u.Sound i m)
    (h : ∀ v : View, v.Sound → v.world = u → v.file = i →
      Step.TripleIn u (fun w => v.Current m w.file) x fun a w => R a v.tree.size ∧ v.Current m w.file) :
    Step.KeepsAlive u i m x R :=
  Step.TripleIn.alive_of_current hu (Nat.le_refl m) h

/-- Tagging an expression whose handles are alive above the floor answers one whose handles are
    alive at the size it leaves. -/
theorem Expr.keepsAlive_tag {u : Universe} {i m : Nat} (hu : u.Sound i m) {e : Expr}
    (he : ∀ r ∈ e.handles, u.Live i m r) (scope : Scope) :
    Step.KeepsAlive u i m (e.tag scope) fun e' s => ∀ r ∈ e'.handles, u.Live i s r := by
  refine Step.keepsAlive_of_current hu fun v hv hw hf => ?_
  obtain ⟨file, tree, world⟩ := v
  cases hw
  cases hf
  intro w hw
  have hm : m ≤ tree.size := by
    have := hw.alive.size
    rwa [hw.tree] at this
  exact Tagging.current_tag hv (fun r hr => (he r hr).mono hm) scope w hw

/-! ## Probes on the view at a mark -/

namespace Parse

variable {u : Universe} {i m : Nat}

/-- A reader that keeps the current view leaves the file alive when it fails. -/
theorem TripleIn.aliveOnFailure {α : Type} {t : Tree} {x : Parse α} {Q : α → Work → Prop}
    (h : TripleIn u (fun w => View.Current ⟨i, t, u⟩ m w.file) x Q
      fun w => View.Current ⟨i, t, u⟩ m w.file) :
    TripleIn u (fun w => View.Current ⟨i, t, u⟩ m w.file) x Q fun w => Alive u i m w.file :=
  h.mono (fun _ => id) (fun _ _ => id) fun _ hw => hw.alive

/-- After a probe on the view of a tree `t`, the rest of a reader runs above the floor raised to
    `t`'s size. -/
theorem KeepsAlive.above {α : Type} {x : Parse α} {R : α → Nat → Prop} {t : Tree}
    (h : KeepsAlive u i t.size x R) :
    TripleIn u (fun w => View.Current ⟨i, t, u⟩ m w.file) x
      (fun a w => R a w.file.tree.size ∧ Alive u i m w.file) fun w => Alive u i m w.file := by
  intro c w hw
  have hsize : w.file.tree.size = t.size := congrArg Tree.size hw.tree
  have hm : m ≤ t.size := hsize ▸ hw.alive.size
  exact Outcome.imp (fun _ _ h => ⟨h.1, h.2.weaken hm⟩) (fun _ h => h.weaken hm) _ _
    (h c w (hsize ▸ hw.alive.raise))

end Parse

/-- Undoing an attempt that added no node keeps the current view: the tree is the one at the
    mark, and the semantic tokens kept are some of those before. -/
theorem View.current_rollback {v : View} {m : Nat} {mk : Mark} (hmk : mk.nodes = v.tree.size) :
    Step.TripleIn v.world (fun w => v.Current m w.file) (Step.rollback mk)
      fun _ w => v.Current m w.file := by
  intro w hw
  have htree : w.file.tree.truncate mk.nodes = w.file.tree := by
    unfold Tree.truncate
    rw [if_pos (by rw [hw.tree, hmk]; omega)]
  show v.Current m (Step.rollback mk v.world w).2.file
  rw [Step.rollback_run]
  dsimp only
  rw [htree]
  exact ⟨⟨hw.alive.file, hw.alive.size,
    fun s hs => hw.alive.semantic s (Step.mem_of_mem_extract hs), hw.alive.nodes⟩, hw.tree⟩

/-! ## Types with other dimensions -/

/-- The dimensions of a type are some of its handles. -/
theorem Ty.mem_handles_of_dims {ty : Ty} {r : Target} (hr : r ∈ Expr.handlesDims ty.dims) :
    r ∈ ty.handles := by
  obtain ⟨name, ref, args, dims⟩ := ty
  simp [hr]

/-- A type with other dimensions holds the handles of its name and arguments, and those of its
    new dimensions. -/
theorem Ty.mem_handles_withDims {ty : Ty} {dims : List (Option Expr)} {r : Target}
    (hr : r ∈ ({ ty with dims } : Ty).handles) : r ∈ ty.handles ∨ r ∈ Expr.handlesDims dims := by
  obtain ⟨name, ref, args, dims₀⟩ := ty
  simp only [Ty.handles_mk, List.mem_append] at hr ⊢
  tauto

/-! ## Dropping nodes -/

/-- A token with its references into the nodes of file `i` from `cut` on forgotten names nodes
    of `i` below the cut only. -/
theorem SemanticToken.live_forget {u : Universe} {i n cut : Nat} {s : SemanticToken}
    (h : ∀ r ∈ s.ref, u.Live i n r) : ∀ r ∈ (s.forget i cut).ref, u.Live i cut r := by
  -- a reference that is not forgotten is the token's own
  have hsub : ∀ r ∈ (s.forget i cut).ref, r ∈ s.ref := by
    unfold SemanticToken.forget
    split
    · split
      · intro r hr
        cases hr
      · exact fun _ => id
    · exact fun _ => id
  intro r hr
  have hl := h r (hsub r hr)
  cases r with
  | builtin b => exact hl
  | decl d =>
    simp only [Universe.Live] at hl ⊢
    split_ifs at hl ⊢ with hf
    · exact SemanticToken.forget_ref (Option.mem_def.1 hr) hf
    · exact hl

/-- Dropping the nodes from a cut on, down to the tree of an analysis alive below it whose
    semantic tokens come first, keeps the file alive below the cut: the tokens made since forget
    their references past it. -/
theorem Alive.discard {u : Universe} {i m n cut k : Nat} {a b : Analysis} (hb : Alive u i m b)
    (ha : Alive u i n a) (hcut : b.tree.size = cut) (hk : b.semantic.size = k)
    (htree : a.tree.truncate cut = b.tree) (hsem : ∃ ss, a.semantic = b.semantic ++ ss) :
    Alive u i m { a with tree := a.tree.truncate cut, semantic := a.semantic.take k ++
      (a.semantic.extract k a.semantic.size).map (SemanticToken.forget a.file cut) } := by
  obtain ⟨ss, hss⟩ := hsem
  have htake : a.semantic.take k = b.semantic := by
    rw [hss, ← hk]
    simp
  have hextract : a.semantic.extract k a.semantic.size = ss := by
    rw [hss, ← hk]
    simp
  rw [htree, htake, hextract]
  refine ⟨ha.file, hb.size, fun s hs r hr => ?_, hb.nodes⟩
  show u.Live i b.tree.size r
  rcases Array.mem_append.1 hs with hs | hs
  · exact hb.semantic s hs r hr
  · obtain ⟨s', hs', rfl⟩ := Array.mem_map.1 hs
    have hs'' : s' ∈ a.semantic := by
      rw [hss]
      exact Array.mem_append_right _ hs'
    rw [ha.file] at hr
    rw [hcut]
    exact SemanticToken.live_forget (ha.semantic s' hs'') r hr

/-! ## Statements -/

namespace Bodies

open Parse Parse.KeepsAlive

variable {u : Universe} {i m : Nat}

theorem keepsAlive_scopeAt (node owner : Nat) :
    Step.KeepsAlive u i m (scopeAt node owner) fun _ _ => True :=
  Step.KeepsAlive.of_same (fun _ _ => trivial) fun _ => ⟨rfl, rfl, rfl⟩

/-- A statement node of a kind fit for the floor; it lies below the size the step leaves. -/
theorem keepsAlive_place (parent : Nat) (name : String) (line : Nat) {kind : NodeKind}
    (hk : kind.AliveIn u i m) : Step.KeepsAlive u i m (place parent name line kind) fun id s => id < s := by
  unfold place
  refine Step.KeepsAlive.bind Step.keepsAlive_tree fun _ _ => ?_
  split
  · exact Step.keepsAlive_add _ _ _ hk
  · exact Step.keepsAlive_alloc _ _ _ hk

/-- An expression read and tagged holds handles alive at the size it leaves. -/
theorem keepsAlive_tagged (hu : u.Sound i m) (stop : List TokenKind) (scope : Scope) :
    KeepsAlive u i m (tagged stop scope) fun e s => ∀ r ∈ e.handles, u.Live i s r :=
  bind (keepsAlive_expression stop) fun _ he => lift (Expr.keepsAlive_tag hu (by simp [he]) scope)

theorem keepsAlive_tagOpt (hu : u.Sound i m) (scope : Scope) : ∀ v : Option Expr,
    (∀ r ∈ Expr.handlesOpt v, u.Live i m r) →
    Step.KeepsAlive u i m (v.mapM (Expr.tag · scope)) fun v' s => ∀ r ∈ Expr.handlesOpt v', u.Live i s r
  | none, _ => Step.KeepsAlive.pure fun _ _ _ hr => by simp at hr
  | some e, h => Step.KeepsAlive.bind_raise (Expr.keepsAlive_tag hu (by simpa using h) scope)
      fun _ _ _ he => Step.KeepsAlive.pure fun _ hs r hr => (he r (by simpa using hr)).mono hs

/-- Tagged dimensions hold handles alive at the size they leave. -/
theorem keepsAlive_tagDims (scope : Scope) : ∀ (dims : List (Option Expr)) (m : Nat), u.Sound i m →
    (∀ r ∈ Expr.handlesDims dims, u.Live i m r) →
    Step.KeepsAlive u i m (tagDims dims scope) fun ds s => ∀ r ∈ Expr.handlesDims ds, u.Live i s r
  | [], _, _, _ => Step.KeepsAlive.pure fun _ _ _ hr => by simp at hr
  | d :: ds, m, hu, h => by
    unfold tagDims
    rw [List.mapM_cons]
    simp only [Expr.handlesDims_cons, List.mem_append, or_imp, forall_and] at h
    refine Step.KeepsAlive.bind_raise (keepsAlive_tagOpt hu scope d h.1) fun d' s hs hd => ?_
    refine Step.KeepsAlive.bind_raise (keepsAlive_tagDims scope ds s (hu.mono hs)
      fun r hr => (h.2 r hr).mono hs) fun ds' s' hs' hds => Step.KeepsAlive.pure fun s'' hs'' r hr => ?_
    rcases List.mem_append.1 (Expr.handlesDims_cons d' ds' ▸ hr) with hr | hr
    · exact (hd r hr).mono (by omega)
    · exact (hds r hr).mono hs''

theorem keepsAlive_condition (hu : u.Sound i m) (scope : Scope) :
    KeepsAlive u i m (condition scope) fun e s => ∀ r ∈ e.handles, u.Live i s r :=
  bind (quiet (quiet_expect _ _)) fun _ _ => bind (lift (Step.keepsAlive_emit _ _)) fun _ _ =>
    bind_raise (keepsAlive_tagged hu _ _) fun _ _ _ he => bind (quiet (quiet_expect _ _)) fun _ _ =>
      bind (lift (Step.keepsAlive_emit _ _)) fun _ _ => pure fun _ hs r hr => (he r hr).mono hs

theorem keepsAlive_steps (scope : Scope) (fuel : Nat) : ∀ m, u.Sound i m →
    KeepsAlive u i m (steps scope fuel) fun es s => ∀ r ∈ Expr.handlesAll es, u.Live i s r := by
  induction fuel with
  | zero =>
    intro m _
    rw [steps]
    exact keepsAlive_tooDeep
  | succ fuel ih =>
    intro m hu
    rw [steps]
    refine bind_raise (keepsAlive_tagged hu _ _) fun e s hs he => bind (quiet (quiet_accept _)) fun _ _ => ?_
    split
    · refine bind (lift (Step.keepsAlive_emit _ _)) fun _ _ => ?_
      refine bind_raise (ih s (hu.mono hs)) fun es s' hs' hes => pure fun s'' hs'' r hr => ?_
      rw [Expr.handlesAll, List.flatMap_cons, List.mem_append] at hr
      rcases hr with hr | hr
      · exact (he r hr).mono (by omega)
      · exact (hes r hr).mono hs''
    · exact pure fun _ hs r hr => (he r (by simpa [Expr.handlesAll] using hr)).mono hs

theorem keepsAlive_returnValues (id : Nat) (scope : Scope) (fuel : Nat) : ∀ m, u.Sound i m →
    KeepsAlive u i m (returnValues id scope fuel) fun _ _ => True := by
  induction fuel with
  | zero =>
    intro m _
    rw [returnValues]
    exact keepsAlive_tooDeep
  | succ fuel ih =>
    intro m hu
    rw [returnValues]
    refine bind_raise (keepsAlive_tagged hu _ _) fun e s hs he => ?_
    refine bind_raise (lift (Step.keepsAlive_add _ _ _ (NodeKind.aliveIn_of_handles rfl rfl he)))
      fun _ s' hs' _ => bind (quiet (quiet_accept _)) fun _ _ => ?_
    split
    · exact bind (lift (Step.keepsAlive_emit _ _)) fun _ _ => ih s' (hu.mono (by omega))
    · exact pure fun _ _ => trivial

/-- The declarators of a local declaration whose type holds handles alive above the floor. -/
theorem keepsAlive_declarators (parent owner : Nat) (base : Ty) (const : Bool) (scope : Scope) :
    ∀ fuel name acc m, u.Sound i m → (∀ r ∈ base.handles, u.Live i m r) →
      KeepsAlive u i m (declarators parent owner base const scope fuel name acc) fun _ _ => True
  | 0, _, _, _, _, _ => by
    rw [declarators]
    exact keepsAlive_tooDeep
  | fuel + 1, name, acc, m, hu, hbase => by
    rw [declarators]
    refine bind (quiet quiet_fuel) fun _ _ => bind (keepsAlive_dimensions hu _) fun dims hdims => ?_
    have hdims' : ∀ r ∈ Expr.handlesDims (base.dims ++ dims), u.Live i m r := by
      intro r hr
      rw [Expr.handlesDims_append, hdims, List.append_nil] at hr
      obtain ⟨name, ref, args, bdims⟩ := base
      exact hbase r (by simp [hr])
    refine bind_raise (lift (keepsAlive_tagDims scope _ m hu hdims')) fun dims' s hs hd => ?_
    refine bind (quiet (quiet_accept _)) fun _ _ => ?_
    extract_lets flags jp
    -- the local, once its initializer is read: its type is the base with the tagged dimensions
    have hjp : ∀ s', s ≤ s' → ∀ init : Option Expr, (∀ r ∈ Expr.handlesOpt init, u.Live i s' r) →
        KeepsAlive u i s' (jp init) fun _ _ => True := by
      intro s' hs' init hinit
      dsimp -zeta only [jp]
      have hk : (NodeKind.localVar (some { base with dims := dims' }) flags).AliveIn u i s' := by
        refine NodeKind.aliveIn_of_handles rfl rfl fun r hr => ?_
        obtain ⟨name, ref, args, bdims⟩ := base
        simp only [NodeKind.handles, Ty.handlesOpt_some, Ty.handles_mk, List.mem_append] at hr
        rcases hr with (hr | hr) | hr
        · exact (hbase r (by simp [hr])).mono (by omega)
        · exact (hbase r (by simp [hr])).mono (by omega)
        · exact (hd r hr).mono hs'
      refine bind_raise (lift (keepsAlive_place _ _ _ hk)) fun id s'' hs'' hid => ?_
      extract_lets acc' jp'
      have hjp' : ∀ x, KeepsAlive u i s'' (jp' x) fun _ _ => True := by
        intro x
        dsimp only [jp']
        refine bind (lift (Step.keepsAlive_here _)) fun d hd => ?_
        subst hd
        refine bind (lift (Step.keepsAlive_emitRef_here _ _ hid _)) fun _ _ => ?_
        refine bind (quiet (quiet_accept _)) fun _ _ => ?_
        split
        · refine bind (lift (Step.keepsAlive_emit _ _)) fun _ _ => ?_
          exact bind (quiet (quiet_expectIdent _)) fun name' _ =>
            keepsAlive_declarators parent owner base const scope fuel name' _ s''
              (hu.mono (by omega)) fun r hr => (hbase r hr).mono (by omega)
        · exact pure fun _ _ => trivial
      split
      · next value =>
        exact bind ((lift (Step.keepsAlive_add _ _ _ (NodeKind.aliveIn_of_handles rfl rfl
          fun r hr => (hinit r (by simpa [NodeKind.handles] using hr)).mono hs''))).mono fun _ _ _ => trivial)
          fun _ _ => hjp' ()
      · exact hjp' ()
    split
    · split
      · exact throw_bind
      · refine bind (lift (Step.keepsAlive_emit _ _)) fun _ _ => ?_
        exact bind_raise (keepsAlive_tagged (hu.mono hs) _ _) fun e s' hs' he =>
          bind (pure (R := fun init _ => ∀ r ∈ Expr.handlesOpt init, u.Live i s' r)
            fun _ _ => by simpa using he) fun init hinit => hjp s' hs' init hinit
    · exact bind (pure (R := fun init _ => ∀ r ∈ Expr.handlesOpt init, u.Live i s r)
        fun _ _ _ h => by simp at h) fun init hinit => hjp s (Nat.le_refl s) init hinit

theorem keepsAlive_letDeclarators (parent : Nat) (scope : Scope) :
    ∀ fuel acc m, u.Sound i m → KeepsAlive u i m (letDeclarators parent scope fuel acc) fun _ _ => True
  | 0, _, _, _ => by
    rw [letDeclarators]
    exact keepsAlive_tooDeep
  | fuel + 1, acc, m, hu => by
    rw [letDeclarators]
    refine bind (quiet (quiet_expectIdent _)) fun _ _ => bind (quiet (quiet_expect _ _)) fun _ _ => ?_
    refine bind (lift (Step.keepsAlive_emit _ _)) fun _ _ => ?_
    refine bind_raise (keepsAlive_tagged hu _ _) fun value s hs hv => ?_
    refine bind_raise (lift (keepsAlive_place _ _ _ (NodeKind.aliveIn_of_plain rfl rfl rfl)))
      fun id s' hs' hid => ?_
    refine bind_raise (lift (Step.keepsAlive_add _ _ _ (NodeKind.aliveIn_of_handles rfl rfl
      fun r hr => (hv r hr).mono hs'))) fun _ s'' hs'' _ => ?_
    refine bind (lift (Step.keepsAlive_here _)) fun d hd => ?_
    subst hd
    refine bind (lift (Step.keepsAlive_emitRef_here _ _ (by omega) _)) fun _ _ => ?_
    refine bind (quiet (quiet_accept _)) fun _ _ => ?_
    split
    · exact bind (lift (Step.keepsAlive_emit _ _)) fun _ _ =>
        keepsAlive_letDeclarators parent scope fuel _ s'' (hu.mono (by omega))
    · exact pure fun _ _ => trivial

theorem keepsAlive_letStatement (hu : u.Sound i m) (parent owner : Nat) (inBlock : Bool) :
    KeepsAlive u i m (letStatement parent owner inBlock) fun _ _ => True := by
  unfold letStatement
  refine bind (lift (keepsAlive_scopeAt _ _)) fun _ _ => bind (quiet quiet_fuel) fun _ _ => ?_
  refine bind (keepsAlive_letDeclarators _ _ _ _ m hu) fun _ _ => ?_
  split
  · exact bind (keepsAlive_semicolon _) fun _ _ => pure fun _ _ => trivial
  · exact pure fun _ _ => trivial

theorem keepsAlive_expressionStatement (hu : u.Sound i m) (parent owner : Nat) (inBlock : Bool) :
    KeepsAlive u i m (expressionStatement parent owner inBlock) fun _ _ => True := by
  unfold expressionStatement
  dsimp only
  refine bind (lift (keepsAlive_scopeAt _ _)) fun _ _ =>
    bind_raise (keepsAlive_tagged hu _ _) fun _ _ _ he => ?_
  refine bind_raise (lift (keepsAlive_place _ _ _ (NodeKind.aliveIn_of_handles rfl rfl he)))
    fun _ _ _ _ => ?_
  split
  · exact bind (keepsAlive_semicolon _) fun _ _ => pure fun _ _ => trivial
  · exact pure fun _ _ => trivial

theorem keepsAlive_returnStatement (hu : u.Sound i m) (keyword : Token) (parent owner : Nat) :
    KeepsAlive u i m (returnStatement keyword parent owner) fun _ _ => True := by
  unfold returnStatement
  refine bind_raise (lift (keepsAlive_place _ _ _ (NodeKind.aliveIn_of_plain rfl rfl rfl)))
    fun _ s hs _ => ?_
  refine bind (lift (keepsAlive_scopeAt _ _)) fun _ _ => bind (quiet (quiet_check _)) fun _ _ => ?_
  extract_lets jp
  have hjp : ∀ x, KeepsAlive u i s (jp x) fun _ _ => True :=
    fun _ => bind (keepsAlive_semicolon _) fun _ _ => pure fun _ _ => trivial
  split
  · exact hjp ()
  · exact bind (quiet quiet_fuel) fun _ _ =>
      bind (keepsAlive_returnValues _ _ _ s (hu.mono hs)) fun x _ => hjp x

theorem keepsAlive_jump (keyword : Token) (parent : Nat) :
    KeepsAlive u i m (jump keyword parent) fun _ _ => True := by
  unfold jump
  refine bind (lift Step.keepsAlive_tree) fun _ _ => ?_
  dsimp only
  split
  · refine bind_raise (lift (keepsAlive_place _ _ _ (NodeKind.aliveIn_of_plain rfl rfl rfl)))
      fun _ _ _ _ => ?_
    exact bind (keepsAlive_semicolon _) fun _ _ => pure fun _ _ => trivial
  · exact throw_bind

/-- An attempt keeps what its reader keeps, and answers what the reader answers or nothing. -/
theorem tripleIn_attempt {α : Type} {I : Work → Prop} {x : Parse α} {V : α → Prop}
    (h : TripleIn u I x (fun a w => V a ∧ I w) I) :
    TripleIn u I (attempt x) (fun o w => (∀ a ∈ o, V a) ∧ I w) I := by
  unfold attempt
  refine TripleIn.tryCatch ?_ fun _ => TripleIn.pure fun _ hw => ⟨fun _ h => (by cases h), hw⟩
  rw [map_eq_pure_bind]
  exact TripleIn.bind h fun _ => TripleIn.pure fun _ hw =>
    ⟨fun _ hb => Option.mem_some_iff.1 hb ▸ hw.1, hw.2⟩

/-- A declaration is read above the floor raised to the size at its mark, or nothing is: the
    probe for a type only tags, so the rollback finds the tree as it was at the mark. -/
theorem keepsAlive_declaration (hu : u.Sound i m) (parent owner : Nat) (inBlock : Bool) :
    KeepsAlive u i m (declaration parent owner inBlock) fun _ _ => True := by
  unfold declaration
  refine bind (quiet Quiet.get) fun start _ => TripleIn.ghost fun a => ?_
  -- until the declarators or the rollback, the view of the file is that of `a`
  refine TripleIn.pre (P := fun w => Alive u i m a ∧ View.Current ⟨i, a.tree, u⟩ m w.file)
    (TripleIn.of_fact fun ha => ?_) fun w ⟨hwa, hw⟩ => ⟨hwa ▸ hw, hw, congrArg Analysis.tree hwa⟩
  have hv : View.Sound ⟨i, a.tree, u⟩ := (Alive.current hu (Nat.le_refl m) ha).1
  refine TripleIn.bind (TripleIn.lift (Q := fun mk w => mk.nodes = a.tree.size ∧
    View.Current ⟨i, a.tree, u⟩ m w.file) fun w hw => ⟨congrArg Tree.size hw.tree, hw⟩)
    fun mk => TripleIn.of_fact fun hmk => ?_
  refine TripleIn.bind (quiet_acceptKeyword _).tripleIn.aliveOnFailure fun const => ?_
  refine TripleIn.bind (tripleIn_attempt (Types.current_compoundType hv _)).aliveOnFailure
    fun base => TripleIn.of_fact fun hbase => ?_
  refine TripleIn.bind (quiet_check _).tripleIn.aliveOnFailure fun _ => ?_
  refine TripleIn.bind (quiet_peekAt _).tripleIn.aliveOnFailure fun _ => ?_
  extract_lets follows
  generalize follows = f
  split
  · next base =>
    extract_lets jp
    -- the declarators, above the floor at the mark, where the type's handles are alive
    have hjp : ∀ x, KeepsAlive u i a.tree.size (jp x) fun _ _ => True := by
      intro x
      dsimp only [jp]
      refine bind (lift (keepsAlive_scopeAt _ _)) fun _ _ => bind (quiet quiet_fuel) fun _ _ => ?_
      refine bind (quiet (quiet_expectIdent _)) fun _ _ => ?_
      refine bind (keepsAlive_declarators _ _ _ _ _ _ _ _ _ (hu.mono ha.size) (hbase base rfl))
        fun _ _ => ?_
      split
      · exact bind (keepsAlive_semicolon _) fun _ _ => pure fun _ _ => trivial
      · exact pure fun _ _ => trivial
    split
    · exact TripleIn.bind (TripleIn.lift (View.current_emit _ _)) fun x => (hjp x).above
    · exact (hjp ()).above
  · refine TripleIn.bind (TripleIn.set (Q := fun _ w => View.Current ⟨i, a.tree, u⟩ m w.file))
      fun _ => ?_
    refine TripleIn.bind (TripleIn.lift (View.current_rollback (v := ⟨i, a.tree, u⟩) hmk)) fun _ => ?_
    exact TripleIn.pure fun _ hw => ⟨trivial, hw.alive⟩

/-! ## The statement readers -/

/-- One fact for each of the mutually recursive statement readers at `fuel`: each keeps the file
    alive above every floor in a universe fit for it. -/
structure AliveAt (u : Universe) (i fuel : Nat) : Prop where
  statement : ∀ p owner inFor m, u.Sound i m →
    KeepsAlive u i m (statement p owner inFor fuel) fun _ _ => True
  statements : ∀ block owner closer m, u.Sound i m →
    KeepsAlive u i m (statements block owner closer fuel) fun _ _ => True
  blockOrLine : ∀ p owner m, u.Sound i m →
    KeepsAlive u i m (blockOrLine p owner fuel) fun _ _ => True
  ifStatement : ∀ keyword p owner m, u.Sound i m →
    KeepsAlive u i m (ifStatement keyword p owner fuel) fun _ _ => True
  initializers : ∀ id owner m, u.Sound i m →
    KeepsAlive u i m (initializers id owner fuel) fun _ _ => True
  forStatement : ∀ keyword p owner m, u.Sound i m →
    KeepsAlive u i m (forStatement keyword p owner fuel) fun _ _ => True
  whileStatement : ∀ keyword p owner m, u.Sound i m →
    KeepsAlive u i m (whileStatement keyword p owner fuel) fun _ _ => True
  doStatement : ∀ keyword p owner m, u.Sound i m →
    KeepsAlive u i m (doStatement keyword p owner fuel) fun _ _ => True

theorem aliveAt_zero : AliveAt u i 0 where
  statement _ _ _ _ _ := by
    rw [statement]
    exact keepsAlive_tooDeep
  statements _ _ _ _ _ := by
    rw [statements]
    exact keepsAlive_tooDeep
  blockOrLine _ _ _ _ := by
    rw [blockOrLine]
    exact keepsAlive_tooDeep
  ifStatement _ _ _ _ _ := by
    rw [ifStatement]
    exact keepsAlive_tooDeep
  initializers _ _ _ _ := by
    rw [initializers]
    exact keepsAlive_tooDeep
  forStatement _ _ _ _ _ := by
    rw [forStatement]
    exact keepsAlive_tooDeep
  whileStatement _ _ _ _ _ := by
    rw [whileStatement]
    exact keepsAlive_tooDeep
  doStatement _ _ _ _ _ := by
    rw [doStatement]
    exact keepsAlive_tooDeep

section Step

variable {fuel : Nat} (ih : AliveAt u i fuel)
include ih

theorem AliveAt.keepsAlive_statement (p owner : Nat) (inFor : Bool) (hu : u.Sound i m) :
    KeepsAlive u i m (Bodies.statement p owner inFor (fuel + 1)) fun _ _ => True := by
  rw [Bodies.statement]
  refine bind (lift Step.keepsAlive_tree) fun _ _ => ?_
  dsimp only
  refine bind (quiet quiet_peek) fun _ _ => ?_
  split
  · split
    · split
      · exact bind (quiet quiet_next) fun _ _ => bind (lift (Step.keepsAlive_emit _ _)) fun _ _ =>
          pure fun _ _ => trivial
      · exact bind (quiet (quiet_require _ _ _)) fun _ _ => keepsAlive_expressionStatement hu _ _ _
    · exact bind (quiet (quiet_require _ _ _)) fun _ _ =>
        bind (ih.blockOrLine p owner m hu) fun _ _ => pure fun _ _ => trivial
    · split
      · -- a statement keyword, tagged before the statement it starts
        refine bind (quiet (quiet_require _ _ _)) fun _ _ => bind (quiet quiet_next) fun _ _ => ?_
        refine bind (lift (Step.keepsAlive_emit _ _)) fun _ _ => ?_
        split
        · exact ih.ifStatement _ p owner m hu
        · exact ih.forStatement _ p owner m hu
        · exact ih.whileStatement _ p owner m hu
        · exact ih.doStatement _ p owner m hu
        · exact keepsAlive_returnStatement hu _ p owner
        · exact keepsAlive_jump _ p
        · exact keepsAlive_jump _ p
        · exact keepsAlive_letStatement hu p owner _
      · -- a declaration when the tokens read as one, else an expression
        split
        · exact throw_bind
        · refine bind (keepsAlive_declaration hu p owner _) fun _ _ => ?_
          split
          · exact pure fun _ _ => trivial
          · exact bind (quiet (quiet_require _ _ _)) fun _ _ => keepsAlive_expressionStatement hu _ _ _
    · exact bind (quiet (quiet_require _ _ _)) fun _ _ => keepsAlive_expressionStatement hu _ _ _
  · exact keepsAlive_unexpected _

theorem AliveAt.keepsAlive_statements (block owner : Nat) (closer : Option TokenKind)
    (hu : u.Sound i m) :
    KeepsAlive u i m (Bodies.statements block owner closer (fuel + 1)) fun _ _ => True := by
  rw [Bodies.statements]
  refine bind (quiet quiet_peek) fun _ _ => ?_
  split
  · split
    · exact pure fun _ _ => trivial
    · exact keepsAlive_unexpected _
  · split
    · exact pure fun _ _ => trivial
    · exact bind (ih.statement block owner false m hu) fun _ _ => ih.statements block owner closer m hu

theorem AliveAt.keepsAlive_blockOrLine (p owner : Nat) (hu : u.Sound i m) :
    KeepsAlive u i m (Bodies.blockOrLine p owner (fuel + 1)) fun _ _ => True := by
  rw [Bodies.blockOrLine]
  refine bind (quiet quiet_peek) fun _ _ => ?_
  extract_lets jp
  -- the block, once the line it starts on is known; its statements run above it
  have hjp : ∀ line, KeepsAlive u i m (jp line) fun _ _ => True := by
    intro line
    dsimp only [jp]
    refine bind_raise (lift (Step.keepsAlive_add _ _ _ (NodeKind.aliveIn_of_plain rfl rfl rfl)))
      fun _ s hs _ => bind (quiet (quiet_accept _)) fun _ _ => ?_
    split
    · refine bind (lift (Step.keepsAlive_emit _ _)) fun _ _ => ?_
      refine bind (ih.statements _ owner _ s (hu.mono hs)) fun _ _ =>
        bind (quiet (quiet_expect _ _)) fun _ _ => ?_
      exact bind (lift (Step.keepsAlive_emit _ _)) fun _ _ => pure fun _ _ => trivial
    · exact bind (discard (ih.statement _ owner false s (hu.mono hs))) fun _ _ =>
        pure fun _ _ => trivial
  split
  · exact hjp _
  · exact bind (quiet Quiet.get) fun _ _ => hjp _

theorem AliveAt.keepsAlive_ifStatement (keyword : Token) (p owner : Nat) (hu : u.Sound i m) :
    KeepsAlive u i m (Bodies.ifStatement keyword p owner (fuel + 1)) fun _ _ => True := by
  rw [Bodies.ifStatement]
  refine bind (lift (keepsAlive_scopeAt _ _)) fun _ _ =>
    bind_raise (keepsAlive_condition hu _) fun _ s hs hc => ?_
  refine bind_raise (lift (keepsAlive_place _ _ _ (NodeKind.aliveIn_of_handles rfl rfl hc)))
    fun _ s' hs' _ => ?_
  have hu' : u.Sound i s' := hu.mono (by omega)
  refine bind (ih.blockOrLine _ owner s' hu') fun _ _ =>
    bind (quiet (quiet_acceptKeyword _)) fun _ _ => ?_
  split
  · refine bind (lift (Step.keepsAlive_emit _ _)) fun _ _ => ?_
    refine bind (ih.blockOrLine _ owner s' hu') fun _ _ => ?_
    -- the `else` block is recorded in the condition node, whose handles stay
    refine bind (lift (Step.keepsAlive_modifyKind _ fun k n _ hk => ?_)) fun _ _ =>
      pure fun _ _ => trivial
    split
    · exact ⟨hk.handles, hk.self, hk.included⟩
    · exact hk
  · exact pure fun _ _ => trivial

theorem AliveAt.keepsAlive_initializers (id owner : Nat) (hu : u.Sound i m) :
    KeepsAlive u i m (Bodies.initializers id owner (fuel + 1)) fun _ _ => True := by
  rw [Bodies.initializers]
  refine bind (ih.statement id owner true m hu) fun _ _ => ?_
  -- the declared locals are listed in the loop node, whose handles stay
  refine bind (lift (Step.keepsAlive_modifyKind _ fun k n _ hk => ?_)) fun _ _ => ?_
  · split
    · exact ⟨hk.handles, hk.self, hk.included⟩
    · exact hk
  refine bind (quiet (quiet_accept _)) fun _ _ => ?_
  split
  · exact bind (lift (Step.keepsAlive_emit _ _)) fun _ _ => ih.initializers id owner m hu
  · exact pure fun _ _ => trivial

theorem AliveAt.keepsAlive_forStatement (keyword : Token) (p owner : Nat) (hu : u.Sound i m) :
    KeepsAlive u i m (Bodies.forStatement keyword p owner (fuel + 1)) fun _ _ => True := by
  rw [Bodies.forStatement]
  refine bind (quiet (quiet_expect _ _)) fun _ _ => bind (lift (Step.keepsAlive_emit _ _)) fun _ _ => ?_
  refine bind_raise (lift (keepsAlive_place _ _ _ (NodeKind.aliveIn_of_plain rfl rfl rfl)))
    fun id s hs _ => ?_
  have hu' : u.Sound i s := hu.mono hs
  refine bind (lift (keepsAlive_scopeAt _ _)) fun _ _ => bind (quiet (quiet_check _)) fun _ _ => ?_
  extract_lets afterCond afterInits
  -- the steps and the body, once the condition is read
  have hcond : ∀ s', s ≤ s' → ∀ c : Option Expr, (∀ r ∈ Expr.handlesOpt c, u.Live i s' r) →
      KeepsAlive u i s' (afterCond c) fun _ _ => True := by
    intro s' hs' c hc
    dsimp -zeta only [afterCond]
    refine bind (keepsAlive_semicolon _) fun _ _ => bind (quiet (quiet_check _)) fun _ _ => ?_
    extract_lets afterSteps
    -- the loop node gets the condition and the steps, both alive where it is changed
    have hsteps : ∀ s'', s' ≤ s'' → ∀ st : List Expr, (∀ r ∈ Expr.handlesAll st, u.Live i s'' r) →
        KeepsAlive u i s'' (afterSteps st) fun _ _ => True := by
      intro s'' hs'' st hst
      dsimp only [afterSteps]
      refine bind (quiet (quiet_expect _ _)) fun _ _ =>
        bind (lift (Step.keepsAlive_emit _ _)) fun _ _ => ?_
      refine bind (lift (Step.keepsAlive_modifyKind _ fun k n hn hk => ?_)) fun _ _ => ?_
      · split
        · refine NodeKind.aliveIn_of_handles rfl rfl fun r hr => ?_
          rcases List.mem_append.1 hr with hr | hr
          · exact (hc r hr).mono (by omega)
          · exact (hst r hr).mono hn
        · exact hk
      exact bind (ih.blockOrLine _ owner s'' (hu.mono (by omega))) fun _ _ => pure fun _ _ => trivial
    split
    · exact bind (pure (R := fun st _ => ∀ r ∈ Expr.handlesAll st, u.Live i s' r)
        fun _ _ _ hr => by simp [Expr.handlesAll] at hr) fun st hst => hsteps s' (Nat.le_refl _) st hst
    · exact bind (quiet quiet_fuel) fun _ _ => bind_raise (keepsAlive_steps _ _ s' (hu.mono (by omega)))
        fun st s'' hs'' hst => hsteps s'' hs'' st hst
  have hinits : ∀ x, KeepsAlive u i s (afterInits x) fun _ _ => True := by
    intro x
    dsimp only [afterInits]
    refine bind (keepsAlive_semicolon _) fun _ _ => bind (quiet (quiet_check _)) fun _ _ => ?_
    split
    · exact bind (pure (R := fun c _ => ∀ r ∈ Expr.handlesOpt c, u.Live i s r)
        fun _ _ _ hr => by simp at hr) fun c hc => hcond s (Nat.le_refl _) c hc
    · exact bind_raise (map some (keepsAlive_tagged hu' _ _)
        (W := fun c s' => ∀ r ∈ Expr.handlesOpt c, u.Live i s' r) fun _ _ he => by simpa using he)
        fun c s' hs' hc => hcond s' hs' c hc
  split
  · exact hinits ()
  · exact bind (ih.initializers id owner s hu') fun x _ => hinits x

theorem AliveAt.keepsAlive_whileStatement (keyword : Token) (p owner : Nat) (hu : u.Sound i m) :
    KeepsAlive u i m (Bodies.whileStatement keyword p owner (fuel + 1)) fun _ _ => True := by
  rw [Bodies.whileStatement]
  refine bind (lift (keepsAlive_scopeAt _ _)) fun _ _ =>
    bind_raise (keepsAlive_condition hu _) fun _ s hs hc => ?_
  refine bind_raise (lift (keepsAlive_place _ _ _ (NodeKind.aliveIn_of_handles rfl rfl hc)))
    fun _ s' hs' _ => ?_
  exact bind (ih.blockOrLine _ owner s' (hu.mono (by omega))) fun _ _ => pure fun _ _ => trivial

theorem AliveAt.keepsAlive_doStatement (keyword : Token) (p owner : Nat) (hu : u.Sound i m) :
    KeepsAlive u i m (Bodies.doStatement keyword p owner (fuel + 1)) fun _ _ => True := by
  rw [Bodies.doStatement]
  refine bind_raise (lift (keepsAlive_place _ _ _
    (NodeKind.aliveIn_of_plain rfl rfl (by simp [NodeKind.handles, Expr.node])))) fun _ s hs _ => ?_
  have hu' : u.Sound i s := hu.mono hs
  refine bind (ih.blockOrLine _ owner s hu') fun _ _ =>
    bind (quiet (quiet_acceptKeyword _)) fun _ _ => ?_
  split
  · refine bind (lift (Step.keepsAlive_emit _ _)) fun _ _ => ?_
    refine bind (lift (keepsAlive_scopeAt _ _)) fun _ _ =>
      bind_raise (keepsAlive_condition hu' _) fun _ _ _ hc => ?_
    refine bind (keepsAlive_semicolon _) fun _ _ => ?_
    -- the condition, read after the body, goes into the loop node
    refine bind (lift (Step.keepsAlive_modifyKind _ fun k n hn hk => ?_)) fun _ _ =>
      pure fun _ _ => trivial
    split
    · exact NodeKind.aliveIn_of_handles rfl rfl fun r hr => (hc r hr).mono hn
    · exact hk
  · exact keepsAlive_unexpected _

theorem AliveAt.succ : AliveAt u i (fuel + 1) where
  statement p owner inFor _ hu := ih.keepsAlive_statement p owner inFor hu
  statements block owner closer _ hu := ih.keepsAlive_statements block owner closer hu
  blockOrLine p owner _ hu := ih.keepsAlive_blockOrLine p owner hu
  ifStatement keyword p owner _ hu := ih.keepsAlive_ifStatement keyword p owner hu
  initializers id owner _ hu := ih.keepsAlive_initializers id owner hu
  forStatement keyword p owner _ hu := ih.keepsAlive_forStatement keyword p owner hu
  whileStatement keyword p owner _ hu := ih.keepsAlive_whileStatement keyword p owner hu
  doStatement keyword p owner _ hu := ih.keepsAlive_doStatement keyword p owner hu

end Step

theorem aliveAt (u : Universe) (i fuel : Nat) : AliveAt u i fuel := by
  induction fuel with
  | zero => exact aliveAt_zero
  | succ fuel ih => exact ih.succ

/-! ## Method bodies -/

/-- A body that fails has the nodes made since its block dropped, down to the tree before with
    the body taken out of the method, and the semantic tokens made meanwhile forget their
    references into them: so the file stays alive above its floor. A well-formed tree is needed to
    know that the statements changed no node before the block. -/
theorem keepsAlive_methodBody (hu : u.Sound i m) (owner method : Nat) :
    Step.TripleIn u (fun w => Alive u i m w.file ∧ w.file.tree.WellFormed) (methodBody owner method)
      fun _ w => Alive u i m w.file := by
  rintro w ⟨hw, hwf⟩
  show Alive u i m (methodBody owner method u w).2.file
  by_cases hmain : ∃ node mi body, w.file.tree.get? method = some node ∧
      node.kind = .method mi ∧ mi.body = some body
  case neg => rw [methodBody_skip hmain]; exact hw
  obtain ⟨node, mi, body, hg, hk, hb⟩ := hmain
  -- the tree with the body out of the method, alive where the tree was
  have hbase : Alive u i m { w.file with
      tree := w.file.tree.modifyKind method fun _ => .method { mi with body := none } } :=
    Step.alive_modifyKind method _ w ⟨hw, fun node' hg' => by
      rw [hg] at hg'
      cases hg'
      have hnode := hw.nodes method node hg
      rw [hk] at hnode
      exact ⟨hnode.handles, hnode.self, hnode.included⟩⟩
  -- and with the body's block made: the statements run above it
  have hstart : Alive u i (w.file.tree.size + 1) (bodyStart w method mi node.line).file := by
    have h := Step.alive_alloc (some method) "" node.line .block { w with file := _ }
      ⟨hbase, NodeKind.aliveIn_of_plain rfl rfl rfl⟩
    have hsize : (bodyStart w method mi node.line).file.tree.size = w.file.tree.size + 1 := by
      simp [bodyStart]
    have h' : Alive u i m (bodyStart w method mi node.line).file := h.1
    exact hsize ▸ h'.raise
  rw [methodBody_run hg hk hb, Parse.runOn_run]
  have hout := (sound (4 * body.length + 8)).statements w.file.tree.size owner none
    (bodyFloor w method mi w.file.tree.size) (w.file.tree.size + 1) [(w.file.tree.size, method)]
    (Nat.le_refl _) (Nat.lt_succ_self _) (Cursor.ofList body) u _
    (kept_bodyStart hwf hg hk (Nat.le_refl _))
  have halive := (aliveAt u i (4 * body.length + 8)).statements w.file.tree.size owner none
    (w.file.tree.size + 1) (hu.mono (by have := hw.size; omega)) (Cursor.ofList body) _ hstart
  generalize ((statements w.file.tree.size owner none (4 * body.length + 8))
    (Cursor.ofList body)).run u (bodyStart w method mi node.line) = inner at hout halive ⊢
  obtain ⟨res, w'⟩ := inner
  cases res with
  | ok p =>
    show Alive u i m (Step.attach method w.file.tree.size u w').2.file
    exact (Step.alive_attach method _ w' halive.2).weaken (by have := hw.size; omega)
  | error e =>
    have hE : Kept (bodyFloor w method mi w.file.tree.size) (w.file.tree.size + 1) [] w'.file := hout
    show Alive u i m ((Step.report e >>= fun _ => Step.discardNodes
      ⟨w.file.tree.size, w.file.semantic.size, w.file.diagnostics.size⟩) u w').2.file
    have htree := truncate_of_failed hwf hg hk hE
    have hsem := hE.floor.semantic_eq_append rfl
    rw [Step.bind_run, Step.discardNodes_run]
    exact Alive.discard hbase (Step.alive_report e w' halive) (Tree.size_modifyKind _ _ _) rfl
      htree hsem

theorem keepsAlive_tagConstant (hu : u.Sound i m) (id : Nat) (scope : Scope) :
    Step.KeepsAlive u i m (tagConstant id scope) fun _ _ => True := by
  unfold tagConstant
  refine Step.KeepsAlive.bind_raise Step.keepsAlive_tree_alive fun _ s hs ht => ?_
  split
  · next value hg =>
    refine Step.KeepsAlive.bind (Step.keepsAlive_modifyKind _ fun _ _ _ _ =>
      NodeKind.aliveIn_of_plain rfl rfl rfl) fun _ _ => ?_
    refine Step.KeepsAlive.bind_raise (keepsAlive_tagOpt (hu.mono hs) scope value
      (ht.2 id _ hg).handles) fun _ _ _ hv => ?_
    refine Step.keepsAlive_modifyKind _ fun k n hn hk => ?_
    split
    · exact NodeKind.aliveIn_of_handles rfl rfl fun r hr => (hv r hr).mono hn
    · exact hk
  · exact Step.KeepsAlive.pure fun _ _ => trivial

theorem keepsAlive_tagEnum (hu : u.Sound i m) (id : Nat) :
    Step.KeepsAlive u i m (tagEnum id) fun _ _ => True := by
  unfold tagEnum
  refine Step.KeepsAlive.bind (Step.keepsAlive_here _) fun _ _ =>
    Step.KeepsAlive.bind Step.keepsAlive_tree fun _ _ => Step.KeepsAlive.forIn _ _ fun _ _ _ => ?_
  exact Step.KeepsAlive.bind (keepsAlive_tagConstant hu _ _) fun _ _ =>
    Step.KeepsAlive.pure fun _ _ => trivial

theorem keepsAlive_tagField (hu : u.Sound i m) (id : Nat) (scope : Scope) :
    Step.KeepsAlive u i m (tagField id scope) fun _ _ => True := by
  unfold tagField
  refine Step.KeepsAlive.bind_raise Step.keepsAlive_tree_alive fun _ s hs ht => ?_
  split
  · next f hg =>
    have hf : ∀ r ∈ f.type.handles ++ Expr.handlesOpt f.init, u.Live i s r := (ht.2 id _ hg).handles
    simp only [List.mem_append, or_imp, forall_and] at hf
    -- meanwhile the field keeps only its type's name and arguments
    refine Step.KeepsAlive.bind (Step.keepsAlive_modifyKind _ fun _ _ hn _ =>
      NodeKind.aliveIn_of_handles rfl rfl fun r hr => ?_) fun _ _ => ?_
    · simp only [NodeKind.handles, Expr.handlesOpt_none, List.append_nil] at hr
      rcases Ty.mem_handles_withDims hr with hr | hr
      · exact (hf.1 r hr).mono hn
      · simp at hr
    refine Step.KeepsAlive.bind_raise (keepsAlive_tagDims scope _ s (hu.mono hs)
      fun r hr => hf.1 r (Ty.mem_handles_of_dims hr)) fun dims s' hs' hdims => ?_
    refine Step.KeepsAlive.bind_raise (keepsAlive_tagOpt (hu.mono (by omega)) scope _
      fun r hr => (hf.2 r hr).mono hs') fun init s'' hs'' hinit => ?_
    refine Step.keepsAlive_modifyKind _ fun k n hn hk => ?_
    split
    · -- the field's type name and arguments as they are, the tagged dimensions and initializer
      refine NodeKind.aliveIn_of_handles rfl rfl fun r hr => ?_
      rcases List.mem_append.1 hr with hr | hr
      · rcases Ty.mem_handles_withDims hr with hr | hr
        · exact hk.handles r (List.mem_append_left _ hr)
        · exact (hdims r hr).mono (by omega)
      · exact (hinit r hr).mono hn
    · exact hk
  · exact Step.KeepsAlive.pure fun _ _ => trivial

theorem keepsAlive_tagDefaults (hu : u.Sound i m) (method : Nat) (scope : Scope) :
    Step.KeepsAlive u i m (tagDefaults method scope) fun _ _ => True := by
  unfold tagDefaults
  refine Step.KeepsAlive.bind Step.keepsAlive_tree fun _ _ => ?_
  split
  · dsimp only
    refine Step.KeepsAlive.forIn _ _ fun _ _ _ => ?_
    refine Step.KeepsAlive.bind Step.keepsAlive_tree fun _ _ => ?_
    refine Step.KeepsAlive.bind (Step.KeepsAlive.forIn _ _ fun _ _ _ => ?_) fun _ _ =>
      Step.KeepsAlive.pure fun _ _ => trivial
    refine Step.KeepsAlive.bind_raise Step.keepsAlive_tree_alive fun _ s hs ht => ?_
    split
    · next e hg =>
      refine Step.KeepsAlive.bind (Step.keepsAlive_modifyKind _ fun _ _ _ _ =>
        NodeKind.aliveIn_of_plain rfl rfl (by simp [NodeKind.handles, Expr.node])) fun _ _ => ?_
      refine Step.KeepsAlive.bind_raise (Expr.keepsAlive_tag (hu.mono hs) (ht.2 _ _ hg).handles _)
        fun _ _ _ he => ?_
      refine Step.KeepsAlive.bind (Step.keepsAlive_modifyKind _ fun k n hn hk => ?_) fun _ _ =>
        Step.KeepsAlive.pure fun _ _ => trivial
      split
      · exact NodeKind.aliveIn_of_handles rfl rfl fun r hr => (he r hr).mono hn
      · exact hk
    · exact Step.KeepsAlive.pure fun _ _ => trivial
  · exact Step.KeepsAlive.pure fun _ _ => trivial

theorem keepsAlive_tagDeclarations (hu : u.Sound i m) :
    Step.KeepsAlive u i m tagDeclarations fun _ _ => True := by
  unfold tagDeclarations
  refine Step.KeepsAlive.bind Step.keepsAlive_tree fun _ _ => ?_
  refine Step.KeepsAlive.bind (Step.KeepsAlive.forIn _ _ fun _ _ _ => ?_) fun _ _ => ?_
  · refine Step.KeepsAlive.bind Step.keepsAlive_tree fun _ _ => ?_
    split
    · exact Step.KeepsAlive.bind (keepsAlive_tagConstant hu _ _) fun _ _ =>
        Step.KeepsAlive.pure fun _ _ => trivial
    · exact Step.KeepsAlive.bind (keepsAlive_tagEnum hu _) fun _ _ =>
        Step.KeepsAlive.pure fun _ _ => trivial
    · exact Step.KeepsAlive.pure fun _ _ => trivial
  refine Step.KeepsAlive.bind Step.keepsAlive_tree fun _ _ => ?_
  refine Step.KeepsAlive.forIn _ _ fun _ _ _ => ?_
  refine Step.KeepsAlive.bind (Step.keepsAlive_here _) fun _ _ => ?_
  refine Step.KeepsAlive.bind Step.keepsAlive_tree fun _ _ => ?_
  refine Step.KeepsAlive.bind (Step.KeepsAlive.forIn _ _ fun _ _ _ => ?_) fun _ _ =>
    Step.KeepsAlive.pure fun _ _ => trivial
  refine Step.KeepsAlive.bind Step.keepsAlive_tree fun _ _ => ?_
  split
  · exact Step.KeepsAlive.bind (keepsAlive_tagField hu _ _) fun _ _ =>
      Step.KeepsAlive.pure fun _ _ => trivial
  · exact Step.KeepsAlive.bind (keepsAlive_tagConstant hu _ _) fun _ _ =>
      Step.KeepsAlive.pure fun _ _ => trivial
  · exact Step.KeepsAlive.bind (keepsAlive_tagEnum hu _) fun _ _ =>
      Step.KeepsAlive.pure fun _ _ => trivial
  · exact Step.KeepsAlive.bind (keepsAlive_tagDefaults hu _ _) fun _ _ =>
      Step.KeepsAlive.pure fun _ _ => trivial
  · exact Step.KeepsAlive.pure fun _ _ => trivial

end Bodies

/-! ## Looking again at type names -/

/-- A token of an array with one token changed is an old token or the change of one. -/
theorem SemanticToken.mem_modify {ss : Array SemanticToken} {j : Nat}
    {f : SemanticToken → SemanticToken} {s : SemanticToken} (hs : s ∈ ss.modify j f) :
    ∃ s' ∈ ss, s = s' ∨ s = f s' := by
  obtain ⟨k, hk, rfl⟩ := Array.mem_iff_getElem.1 hs
  have hk' : k < ss.size := by simpa using hk
  refine ⟨ss[k], Array.getElem_mem hk', ?_⟩
  rw [Array.getElem_modify]
  split
  · exact .inr rfl
  · exact .inl rfl

namespace Step

variable {u : Universe} {i m : Nat}

/-- The analysis a step reads is alive, at the size it has. -/
theorem keepsAlive_current_alive :
    KeepsAlive u i m current fun a s => a.tree.size = s ∧ Alive u i m a :=
  fun _ hw => ⟨⟨rfl, hw⟩, hw⟩

/-- A semantic token whose reference is alive above the floor. -/
theorem keepsAlive_emitToken {s : SemanticToken} (hs : ∀ r ∈ s.ref, u.Live i m r) :
    KeepsAlive u i m (emitToken s) fun _ _ => True :=
  fun w hw => ⟨trivial, alive_emitToken w ⟨hw, fun r h => (hs r h).mono hw.size⟩⟩

/-- Naming an alive declaration in a semantic token, in place, keeps the file alive. -/
theorem keepsAlive_nameDecl (j : Nat) {d : DeclRef} (hd : u.Live i m (.decl d)) (q : Option String) :
    KeepsAlive u i m (change fun a => { a with
      semantic := a.semantic.modify j fun s => { s with ref := some (.decl d), name := q } })
      fun _ _ => True := by
  intro w hw
  rw [change_run]
  dsimp only
  refine ⟨trivial, hw.file, hw.size, fun s hs r hr => ?_, hw.nodes⟩
  dsimp only at hs
  obtain ⟨s', hs', rfl | rfl⟩ := SemanticToken.mem_modify hs
  · exact hw.semantic _ hs' r hr
  · obtain rfl := Option.mem_some_iff.1 hr
    exact hd.mono hw.size

/-- Looking again at the type names tagged from `start` on keeps the file alive: a name gets what
    the current view resolves it to, or a copy of its token, with the same reference, is marked
    invalid. -/
theorem keepsAlive_recheckTypeNames (hu : u.Sound i m) (start : Nat) :
    KeepsAlive u i m (recheckTypeNames start) fun _ _ => True := by
  unfold recheckTypeNames
  refine KeepsAlive.bind keepsAlive_current fun _ _ => KeepsAlive.forIn _ _ fun p _ _ => ?_
  obtain ⟨j, n⟩ := p
  refine KeepsAlive.bind_raise keepsAlive_view_alive fun v s hs hv => ?_
  obtain ⟨hfile, hworld, hsize, hnodes⟩ := hv
  dsimp only
  split
  · next d hd =>
    -- the view of the file is fit for lookups, so the declaration it resolves is alive
    obtain ⟨file, tree, world⟩ := v
    cases hfile
    cases hworld
    subst hsize
    have hlive := View.Sound.live_resolveQualified ⟨hu.mono hs, hnodes⟩ hd
    exact KeepsAlive.bind (keepsAlive_nameDecl _ hlive _) fun _ _ =>
      KeepsAlive.pure fun _ _ => trivial
  · refine KeepsAlive.bind_raise keepsAlive_current_alive fun a s' _ ha => ?_
    obtain ⟨hsize', ha⟩ := ha
    have href : ∀ r ∈ (a.semantic[j]?.getD default).ref, u.Live i s' r := by
      cases hj : a.semantic[j]? with
      | none =>
        intro r hr
        cases hr
      | some t => exact fun r hr => hsize' ▸ ha.semantic t (Array.mem_of_getElem? hj) r hr
    exact KeepsAlive.bind (keepsAlive_emitToken href) fun _ _ =>
      KeepsAlive.bind (keepsAlive_warn _ _) fun _ _ => KeepsAlive.pure fun _ _ => trivial

/-- A step that keeps the file alive and a well-formed tree well formed keeps both. -/
theorem KeepsAlive.wellFormed {α : Type} {x : Step α} {R : α → Nat → Prop}
    (h : KeepsAlive u i m x R)
    (hwf : Triple (fun w => w.file.tree.WellFormed) x fun _ w => w.file.tree.WellFormed) :
    TripleIn u (fun w => Alive u i m w.file ∧ w.file.tree.WellFormed) x
      fun _ w => Alive u i m w.file ∧ w.file.tree.WellFormed :=
  fun w hw => ⟨(h w hw.1).2, hwf u w hw.2⟩

end Step

/-! ## Linking -/

namespace Links

variable {u : Universe} {i m : Nat}

/-- A class gets as links classes the universe's index names, all alive above the floor. -/
theorem keepsAlive_linkClass (hu : u.Sound i m) (id : Nat) :
    Step.KeepsAlive u i m (linkClass id) fun _ _ => True := by
  unfold linkClass
  refine Step.KeepsAlive.bind Step.keepsAlive_view fun v hv => ?_
  obtain ⟨-, hworld⟩ := hv
  split
  · next node hg =>
    split
    · next c hk =>
      extract_lets me idx find
      -- a class looked up by name is a type of the index
      have hfind : ∀ what target, Step.KeepsAlive u i m (find what target)
          fun d _ => ∀ x ∈ d, u.Live i m (.decl x) := by
        intro what target
        unfold find
        split
        · exact Step.KeepsAlive.pure fun _ _ _ h => by cases h
        · next t =>
          dsimp only
          have hfound : ∀ x ∈ (idx.findType t).filter (· != me), u.Live i m (.decl x) := by
            intro x hx
            have h := Option.eq_some_of_filter_eq_some hx
            simp only [idx, TypeIndex.findType, hworld] at h
            exact hu.types _ x h
          split
          · exact Step.KeepsAlive.bind (Step.keepsAlive_warn _ _) fun _ _ =>
              Step.KeepsAlive.pure fun _ _ => hfound
          · exact Step.KeepsAlive.pure fun _ _ => hfound
      refine Step.KeepsAlive.bind (hfind _ _) fun parent hp =>
        Step.KeepsAlive.bind (hfind _ _) fun extend he =>
          Step.KeepsAlive.bind (hfind _ _) fun replace hr => ?_
      extract_lets reverse links
      -- the reverse lists are classes of the index
      have hreverse : ∀ e ∈ reverse, u.Live i m (.decl e.decl) := by
        intro e he'
        dsimp only [reverse] at he'
        split at he'
        · exact hu.classes e (hworld ▸ Array.mem_def.2 (List.mem_of_mem_filter he'))
        · cases he'
      have hlinks : ∀ r ∈ links.handles, u.Live i m r := by
        intro r hr
        simp only [links, ClassLinks.handles, List.mem_map, List.mem_append, Option.mem_toList] at hr
        obtain ⟨x, hx, rfl⟩ := hr
        rcases hx with ((((hx | hx) | hx) | hx) | hx) | hx
        · exact hp x hx
        · exact he x hx
        · exact hr x hx
        all_goals
          obtain ⟨e, he', rfl⟩ := hx
          exact hreverse e (List.mem_of_mem_filter he')
      refine Step.KeepsAlive.bind (Step.keepsAlive_log _ _ _) fun _ _ =>
        Step.keepsAlive_modifyKind _ fun k n hn hk' => ?_
      split
      · exact ⟨fun r hr => (hlinks r hr).mono hn, hk'.self, hk'.included⟩
      · exact hk'
    · exact Step.KeepsAlive.pure fun _ _ => trivial
  · exact Step.KeepsAlive.pure fun _ _ => trivial

end Links

namespace Analysis

variable {u : Universe} {i m : Nat}

/-- The link phase keeps the file alive in a universe fit for it. -/
theorem keepsAlive_link (hu : u.Sound i m) : Step.KeepsAlive u i m link fun _ _ => True := by
  unfold link
  refine Step.KeepsAlive.bind Step.keepsAlive_current fun _ _ => ?_
  refine Step.KeepsAlive.bind (Step.KeepsAlive.forIn _ _ fun _ _ _ => ?_) fun _ _ =>
    Step.keepsAlive_recheckTypeNames hu 0
  exact Step.KeepsAlive.bind (Links.keepsAlive_linkClass hu _) fun _ _ =>
    Step.KeepsAlive.pure fun _ _ => trivial

/-- The last phase keeps a well-formed file alive in a universe fit for it. -/
theorem keepsAlive_addBodies (hu : u.Sound i m) :
    Step.TripleIn u (fun w => Alive u i m w.file ∧ w.file.tree.WellFormed) addBodies
      fun _ w => Alive u i m w.file := by
  unfold addBodies
  refine Step.TripleIn.bind (Q := fun _ w => Alive u i m w.file ∧ w.file.tree.WellFormed)
    (fun _ hw => hw) fun _ => ?_
  split
  · exact Step.TripleIn.pure fun _ h => h.1
  dsimp only
  refine Step.TripleIn.bind ((Bodies.keepsAlive_tagDeclarations hu).wellFormed
    Bodies.wellFormed_tagDeclarations) fun _ => ?_
  refine Step.TripleIn.bind (Q := fun _ w => Alive u i m w.file ∧ w.file.tree.WellFormed)
    (fun _ hw => hw) fun _ => ?_
  refine Step.TripleIn.bind (Step.TripleIn.forIn _ _ fun owner _ _ => ?_) fun _ => ?_
  · refine Step.TripleIn.bind (Q := fun _ w => Alive u i m w.file ∧ w.file.tree.WellFormed)
      (fun _ hw => hw) fun _ => ?_
    refine Step.TripleIn.bind (Step.TripleIn.forIn _ _ fun mth _ _ => ?_) fun _ =>
      Step.TripleIn.pure fun _ h => h
    exact Step.TripleIn.bind (fun w hw => ⟨Bodies.keepsAlive_methodBody hu owner mth w hw,
      Bodies.wellFormed_methodBody owner mth u w hw.2⟩) fun _ => Step.TripleIn.pure fun _ h => h
  · exact Step.TripleIn.bind (Q := fun _ w => Alive u i m w.file)
      (fun w hw => (Step.keepsAlive_recheckTypeNames hu _ w hw.1).2) fun _ => Step.alive_log _ _ _

end Analysis

end ZScript
