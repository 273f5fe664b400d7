import ZScript.Proofs.LiveTags

/-!
# Reading declarations and members keeps every handle alive

While a file is analysed in a universe `u`, its analysis stays `Alive` above a floor `m`: it has
at least `m` nodes, and its semantic tokens and nodes hold only handles alive in `u`. A step or a
reader keeps it so (`Step.KeepsAlive`, `Parse.KeepsAlive`) and its value satisfies a property of
the size of the tree it leaves: a node it made is below that size, a type it read holds handles
alive at that size. The rest of the reader then runs above the floor raised to that size
(`Parse.KeepsAlive.bind_raise`), so what its value names stays alive, however the tree grows.

Every handle the first two phases store names a node they have just made, a node of the file's
own tree, or an entry of the universe's index: so each of their readers keeps the file alive
above every floor in a universe fit for it (`Universe.Sound`), and so do reading the skeleton
(`Analysis.keepsAlive_skeleton`) and the members (`Analysis.keepsAlive_addMembers`).
-/

namespace ZScript

/-! ## Kinds fit for a tree -/

namespace NodeKind

variable {u : Universe} {i n : Nat}

/-- A kind that records no `self` and includes no file is fit wherever its handles are alive. -/
theorem aliveIn_of_handles {k : NodeKind} (hs : k.selfVar? = none) (hi : k.includes? = none)
    (hh : ∀ r ∈ k.handles, u.Live i n r) : k.AliveIn u i n :=
  ⟨hh, fun x hx => by simp [hs] at hx, fun f hf => by simp [hi] at hf⟩

/-- A kind that holds no handle, records no `self` and includes no file is fit for every tree. -/
theorem aliveIn_of_plain {k : NodeKind} (hs : k.selfVar? = none) (hi : k.includes? = none)
    (hh : k.handles = []) : k.AliveIn u i n :=
  aliveIn_of_handles hs hi fun r hr => by simp [hh] at hr

theorem selfVar?_of_typeInfo? {k : NodeKind} {info : TypeInfo} (h : k.typeInfo? = some info) :
    k.selfVar? = info.selfVar := by
  simp [selfVar?, h]

/-- Recording a `self` of the tree in a class or struct keeps it fit. -/
theorem AliveIn.setTypeInfo {k : NodeKind} (h : k.AliveIn u i n) {info : TypeInfo}
    (hs : ∀ x ∈ info.selfVar, x < n) : (k.setTypeInfo info).AliveIn u i n := by
  cases k with
  | classDecl c => exact ⟨h.handles, hs, h.included⟩
  | structDecl _ => exact ⟨h.handles, hs, h.included⟩
  | _ => exact h

end NodeKind

/-! ## Steps -/

namespace Step

/-- A step run in universe `u` that keeps the analysis of file `i` alive above the floor `m`,
    and whose value satisfies `R` at the size of the tree it leaves. -/
def KeepsAlive {α : Type} (u : Universe) (i m : Nat) (x : Step α) (R : α → Nat → Prop) : Prop :=
  TripleIn u (fun w => Alive u i m w.file) x
    fun a w => R a w.file.tree.size ∧ Alive u i m w.file

namespace KeepsAlive

variable {α β : Type} {u : Universe} {i m : Nat} {R R' : α → Nat → Prop}

theorem pure {a : α} (h : ∀ s, m ≤ s → R a s) : KeepsAlive u i m (Pure.pure a : Step α) R :=
  fun _ hw => ⟨h _ hw.size, hw⟩

theorem bind {x : Step α} {f : α → Step β} {V : α → Prop} {W : β → Nat → Prop}
    (hx : KeepsAlive u i m x fun a _ => V a) (hf : ∀ a, V a → KeepsAlive u i m (f a) W) :
    KeepsAlive u i m (x >>= f) W :=
  TripleIn.bind hx fun a w hw => hf a hw.1 w hw.2

/-- The rest runs above the floor raised to the size the first step leaves, where its value
    satisfies `R`. -/
theorem bind_raise {x : Step α} {f : α → Step β} {W : β → Nat → Prop} (hx : KeepsAlive u i m x R)
    (hf : ∀ a s, m ≤ s → R a s → KeepsAlive u i s (f a) W) : KeepsAlive u i m (x >>= f) W := by
  refine TripleIn.bind hx fun a w hw => ?_
  have hm := hw.2.size
  obtain ⟨hW, hs⟩ := hf a _ hm hw.1 w hw.2.raise
  exact ⟨hW, hs.weaken hm⟩

theorem mono {x : Step α} (h : KeepsAlive u i m x R) (hR : ∀ a s, R a s → R' a s) :
    KeepsAlive u i m x R' :=
  TripleIn.post h fun a _ hw => ⟨hR a _ hw.1, hw.2⟩

/-- A loop whose body keeps the analysis alive. -/
theorem forIn {γ σ : Type} (xs : List γ) (init : σ) {f : γ → σ → Step (ForInStep σ)}
    (hf : ∀ b ∈ xs, ∀ s, KeepsAlive u i m (f b s) fun _ _ => True) :
    KeepsAlive u i m (forIn xs init f) fun _ _ => True :=
  TripleIn.post (TripleIn.forIn xs init fun b hb s => TripleIn.post (hf b hb s) fun _ _ h => h.2)
    fun _ _ h => ⟨trivial, h⟩

/-- A step that changes neither the file's tree nor its semantic tokens. -/
theorem of_same {x : Step α} (hV : ∀ w, Alive u i m w.file → R (x u w).1 w.file.tree.size)
    (h : ∀ w, (x u w).2.file.file = w.file.file ∧ (x u w).2.file.tree = w.file.tree ∧
      (x u w).2.file.semantic = w.file.semantic) : KeepsAlive u i m x R := fun w hw => by
  show R _ (x u w).2.file.tree.size ∧ _
  rw [(h w).2.1]
  exact ⟨hV w hw, hw.congr (h w).1 (h w).2.1 (h w).2.2⟩

end KeepsAlive

/-- A step that may fail and keeps the analysis alive above the floor `m`, whether it fails or
    not. -/
def KeepsAliveRun {α : Type} (u : Universe) (i m : Nat) (x : ExceptT ParseError Step α) : Prop :=
  TripleIn u (fun w => Alive u i m w.file) x.run
    (Outcome (fun _ w => True ∧ Alive u i m w.file) fun w => Alive u i m w.file)

/-- The rest of a step that may fail runs above the floor raised to the current size, where `R`
    holds. -/
theorem TripleIn.except_raise {α : Type} {u : Universe} {i m : Nat} {R : Nat → Prop}
    {x : ExceptT ParseError Step α}
    (h : ∀ s, m ≤ s → R s → KeepsAliveRun u i s x) :
    TripleIn u (fun w => R w.file.tree.size ∧ Alive u i m w.file) x.run
      (Outcome (fun _ w => True ∧ Alive u i m w.file) fun w => Alive u i m w.file) := by
  intro w hw
  have hm := hw.2.size
  exact Outcome.imp (fun _ _ h => ⟨trivial, h.2.weaken hm⟩) (fun _ h => h.weaken hm) _ _
    (h _ hm hw.1 w hw.2.raise)

/-- A step run in a universe of its own, whatever the one around it. -/
theorem TripleIn.withReader {α : Type} {v : Universe} {P : Work → Prop} {Q : α → Work → Prop}
    {x : Step α} (h : TripleIn v P x Q) (u : Universe) :
    TripleIn u P (withReader (fun _ => v) x) Q :=
  fun w hw => h w hw

variable {u : Universe} {i m : Nat}

theorem keepsAlive_current : KeepsAlive u i m current fun a _ => a.file = i :=
  fun _ hw => ⟨hw.file, hw⟩

theorem keepsAlive_tree : KeepsAlive u i m tree fun _ _ => True :=
  fun _ hw => ⟨trivial, hw⟩

theorem keepsAlive_view : KeepsAlive u i m view fun v _ => v.file = i ∧ v.world = u :=
  fun _ hw => ⟨⟨hw.file, rfl⟩, hw⟩

/-- The tree a step reads is alive at the size it has. -/
theorem keepsAlive_tree_alive :
    KeepsAlive u i m tree fun t s => t.size = s ∧ ∀ id node, t.get? id = some node →
      node.kind.AliveIn u i s :=
  fun _ hw => ⟨⟨rfl, hw.nodes⟩, hw⟩

/-- The view a step reads is the file's, in the universe, on a tree alive at the size it has. -/
theorem keepsAlive_view_alive :
    KeepsAlive u i m view fun v s => v.file = i ∧ v.world = u ∧ v.tree.size = s ∧
      ∀ id node, v.tree.get? id = some node → node.kind.AliveIn u i s :=
  fun _ hw => ⟨⟨hw.file, rfl, rfl, hw.nodes⟩, hw⟩

theorem keepsAlive_here (id : Nat) : KeepsAlive u i m (here id) fun d _ => d = ⟨i, id⟩ :=
  fun _ hw => ⟨by rw [here_run, hw.file], hw⟩

theorem keepsAlive_log (level : LogLevel) (source : LogSource) (message : String) :
    KeepsAlive u i m (log level source message) fun _ _ => True :=
  TripleIn.post (alive_log level source message) fun _ _ h => ⟨trivial, h⟩

theorem keepsAlive_warn (message : String) (line : Nat) :
    KeepsAlive u i m (warn message line) fun _ _ => True :=
  TripleIn.post (alive_warn message line) fun _ _ h => ⟨trivial, h⟩

theorem keepsAlive_report (e : ParseError) : KeepsAlive u i m (report e) fun _ _ => True :=
  TripleIn.post (alive_report e) fun _ _ h => ⟨trivial, h⟩

theorem keepsAlive_fail (e : ParseError) : KeepsAlive u i m (fail e) fun _ _ => True :=
  TripleIn.post (alive_fail e) fun _ _ h => ⟨trivial, h⟩

theorem keepsAlive_emit (t : Token) (kind : SemanticKind) :
    KeepsAlive u i m (emit t kind) fun _ _ => True :=
  TripleIn.post (alive_emit t kind) fun _ _ h => ⟨trivial, h⟩

/-- A token whose reference is alive above the floor. -/
theorem keepsAlive_emitRef (t : Token) (kind : SemanticKind) {ref : Option Target} (name : String)
    (hr : ∀ r ∈ ref, u.Live i m r) : KeepsAlive u i m (emitRef t kind ref name) fun _ _ => True :=
  fun w hw => ⟨trivial, alive_emitRef t kind ref name w ⟨hw, fun r h => (hr r h).mono hw.size⟩⟩

/-- A token that names a node of this file below the floor. -/
theorem keepsAlive_emitRef_here (t : Token) (kind : SemanticKind) {id : Nat} (hid : id < m)
    (name : String) : KeepsAlive u i m (emitRef t kind (some (.decl ⟨i, id⟩)) name) fun _ _ => True :=
  keepsAlive_emitRef t kind name fun r hr => by
    obtain rfl := Option.mem_some_iff.1 hr
    simpa [Universe.Live] using hid

/-- A new node of a kind fit for the floor; it lies below the size the step leaves. -/
theorem keepsAlive_alloc (parent : Option Nat) (name : String) (line : Nat) {kind : NodeKind}
    (hk : kind.AliveIn u i m) : KeepsAlive u i m (alloc parent name line kind) fun id s => id < s :=
  fun w hw => by
    obtain ⟨h, hid⟩ := alive_alloc parent name line kind w ⟨hw, hk.mono (by have := hw.size; omega)⟩
    exact ⟨by omega, h⟩

theorem keepsAlive_add (parent : Nat) (name : String) (line : Nat) {kind : NodeKind}
    (hk : kind.AliveIn u i m) : KeepsAlive u i m (add parent name line kind) fun id s => id < s :=
  fun w hw => by
    obtain ⟨h, hid⟩ := alive_add parent name line kind w ⟨hw, hk.mono (by have := hw.size; omega)⟩
    exact ⟨by omega, h⟩

theorem keepsAlive_attach (parent child : Nat) :
    KeepsAlive u i m (attach parent child) fun _ _ => True :=
  TripleIn.post (alive_attach parent child) fun _ _ h => ⟨trivial, h⟩

/-- Changing what a node holds, into a kind fit for every size its old kind was fit for. -/
theorem keepsAlive_modifyKind (id : Nat) {f : NodeKind → NodeKind}
    (hf : ∀ k n, m ≤ n → k.AliveIn u i n → (f k).AliveIn u i n) :
    KeepsAlive u i m (modifyKind id f) fun _ _ => True :=
  fun w hw => ⟨trivial, alive_modifyKind id f w
    ⟨hw, fun node hg => hf _ _ hw.size (hw.nodes id node hg)⟩⟩

end Step

/-! ## Readers -/

namespace Parse

/-- A reader run in universe `u` that keeps the analysis of file `i` alive above the floor `m`,
    whether it succeeds or fails, and whose value satisfies `R` at the size of the tree it
    leaves. -/
def KeepsAlive {α : Type} (u : Universe) (i m : Nat) (x : Parse α) (R : α → Nat → Prop) : Prop :=
  TripleIn u (fun w => Alive u i m w.file) x
    (fun a w => R a w.file.tree.size ∧ Alive u i m w.file) fun w => Alive u i m w.file

namespace KeepsAlive

variable {α β : Type} {u : Universe} {i m : Nat} {R R' : α → Nat → Prop}

theorem pure {a : α} (h : ∀ s, m ≤ s → R a s) : KeepsAlive u i m (Pure.pure a : Parse α) R :=
  TripleIn.pure fun _ hw => ⟨h _ hw.size, hw⟩

theorem bind {x : Parse α} {f : α → Parse β} {V : α → Prop} {W : β → Nat → Prop}
    (hx : KeepsAlive u i m x fun a _ => V a) (hf : ∀ a, V a → KeepsAlive u i m (f a) W) :
    KeepsAlive u i m (x >>= f) W :=
  TripleIn.bind hx fun a c w hw => hf a hw.1 c w hw.2

/-- The rest runs above the floor raised to the size the first reader leaves, where its value
    satisfies `R`. -/
theorem bind_raise {x : Parse α} {f : α → Parse β} {W : β → Nat → Prop}
    (hx : KeepsAlive u i m x R) (hf : ∀ a s, m ≤ s → R a s → KeepsAlive u i s (f a) W) :
    KeepsAlive u i m (x >>= f) W := by
  refine TripleIn.bind hx fun a c w hw => ?_
  have hm := hw.2.size
  exact Outcome.imp (fun _ _ h => ⟨h.1, h.2.weaken hm⟩) (fun _ h => h.weaken hm) _ _
    (hf a _ hm hw.1 c w hw.2.raise)

theorem mono {x : Parse α} (h : KeepsAlive u i m x R) (hR : ∀ a s, R a s → R' a s) :
    KeepsAlive u i m x R' :=
  TripleIn.post h fun a _ hw => ⟨hR a _ hw.1, hw.2⟩

theorem throw {e : ParseError} : KeepsAlive u i m (MonadExcept.throw e : Parse α) R :=
  TripleIn.throw

theorem throw_bind {e : ParseError} {f : α → Parse β} {W : β → Nat → Prop} :
    KeepsAlive u i m (MonadExcept.throw e >>= f) W :=
  TripleIn.bind TripleIn.throw fun _ => TripleIn.of_false

/-- A reader that leaves the work alone. -/
theorem quiet {x : Parse α} (h : Quiet x) : KeepsAlive u i m x fun _ _ => True :=
  TripleIn.post h.alive fun _ _ hw => ⟨trivial, hw⟩

theorem lift {x : Step α} (h : Step.KeepsAlive u i m x R) :
    KeepsAlive u i m (monadLift x : Parse α) R :=
  TripleIn.lift h

theorem step {x : Step α} (h : Step.KeepsAlive u i m x R) : KeepsAlive u i m (Parse.step x) R :=
  TripleIn.lift h

theorem map {x : Parse α} (f : α → β) {W : β → Nat → Prop} (h : KeepsAlive u i m x R)
    (hf : ∀ a s, R a s → W (f a) s) : KeepsAlive u i m (f <$> x) W := by
  rw [map_eq_pure_bind]
  exact TripleIn.bind h fun a _ _ hw => ⟨hf a _ hw.1, hw.2⟩

/-- A reader run for its effect alone. -/
theorem discard {x : Parse α} (h : KeepsAlive u i m x R) :
    KeepsAlive u i m (Functor.discard x) fun _ _ => True := by
  rw [Functor.discard, LawfulFunctor.map_const, Function.comp_apply]
  exact map _ h fun _ _ _ => trivial

theorem tryCatch {x : Parse α} {h : ParseError → Parse α} (hx : KeepsAlive u i m x R)
    (hh : ∀ e, KeepsAlive u i m (h e) R) : KeepsAlive u i m (MonadExcept.tryCatch x h) R :=
  TripleIn.tryCatch hx hh

/-- A step that may fail, lifted into a reader. -/
theorem exceptLift {x : ExceptT ParseError Step α}
    (h : Step.TripleIn u (fun w => Alive u i m w.file) x.run
      (Outcome (fun a w => R a w.file.tree.size ∧ Alive u i m w.file) fun w => Alive u i m w.file)) :
    KeepsAlive u i m (monadLift x : Parse α) R :=
  TripleIn.exceptLift h

theorem ofExcept (x : Except ParseError α) : KeepsAlive u i m (ofExcept x) fun a _ => x = .ok a := by
  cases x with
  | error e => exact throw
  | ok a => exact pure fun _ _ => rfl

end KeepsAlive

variable {u : Universe} {i m : Nat}

open KeepsAlive

theorem keepsAlive_tooDeep {α : Type} {R : α → Nat → Prop} : KeepsAlive u i m (tooDeep : Parse α) R :=
  bind (quiet Quiet.get) fun _ _ => throw

theorem keepsAlive_unexpected {α : Type} {R : α → Nat → Prop} (expected : String) :
    KeepsAlive u i m (unexpected expected : Parse α) R :=
  bind (quiet (quiet_unexpectedHere expected)) fun _ _ => throw

/-- An expression as read holds no handle. -/
theorem keepsAlive_expression (stop : List TokenKind) :
    KeepsAlive u i m (expression stop) fun e _ => e.handles = [] := by
  intro c w hw
  unfold expression liftExpr
  split
  · next r p hrun =>
    obtain ⟨e, c'⟩ := p
    exact ⟨ExprParser.expression_plain hrun, hw⟩
  · exact hw

/-- A reader that keeps every current view of a file fit for lookups keeps the file alive. -/
theorem keepsAlive_of_current {α : Type} {x : Parse α} {R : α → Nat → Prop} (hu : u.Sound i m)
    (h : ∀ v : View, v.Sound → v.world = u → v.file = i →
      TripleIn u (fun w => v.Current m w.file) x (fun a w => R a v.tree.size ∧ v.Current m w.file)
        fun w => v.Current m w.file) :
    KeepsAlive u i m x R :=
  TripleIn.alive_of_current hu (Nat.le_refl m) h

/-- A type read in a universe fit for the file holds handles alive at the size it leaves. -/
theorem keepsAlive_compoundType (hu : u.Sound i m) (context : Option Nat) :
    KeepsAlive u i m (compoundType context) fun ty s => ∀ r ∈ ty.handles, u.Live i s r := by
  refine keepsAlive_of_current hu fun v hv hw hf => ?_
  obtain ⟨file, tree, world⟩ := v
  cases hw
  cases hf
  exact Types.current_compoundType hv context

/-- Array dimensions as read hold no handle. -/
theorem keepsAlive_dimensions (hu : u.Sound i m) (fuel : Nat) :
    KeepsAlive u i m (dimensions fuel) fun dims _ => Expr.handlesDims dims = [] := by
  refine keepsAlive_of_current hu fun v _ hw _ => ?_
  cases hw
  exact Parse.current_dimensions fuel

theorem keepsAlive_bracedBody (what : String) :
    KeepsAlive u i m (bracedBody what) fun _ _ => True :=
  bind (quiet (quiet_expect _ _)) fun _ _ => bind (KeepsAlive.step (Step.keepsAlive_emit _ _)) fun _ _ =>
    bind (quiet (quiet_balanced _)) fun _ _ => bind (quiet (quiet_expect _ _)) fun _ _ =>
      bind (KeepsAlive.step (Step.keepsAlive_emit _ _)) fun _ _ => pure fun _ _ => trivial

theorem keepsAlive_semicolon (what : String) : KeepsAlive u i m (semicolon what) fun _ _ => True :=
  bind (quiet (quiet_expect _ _)) fun _ _ => KeepsAlive.step (Step.keepsAlive_emit _ _)

end Parse

/-! ## The skeleton -/

namespace Declarations

open Parse Parse.KeepsAlive

variable {u : Universe} {i m : Nat}

theorem keepsAlive_flagArgument (flag : String) :
    Parse.KeepsAlive u i m (flagArgument flag) fun _ _ => True :=
  bind (quiet (quiet_expect _ _)) fun _ _ => bind (quiet (quiet_expect _ _)) fun _ _ =>
    bind (quiet (quiet_expect _ _)) fun _ _ => bind (lift (Step.keepsAlive_emit _ _)) fun _ _ =>
      bind (lift (Step.keepsAlive_emit _ _)) fun _ _ =>
        bind (lift (Step.keepsAlive_emit _ _)) fun _ _ => pure fun _ _ => trivial

theorem keepsAlive_flag (t : Token) (mods : Modifiers) :
    Parse.KeepsAlive u i m (flag t mods) fun _ _ => True := by
  unfold flag
  split
  · exact bind (keepsAlive_flagArgument _) fun _ _ => pure fun _ _ => trivial
  split
  · exact bind (keepsAlive_flagArgument _) fun _ _ => pure fun _ _ => trivial
  · exact pure fun _ _ => trivial

theorem keepsAlive_typeFlags (fuel : Nat) :
    ∀ mods, Parse.KeepsAlive u i m (typeFlags fuel mods) fun _ _ => True := by
  induction fuel with
  | zero => exact fun _ => keepsAlive_tooDeep
  | succ fuel ih =>
    intro mods
    rw [typeFlags]
    refine bind (quiet (quiet_accept _)) fun _ _ => ?_
    split
    · exact pure fun _ _ => trivial
    · dsimp only
      split
      · exact bind (lift (Step.keepsAlive_emit _ _)) fun _ _ =>
          bind (keepsAlive_flag _ _) fun _ _ => ih _
      · exact throw_bind

theorem keepsAlive_structDecl (keyword : Token) (parent : Nat) :
    Parse.KeepsAlive u i m (structDecl keyword parent) fun _ _ => True := by
  unfold structDecl
  refine bind (lift (Step.keepsAlive_emit _ _)) fun _ _ => ?_
  refine bind (quiet (quiet_expectIdent _)) fun _ _ => bind (quiet quiet_fuel) fun _ _ => ?_
  refine bind (keepsAlive_typeFlags _ _) fun _ _ => bind (keepsAlive_bracedBody _) fun _ _ => ?_
  refine bind_raise (lift (Step.keepsAlive_add _ _ _ (NodeKind.aliveIn_of_plain rfl rfl rfl)))
    fun id s _ hid => bind (lift (Step.keepsAlive_here _)) fun d hd => ?_
  subst hd
  exact bind (lift Step.keepsAlive_view) fun _ _ =>
    bind (lift (Step.keepsAlive_emitRef_here _ _ hid _)) fun _ _ => pure fun _ _ => trivial

theorem keepsAlive_enumMembers (enum fuel : Nat) :
    Parse.KeepsAlive u i m (enumMembers enum fuel) fun _ _ => True := by
  induction fuel generalizing m with
  | zero =>
    rw [enumMembers]
    exact keepsAlive_tooDeep
  | succ fuel ih =>
    rw [enumMembers]
    refine bind (quiet (quiet_expect _ _)) fun t _ => ?_
    split
    · exact bind (lift (Step.keepsAlive_emit _ _)) fun _ _ => pure fun _ _ => trivial
    refine bind_raise (lift (Step.keepsAlive_add _ _ _ (NodeKind.aliveIn_of_plain rfl rfl rfl)))
      fun member s _ hmember => bind (lift (Step.keepsAlive_here _)) fun d hd => ?_
    subst hd
    refine bind (lift Step.keepsAlive_view) fun _ _ => ?_
    refine bind (lift (Step.keepsAlive_emitRef_here _ _ hmember _)) fun _ _ => ?_
    refine bind (quiet (quiet_expect _ _)) fun _ _ => ?_
    extract_lets jp
    -- the rest of the list, after the member's separator
    have hjp : ∀ sep, Parse.KeepsAlive u i s (jp sep) fun _ _ => True := by
      intro sep
      dsimp only [jp]
      refine bind (lift (Step.keepsAlive_emit _ _)) fun _ _ => ?_
      split
      · exact pure fun _ _ => trivial
      · exact ih
    split
    · refine bind (lift (Step.keepsAlive_emit _ _)) fun _ _ => ?_
      refine bind (keepsAlive_expression _) fun value hv => ?_
      refine bind (lift (Step.keepsAlive_modifyKind member fun _ _ _ _ =>
        NodeKind.aliveIn_of_plain rfl rfl (by simp [NodeKind.handles, hv]))) fun _ _ => ?_
      exact bind (quiet (quiet_expect _ _)) fun _ _ => hjp _
    · exact hjp _

theorem keepsAlive_enumDecl (hu : u.Sound i m) (keyword : Token) (parent : Nat) :
    Parse.KeepsAlive u i m (enumDecl keyword parent) fun _ _ => True := by
  unfold enumDecl
  refine bind (lift (Step.keepsAlive_emit _ _)) fun _ _ => ?_
  refine bind (quiet (quiet_expectIdent _)) fun _ _ => bind (quiet (quiet_accept _)) fun _ _ => ?_
  extract_lets jp
  -- the enum, once its base type is read: the base holds handles alive above the floor
  suffices hjp : ∀ s, m ≤ s → ∀ base : Option Ty, (∀ r ∈ Ty.handlesOpt base, u.Live i s r) →
      Parse.KeepsAlive u i s (jp base) fun _ _ => True by
    split
    · exact bind (lift (Step.keepsAlive_emit _ _)) fun _ _ =>
        bind_raise (keepsAlive_compoundType hu _) fun ty s hs hty => hjp s hs (some ty) hty
    · exact hjp m (Nat.le_refl m) none fun _ h => by simp at h
  intro s _ base hbase
  dsimp only [jp]
  refine bind (quiet (quiet_expect _ _)) fun _ _ => bind (lift (Step.keepsAlive_emit _ _)) fun _ _ => ?_
  refine bind_raise (lift (Step.keepsAlive_alloc _ _ _ (NodeKind.aliveIn_of_handles rfl rfl hbase)))
    fun id s' _ hid => bind (lift (Step.keepsAlive_here _)) fun d hd => ?_
  subst hd
  refine bind (lift Step.keepsAlive_view) fun _ _ => ?_
  refine bind (lift (Step.keepsAlive_emitRef_here _ _ hid _)) fun _ _ => ?_
  exact bind (quiet quiet_fuel) fun _ _ => bind (keepsAlive_enumMembers _ _) fun _ _ =>
    bind (lift (Step.keepsAlive_attach _ _)) fun _ _ => pure fun _ _ => trivial

theorem keepsAlive_constantDecl (keyword : Token) (parent : Nat) :
    Parse.KeepsAlive u i m (constantDecl keyword parent) fun _ _ => True := by
  unfold constantDecl
  refine bind (lift (Step.keepsAlive_emit _ _)) fun _ _ => ?_
  refine bind (quiet (quiet_expectIdent _)) fun _ _ => bind (quiet (quiet_expect _ _)) fun _ _ => ?_
  refine bind (lift (Step.keepsAlive_emit _ _)) fun _ _ => ?_
  refine bind (keepsAlive_expression _) fun value hv => ?_
  refine bind (quiet (quiet_expect _ _)) fun _ _ => bind (lift (Step.keepsAlive_emit _ _)) fun _ _ => ?_
  refine bind_raise (lift (Step.keepsAlive_add _ _ _
    (NodeKind.aliveIn_of_plain rfl rfl (by simp [NodeKind.handles, hv])))) fun id s _ hid => ?_
  refine bind (lift (Step.keepsAlive_here _)) fun d hd => ?_
  subst hd
  exact bind (lift Step.keepsAlive_view) fun _ _ =>
    bind (lift (Step.keepsAlive_emitRef_here _ _ hid _)) fun _ _ => pure fun _ _ => trivial

theorem keepsAlive_classDecl (keyword : Token) (extend : Option Token) :
    Parse.KeepsAlive u i m (classDecl keyword extend) fun _ _ => True := by
  unfold classDecl
  -- the header is read in three parts, each continuing the one before
  extract_lets afterExtend
  suffices h : ∀ r, Parse.KeepsAlive u i m (afterExtend r) fun _ _ => True by
    split
    · exact bind (lift (Step.keepsAlive_emit _ _)) fun r _ => h r
    · exact h ()
  intro r
  dsimp -zeta only [afterExtend]
  refine bind (lift (Step.keepsAlive_emit _ _)) fun _ _ => ?_
  refine bind (quiet (quiet_expectIdent _)) fun _ _ => bind (quiet (quiet_accept _)) fun _ _ => ?_
  extract_lets extendName afterParent
  suffices h : ∀ parentName, Parse.KeepsAlive u i m (afterParent parentName) fun _ _ => True by
    split
    · refine bind (lift (Step.keepsAlive_emit _ _)) fun _ _ => ?_
      refine bind (quiet (quiet_expectIdent _)) fun _ _ => ?_
      exact bind (lift (Step.keepsAlive_emitRef _ _ _ fun _ h => by cases h)) fun _ _ =>
        bind (pure (R := fun _ _ => True) fun _ _ => trivial) fun _ _ => h _
    · exact bind (pure (R := fun _ _ => True) fun _ _ => trivial) fun _ _ => h _
  intro parentName
  dsimp -zeta only [afterParent]
  refine bind (quiet (quiet_acceptKeyword _)) fun _ _ => ?_
  extract_lets afterReplace
  suffices h : ∀ replaceName, Parse.KeepsAlive u i m (afterReplace replaceName) fun _ _ => True by
    split
    · refine bind (lift (Step.keepsAlive_emit _ _)) fun _ _ => ?_
      refine bind (quiet (quiet_expectIdent _)) fun _ _ => ?_
      exact bind (lift (Step.keepsAlive_emitRef _ _ _ fun _ h => by cases h)) fun _ _ =>
        bind (pure (R := fun _ _ => True) fun _ _ => trivial) fun _ _ => h _
    · exact bind (pure (R := fun _ _ => True) fun _ _ => trivial) fun _ _ => h _
  intro replaceName
  dsimp only [afterReplace]
  refine bind (quiet quiet_fuel) fun _ _ => bind (keepsAlive_typeFlags _ _) fun _ _ => ?_
  refine bind (keepsAlive_bracedBody _) fun _ _ => ?_
  -- a class as read holds no links yet
  refine bind_raise (lift (Step.keepsAlive_add _ _ _ (NodeKind.aliveIn_of_plain rfl rfl rfl)))
    fun id s _ hid => ?_
  split
  · exact lift (Step.keepsAlive_emitRef _ _ _ fun _ h => by cases h)
  · refine bind (lift (Step.keepsAlive_here _)) fun d hd => ?_
    subst hd
    exact lift (Step.keepsAlive_emitRef_here _ _ hid _)

theorem keepsAlive_directive (hash : Token) :
    Parse.KeepsAlive u i m (directive hash) fun _ _ => True := by
  unfold directive
  refine bind (quiet quiet_peek) fun _ _ => ?_
  split
  · refine bind (quiet quiet_next) fun _ _ => ?_
    extract_lets afterWord
    suffices h : ∀ r, Parse.KeepsAlive u i m (afterWord r) fun _ _ => True by
      split
      · exact h ()
      · exact throw_bind
    intro r
    dsimp only [afterWord]
    refine bind (quiet quiet_peek) fun _ _ => ?_
    split
    · refine bind (quiet quiet_next) fun _ _ => bind (lift (Step.keepsAlive_emit _ _)) fun _ _ => ?_
      refine bind (lift (Step.keepsAlive_emit _ _)) fun _ _ => ?_
      refine bind (lift (Step.keepsAlive_emit _ _)) fun _ _ => ?_
      -- an include as read points at no document yet
      exact bind_raise (lift (Step.keepsAlive_add _ _ _ (NodeKind.aliveIn_of_plain rfl rfl rfl)))
        fun _ _ _ _ => pure fun _ _ => trivial
    · exact throw
  · exact throw

theorem keepsAlive_version (word : Token) :
    Parse.KeepsAlive u i m (version word) fun _ _ => True := by
  unfold version
  refine bind (quiet quiet_peek) fun _ _ => ?_
  split
  · refine bind (quiet quiet_next) fun _ _ => bind (lift (Step.keepsAlive_emit _ _)) fun _ _ => ?_
    refine bind (lift (Step.keepsAlive_emit _ _)) fun _ _ => ?_
    refine lift (Step.keepsAlive_modifyKind 0 fun k n _ hk => ?_)
    split
    · exact NodeKind.aliveIn_of_plain rfl rfl rfl
    · exact hk
  · exact keepsAlive_unexpected _

/-- Every top-level item keeps the file alive, and so does the reading of a whole file. -/
theorem keepsAlive_items (hu : u.Sound i m) (fuel : Nat) :
    ∀ leading, Parse.KeepsAlive u i m (items fuel leading) fun _ _ => True := by
  induction fuel with
  | zero =>
    intro _
    rw [items]
    exact keepsAlive_tooDeep
  | succ fuel ih =>
    intro leading
    rw [items]
    refine bind (quiet quiet_next) fun _ _ => ?_
    -- no token left ends the file; otherwise one item is read
    split
    rotate_left
    · exact pure fun _ _ => trivial
    next t =>
    extract_lets next
    have item : ∀ {x : Parse Unit}, Parse.KeepsAlive u i m x (fun _ _ => True) →
        Parse.KeepsAlive u i m (x >>= next) fun _ _ => True :=
      fun h => bind h fun _ _ => ih false
    split
    · exact item (lift (Step.keepsAlive_emit _ _))
    · exact item (keepsAlive_directive _)
    · split
      · exact item (keepsAlive_version _)
      split
      · exact item (keepsAlive_classDecl _ _)
      split
      · refine bind (quiet (quiet_acceptKeyword _)) fun _ _ => ?_
        split
        · exact item (keepsAlive_classDecl _ _)
        · exact item (keepsAlive_unexpected _)
      split
      · exact item (discard (keepsAlive_structDecl _ 0))
      split
      · exact item (discard (keepsAlive_enumDecl hu _ 0))
      split
      · exact item (discard (keepsAlive_constantDecl _ 0))
      · exact item throw
    · exact item throw

end Declarations

/-! ## Members -/

namespace Members

open Parse Parse.KeepsAlive

variable {u : Universe} {i m : Nat}

/-- A type gets its `self`, a local typed as the type itself or as the class it extends, found in
    the index. -/
theorem keepsAlive_selfVar (hu : u.Sound i m) (owner : Nat) :
    Step.KeepsAlive u i m (selfVar owner) fun _ _ => True := by
  unfold selfVar
  refine Step.KeepsAlive.bind_raise Step.keepsAlive_view_alive fun v s hs hv => ?_
  obtain ⟨hfile, hworld, hsize, -⟩ := hv
  split
  · next node hg =>
    dsimp only
    -- the target: the class an `extend class` extends, from the index, or the type itself
    have hkind : ∀ target : Option Target, (∀ r ∈ target, u.Live i s r) →
        (NodeKind.localVar (some (Ty.named node.name target)) []).AliveIn u i s :=
      fun target htarget => NodeKind.aliveIn_of_handles rfl rfl (by simpa [NodeKind.handles] using htarget)
    refine Step.KeepsAlive.bind_raise (Step.keepsAlive_alloc _ _ _ (hkind _ fun r hr => ?_))
      fun id s' _ hid => Step.keepsAlive_modifyKind owner fun k n hn hk => ?_
    · split at hr
      · obtain ⟨d, hd, rfl⟩ := Option.mem_map.1 hr
        rw [hworld] at hd
        exact (hu.types _ d hd).mono hs
      · obtain rfl := Option.mem_some_iff.1 hr
        have hlt := Tree.lt_size_of_get? hg
        simp only [Universe.Live, hfile, if_true]
        omega
    · split
      · exact hk.setTypeInfo fun x hx => by
          obtain rfl := Option.mem_some_iff.1 hx
          omega
      · exact hk
  · exact Step.KeepsAlive.pure fun _ _ => trivial

theorem keepsAlive_propertyFields (fuel : Nat) :
    ∀ acc, Parse.KeepsAlive u i m (propertyFields fuel acc) fun _ _ => True := by
  induction fuel with
  | zero => exact fun _ => keepsAlive_tooDeep
  | succ fuel ih =>
    intro acc
    rw [propertyFields]
    refine bind (quiet (quiet_expectIdent _)) fun _ _ =>
      bind (lift (Step.keepsAlive_emitRef _ _ _ fun _ h => by cases h)) fun _ _ =>
        bind (quiet (quiet_expect _ _)) fun _ _ => bind (lift (Step.keepsAlive_emit _ _))
          fun _ _ => ?_
    split
    · exact pure fun _ _ => trivial
    · exact ih _

theorem keepsAlive_property (keyword : Token) (owner : Nat) :
    Parse.KeepsAlive u i m (property keyword owner) fun _ _ => True := by
  unfold property
  refine bind (lift (Step.keepsAlive_emit _ _)) fun _ _ => ?_
  refine bind (quiet (quiet_expectIdent _)) fun _ _ => bind (quiet (quiet_expect _ _)) fun _ _ => ?_
  refine bind (lift (Step.keepsAlive_emit _ _)) fun _ _ => bind (quiet quiet_fuel) fun _ _ => ?_
  refine bind (keepsAlive_propertyFields _ _) fun _ _ => ?_
  refine bind_raise (lift (Step.keepsAlive_add _ _ _ (NodeKind.aliveIn_of_plain rfl rfl rfl)))
    fun id s _ hid => bind (lift (Step.keepsAlive_here _)) fun d hd => ?_
  subst hd
  exact bind (lift Step.keepsAlive_view) fun _ _ => lift (Step.keepsAlive_emitRef_here _ _ hid _)

theorem keepsAlive_memberFlags (fuel : Nat) :
    ∀ mods, Parse.KeepsAlive u i m (memberFlags fuel mods) fun _ _ => True := by
  induction fuel with
  | zero => exact fun _ => keepsAlive_tooDeep
  | succ fuel ih =>
    intro mods
    rw [memberFlags]
    refine bind (quiet quiet_peek) fun _ _ => ?_
    split
    rotate_left
    · exact pure fun _ _ => trivial
    refine bind (quiet (quiet_peekAt _)) fun _ _ => ?_
    dsimp only
    split
    · exact bind (quiet quiet_next) fun _ _ => bind (lift (Step.keepsAlive_emit _ _)) fun _ _ =>
        bind (Declarations.keepsAlive_flag _ _) fun _ _ => ih _
    · exact pure fun _ _ => trivial

/-- More types of a method, each holding handles alive at the size they leave. -/
theorem keepsAlive_moreTypes (owner fuel : Nat) (hu : u.Sound i m) :
    Parse.KeepsAlive u i m (moreTypes owner fuel) fun tys s => ∀ r ∈ Ty.handlesList tys, u.Live i s r := by
  induction fuel generalizing m with
  | zero => exact keepsAlive_tooDeep
  | succ fuel ih =>
    rw [moreTypes]
    refine bind (quiet (quiet_accept _)) fun _ _ => ?_
    split
    · exact pure fun _ _ _ h => by cases h
    · refine bind (lift (Step.keepsAlive_emit _ _)) fun _ _ => ?_
      refine bind_raise (keepsAlive_compoundType hu _) fun ty s hs hty => ?_
      refine bind_raise (ih (hu.mono hs)) fun tys s' hs' htys => pure fun s'' hs'' r hr => ?_
      rcases List.mem_append.1 (Ty.handlesList_cons ty tys ▸ hr) with hr | hr
      · exact (hty r hr).mono (Nat.le_trans hs' hs'')
      · exact (htys r hr).mono hs''

theorem keepsAlive_fieldNames (owner : Nat) (base : Ty) (mods : Modifiers) (fuel : Nat) :
    ∀ m name, u.Sound i m → (∀ r ∈ base.handles, u.Live i m r) →
      Parse.KeepsAlive u i m (fieldNames owner base mods fuel name) fun _ _ => True := by
  induction fuel with
  | zero =>
    intro _ _ _ _
    rw [fieldNames]
    exact keepsAlive_tooDeep
  | succ fuel ih =>
    intro m name hu hbase
    rw [fieldNames]
    refine bind (quiet quiet_fuel) fun _ _ => bind (keepsAlive_dimensions hu _) fun dims hdims => ?_
    refine bind (quiet (quiet_accept _)) fun _ _ => ?_
    extract_lets afterInit
    suffices h : ∀ init : Option Expr, Expr.handlesOpt init = [] →
        Parse.KeepsAlive u i m (afterInit init) fun _ _ => True by
      split
      · refine bind (lift (Step.keepsAlive_emit _ _)) fun _ _ => ?_
        exact bind (keepsAlive_expression _) fun e he =>
          bind (pure (R := fun init _ => Expr.handlesOpt init = []) fun _ _ => he) h
      · exact bind (pure (R := fun init _ => Expr.handlesOpt init = []) fun _ _ => rfl) h
    -- the field, once its initializer is read, then the next name
    intro init hinit
    dsimp only [afterInit]
    have hkind : (NodeKind.field ⟨{ base with dims := base.dims ++ dims }, mods, init⟩).AliveIn
        u i m := by
      refine NodeKind.aliveIn_of_handles rfl rfl fun r hr => hbase r ?_
      obtain ⟨name, ref, args, bdims⟩ := base
      simp only [NodeKind.handles, Ty.handles_mk, Expr.handlesDims_append, hdims, hinit,
        List.append_nil] at hr ⊢
      exact hr
    refine bind_raise (lift (Step.keepsAlive_add _ _ _ hkind)) fun id s hs hid =>
      bind (lift (Step.keepsAlive_here _)) fun d hd => ?_
    subst hd
    refine bind (lift Step.keepsAlive_view) fun _ _ => ?_
    refine bind (lift (Step.keepsAlive_emitRef_here _ _ hid _)) fun _ _ => ?_
    refine bind (quiet (quiet_expect _ _)) fun _ _ => bind (lift (Step.keepsAlive_emit _ _)) fun _ _ => ?_
    split
    · exact pure fun _ _ => trivial
    · exact bind (quiet (quiet_expectIdent _)) fun name' _ =>
        ih s name' (hu.mono hs) fun r hr => (hbase r hr).mono hs

theorem keepsAlive_argumentFlags (fuel : Nat) :
    ∀ acc, Parse.KeepsAlive u i m (argumentFlags fuel acc) fun _ _ => True := by
  induction fuel with
  | zero => exact fun _ => keepsAlive_tooDeep
  | succ fuel ih =>
    intro acc
    rw [argumentFlags]
    refine bind (quiet quiet_peek) fun _ _ => ?_
    split
    · exact pure fun _ _ => trivial
    · exact bind (quiet quiet_next) fun _ _ => bind (lift (Step.keepsAlive_emit _ _)) fun _ _ => ih _

theorem keepsAlive_arguments (owner method fuel : Nat) :
    ∀ m args, u.Sound i m → Parse.KeepsAlive u i m (arguments owner method fuel args)
      fun _ _ => True := by
  induction fuel with
  | zero =>
    intro _ _ _
    rw [arguments]
    exact keepsAlive_tooDeep
  | succ fuel ih =>
    intro m args hu
    rw [arguments]
    refine bind (quiet (quiet_accept _)) fun _ _ => ?_
    split
    · -- `...` ends the list
      refine bind (lift (Step.keepsAlive_emit _ _)) fun _ _ => ?_
      exact bind (quiet (quiet_expect _ _)) fun _ _ => bind (lift (Step.keepsAlive_emit _ _))
        fun _ _ => pure fun _ _ => trivial
    refine bind (quiet quiet_fuel) fun _ _ => bind (keepsAlive_argumentFlags _ _) fun _ _ => ?_
    refine bind_raise (keepsAlive_compoundType hu _) fun ty s hs hty => ?_
    extract_lets named
    -- an argument with a name: a local of its type, with its default value
    have hnamed : ∀ x, Parse.KeepsAlive u i s (named x) fun _ _ => True := by
      intro x
      dsimp -zeta only [named]
      refine bind (quiet (quiet_expectIdent _)) fun _ _ => ?_
      refine bind_raise (lift (Step.keepsAlive_alloc _ _ _ (NodeKind.aliveIn_of_handles rfl rfl
        (by simpa [NodeKind.handles] using hty)))) fun arg s' hs' harg => ?_
      refine bind (lift (Step.keepsAlive_here _)) fun d hd => ?_
      subst hd
      refine bind (lift (Step.keepsAlive_emitRef_here _ _ harg _)) fun _ _ => ?_
      refine bind (quiet (quiet_accept _)) fun _ _ => ?_
      extract_lets args' rest
      have hrest : ∀ s'', s' ≤ s'' → ∀ x, Parse.KeepsAlive u i s'' (rest x) fun _ _ => True := by
        intro s'' hs'' x
        dsimp only [rest]
        refine bind (quiet (quiet_expect _ _)) fun _ _ => bind (lift (Step.keepsAlive_emit _ _))
          fun _ _ => ?_
        split
        · exact pure fun _ _ => trivial
        · exact ih s'' _ (((hu.mono hs).mono hs').mono hs'')
      split
      · refine bind (lift (Step.keepsAlive_emit _ _)) fun _ _ => ?_
        refine bind (keepsAlive_expression _) fun _ hv => ?_
        exact bind_raise (lift (Step.keepsAlive_add _ _ _
          (NodeKind.aliveIn_of_plain rfl rfl (by simp [NodeKind.handles, hv])))) fun _ s'' hs'' _ =>
            hrest s'' hs'' ()
      · exact hrest s' (Nat.le_refl _) ()
    split
    · refine bind (quiet (quiet_accept _)) fun _ _ => ?_
      split
      · exact bind (lift (Step.keepsAlive_emit _ _)) fun _ _ => pure fun _ _ => trivial
      · exact hnamed ()
    · exact hnamed ()

theorem keepsAlive_method (owner : Nat) {returns : List Ty}
    (hret : ∀ r ∈ Ty.handlesList returns, u.Live i m r) (name : Token) (mods : Modifiers)
    (hu : u.Sound i m) : Parse.KeepsAlive u i m (method owner returns name mods) fun _ _ => True := by
  unfold method
  refine bind (quiet (quiet_expect _ _)) fun _ _ => bind (lift (Step.keepsAlive_emit _ _)) fun _ _ => ?_
  refine bind_raise (lift (Step.keepsAlive_alloc _ _ _ (NodeKind.aliveIn_of_handles rfl rfl hret)))
    fun id s hs hid => bind (lift (Step.keepsAlive_here _)) fun d hd => ?_
  subst hd
  refine bind (lift Step.keepsAlive_view) fun _ _ => ?_
  refine bind (lift (Step.keepsAlive_emitRef_here _ _ hid _)) fun _ _ => ?_
  refine bind (quiet (quiet_accept _)) fun _ _ => ?_
  extract_lets afterArgs
  suffices h : ∀ sig, Parse.KeepsAlive u i s (afterArgs sig) fun _ _ => True by
    split
    · exact bind (lift (Step.keepsAlive_emit _ _)) fun _ _ =>
        bind (pure (R := fun _ _ => True) fun _ _ => trivial) fun _ _ => h _
    · exact bind (quiet quiet_fuel) fun _ _ =>
        bind (keepsAlive_arguments _ _ _ _ _ (hu.mono hs)) fun _ _ => h _
  intro sig
  dsimp -zeta only [afterArgs]
  refine bind (quiet (quiet_acceptKeyword _)) fun _ _ => ?_
  extract_lets afterConst
  suffices h : ∀ isConst, Parse.KeepsAlive u i s (afterConst isConst) fun _ _ => True by
    split
    · exact bind (lift (Step.keepsAlive_emit _ _)) fun _ _ =>
        bind (pure (R := fun _ _ => True) fun _ _ => trivial) fun _ _ => h _
    · exact bind (pure (R := fun _ _ => True) fun _ _ => trivial) fun _ _ => h _
  intro isConst
  dsimp -zeta only [afterConst]
  refine bind (quiet (quiet_accept _)) fun _ _ => ?_
  extract_lets afterBody afterWarning
  -- the signature is complete: the method keeps its return types, and is listed in its owner
  suffices h : ∀ body, Parse.KeepsAlive u i s (afterBody body) fun _ _ => True by
    split
    · refine bind (lift (Step.keepsAlive_emit _ _)) fun _ _ => ?_
      have hw : ∀ x, Parse.KeepsAlive u i s (afterWarning x) fun _ _ => True :=
        fun _ => bind (pure (R := fun _ _ => True) fun _ _ => trivial) fun _ _ => h _
      split
      · exact hw ()
      · exact bind (lift (Step.keepsAlive_warn _ _)) fun _ _ => hw ()
    · refine bind (quiet (quiet_check _)) fun _ _ => ?_
      split
      · exact bind (keepsAlive_bracedBody _) fun _ _ =>
          bind (pure (R := fun _ _ => True) fun _ _ => trivial) fun _ _ => h _
      · exact bind (keepsAlive_unexpected (R := fun _ _ => False) _) fun _ h => h.elim
  intro body
  dsimp only [afterBody]
  refine bind (lift (Step.keepsAlive_modifyKind id fun k n _ hk => ?_)) fun _ _ =>
    lift (Step.keepsAlive_attach _ _)
  split
  · exact ⟨hk.handles, hk.self, hk.included⟩
  · exact hk

/-- A field or a method. -/
theorem keepsAlive_member (owner : Nat) (hu : u.Sound i m) :
    Parse.KeepsAlive u i m (member owner) fun _ _ => True := by
  unfold member
  refine bind (quiet quiet_fuel) fun _ _ => bind (keepsAlive_memberFlags _ _) fun _ _ => ?_
  refine bind_raise (keepsAlive_compoundType hu _) fun first s hs hfirst => ?_
  refine bind (quiet quiet_fuel) fun _ _ => ?_
  refine bind_raise (keepsAlive_moreTypes _ _ (hu.mono hs)) fun more s' hs' hmore => ?_
  dsimp only
  refine bind (quiet (quiet_expectIdent _)) fun _ _ => bind (quiet (quiet_check _)) fun _ _ => ?_
  have hfirst' : ∀ r ∈ first.handles, u.Live i s' r := fun r hr => (hfirst r hr).mono hs'
  split
  · refine keepsAlive_method owner (fun r hr => ?_) _ _ ((hu.mono hs).mono hs')
    rcases List.mem_append.1 (Ty.handlesList_cons first more ▸ hr) with hr | hr
    · exact hfirst' r hr
    · exact hmore r hr
  -- a field declaration names one type
  split
  · exact throw_bind
  · exact bind (quiet quiet_fuel) fun _ _ =>
      keepsAlive_fieldNames _ _ _ _ _ _ ((hu.mono hs).mono hs') hfirst'

/-- The items of a type's body, whose nested structs are read by a body reader that keeps the
    file alive. -/
theorem keepsAlive_items {nested : Nat → ExceptT ParseError Step Unit}
    (hn : ∀ id, Step.TripleIn u (fun w => Alive u i m w.file) (nested id).run
      (Outcome (fun _ w => True ∧ Alive u i m w.file) fun w => Alive u i m w.file))
    (hu : u.Sound i m) (owner fuel : Nat) :
    Parse.KeepsAlive u i m (items nested owner fuel) fun _ _ => True := by
  induction fuel with
  | zero =>
    rw [items]
    exact keepsAlive_tooDeep
  | succ fuel ih =>
    rw [items]
    refine bind (quiet quiet_peek) fun _ _ => ?_
    -- no token left ends the body; otherwise one item is read
    split
    rotate_left
    · exact pure fun _ _ => trivial
    extract_lets next block
    have item : ∀ {x : Parse Unit}, Parse.KeepsAlive u i m x (fun _ _ => True) →
        Parse.KeepsAlive u i m (x >>= next) fun _ _ => True :=
      fun h => bind h fun _ _ => ih
    split
    · exact bind (quiet quiet_next) fun _ _ => item (lift (Step.keepsAlive_emit _ _))
    · split
      · exact bind (quiet quiet_next) fun _ _ =>
          item (discard (Declarations.keepsAlive_enumDecl hu _ owner))
      split
      · -- a nested struct, whose own body is read at once
        exact bind (quiet quiet_next) fun _ _ => bind (Declarations.keepsAlive_structDecl _ owner)
          fun id _ => item (exceptLift (hn id))
      refine bind (quiet (quiet_peekAt _)) fun _ _ => ?_
      split
      · exact bind (quiet quiet_next) fun _ _ =>
          item (discard (Declarations.keepsAlive_constantDecl _ owner))
      split
      · exact bind (quiet quiet_next) fun _ _ => item (keepsAlive_property _ owner)
      split
      · -- `flagdef` and `mixin` are skipped
        refine bind (quiet quiet_next) fun _ _ => bind (lift (Step.keepsAlive_emit _ _)) fun _ _ => ?_
        refine bind (quiet (quiet_balanced _)) fun _ _ => ?_
        exact bind (quiet (quiet_expect _ _)) fun _ _ => item (lift (Step.keepsAlive_emit _ _))
      split
      · -- so are `default` and `states` blocks
        refine bind (quiet quiet_next) fun _ _ => bind (lift (Step.keepsAlive_emit _ _)) fun _ _ => ?_
        refine bind (quiet (quiet_accept _)) fun _ _ => ?_
        have hblock : ∀ x, Parse.KeepsAlive u i m (block x) fun _ _ => True :=
          fun _ => bind (keepsAlive_bracedBody _) fun _ _ => ih
        split
        · refine bind (lift (Step.keepsAlive_emit _ _)) fun _ _ => ?_
          refine bind (quiet (quiet_balanced _)) fun _ _ => ?_
          exact bind (quiet (quiet_expect _ _)) fun _ _ => bind (lift (Step.keepsAlive_emit _ _))
            fun x _ => hblock x
        · exact hblock ()
      · exact item (keepsAlive_member owner hu)
    · exact item (keepsAlive_member owner hu)

/-- Reading a type's body keeps the file alive at every depth of nesting, above every floor of
    a universe fit for it. -/
theorem keepsAlive_body (depth : Nat) :
    ∀ owner m, u.Sound i m → Step.KeepsAliveRun u i m (body depth owner) := by
  induction depth with
  | zero =>
    intro owner m _
    rw [body]
    exact Step.TripleIn.except_bind (Step.TripleIn.except_lift Step.keepsAlive_tree) fun _ =>
      Step.TripleIn.except_throw.pre fun _ hw => hw.2
  | succ depth ih =>
    intro owner m hu
    rw [body]
    refine Step.TripleIn.except_bind (Step.TripleIn.except_lift Step.keepsAlive_tree_alive)
      fun t => Step.TripleIn.except_raise (R := fun s => t.size = s ∧
        ∀ id node, t.get? id = some node → node.kind.AliveIn u i s) fun s hs ht => ?_
    split
    · next node hg =>
      split
      · next info hi =>
        -- the body leaves the type, which keeps its `self`
        have hself : ∀ x ∈ info.selfVar, x < s := fun x hx =>
          (ht.2 owner node hg).self x (by rwa [NodeKind.selfVar?_of_typeInfo? hi])
        refine Step.TripleIn.except_bind (Step.TripleIn.except_lift (Step.keepsAlive_modifyKind owner
          fun k n hn hk => hk.setTypeInfo fun x hx => Nat.lt_of_lt_of_le (hself x hx) hn)) fun _ => ?_
        refine Step.TripleIn.except_bind
          (Step.TripleIn.pre (Step.TripleIn.except_lift (keepsAlive_selfVar (hu.mono hs) owner))
            fun _ h => h.2) fun _ => ?_
        exact Step.TripleIn.pre (Parse.TripleIn.runOn
          (keepsAlive_items (fun id => ih id s (hu.mono hs)) (hu.mono hs) owner _) _)
          fun _ h => h.2
      · exact Step.TripleIn.except_pure fun _ hw => ⟨trivial, hw⟩
    · exact Step.TripleIn.except_pure fun _ hw => ⟨trivial, hw⟩

end Members

/-- Reading the bodies of the types `owners` keeps the file alive; a failure stops the file. -/
theorem Analysis.keepsAlive_addMembers_go {u : Universe} {i m : Nat} (hu : u.Sound i m)
    (owners : List Nat) : Step.KeepsAlive u i m (addMembers.go owners) fun _ _ => True := by
  induction owners with
  | nil => exact Step.KeepsAlive.pure fun _ _ => trivial
  | cons o rest ih =>
    rw [addMembers.go]
    refine Step.KeepsAlive.bind Step.keepsAlive_current fun _ _ => ?_
    refine Step.TripleIn.bind (Members.keepsAlive_body _ o m hu) fun r => ?_
    split
    · exact Step.TripleIn.pre ih fun _ h => h.2
    · exact Step.keepsAlive_fail _

/-- The members phase keeps a file alive in a universe fit for it. -/
theorem Analysis.keepsAlive_addMembers {u : Universe} {i m : Nat} (hu : u.Sound i m) :
    Step.KeepsAlive u i m addMembers fun _ _ => True := by
  unfold addMembers
  refine Step.KeepsAlive.bind Step.keepsAlive_current fun _ _ => ?_
  split
  · exact Step.KeepsAlive.pure fun _ _ => trivial
  · exact keepsAlive_addMembers_go hu _

/-! ## Fresh analyses -/

/-- The universe a skeleton is read in sees nothing, and is fit for every file. -/
theorem Universe.sound_empty (i n : Nat) : ({} : Universe).Sound i n := by
  refine ⟨fun k d h => ?_, fun k d h => ?_, fun e he => ?_, fun j t ht => ?_, fun j t ht => ?_⟩
  all_goals simp_all

namespace Alive

variable {u : Universe} {i m : Nat} {a : Analysis}

/-- A file with no node but the root and no semantic token is alive. -/
theorem fresh (u : Universe) (file : Nat) (T : List Token) :
    Alive u file 0 ({ file, tokens := T } : Analysis) := by
  refine ⟨rfl, Nat.zero_le _, fun s hs => by simp at hs, fun id node hg => ?_⟩
  -- the only node is the root
  simp only [Tree.empty, Tree.get?, List.getElem?_toArray, List.getElem?_singleton,
    Option.ite_none_right_eq_some, Option.some.injEq] at hg
  obtain ⟨-, rfl⟩ := hg
  exact NodeKind.aliveIn_of_plain rfl rfl rfl

/-- Semantic tokens that name nothing keep the analysis alive. -/
theorem append_plain (h : Alive u i m a) {ss : Array SemanticToken}
    (hs : ∀ s ∈ ss, s.ref = none) : Alive u i m { a with semantic := a.semantic ++ ss } := by
  refine ⟨h.file, h.size, fun s hs' r hr => ?_, h.nodes⟩
  rcases Array.mem_append.1 hs' with hs' | hs'
  · exact h.semantic s hs' r hr
  · rw [hs s hs'] at hr
    cases hr

theorem tagComments (h : Alive u i m a) : Alive u i m a.tagComments :=
  h.append_plain fun s hs => by
    obtain ⟨t, -, rfl⟩ := Array.mem_map.1 hs
    rfl

theorem tagAnomalies (h : Alive u i m a) : Alive u i m a.tagAnomalies :=
  h.append_plain fun s hs => by
    obtain ⟨t, -, rfl⟩ := Array.mem_map.1 hs
    rfl

end Alive

/-- Reading the skeleton of a text leaves a file whose every handle names one of its own nodes,
    whatever the work and the universe it starts from: the skeleton is read in the empty
    universe, from a fresh analysis, and whether the reading succeeds or stops at an error. -/
theorem Analysis.keepsAlive_skeleton (file : Nat) (text : String) :
    Step.Triple (fun _ => True) (Analysis.skeleton file text)
      fun _ w => Alive {} file 0 w.file := by
  unfold Analysis.skeleton
  intro u
  refine Step.TripleIn.withReader (P := fun _ => True) (Q := fun _ w => Alive {} file 0 w.file) ?_ u
  refine Step.TripleIn.bind (Q := fun _ w => Alive {} file 0 w.file)
    (fun _ _ => (Alive.fresh _ _ _).tagComments) fun _ => ?_
  refine Step.TripleIn.bind (Q := fun _ w => Alive {} file 0 w.file) (fun w hw => ?_) fun r => ?_
  · exact (Parse.outcome_same (I := fun w => Alive {} file 0 w.file)).1
      (Outcome.imp (fun _ _ => And.right) (fun _ => id) _ _
        (Declarations.keepsAlive_items (Universe.sound_empty file 0) _ true (Cursor.ofList _) w hw))
  -- what follows records the error, if any, and tags the anomalies
  have hrest : Step.KeepsAlive {} file 0 (do
      Step.change Analysis.tagAnomalies
      let a ← Step.current
      Step.log .debug .declarations ("file " ++ toString file ++ ": " ++
        toString a.tokens.length ++ " tokens, " ++ toString a.tree.declarations.length ++
        " declarations")) fun _ _ => True :=
    Step.KeepsAlive.bind (V := fun _ => True) (fun _ hw => ⟨trivial, hw.tagAnomalies⟩) fun _ _ =>
      Step.KeepsAlive.bind Step.keepsAlive_current fun _ _ => Step.keepsAlive_log _ _ _
  refine Step.TripleIn.post (Q := fun _ w => True ∧ Alive {} file 0 w.file) ?_ fun _ _ => And.right
  dsimp only
  split
  · exact hrest
  · exact Step.KeepsAlive.bind (Step.keepsAlive_fail _) fun _ _ => hrest

end ZScript
