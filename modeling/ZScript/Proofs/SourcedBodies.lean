import ZScript.Proofs.SourcedReaders

/-!
# Reading method bodies keeps a file sourced

The last two phases link classes and read what the first two stored: they tag the expressions
kept in constants, enums, fields and argument defaults, and read every method body from its
stored tokens. Each expression they tag keeps its tokens, each node they add holds tokens of the
cursor they read, and the type names they look at again are copies of semantic tokens the file
already has; so both phases keep the file sourced in its tokens (`Analysis.sourced_link`,
`Analysis.sourced_addBodies`).

The statement readers are mutually recursive on their fuel: `Bodies.SourcedAt fuel` bundles one
fact per reader, proved for every fuel from the facts at the fuel below.
-/

namespace ZScript

namespace Bodies

open Parse Parse.Sourced

variable {T : List Token}

theorem sourced_require (inFor : Bool) (f : Form) (t : Token) :
    Parse.Sourced T (require inFor f t) fun _ => True := by
  unfold require
  split
  · exact pure trivial
  · exact throw

theorem sourced_scopeAt (node owner : Nat) : Step.Sourced T (scopeAt node owner) fun _ => True :=
  Step.Sourced.bind (Step.sourced_here _) fun _ _ => Step.Sourced.pure trivial

theorem sourced_place (parent : Nat) (name : String) (line : Nat) {kind : NodeKind}
    (hk : kind.tokens ⊆ T) : Step.Sourced T (place parent name line kind) fun _ => True := by
  unfold place
  refine Step.Sourced.bind Step.sourced_tree fun _ _ => ?_
  split
  · exact Step.sourced_add _ _ _ hk
  · exact Step.sourced_alloc _ _ _ hk

/-- An expression read and tagged from a cursor over `T` stores tokens of `T` only. -/
theorem sourced_tagged (stop : List TokenKind) (scope : Scope) :
    Parse.Sourced T (tagged stop scope) fun e => e.tokens ⊆ T :=
  bind (sourced_expression _) fun _ he => lift ((Expr.sourced_tag he scope).mono fun _ h => h ▸ he)

/-- Tagging an expression that may be missing keeps its tokens. -/
theorem sourced_tagOpt (scope : Scope) : ∀ v : Option Expr, (v.map Expr.tokens).getD [] ⊆ T →
    Step.Sourced T (v.mapM (Expr.tag · scope))
      fun v' => (v'.map Expr.tokens).getD [] = (v.map Expr.tokens).getD []
  | none, _ => Step.Sourced.pure rfl
  | some e, h => Step.Sourced.bind (Expr.sourced_tag (by simpa using h) scope) fun _ he =>
      Step.Sourced.pure (by simpa using he)

/-- Tagging the dimensions of a type keeps their tokens. -/
theorem sourced_tagDims : ∀ (dims : List (Option Expr)), Expr.dimTokens dims ⊆ T → ∀ scope,
    Step.Sourced T (tagDims dims scope) fun ds => Expr.dimTokens ds = Expr.dimTokens dims
  | [], _, _ => Step.Sourced.pure rfl
  | d :: ds, h, scope => by
    unfold tagDims
    rw [Expr.dimTokens_cons, List.append_subset] at h
    rw [List.mapM_cons]
    exact Step.Sourced.bind (sourced_tagOpt scope d h.1) fun d' hd =>
      Step.Sourced.bind (sourced_tagDims ds h.2 scope) fun ds' hds =>
        Step.Sourced.pure (by rw [Expr.dimTokens_cons, Expr.dimTokens_cons, hd, hds])

/-- An attempt that fails goes back to where it started. -/
theorem sourced_attempt {α : Type} {x : Parse α} {V : α → Prop} (h : Parse.Sourced T x V) :
    Parse.Sourced T (attempt x) fun o => ∀ a ∈ o, V a :=
  tryCatch (map some h fun _ ha _ h => Option.mem_some_iff.1 h ▸ ha) fun _ => pure fun _ h => by cases h

/-- The declarators of a local declaration whose type has no dimensions of its own. -/
theorem sourced_declarators (parent owner : Nat) {base : Ty} (hbase : base.dims = [])
    (const : Bool) (scope : Scope) :
    ∀ fuel name acc, name ∈ T → Parse.Sourced T (declarators parent owner base const scope fuel name acc)
      fun _ => True
  | 0, _, _, _ => by
    rw [declarators]
    exact sourced_tooDeep
  | fuel + 1, name, acc, hname => by
    rw [declarators]
    refine bind sourced_fuel fun _ _ => bind (sourced_dimensions _) fun _ hdims => ?_
    refine bind (lift (sourced_tagDims _ (by simpa [hbase] using hdims) scope)) fun dims hdims' => ?_
    replace hdims' : Expr.dimTokens dims ⊆ T := by simpa [hdims', hbase] using hdims
    refine bind (sourced_accept _) fun _ ha => ?_
    extract_lets flags jp
    -- the local, once its initializer is read
    have hjp : ∀ init : Option Expr, (∀ e ∈ init, e.tokens ⊆ T) →
        Parse.Sourced T (jp init) fun _ => True := by
      intro init hinit
      dsimp -zeta only [jp]
      refine bind (lift (sourced_place _ _ _ (by simpa [NodeKind.tokens] using hdims'))) fun id _ => ?_
      extract_lets acc' jp'
      have hjp' : ∀ u, Parse.Sourced T (jp' u) fun _ => True := by
        intro u
        dsimp only [jp']
        refine bind (lift (Step.sourced_here _)) fun _ _ => ?_
        refine bind (lift (Step.sourced_emitRef hname _ _ _)) fun _ _ => ?_
        refine bind (sourced_accept _) fun _ hc => ?_
        split
        · refine bind (lift (Step.sourced_emit (hc _ rfl) _)) fun _ _ => ?_
          exact bind (sourced_expectIdent _) fun name' hname' =>
            sourced_declarators parent owner hbase const scope fuel name' _ hname'
        · exact pure trivial
      split
      · next value =>
        exact bind (lift (Step.sourced_add _ _ _ (by simpa [NodeKind.tokens] using hinit value rfl)))
          fun _ _ => hjp' ()
      · exact hjp' ()
    split
    · split
      · exact bind (throw (V := fun _ => False)) fun _ hf => hf.elim
      · refine bind (lift (Step.sourced_emit (ha _ rfl) _)) fun _ _ => ?_
        exact bind (sourced_tagged _ _) fun _ he =>
          bind (pure (V := fun init : Option Expr => ∀ e ∈ init, e.tokens ⊆ T)
            fun _ h => Option.mem_some_iff.1 h ▸ he) hjp
    · exact bind (pure (V := fun init : Option Expr => ∀ e ∈ init, e.tokens ⊆ T)
        fun _ h => by cases h) hjp

/-- A declaration is read, or nothing is: the cursor goes back to where it was, over `T`. -/
theorem sourced_declaration (parent owner : Nat) (inBlock : Bool) :
    Parse.Sourced T (declaration parent owner inBlock) fun _ => True := by
  unfold declaration
  refine bind get fun start hstart => bind (lift Step.sourced_mark) fun _ _ => ?_
  refine bind (sourced_acceptKeyword _) fun _ hconst => ?_
  refine bind (sourced_attempt (sourced_compoundType _)) fun _ hbase => ?_
  refine bind (sourced_check _) fun _ _ => bind (sourced_peekAt _) fun _ _ => ?_
  extract_lets follows
  generalize follows = f
  split
  · next base =>
    extract_lets jp
    -- the declarators, once a `const` is tagged
    have hjp : ∀ u, Parse.Sourced T (jp u) fun _ => True := by
      intro u
      dsimp only [jp]
      refine bind (lift (sourced_scopeAt _ _)) fun _ _ => bind sourced_fuel fun _ _ => ?_
      refine bind (sourced_expectIdent _) fun _ hname => ?_
      refine bind (sourced_declarators _ _ (hbase base rfl) _ _ _ _ _ hname) fun _ _ => ?_
      split
      · exact bind (sourced_semicolon _) fun _ _ => pure trivial
      · exact pure trivial
    split
    · exact bind (lift (Step.sourced_emit (hconst _ rfl) _)) fun u _ => hjp u
    · exact hjp ()
  · exact bind (set hstart) fun _ _ => bind (lift (Step.sourced_rollback _)) fun _ _ => pure trivial

theorem sourced_letDeclarators (parent : Nat) (scope : Scope) :
    ∀ fuel acc, Parse.Sourced T (letDeclarators parent scope fuel acc) fun _ => True
  | 0, _ => by
    rw [letDeclarators]
    exact sourced_tooDeep
  | fuel + 1, acc => by
    rw [letDeclarators]
    refine bind (sourced_expectIdent _) fun _ hname => bind (sourced_expect _ _) fun _ ha => ?_
    refine bind (lift (Step.sourced_emit ha _)) fun _ _ => bind (sourced_tagged _ _) fun _ hv => ?_
    refine bind (lift (sourced_place _ _ _ (by simp [NodeKind.tokens]))) fun _ _ => ?_
    refine bind (lift (Step.sourced_add _ _ _ (by simpa [NodeKind.tokens] using hv))) fun _ _ => ?_
    refine bind (lift (Step.sourced_here _)) fun _ _ => ?_
    refine bind (lift (Step.sourced_emitRef hname _ _ _)) fun _ _ => ?_
    refine bind (sourced_accept _) fun _ hc => ?_
    split
    · exact bind (lift (Step.sourced_emit (hc _ rfl) _)) fun _ _ =>
        sourced_letDeclarators parent scope fuel _
    · exact pure trivial

theorem sourced_letStatement (parent owner : Nat) (inBlock : Bool) :
    Parse.Sourced T (letStatement parent owner inBlock) fun _ => True := by
  unfold letStatement
  refine bind (lift (sourced_scopeAt _ _)) fun _ _ => bind sourced_fuel fun _ _ => ?_
  refine bind (sourced_letDeclarators _ _ _ _) fun _ _ => ?_
  split
  · exact bind (sourced_semicolon _) fun _ _ => pure trivial
  · exact pure trivial

theorem sourced_expressionStatement (parent owner : Nat) (inBlock : Bool) :
    Parse.Sourced T (expressionStatement parent owner inBlock) fun _ => True := by
  unfold expressionStatement
  dsimp only
  refine bind (lift (sourced_scopeAt _ _)) fun _ _ => bind (sourced_tagged _ _) fun _ he => ?_
  refine bind (lift (sourced_place _ _ _ (by simpa [NodeKind.tokens] using he))) fun _ _ => ?_
  split
  · exact bind (sourced_semicolon _) fun _ _ => pure trivial
  · exact pure trivial

theorem sourced_condition (scope : Scope) :
    Parse.Sourced T (condition scope) fun e => e.tokens ⊆ T :=
  bind (sourced_expect _ _) fun _ ho => bind (lift (Step.sourced_emit ho _)) fun _ _ =>
    bind (sourced_tagged _ _) fun _ he => bind (sourced_expect _ _) fun _ hc =>
      bind (lift (Step.sourced_emit hc _)) fun _ _ => pure he

theorem sourced_returnValues (id : Nat) (scope : Scope) :
    ∀ fuel, Parse.Sourced T (returnValues id scope fuel) fun _ => True := by
  intro fuel
  induction fuel with
  | zero =>
    rw [returnValues]
    exact sourced_tooDeep
  | succ fuel ih =>
    rw [returnValues]
    refine bind (sourced_tagged _ _) fun _ he => ?_
    refine bind (lift (Step.sourced_add _ _ _ (by simpa [NodeKind.tokens] using he))) fun _ _ => ?_
    refine bind (sourced_accept _) fun _ hc => ?_
    split
    · exact bind (lift (Step.sourced_emit (hc _ rfl) _)) fun _ _ => ih
    · exact pure trivial

theorem sourced_returnStatement (keyword : Token) (parent owner : Nat) :
    Parse.Sourced T (returnStatement keyword parent owner) fun _ => True := by
  unfold returnStatement
  refine bind (lift (sourced_place _ _ _ (by simp [NodeKind.tokens]))) fun _ _ => ?_
  refine bind (lift (sourced_scopeAt _ _)) fun _ _ => bind (sourced_check _) fun _ _ => ?_
  extract_lets jp
  have hjp : ∀ u, Parse.Sourced T (jp u) fun _ => True :=
    fun _ => bind (sourced_semicolon _) fun _ _ => pure trivial
  split
  · exact hjp ()
  · exact bind sourced_fuel fun _ _ => bind (sourced_returnValues _ _ _) fun u _ => hjp u

theorem sourced_jump (keyword : Token) (parent : Nat) :
    Parse.Sourced T (jump keyword parent) fun _ => True := by
  unfold jump
  refine bind (lift Step.sourced_tree) fun _ _ => ?_
  dsimp only
  split
  · refine bind (lift (sourced_place _ _ _ (by simp [NodeKind.tokens]))) fun _ _ => ?_
    exact bind (sourced_semicolon _) fun _ _ => pure trivial
  · exact bind (throw (V := fun _ => False)) fun _ hf => hf.elim

theorem sourced_steps (scope : Scope) :
    ∀ fuel, Parse.Sourced T (steps scope fuel) fun es => es.flatMap Expr.tokens ⊆ T := by
  intro fuel
  induction fuel with
  | zero =>
    rw [steps]
    exact sourced_tooDeep
  | succ fuel ih =>
    rw [steps]
    refine bind (sourced_tagged _ _) fun _ he => bind (sourced_accept _) fun _ hc => ?_
    split
    · exact bind (lift (Step.sourced_emit (hc _ rfl) _)) fun _ _ =>
        bind ih fun _ hs => pure (by simpa using ⟨he, hs⟩)
    · exact pure (by simpa using he)

/-! ## The statement readers -/

/-- One fact for each of the mutually recursive statement readers at `fuel`: each keeps the
    file sourced in `T`. -/
structure SourcedAt (T : List Token) (fuel : Nat) : Prop where
  statement : ∀ p owner inFor, Parse.Sourced T (statement p owner inFor fuel) fun _ => True
  statements : ∀ block owner closer,
    Parse.Sourced T (statements block owner closer fuel) fun _ => True
  blockOrLine : ∀ p owner, Parse.Sourced T (blockOrLine p owner fuel) fun _ => True
  ifStatement : ∀ keyword p owner, Parse.Sourced T (ifStatement keyword p owner fuel) fun _ => True
  initializers : ∀ id owner, Parse.Sourced T (initializers id owner fuel) fun _ => True
  forStatement : ∀ keyword p owner, Parse.Sourced T (forStatement keyword p owner fuel) fun _ => True
  whileStatement : ∀ keyword p owner,
    Parse.Sourced T (whileStatement keyword p owner fuel) fun _ => True
  doStatement : ∀ keyword p owner, Parse.Sourced T (doStatement keyword p owner fuel) fun _ => True

theorem sourcedAt_zero : SourcedAt T 0 where
  statement _ _ _ := by
    rw [statement]
    exact sourced_tooDeep
  statements _ _ _ := by
    rw [statements]
    exact sourced_tooDeep
  blockOrLine _ _ := by
    rw [blockOrLine]
    exact sourced_tooDeep
  ifStatement _ _ _ := by
    rw [ifStatement]
    exact sourced_tooDeep
  initializers _ _ := by
    rw [initializers]
    exact sourced_tooDeep
  forStatement _ _ _ := by
    rw [forStatement]
    exact sourced_tooDeep
  whileStatement _ _ _ := by
    rw [whileStatement]
    exact sourced_tooDeep
  doStatement _ _ _ := by
    rw [doStatement]
    exact sourced_tooDeep

section Step

variable {fuel : Nat} (ih : SourcedAt T fuel)
include ih

theorem SourcedAt.sourced_statement (p owner : Nat) (inFor : Bool) :
    Parse.Sourced T (Bodies.statement p owner inFor (fuel + 1)) fun _ => True := by
  rw [Bodies.statement]
  refine bind (lift Step.sourced_tree) fun _ _ => ?_
  dsimp only
  refine bind sourced_peek fun _ hpeek => ?_
  split
  · next t =>
    have ht : t ∈ T := hpeek t rfl
    split
    · split
      · exact bind sourced_next fun _ _ => bind (lift (Step.sourced_emit ht _)) fun _ _ =>
          pure trivial
      · exact bind (sourced_require _ _ _) fun _ _ => sourced_expressionStatement _ _ _
    · exact bind (sourced_require _ _ _) fun _ _ => bind (ih.blockOrLine p owner) fun _ _ =>
        pure trivial
    · split
      · -- a statement keyword, tagged before the statement it starts
        refine bind (sourced_require _ _ _) fun _ _ => bind sourced_next fun _ _ => ?_
        refine bind (lift (Step.sourced_emit ht _)) fun _ _ => ?_
        split
        · exact ih.ifStatement _ p owner
        · exact ih.forStatement _ p owner
        · exact ih.whileStatement _ p owner
        · exact ih.doStatement _ p owner
        · exact sourced_returnStatement _ p owner
        · exact sourced_jump _ p
        · exact sourced_jump _ p
        · exact sourced_letStatement p owner _
      · -- a declaration when the tokens read as one, else an expression
        split
        · exact bind (throw (V := fun _ => False)) fun _ hf => hf.elim
        · refine bind (sourced_declaration p owner _) fun _ _ => ?_
          split
          · exact pure trivial
          · exact bind (sourced_require _ _ _) fun _ _ => sourced_expressionStatement _ _ _
    · exact bind (sourced_require _ _ _) fun _ _ => sourced_expressionStatement _ _ _
  · exact sourced_unexpected _

theorem SourcedAt.sourced_statements (block owner : Nat) (closer : Option TokenKind) :
    Parse.Sourced T (Bodies.statements block owner closer (fuel + 1)) fun _ => True := by
  rw [Bodies.statements]
  refine bind sourced_peek fun _ _ => ?_
  split
  · split
    · exact pure trivial
    · exact sourced_unexpected _
  · split
    · exact pure trivial
    · exact bind (ih.statement block owner false) fun _ _ => ih.statements block owner closer

theorem SourcedAt.sourced_blockOrLine (p owner : Nat) :
    Parse.Sourced T (Bodies.blockOrLine p owner (fuel + 1)) fun _ => True := by
  rw [Bodies.blockOrLine]
  refine bind sourced_peek fun _ _ => ?_
  extract_lets jp
  -- the block, once the line it starts on is known
  have hjp : ∀ line, Parse.Sourced T (jp line) fun _ => True := by
    intro line
    dsimp only [jp]
    refine bind (lift (Step.sourced_add _ _ _ (by simp [NodeKind.tokens]))) fun _ _ => ?_
    refine bind (sourced_accept _) fun _ ho => ?_
    split
    · refine bind (lift (Step.sourced_emit (ho _ rfl) _)) fun _ _ => ?_
      refine bind (ih.statements _ owner _) fun _ _ => bind (sourced_expect _ _) fun _ hc => ?_
      exact bind (lift (Step.sourced_emit hc _)) fun _ _ => pure trivial
    · exact bind (discard (ih.statement _ owner false)) fun _ _ => pure trivial
  split
  · exact hjp _
  · exact bind get fun _ _ => hjp _

theorem SourcedAt.sourced_ifStatement (keyword : Token) (p owner : Nat) :
    Parse.Sourced T (Bodies.ifStatement keyword p owner (fuel + 1)) fun _ => True := by
  rw [Bodies.ifStatement]
  refine bind (lift (sourced_scopeAt _ _)) fun _ _ => bind (sourced_condition _) fun _ hc => ?_
  refine bind (lift (sourced_place _ _ _ (by simpa [NodeKind.tokens] using hc))) fun _ _ => ?_
  refine bind (ih.blockOrLine _ owner) fun _ _ => bind (sourced_acceptKeyword _) fun _ he => ?_
  split
  · refine bind (lift (Step.sourced_emit (he _ rfl) _)) fun _ _ => ?_
    refine bind (ih.blockOrLine _ owner) fun _ _ => ?_
    -- the `else` block is recorded in the condition node, whose tokens stay
    refine bind (lift (Step.sourced_modifyKind _ fun k hk => ?_)) fun _ _ => pure trivial
    split
    · simpa [NodeKind.tokens] using hk
    · exact hk
  · exact pure trivial

theorem SourcedAt.sourced_initializers (id owner : Nat) :
    Parse.Sourced T (Bodies.initializers id owner (fuel + 1)) fun _ => True := by
  rw [Bodies.initializers]
  refine bind (ih.statement id owner true) fun _ _ => ?_
  refine bind (lift (Step.sourced_modifyKind _ fun k hk => ?_)) fun _ _ => ?_
  · split
    · simpa [NodeKind.tokens] using hk
    · exact hk
  refine bind (sourced_accept _) fun _ hc => ?_
  split
  · exact bind (lift (Step.sourced_emit (hc _ rfl) _)) fun _ _ => ih.initializers id owner
  · exact pure trivial

theorem SourcedAt.sourced_forStatement (keyword : Token) (p owner : Nat) :
    Parse.Sourced T (Bodies.forStatement keyword p owner (fuel + 1)) fun _ => True := by
  rw [Bodies.forStatement]
  refine bind (sourced_expect _ _) fun _ ho => bind (lift (Step.sourced_emit ho _)) fun _ _ => ?_
  refine bind (lift (sourced_place _ _ _ (by simp [NodeKind.tokens]))) fun id _ => ?_
  refine bind (lift (sourced_scopeAt _ _)) fun _ _ => bind (sourced_check _) fun _ _ => ?_
  extract_lets afterCond afterInits
  -- the steps and the body, once the condition is read
  have hcond : ∀ c : Option Expr, (c.map Expr.tokens).getD [] ⊆ T →
      Parse.Sourced T (afterCond c) fun _ => True := by
    intro c hc
    dsimp -zeta only [afterCond]
    refine bind (sourced_semicolon _) fun _ _ => bind (sourced_check _) fun _ _ => ?_
    extract_lets afterSteps
    have hsteps : ∀ s : List Expr, s.flatMap Expr.tokens ⊆ T →
        Parse.Sourced T (afterSteps s) fun _ => True := by
      intro s hs
      dsimp only [afterSteps]
      refine bind (sourced_expect _ _) fun _ hcl => bind (lift (Step.sourced_emit hcl _)) fun _ _ => ?_
      refine bind (lift (Step.sourced_modifyKind _ fun k hk => ?_)) fun _ _ => ?_
      · split
        · simpa [NodeKind.tokens] using ⟨hc, hs⟩
        · exact hk
      exact bind (ih.blockOrLine _ owner) fun _ _ => pure trivial
    split
    · exact bind (pure (V := fun s : List Expr => s.flatMap Expr.tokens ⊆ T) (by simp)) hsteps
    · exact bind sourced_fuel fun _ _ => bind (sourced_steps _ _) hsteps
  have hinits : ∀ u, Parse.Sourced T (afterInits u) fun _ => True := by
    intro u
    dsimp only [afterInits]
    refine bind (sourced_semicolon _) fun _ _ => bind (sourced_check _) fun _ _ => ?_
    split
    · exact bind (pure (V := fun c : Option Expr => (c.map Expr.tokens).getD [] ⊆ T) (by simp))
        hcond
    · exact bind (map some (sourced_tagged _ _)
        (W := fun c : Option Expr => (c.map Expr.tokens).getD [] ⊆ T) fun _ he => by simpa using he)
        hcond
  split
  · exact hinits ()
  · exact bind (ih.initializers id owner) fun u _ => hinits u

theorem SourcedAt.sourced_whileStatement (keyword : Token) (p owner : Nat) :
    Parse.Sourced T (Bodies.whileStatement keyword p owner (fuel + 1)) fun _ => True := by
  rw [Bodies.whileStatement]
  refine bind (lift (sourced_scopeAt _ _)) fun _ _ => bind (sourced_condition _) fun _ hc => ?_
  refine bind (lift (sourced_place _ _ _ (by simpa [NodeKind.tokens] using hc))) fun _ _ => ?_
  exact bind (ih.blockOrLine _ owner) fun _ _ => pure trivial

theorem SourcedAt.sourced_doStatement (keyword : Token) (p owner : Nat) :
    Parse.Sourced T (Bodies.doStatement keyword p owner (fuel + 1)) fun _ => True := by
  rw [Bodies.doStatement]
  refine bind (lift (sourced_place _ _ _ (by simp [NodeKind.tokens, Expr.node]))) fun _ _ => ?_
  refine bind (ih.blockOrLine _ owner) fun _ _ => bind (sourced_acceptKeyword _) fun _ hw => ?_
  split
  · refine bind (lift (Step.sourced_emit (hw _ rfl) _)) fun _ _ => ?_
    refine bind (lift (sourced_scopeAt _ _)) fun _ _ => bind (sourced_condition _) fun _ hc => ?_
    refine bind (sourced_semicolon _) fun _ _ => ?_
    -- the condition, read after the body, goes into the loop node
    refine bind (lift (Step.sourced_modifyKind _ fun k hk => ?_)) fun _ _ => pure trivial
    split
    · simpa [NodeKind.tokens] using hc
    · exact hk
  · exact sourced_unexpected _

theorem SourcedAt.succ : SourcedAt T (fuel + 1) where
  statement := ih.sourced_statement
  statements := ih.sourced_statements
  blockOrLine := ih.sourced_blockOrLine
  ifStatement := ih.sourced_ifStatement
  initializers := ih.sourced_initializers
  forStatement := ih.sourced_forStatement
  whileStatement := ih.sourced_whileStatement
  doStatement := ih.sourced_doStatement

end Step

theorem sourcedAt (T : List Token) (fuel : Nat) : SourcedAt T fuel := by
  induction fuel with
  | zero => exact sourcedAt_zero
  | succ fuel ih => exact ih.succ

/-! ## Method bodies and stored expressions -/

/-- A method body is read from the tokens stored in the method, which are in `T`; when it
    fails, its nodes are dropped and the semantic tokens made meanwhile stay. -/
theorem sourced_methodBody (owner method : Nat) :
    Step.Sourced T (methodBody owner method) fun _ => True := by
  unfold methodBody
  refine Step.Sourced.bind Step.sourced_tree fun _ ht => ?_
  split
  · next node hg =>
    split
    · next m hk =>
      split
      · next body hb =>
        have hnode := ht method node hg
        rw [hk] at hnode
        simp only [NodeKind.tokens, hb, Option.getD_some, List.append_subset] at hnode
        refine Step.Sourced.bind (Step.sourced_modifyKind _ fun _ _ => ?_) fun _ _ => ?_
        · simpa [NodeKind.tokens] using hnode.1
        refine Step.Sourced.bind Step.sourced_mark fun _ _ => ?_
        refine Step.Sourced.bind (Step.sourced_alloc _ _ _ (by simp [NodeKind.tokens])) fun _ _ => ?_
        refine Step.Triple.bind (Parse.Sourced.runOn ((sourcedAt T _).statements _ owner none)
          hnode.2) fun r => ?_
        split
        · exact Step.Triple.pre (Step.sourced_attach _ _) fun _ h => h.2
        · exact Step.Sourced.bind (Step.sourced_report _) fun _ _ => Step.sourced_discardNodes _
      · exact Step.Sourced.pure trivial
    · exact Step.Sourced.pure trivial
  · exact Step.Sourced.pure trivial

theorem sourced_tagConstant (id : Nat) (scope : Scope) :
    Step.Sourced T (tagConstant id scope) fun _ => True := by
  unfold tagConstant
  refine Step.Sourced.bind Step.sourced_tree fun _ ht => ?_
  split
  · next value hg =>
    have hv : (value.map Expr.tokens).getD [] ⊆ T := by simpa [NodeKind.tokens] using ht id _ hg
    refine Step.Sourced.bind (Step.sourced_modifyKind _ fun _ _ => by simp [NodeKind.tokens])
      fun _ _ => ?_
    -- the tagged value keeps the tokens it had
    refine Step.Sourced.bind (sourced_tagOpt scope value hv) fun _ hv' =>
      Step.sourced_modifyKind _ fun k hk => ?_
    split
    · simpa [NodeKind.tokens, hv'] using hv
    · exact hk
  · exact Step.Sourced.pure trivial

theorem sourced_tagEnum (id : Nat) : Step.Sourced T (tagEnum id) fun _ => True := by
  unfold tagEnum
  refine Step.Sourced.bind (Step.sourced_here _) fun _ _ => Step.Sourced.bind Step.sourced_tree
    fun _ _ => Step.Sourced.forIn _ _ fun _ _ _ => ?_
  exact Step.Sourced.bind (sourced_tagConstant _ _) fun _ _ => Step.Sourced.pure trivial

theorem sourced_tagField (id : Nat) (scope : Scope) :
    Step.Sourced T (tagField id scope) fun _ => True := by
  unfold tagField
  refine Step.Sourced.bind Step.sourced_tree fun _ ht => ?_
  split
  · next f hg =>
    have hf := ht id _ hg
    simp only [NodeKind.tokens, List.append_subset] at hf
    refine Step.Sourced.bind (Step.sourced_modifyKind _ fun _ _ => by simp [NodeKind.tokens])
      fun _ _ => ?_
    -- the tagged dimensions and initializer keep the tokens they had
    refine Step.Sourced.bind (sourced_tagDims _ hf.1 scope) fun _ hdims => ?_
    refine Step.Sourced.bind (sourced_tagOpt scope _ hf.2) fun _ hinit =>
      Step.sourced_modifyKind _ fun k hk => ?_
    split
    · simpa [NodeKind.tokens, hdims, hinit] using hf
    · exact hk
  · exact Step.Sourced.pure trivial

theorem sourced_tagDefaults (method : Nat) (scope : Scope) :
    Step.Sourced T (tagDefaults method scope) fun _ => True := by
  unfold tagDefaults
  refine Step.Sourced.bind Step.sourced_tree fun _ _ => ?_
  split
  · dsimp only
    refine Step.Sourced.forIn _ _ fun _ _ _ => ?_
    refine Step.Sourced.bind Step.sourced_tree fun _ _ => ?_
    refine Step.Sourced.bind (Step.Sourced.forIn _ _ fun _ _ _ => ?_) fun _ _ =>
      Step.Sourced.pure trivial
    refine Step.Sourced.bind Step.sourced_tree fun _ ht => ?_
    split
    · next e hg =>
      have he : e.tokens ⊆ T := by simpa [NodeKind.tokens] using ht _ _ hg
      refine Step.Sourced.bind (Step.sourced_modifyKind _ fun _ _ => by
        simp [NodeKind.tokens, Expr.node]) fun _ _ => ?_
      refine Step.Sourced.bind (Expr.sourced_tag he _) fun _ he' => ?_
      refine Step.Sourced.bind (Step.sourced_modifyKind _ fun k hk => ?_) fun _ _ =>
        Step.Sourced.pure trivial
      split
      · simpa [NodeKind.tokens, he'] using he
      · exact hk
    · exact Step.Sourced.pure trivial
  · exact Step.Sourced.pure trivial

theorem sourced_tagDeclarations : Step.Sourced T tagDeclarations fun _ => True := by
  unfold tagDeclarations
  refine Step.Sourced.bind Step.sourced_tree fun _ _ => ?_
  refine Step.Sourced.bind (Step.Sourced.forIn _ _ fun _ _ _ => ?_) fun _ _ => ?_
  · refine Step.Sourced.bind Step.sourced_tree fun _ _ => ?_
    split
    · exact Step.Sourced.bind (sourced_tagConstant _ _) fun _ _ => Step.Sourced.pure trivial
    · exact Step.Sourced.bind (sourced_tagEnum _) fun _ _ => Step.Sourced.pure trivial
    · exact Step.Sourced.pure trivial
  refine Step.Sourced.bind Step.sourced_tree fun _ _ => ?_
  refine Step.Sourced.bind (Step.Sourced.forIn _ _ fun _ _ _ => ?_) fun _ _ => Step.Sourced.pure trivial
  refine Step.Sourced.bind (Step.sourced_here _) fun _ _ => ?_
  refine Step.Sourced.bind Step.sourced_tree fun _ _ => ?_
  refine Step.Sourced.bind (Step.Sourced.forIn _ _ fun _ _ _ => ?_) fun _ _ => Step.Sourced.pure trivial
  refine Step.Sourced.bind Step.sourced_tree fun _ _ => ?_
  split
  · exact Step.Sourced.bind (sourced_tagField _ _) fun _ _ => Step.Sourced.pure trivial
  · exact Step.Sourced.bind (sourced_tagConstant _ _) fun _ _ => Step.Sourced.pure trivial
  · exact Step.Sourced.bind (sourced_tagEnum _) fun _ _ => Step.Sourced.pure trivial
  · exact Step.Sourced.bind (sourced_tagDefaults _ _) fun _ _ => Step.Sourced.pure trivial
  · exact Step.Sourced.pure trivial

end Bodies

/-! ## Linking and looking again -/

namespace Links

variable {T : List Token}

/-- Linking a class changes its links, never its stored body. -/
theorem sourced_linkClass (id : Nat) : Step.Sourced T (linkClass id) fun _ => True := by
  unfold linkClass
  refine Step.Sourced.bind Step.sourced_view fun _ _ => ?_
  split
  · split
    · extract_lets me idx find
      have hfind : ∀ what target, Step.Sourced T (find what target) fun _ => True := by
        intro what target
        unfold find
        split
        · exact Step.Sourced.pure trivial
        · dsimp only
          split
          · exact Step.Sourced.bind (Step.sourced_warn _ _) fun _ _ => Step.Sourced.pure trivial
          · exact Step.Sourced.pure trivial
      refine Step.Sourced.bind (hfind _ _) fun _ _ => Step.Sourced.bind (hfind _ _) fun _ _ =>
        Step.Sourced.bind (hfind _ _) fun _ _ => ?_
      refine Step.Sourced.bind (Step.sourced_log _ _ _) fun _ _ =>
        Step.sourced_modifyKind _ fun k hk => ?_
      split
      · simpa [NodeKind.tokens] using hk
      · exact hk
    · exact Step.Sourced.pure trivial
  · exact Step.Sourced.pure trivial

end Links

/-- Changing semantic tokens in place, without moving their ranges, keeps each range one of
    the old ones. -/
theorem SemanticToken.range_mem_modify {ss : Array SemanticToken} {i : Nat}
    {f : SemanticToken → SemanticToken} {s : SemanticToken} (hs : s ∈ ss.modify i f)
    (hf : ∀ s, (f s).range = s.range) : ∃ s' ∈ ss, s.range = s'.range := by
  obtain ⟨k, hk, rfl⟩ := Array.mem_iff_getElem.1 hs
  have hk' : k < ss.size := by simpa using hk
  refine ⟨ss[k], Array.getElem_mem hk', ?_⟩
  rw [Array.getElem_modify]
  split
  · exact hf _
  · rfl

namespace Step

variable {T : List Token}

theorem change_run (f : Analysis → Analysis) (u : Universe) (w : Work) :
    change f u w = ((), { w with file := f w.file }) := rfl

/-- Looking again at the type names tagged from `start` on keeps the file sourced: a resolved
    name is changed in place, and an unresolved one gets a copy of its own semantic token. -/
theorem sourced_recheckTypeNames (start : Nat) :
    Step.Sourced T (recheckTypeNames start) fun _ => True := by
  unfold recheckTypeNames
  refine Triple.bind triple_current fun a => ?_
  extract_lets pending
  -- every pending index is one of the semantic tokens of `a`, and the loop only adds tokens
  have hpending : ∀ p ∈ pending, p.1 < a.semantic.size := by
    intro p hp
    obtain ⟨⟨s, i⟩, hsi, hp⟩ := List.mem_filterMap.1 hp
    have hlt := List.mem_zipIdx hsi
    simp only [Option.ite_none_right_eq_some, Option.map_eq_some_iff] at hp
    obtain ⟨-, n, -, rfl⟩ := hp
    simp only [List.length_drop, Array.length_toList] at hlt
    omega
  let I : Work → Prop := fun w => w.file.Sourced T ∧ a.semantic.size ≤ w.file.semantic.size
  refine Triple.mono (P := I) (Triple.forIn pending _ fun p hp _ => ?_) (fun w hw => ⟨hw.1, hw.2 ▸ le_refl _⟩)
    fun _ _ h => ⟨trivial, h.1⟩
  obtain ⟨i, n⟩ := p
  have hi : i < a.semantic.size := hpending _ hp
  have warned : ∀ message line, Triple I (warn message line) fun _ => I := by
    intro message line u w hw
    refine ⟨hw.1.congr ?_ ?_ ?_, ?_⟩ <;> rw [warn_run]
    · exact hw.2
  refine Triple.bind (Q := fun _ => I) (fun _ _ hw => hw) fun v => ?_
  dsimp only
  split
  · -- a resolved name: its semantic token is changed in place
    refine Triple.bind (Q := fun _ => I) ?_ fun _ => Triple.pure fun _ h => h
    intro u w hw
    rw [change_run]
    refine ⟨⟨hw.1.tokens, fun s hs => ?_, hw.1.tree⟩, by simpa using hw.2⟩
    dsimp only at hs
    obtain ⟨s', hs', hr⟩ := SemanticToken.range_mem_modify hs fun _ => rfl
    exact hr ▸ hw.1.semantic s' hs'
  · -- an unresolved one: a copy of its semantic token, marked invalid
    refine Triple.bind triple_current fun a' => ?_
    refine Triple.bind (Q := fun _ => I) ?_ fun _ =>
      Triple.bind (warned _ _) fun _ => Triple.pure fun _ h => h
    rintro u w ⟨⟨hw, hsize⟩, rfl⟩
    have hi' : i < w.file.semantic.size := by omega
    rw [emitToken_run]
    refine ⟨hw.push ?_, by simp only [Array.size_push]; omega⟩
    rw [Array.getElem?_eq_getElem hi', Option.getD_some]
    exact hw.semantic w.file.semantic[i] (Array.getElem_mem hi')

end Step

namespace Analysis

variable {T : List Token}

/-- The link phase keeps a file sourced, whatever it sees of the project. -/
theorem sourced_link : Step.Sourced T link fun _ => True := by
  unfold link
  refine Step.Sourced.bind Step.sourced_current fun _ _ => ?_
  refine Step.Sourced.bind (Step.Sourced.forIn _ _ fun _ _ _ => ?_) fun _ _ =>
    Step.sourced_recheckTypeNames 0
  exact Step.Sourced.bind (Links.sourced_linkClass _) fun _ _ => Step.Sourced.pure trivial

/-- The last phase keeps a file sourced, whatever it sees of the project. -/
theorem sourced_addBodies : Step.Sourced T addBodies fun _ => True := by
  unfold addBodies
  refine Step.Sourced.bind Step.sourced_current fun _ _ => ?_
  split
  · exact Step.Sourced.pure trivial
  · dsimp only
    refine Step.Sourced.bind Bodies.sourced_tagDeclarations fun _ _ => ?_
    refine Step.Sourced.bind Step.sourced_tree fun _ _ => ?_
    refine Step.Sourced.bind (Step.Sourced.forIn _ _ fun _ _ _ => ?_) fun _ _ => ?_
    · refine Step.Sourced.bind Step.sourced_tree fun _ _ => ?_
      refine Step.Sourced.bind (Step.Sourced.forIn _ _ fun _ _ _ => ?_) fun _ _ =>
        Step.Sourced.pure trivial
      exact Step.Sourced.bind (Bodies.sourced_methodBody _ _) fun _ _ => Step.Sourced.pure trivial
    · exact Step.Sourced.bind (Step.sourced_recheckTypeNames _) fun _ _ => Step.sourced_log _ _ _

end Analysis

end ZScript
