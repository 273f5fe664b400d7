import ZScript.Proofs.LinedReaders
import ZScript.Proofs.SourcedBodies

/-!
# Reading method bodies reports on lines of the file

The last two phases link classes and read what the first two stored. A class whose parent is
not found is reported on the line of its node, which the class's declaration put there; a type
name still unresolved is reported on the line of the token under it; a method body that fails is
reported on the line its reader failed on, a line of the body's tokens. So both phases keep the
file lined in its tokens (`Analysis.lined_link`, `Analysis.lined_addBodies`).

The statement readers are mutually recursive on their fuel: `Bodies.LinedAt fuel` bundles one
fact per reader, proved for every fuel from the facts at the fuel below.
-/

namespace ZScript

/-- The line under a byte offset is that of a token of the file, or line `1`. -/
theorem Analysis.lineAt_lined {a : Analysis} {T : List Token} (h : a.tokens = T) (offset : Nat) :
    LineOf (· ∈ T) (a.lineAt offset) := by
  unfold Analysis.lineAt
  split
  · next t ht => exact .of (h ▸ List.mem_of_find?_eq_some ht)
  · cases hl : a.tokens.getLast? with
    | none => exact .one
    | some t => exact .of (h ▸ List.mem_of_getLast? hl)

namespace Bodies

open Parse Parse.Lined

variable {T : List Token}

/-- A statement that may not stand here is reported on its first token. -/
theorem lined_require (inFor : Bool) (f : Form) {t : Token} (ht : t ∈ T) :
    Parse.Lined T (require inFor f t) fun _ => True := by
  unfold require
  split
  · exact pure trivial
  · exact throw (.of ht)

theorem lined_scopeAt (node owner : Nat) : Step.Lined T (scopeAt node owner) fun _ => True :=
  Step.Lined.bind (Step.lined_here _) fun _ _ => Step.Lined.pure trivial

theorem lined_place (parent : Nat) (name : String) {line : Nat} {kind : NodeKind}
    (hk : kind.tokens ⊆ T) (hl : kind.lendsLine = true → LineOf (· ∈ T) line) :
    Step.Lined T (place parent name line kind) fun _ => True := by
  unfold place
  refine Step.Lined.bind Step.lined_tree fun _ _ => ?_
  split
  · exact Step.lined_add _ _ hk hl
  · exact Step.lined_alloc _ _ hk hl

/-- An expression read and tagged from a cursor over `T` stores tokens of `T` only. -/
theorem lined_tagged (stop : List TokenKind) (scope : Scope) :
    Parse.Lined T (tagged stop scope) fun e => e.tokens ⊆ T :=
  bind (lined_expression _) fun _ he => lift ((Expr.lined_tag he scope).mono fun _ h => h ▸ he)

/-- Tagging an expression that may be missing keeps its tokens. -/
theorem lined_tagOpt (scope : Scope) : ∀ v : Option Expr, (v.map Expr.tokens).getD [] ⊆ T →
    Step.Lined T (v.mapM (Expr.tag · scope))
      fun v' => (v'.map Expr.tokens).getD [] = (v.map Expr.tokens).getD []
  | none, _ => Step.Lined.pure rfl
  | some e, h => Step.Lined.bind (Expr.lined_tag (by simpa using h) scope) fun _ he =>
      Step.Lined.pure (by simpa using he)

/-- Tagging the dimensions of a type keeps their tokens. -/
theorem lined_tagDims : ∀ (dims : List (Option Expr)), Expr.dimTokens dims ⊆ T → ∀ scope,
    Step.Lined T (tagDims dims scope) fun ds => Expr.dimTokens ds = Expr.dimTokens dims
  | [], _, _ => Step.Lined.pure rfl
  | d :: ds, h, scope => by
    unfold tagDims
    rw [Expr.dimTokens_cons, List.append_subset] at h
    rw [List.mapM_cons]
    exact Step.Lined.bind (lined_tagOpt scope d h.1) fun d' hd =>
      Step.Lined.bind (lined_tagDims ds h.2 scope) fun ds' hds =>
        Step.Lined.pure (by rw [Expr.dimTokens_cons, Expr.dimTokens_cons, hd, hds])

/-- An attempt that fails goes back to where it started. -/
theorem lined_attempt {α : Type} {x : Parse α} {V : α → Prop} (h : Parse.Lined T x V) :
    Parse.Lined T (attempt x) fun o => ∀ a ∈ o, V a :=
  tryCatch (map some h fun _ ha _ h => Option.mem_some_iff.1 h ▸ ha) fun _ _ =>
    pure fun _ h => by cases h

/-- The declarators of a local declaration whose type has no dimensions of its own; an array
    with an initializer is reported on the line of its `=`. -/
theorem lined_declarators (parent owner : Nat) {base : Ty} (hbase : base.dims = [])
    (const : Bool) (scope : Scope) :
    ∀ fuel name acc, name ∈ T → Parse.Lined T (declarators parent owner base const scope fuel name acc)
      fun _ => True
  | 0, _, _, _ => by
    rw [declarators]
    exact lined_tooDeep
  | fuel + 1, name, acc, hname => by
    rw [declarators]
    refine bind lined_fuel fun _ _ => bind (lined_dimensions _) fun _ hdims => ?_
    refine bind (lift (lined_tagDims _ (by simpa [hbase] using hdims) scope)) fun dims hdims' => ?_
    replace hdims' : Expr.dimTokens dims ⊆ T := by simpa [hdims', hbase] using hdims
    refine bind (lined_accept _) fun _ ha => ?_
    extract_lets flags jp
    -- the local, once its initializer is read
    have hjp : ∀ init : Option Expr, (∀ e ∈ init, e.tokens ⊆ T) →
        Parse.Lined T (jp init) fun _ => True := by
      intro init hinit
      dsimp -zeta only [jp]
      refine bind (lift (lined_place _ _ (by simpa [NodeKind.tokens] using hdims')
        fun h => by cases h)) fun id _ => ?_
      extract_lets acc' jp'
      have hjp' : ∀ u, Parse.Lined T (jp' u) fun _ => True := by
        intro u
        dsimp only [jp']
        refine bind (lift (Step.lined_here _)) fun _ _ => ?_
        refine bind (lift (Step.lined_emitRef hname _ _ _)) fun _ _ => ?_
        refine bind (lined_accept _) fun _ hc => ?_
        split
        · refine bind (lift (Step.lined_emit (hc _ rfl) _)) fun _ _ => ?_
          exact bind (lined_expectIdent _) fun name' hname' =>
            lined_declarators parent owner hbase const scope fuel name' _ hname'
        · exact pure trivial
      split
      · next value =>
        exact bind (lift (Step.lined_add _ _ (by simpa [NodeKind.tokens] using hinit value rfl)
          fun h => by cases h)) fun _ _ => hjp' ()
      · exact hjp' ()
    split
    · split
      · exact bind (throw (V := fun _ => False) (.of (ha _ rfl))) fun _ hf => hf.elim
      · refine bind (lift (Step.lined_emit (ha _ rfl) _)) fun _ _ => ?_
        exact bind (lined_tagged _ _) fun _ he =>
          bind (pure (V := fun init : Option Expr => ∀ e ∈ init, e.tokens ⊆ T)
            fun _ h => Option.mem_some_iff.1 h ▸ he) hjp
    · exact bind (pure (V := fun init : Option Expr => ∀ e ∈ init, e.tokens ⊆ T)
        fun _ h => by cases h) hjp

/-- A declaration is read, or nothing is: the cursor goes back to where it was, over `T`, and
    what the attempt reported is undone with the rest. -/
theorem lined_declaration (parent owner : Nat) (inBlock : Bool) :
    Parse.Lined T (declaration parent owner inBlock) fun _ => True := by
  unfold declaration
  refine bind get fun start hstart => bind (lift Step.lined_mark) fun _ _ => ?_
  refine bind (lined_acceptKeyword _) fun _ hconst => ?_
  refine bind (lined_attempt (lined_compoundType _)) fun _ hbase => ?_
  refine bind (lined_check _) fun _ _ => bind (lined_peekAt _) fun _ _ => ?_
  extract_lets follows
  generalize follows = f
  split
  · next base =>
    extract_lets jp
    -- the declarators, once a `const` is tagged
    have hjp : ∀ u, Parse.Lined T (jp u) fun _ => True := by
      intro u
      dsimp only [jp]
      refine bind (lift (lined_scopeAt _ _)) fun _ _ => bind lined_fuel fun _ _ => ?_
      refine bind (lined_expectIdent _) fun _ hname => ?_
      refine bind (lined_declarators _ _ (hbase base rfl) _ _ _ _ _ hname) fun _ _ => ?_
      split
      · exact bind (lined_semicolon _) fun _ _ => pure trivial
      · exact pure trivial
    split
    · exact bind (lift (Step.lined_emit (hconst _ rfl) _)) fun u _ => hjp u
    · exact hjp ()
  · exact bind (set hstart) fun _ _ => bind (lift (Step.lined_rollback _)) fun _ _ => pure trivial

theorem lined_letDeclarators (parent : Nat) (scope : Scope) :
    ∀ fuel acc, Parse.Lined T (letDeclarators parent scope fuel acc) fun _ => True
  | 0, _ => by
    rw [letDeclarators]
    exact lined_tooDeep
  | fuel + 1, acc => by
    rw [letDeclarators]
    refine bind (lined_expectIdent _) fun _ hname => bind (lined_expect _ _) fun _ ha => ?_
    refine bind (lift (Step.lined_emit ha _)) fun _ _ => bind (lined_tagged _ _) fun _ hv => ?_
    refine bind (lift (lined_place _ _ (by simp [NodeKind.tokens]) fun h => by cases h))
      fun _ _ => ?_
    refine bind (lift (Step.lined_add _ _ (by simpa [NodeKind.tokens] using hv)
      fun h => by cases h)) fun _ _ => ?_
    refine bind (lift (Step.lined_here _)) fun _ _ => ?_
    refine bind (lift (Step.lined_emitRef hname _ _ _)) fun _ _ => ?_
    refine bind (lined_accept _) fun _ hc => ?_
    split
    · exact bind (lift (Step.lined_emit (hc _ rfl) _)) fun _ _ =>
        lined_letDeclarators parent scope fuel _
    · exact pure trivial

theorem lined_letStatement (parent owner : Nat) (inBlock : Bool) :
    Parse.Lined T (letStatement parent owner inBlock) fun _ => True := by
  unfold letStatement
  refine bind (lift (lined_scopeAt _ _)) fun _ _ => bind lined_fuel fun _ _ => ?_
  refine bind (lined_letDeclarators _ _ _ _) fun _ _ => ?_
  split
  · exact bind (lined_semicolon _) fun _ _ => pure trivial
  · exact pure trivial

theorem lined_expressionStatement (parent owner : Nat) (inBlock : Bool) :
    Parse.Lined T (expressionStatement parent owner inBlock) fun _ => True := by
  unfold expressionStatement
  dsimp only
  refine bind (lift (lined_scopeAt _ _)) fun _ _ => bind (lined_tagged _ _) fun _ he => ?_
  refine bind (lift (lined_place _ _ (by simpa [NodeKind.tokens] using he) fun h => by cases h))
    fun _ _ => ?_
  split
  · exact bind (lined_semicolon _) fun _ _ => pure trivial
  · exact pure trivial

theorem lined_condition (scope : Scope) :
    Parse.Lined T (condition scope) fun e => e.tokens ⊆ T :=
  bind (lined_expect _ _) fun _ ho => bind (lift (Step.lined_emit ho _)) fun _ _ =>
    bind (lined_tagged _ _) fun _ he => bind (lined_expect _ _) fun _ hc =>
      bind (lift (Step.lined_emit hc _)) fun _ _ => pure he

theorem lined_returnValues (id : Nat) (scope : Scope) :
    ∀ fuel, Parse.Lined T (returnValues id scope fuel) fun _ => True := by
  intro fuel
  induction fuel with
  | zero =>
    rw [returnValues]
    exact lined_tooDeep
  | succ fuel ih =>
    rw [returnValues]
    refine bind (lined_tagged _ _) fun _ he => ?_
    refine bind (lift (Step.lined_add _ _ (by simpa [NodeKind.tokens] using he)
      fun h => by cases h)) fun _ _ => ?_
    refine bind (lined_accept _) fun _ hc => ?_
    split
    · exact bind (lift (Step.lined_emit (hc _ rfl) _)) fun _ _ => ih
    · exact pure trivial

theorem lined_returnStatement (keyword : Token) (parent owner : Nat) :
    Parse.Lined T (returnStatement keyword parent owner) fun _ => True := by
  unfold returnStatement
  refine bind (lift (lined_place _ _ (by simp [NodeKind.tokens]) fun h => by cases h))
    fun _ _ => ?_
  refine bind (lift (lined_scopeAt _ _)) fun _ _ => bind (lined_check _) fun _ _ => ?_
  extract_lets jp
  have hjp : ∀ u, Parse.Lined T (jp u) fun _ => True :=
    fun _ => bind (lined_semicolon _) fun _ _ => pure trivial
  split
  · exact hjp ()
  · exact bind lined_fuel fun _ _ => bind (lined_returnValues _ _ _) fun u _ => hjp u

/-- A `break` or `continue` outside a loop is reported on its keyword. -/
theorem lined_jump {keyword : Token} (hk : keyword ∈ T) (parent : Nat) :
    Parse.Lined T (jump keyword parent) fun _ => True := by
  unfold jump
  refine bind (lift Step.lined_tree) fun _ _ => ?_
  dsimp only
  split
  · refine bind (lift (lined_place _ _ (by simp [NodeKind.tokens]) fun h => by cases h))
      fun _ _ => ?_
    exact bind (lined_semicolon _) fun _ _ => pure trivial
  · exact bind (throw (V := fun _ => False) (.of hk)) fun _ hf => hf.elim

theorem lined_steps (scope : Scope) :
    ∀ fuel, Parse.Lined T (steps scope fuel) fun es => es.flatMap Expr.tokens ⊆ T := by
  intro fuel
  induction fuel with
  | zero =>
    rw [steps]
    exact lined_tooDeep
  | succ fuel ih =>
    rw [steps]
    refine bind (lined_tagged _ _) fun _ he => bind (lined_accept _) fun _ hc => ?_
    split
    · exact bind (lift (Step.lined_emit (hc _ rfl) _)) fun _ _ =>
        bind ih fun _ hs => pure (by simpa using ⟨he, hs⟩)
    · exact pure (by simpa using he)

/-! ## The statement readers -/

/-- One fact for each of the mutually recursive statement readers at `fuel`: each keeps the
    file lined in `T`. -/
structure LinedAt (T : List Token) (fuel : Nat) : Prop where
  statement : ∀ p owner inFor, Parse.Lined T (statement p owner inFor fuel) fun _ => True
  statements : ∀ block owner closer,
    Parse.Lined T (statements block owner closer fuel) fun _ => True
  blockOrLine : ∀ p owner, Parse.Lined T (blockOrLine p owner fuel) fun _ => True
  ifStatement : ∀ keyword p owner, Parse.Lined T (ifStatement keyword p owner fuel) fun _ => True
  initializers : ∀ id owner, Parse.Lined T (initializers id owner fuel) fun _ => True
  forStatement : ∀ keyword p owner, Parse.Lined T (forStatement keyword p owner fuel) fun _ => True
  whileStatement : ∀ keyword p owner,
    Parse.Lined T (whileStatement keyword p owner fuel) fun _ => True
  doStatement : ∀ keyword p owner, Parse.Lined T (doStatement keyword p owner fuel) fun _ => True

theorem linedAt_zero : LinedAt T 0 where
  statement _ _ _ := by
    rw [statement]
    exact lined_tooDeep
  statements _ _ _ := by
    rw [statements]
    exact lined_tooDeep
  blockOrLine _ _ := by
    rw [blockOrLine]
    exact lined_tooDeep
  ifStatement _ _ _ := by
    rw [ifStatement]
    exact lined_tooDeep
  initializers _ _ := by
    rw [initializers]
    exact lined_tooDeep
  forStatement _ _ _ := by
    rw [forStatement]
    exact lined_tooDeep
  whileStatement _ _ _ := by
    rw [whileStatement]
    exact lined_tooDeep
  doStatement _ _ _ := by
    rw [doStatement]
    exact lined_tooDeep

section Step

variable {fuel : Nat} (ih : LinedAt T fuel)
include ih

/-- A statement: an `else` without its `if` is reported on the `else`, and a statement that may
    not stand here on its first token. -/
theorem LinedAt.lined_statement (p owner : Nat) (inFor : Bool) :
    Parse.Lined T (Bodies.statement p owner inFor (fuel + 1)) fun _ => True := by
  rw [Bodies.statement]
  refine bind (lift Step.lined_tree) fun _ _ => ?_
  dsimp only
  refine bind lined_peek fun _ hpeek => ?_
  split
  · next t =>
    have ht : t ∈ T := hpeek t rfl
    split
    · split
      · exact bind lined_next fun _ _ => bind (lift (Step.lined_emit ht _)) fun _ _ =>
          pure trivial
      · exact bind (lined_require _ _ ht) fun _ _ => lined_expressionStatement _ _ _
    · exact bind (lined_require _ _ ht) fun _ _ => bind (ih.blockOrLine p owner) fun _ _ =>
        pure trivial
    · split
      · -- a statement keyword, tagged before the statement it starts
        refine bind (lined_require _ _ ht) fun _ _ => bind lined_next fun _ _ => ?_
        refine bind (lift (Step.lined_emit ht _)) fun _ _ => ?_
        split
        · exact ih.ifStatement _ p owner
        · exact ih.forStatement _ p owner
        · exact ih.whileStatement _ p owner
        · exact ih.doStatement _ p owner
        · exact lined_returnStatement _ p owner
        · exact lined_jump ht p
        · exact lined_jump ht p
        · exact lined_letStatement p owner _
      · -- a declaration when the tokens read as one, else an expression
        split
        · exact bind (throw (V := fun _ => False) (.of ht)) fun _ hf => hf.elim
        · refine bind (lined_declaration p owner _) fun _ _ => ?_
          split
          · exact pure trivial
          · exact bind (lined_require _ _ ht) fun _ _ => lined_expressionStatement _ _ _
    · exact bind (lined_require _ _ ht) fun _ _ => lined_expressionStatement _ _ _
  · exact lined_unexpected _

theorem LinedAt.lined_statements (block owner : Nat) (closer : Option TokenKind) :
    Parse.Lined T (Bodies.statements block owner closer (fuel + 1)) fun _ => True := by
  rw [Bodies.statements]
  refine bind lined_peek fun _ _ => ?_
  split
  · split
    · exact pure trivial
    · exact lined_unexpected _
  · split
    · exact pure trivial
    · exact bind (ih.statement block owner false) fun _ _ => ih.statements block owner closer

theorem LinedAt.lined_blockOrLine (p owner : Nat) :
    Parse.Lined T (Bodies.blockOrLine p owner (fuel + 1)) fun _ => True := by
  rw [Bodies.blockOrLine]
  refine bind lined_peek fun _ _ => ?_
  extract_lets jp
  -- the block, once the line it starts on is known; a block lends no line
  have hjp : ∀ line, Parse.Lined T (jp line) fun _ => True := by
    intro line
    dsimp only [jp]
    refine bind (lift (Step.lined_add _ _ (by simp [NodeKind.tokens]) fun h => by cases h))
      fun _ _ => ?_
    refine bind (lined_accept _) fun _ ho => ?_
    split
    · refine bind (lift (Step.lined_emit (ho _ rfl) _)) fun _ _ => ?_
      refine bind (ih.statements _ owner _) fun _ _ => bind (lined_expect _ _) fun _ hc => ?_
      exact bind (lift (Step.lined_emit hc _)) fun _ _ => pure trivial
    · exact bind (discard (ih.statement _ owner false)) fun _ _ => pure trivial
  split
  · exact hjp _
  · exact bind get fun _ _ => hjp _

theorem LinedAt.lined_ifStatement (keyword : Token) (p owner : Nat) :
    Parse.Lined T (Bodies.ifStatement keyword p owner (fuel + 1)) fun _ => True := by
  rw [Bodies.ifStatement]
  refine bind (lift (lined_scopeAt _ _)) fun _ _ => bind (lined_condition _) fun _ hc => ?_
  refine bind (lift (lined_place _ _ (by simpa [NodeKind.tokens] using hc) fun h => by cases h))
    fun _ _ => ?_
  refine bind (ih.blockOrLine _ owner) fun _ _ => bind (lined_acceptKeyword _) fun _ he => ?_
  split
  · refine bind (lift (Step.lined_emit (he _ rfl) _)) fun _ _ => ?_
    refine bind (ih.blockOrLine _ owner) fun _ _ => ?_
    -- the `else` block is recorded in the condition node, whose tokens stay
    refine bind (lift (Step.lined_modifyKind _ (fun k hk => ?_) fun k hl => ?_)) fun _ _ =>
      pure trivial
    · split
      · simpa [NodeKind.tokens] using hk
      · exact hk
    · split at hl
      · cases hl
      · exact hl
  · exact pure trivial

theorem LinedAt.lined_initializers (id owner : Nat) :
    Parse.Lined T (Bodies.initializers id owner (fuel + 1)) fun _ => True := by
  rw [Bodies.initializers]
  refine bind (ih.statement id owner true) fun _ _ => ?_
  refine bind (lift (Step.lined_modifyKind _ (fun k hk => ?_) fun k hl => ?_)) fun _ _ => ?_
  · split
    · simpa [NodeKind.tokens] using hk
    · exact hk
  · split at hl
    · cases hl
    · exact hl
  refine bind (lined_accept _) fun _ hc => ?_
  split
  · exact bind (lift (Step.lined_emit (hc _ rfl) _)) fun _ _ => ih.initializers id owner
  · exact pure trivial

theorem LinedAt.lined_forStatement (keyword : Token) (p owner : Nat) :
    Parse.Lined T (Bodies.forStatement keyword p owner (fuel + 1)) fun _ => True := by
  rw [Bodies.forStatement]
  refine bind (lined_expect _ _) fun _ ho => bind (lift (Step.lined_emit ho _)) fun _ _ => ?_
  refine bind (lift (lined_place _ _ (by simp [NodeKind.tokens]) fun h => by cases h))
    fun id _ => ?_
  refine bind (lift (lined_scopeAt _ _)) fun _ _ => bind (lined_check _) fun _ _ => ?_
  extract_lets afterCond afterInits
  -- the steps and the body, once the condition is read
  have hcond : ∀ c : Option Expr, (c.map Expr.tokens).getD [] ⊆ T →
      Parse.Lined T (afterCond c) fun _ => True := by
    intro c hc
    dsimp -zeta only [afterCond]
    refine bind (lined_semicolon _) fun _ _ => bind (lined_check _) fun _ _ => ?_
    extract_lets afterSteps
    have hsteps : ∀ s : List Expr, s.flatMap Expr.tokens ⊆ T →
        Parse.Lined T (afterSteps s) fun _ => True := by
      intro s hs
      dsimp only [afterSteps]
      refine bind (lined_expect _ _) fun _ hcl => bind (lift (Step.lined_emit hcl _)) fun _ _ => ?_
      refine bind (lift (Step.lined_modifyKind _ (fun k hk => ?_) fun k hl => ?_)) fun _ _ => ?_
      · split
        · simpa [NodeKind.tokens] using ⟨hc, hs⟩
        · exact hk
      · split at hl
        · cases hl
        · exact hl
      exact bind (ih.blockOrLine _ owner) fun _ _ => pure trivial
    split
    · exact bind (pure (V := fun s : List Expr => s.flatMap Expr.tokens ⊆ T) (by simp)) hsteps
    · exact bind lined_fuel fun _ _ => bind (lined_steps _ _) hsteps
  have hinits : ∀ u, Parse.Lined T (afterInits u) fun _ => True := by
    intro u
    dsimp only [afterInits]
    refine bind (lined_semicolon _) fun _ _ => bind (lined_check _) fun _ _ => ?_
    split
    · exact bind (pure (V := fun c : Option Expr => (c.map Expr.tokens).getD [] ⊆ T) (by simp))
        hcond
    · exact bind (map some (lined_tagged _ _)
        (W := fun c : Option Expr => (c.map Expr.tokens).getD [] ⊆ T) fun _ he => by simpa using he)
        hcond
  split
  · exact hinits ()
  · exact bind (ih.initializers id owner) fun u _ => hinits u

theorem LinedAt.lined_whileStatement (keyword : Token) (p owner : Nat) :
    Parse.Lined T (Bodies.whileStatement keyword p owner (fuel + 1)) fun _ => True := by
  rw [Bodies.whileStatement]
  refine bind (lift (lined_scopeAt _ _)) fun _ _ => bind (lined_condition _) fun _ hc => ?_
  refine bind (lift (lined_place _ _ (by simpa [NodeKind.tokens] using hc) fun h => by cases h))
    fun _ _ => ?_
  exact bind (ih.blockOrLine _ owner) fun _ _ => pure trivial

theorem LinedAt.lined_doStatement (keyword : Token) (p owner : Nat) :
    Parse.Lined T (Bodies.doStatement keyword p owner (fuel + 1)) fun _ => True := by
  rw [Bodies.doStatement]
  refine bind (lift (lined_place _ _ (by simp [NodeKind.tokens, Expr.node]) fun h => by cases h))
    fun _ _ => ?_
  refine bind (ih.blockOrLine _ owner) fun _ _ => bind (lined_acceptKeyword _) fun _ hw => ?_
  split
  · refine bind (lift (Step.lined_emit (hw _ rfl) _)) fun _ _ => ?_
    refine bind (lift (lined_scopeAt _ _)) fun _ _ => bind (lined_condition _) fun _ hc => ?_
    refine bind (lined_semicolon _) fun _ _ => ?_
    -- the condition, read after the body, goes into the loop node
    refine bind (lift (Step.lined_modifyKind _ (fun k hk => ?_) fun k hl => ?_)) fun _ _ =>
      pure trivial
    · split
      · simpa [NodeKind.tokens] using hc
      · exact hk
    · split at hl
      · cases hl
      · exact hl
  · exact lined_unexpected _

theorem LinedAt.succ : LinedAt T (fuel + 1) where
  statement := ih.lined_statement
  statements := ih.lined_statements
  blockOrLine := ih.lined_blockOrLine
  ifStatement := ih.lined_ifStatement
  initializers := ih.lined_initializers
  forStatement := ih.lined_forStatement
  whileStatement := ih.lined_whileStatement
  doStatement := ih.lined_doStatement

end Step

theorem linedAt (T : List Token) (fuel : Nat) : LinedAt T fuel := by
  induction fuel with
  | zero => exact linedAt_zero
  | succ fuel ih => exact ih.succ

/-! ## Method bodies and stored expressions -/

/-- A method body is read from the tokens stored in the method, which are in `T`; when it
    fails, the error is reported on the line its reader failed on. -/
theorem lined_methodBody (owner method : Nat) :
    Step.Lined T (methodBody owner method) fun _ => True := by
  unfold methodBody
  refine Step.Lined.bind Step.lined_tree fun _ ht => ?_
  split
  · next node hg =>
    split
    · next m hk =>
      split
      · next body hb =>
        have hnode := ht.1 method node hg
        rw [hk] at hnode
        simp only [NodeKind.tokens, hb, Option.getD_some, List.append_subset] at hnode
        refine Step.Lined.bind (Step.lined_modifyKind _ (fun _ _ => ?_) fun _ h => by cases h)
          fun _ _ => ?_
        · simpa [NodeKind.tokens] using hnode.1
        refine Step.Lined.bind Step.lined_mark fun _ _ => ?_
        refine Step.Lined.bind (Step.lined_alloc _ _ (by simp [NodeKind.tokens])
          fun h => by cases h) fun _ _ => ?_
        refine Step.Triple.bind (Parse.Lined.runOn ((linedAt T _).statements _ owner none)
          hnode.2) fun r => ?_
        split
        · exact Step.Triple.pre (Step.lined_attach _ _) fun _ h => h.2
        · next e _ =>
          exact fun u w hw => Step.Lined.bind (Step.lined_report hw.1)
            (fun _ _ => Step.lined_discardNodes _) u w hw.2
      · exact Step.Lined.pure trivial
    · exact Step.Lined.pure trivial
  · exact Step.Lined.pure trivial

theorem lined_tagConstant (id : Nat) (scope : Scope) :
    Step.Lined T (tagConstant id scope) fun _ => True := by
  unfold tagConstant
  refine Step.Lined.bind Step.lined_tree fun _ ht => ?_
  split
  · next value hg =>
    have hv : (value.map Expr.tokens).getD [] ⊆ T := by simpa [NodeKind.tokens] using ht.1 id _ hg
    refine Step.Lined.bind (Step.lined_modifyKind _ (fun _ _ => by simp [NodeKind.tokens])
      fun _ h => by cases h) fun _ _ => ?_
    -- the tagged value keeps the tokens it had
    refine Step.Lined.bind (lined_tagOpt scope value hv) fun _ hv' =>
      Step.lined_modifyKind _ (fun k hk => ?_) fun k hl => ?_
    · split
      · simpa [NodeKind.tokens, hv'] using hv
      · exact hk
    · split at hl
      · cases hl
      · exact hl
  · exact Step.Lined.pure trivial

theorem lined_tagEnum (id : Nat) : Step.Lined T (tagEnum id) fun _ => True := by
  unfold tagEnum
  refine Step.Lined.bind (Step.lined_here _) fun _ _ => Step.Lined.bind Step.lined_tree
    fun _ _ => Step.Lined.forIn _ _ fun _ _ _ => ?_
  exact Step.Lined.bind (lined_tagConstant _ _) fun _ _ => Step.Lined.pure trivial

theorem lined_tagField (id : Nat) (scope : Scope) :
    Step.Lined T (tagField id scope) fun _ => True := by
  unfold tagField
  refine Step.Lined.bind Step.lined_tree fun _ ht => ?_
  split
  · next f hg =>
    have hf := ht.1 id _ hg
    simp only [NodeKind.tokens, List.append_subset] at hf
    refine Step.Lined.bind (Step.lined_modifyKind _ (fun _ _ => by simp [NodeKind.tokens])
      fun _ h => by cases h) fun _ _ => ?_
    -- the tagged dimensions and initializer keep the tokens they had
    refine Step.Lined.bind (lined_tagDims _ hf.1 scope) fun _ hdims => ?_
    refine Step.Lined.bind (lined_tagOpt scope _ hf.2) fun _ hinit =>
      Step.lined_modifyKind _ (fun k hk => ?_) fun k hl => ?_
    · split
      · simpa [NodeKind.tokens, hdims, hinit] using hf
      · exact hk
    · split at hl
      · cases hl
      · exact hl
  · exact Step.Lined.pure trivial

theorem lined_tagDefaults (method : Nat) (scope : Scope) :
    Step.Lined T (tagDefaults method scope) fun _ => True := by
  unfold tagDefaults
  refine Step.Lined.bind Step.lined_tree fun _ _ => ?_
  split
  · dsimp only
    refine Step.Lined.forIn _ _ fun _ _ _ => ?_
    refine Step.Lined.bind Step.lined_tree fun _ _ => ?_
    refine Step.Lined.bind (Step.Lined.forIn _ _ fun _ _ _ => ?_) fun _ _ =>
      Step.Lined.pure trivial
    refine Step.Lined.bind Step.lined_tree fun _ ht => ?_
    split
    · next e hg =>
      have he : e.tokens ⊆ T := by simpa [NodeKind.tokens] using ht.1 _ _ hg
      refine Step.Lined.bind (Step.lined_modifyKind _ (fun _ _ => by
        simp [NodeKind.tokens, Expr.node]) fun _ h => by cases h) fun _ _ => ?_
      refine Step.Lined.bind (Expr.lined_tag he _) fun _ he' => ?_
      refine Step.Lined.bind (Step.lined_modifyKind _ (fun k hk => ?_) fun k hl => ?_) fun _ _ =>
        Step.Lined.pure trivial
      · split
        · simpa [NodeKind.tokens, he'] using he
        · exact hk
      · split at hl
        · cases hl
        · exact hl
    · exact Step.Lined.pure trivial
  · exact Step.Lined.pure trivial

theorem lined_tagDeclarations : Step.Lined T tagDeclarations fun _ => True := by
  unfold tagDeclarations
  refine Step.Lined.bind Step.lined_tree fun _ _ => ?_
  refine Step.Lined.bind (Step.Lined.forIn _ _ fun _ _ _ => ?_) fun _ _ => ?_
  · refine Step.Lined.bind Step.lined_tree fun _ _ => ?_
    split
    · exact Step.Lined.bind (lined_tagConstant _ _) fun _ _ => Step.Lined.pure trivial
    · exact Step.Lined.bind (lined_tagEnum _) fun _ _ => Step.Lined.pure trivial
    · exact Step.Lined.pure trivial
  refine Step.Lined.bind Step.lined_tree fun _ _ => ?_
  refine Step.Lined.bind (Step.Lined.forIn _ _ fun _ _ _ => ?_) fun _ _ => Step.Lined.pure trivial
  refine Step.Lined.bind (Step.lined_here _) fun _ _ => ?_
  refine Step.Lined.bind Step.lined_tree fun _ _ => ?_
  refine Step.Lined.bind (Step.Lined.forIn _ _ fun _ _ _ => ?_) fun _ _ => Step.Lined.pure trivial
  refine Step.Lined.bind Step.lined_tree fun _ _ => ?_
  split
  · exact Step.Lined.bind (lined_tagField _ _) fun _ _ => Step.Lined.pure trivial
  · exact Step.Lined.bind (lined_tagConstant _ _) fun _ _ => Step.Lined.pure trivial
  · exact Step.Lined.bind (lined_tagEnum _) fun _ _ => Step.Lined.pure trivial
  · exact Step.Lined.bind (lined_tagDefaults _ _) fun _ _ => Step.Lined.pure trivial
  · exact Step.Lined.pure trivial

end Bodies

/-! ## Linking and looking again -/

namespace Links

variable {T : List Token}

/-- A class whose parent, extended or replaced class is not found is reported on the line of
    its node, which lends it. -/
theorem lined_linkClass (id : Nat) : Step.Lined T (linkClass id) fun _ => True := by
  unfold linkClass
  refine Step.Lined.bind Step.lined_view fun _ hv => ?_
  split
  · next node hg =>
    split
    · next c hk =>
      have hline : LineOf (· ∈ T) node.line := hv.2 id node hg (by rw [hk]; rfl)
      extract_lets me idx find
      have hfind : ∀ what target, Step.Lined T (find what target) fun _ => True := by
        intro what target
        unfold find
        split
        · exact Step.Lined.pure trivial
        · dsimp only
          split
          · exact Step.Lined.bind (Step.lined_warn _ hline) fun _ _ => Step.Lined.pure trivial
          · exact Step.Lined.pure trivial
      refine Step.Lined.bind (hfind _ _) fun _ _ => Step.Lined.bind (hfind _ _) fun _ _ =>
        Step.Lined.bind (hfind _ _) fun _ _ => ?_
      refine Step.Lined.bind (Step.lined_log _ _ _) fun _ _ =>
        Step.lined_modifyKind _ (fun k hk => ?_) fun k hl => ?_
      · split
        · simpa [NodeKind.tokens] using hk
        · exact hk
      · split at hl
        · rfl
        · exact hl
    · exact Step.Lined.pure trivial
  · exact Step.Lined.pure trivial

end Links

namespace Step

variable {T : List Token}

/-- Looking again at the type names tagged from `start` on keeps the file lined: a name still
    unresolved is reported on the line of the token under it. -/
theorem lined_recheckTypeNames (start : Nat) :
    Step.Lined T (recheckTypeNames start) fun _ => True := by
  unfold recheckTypeNames
  refine Triple.bind triple_current fun a => ?_
  extract_lets pending
  -- every pending index is one of the semantic tokens of `a`, and the loop only adds tokens
  have hpending : ∀ p ∈ pending, p.1 < a.semantic.size := by
    intro p hp
    obtain ⟨⟨s, i⟩, hsi, hp⟩ := List.mem_filterMap.1 hp
    have hlt := List.mem_zipIdx hsi
    simp only [Option.ite_none_right_eq_some, Option.map_eq_some_iff] at hp
    obtain ⟨-, n, -, rfl⟩ := hp
    simp only [List.length_drop, Array.length_toList] at hlt
    omega
  let I : Work → Prop := fun w => w.file.Lined T ∧ a.semantic.size ≤ w.file.semantic.size
  refine Triple.mono (P := I) (Triple.forIn pending _ fun p hp _ => ?_) (fun w hw => ⟨hw.1, hw.2 ▸ le_refl _⟩)
    fun _ _ h => ⟨trivial, h.1⟩
  obtain ⟨i, n⟩ := p
  have hi : i < a.semantic.size := hpending _ hp
  have warned : ∀ message {line}, LineOf (· ∈ T) line → Triple I (warn message line) fun _ => I := by
    intro message line hl u w hw
    refine ⟨(lined_warn message hl u w hw.1).2, ?_⟩
    rw [warn_run]
    exact hw.2
  refine Triple.bind (Q := fun _ => I) (fun _ _ hw => hw) fun v => ?_
  dsimp only
  split
  · -- a resolved name: its semantic token is changed in place
    refine Triple.bind (Q := fun _ => I) ?_ fun _ => Triple.pure fun _ h => h
    intro u w hw
    rw [change_run]
    refine ⟨⟨⟨hw.1.tokens, fun s hs => ?_, hw.1.tree⟩, hw.1.diagnostics, hw.1.nodes⟩,
      by simpa using hw.2⟩
    dsimp only at hs
    obtain ⟨s', hs', hr⟩ := SemanticToken.range_mem_modify hs fun _ => rfl
    exact hr ▸ hw.1.semantic s' hs'
  · -- an unresolved one: a copy of its semantic token, marked invalid, and a warning on the
    -- line of the token under it
    refine Triple.bind triple_current fun a' => ?_
    refine Triple.bind (Q := fun _ w => a'.tokens = T ∧ I w) ?_ fun _ =>
      Triple.bind (Triple.of_fact fun h => warned _ (Analysis.lineAt_lined h _)) fun _ =>
        Triple.pure fun _ h => h
    rintro u w ⟨⟨hw, hsize⟩, rfl⟩
    have hi' : i < w.file.semantic.size := by omega
    rw [emitToken_run]
    refine ⟨hw.tokens, hw.push ?_, by simp only [Array.size_push]; omega⟩
    rw [Array.getElem?_eq_getElem hi', Option.getD_some]
    exact hw.semantic w.file.semantic[i] (Array.getElem_mem hi')

end Step

namespace Analysis

variable {T : List Token}

/-- The link phase keeps a file lined, whatever it sees of the project. -/
theorem lined_link : Step.Lined T link fun _ => True := by
  unfold link
  refine Step.Lined.bind Step.lined_current fun _ _ => ?_
  refine Step.Lined.bind (Step.Lined.forIn _ _ fun _ _ _ => ?_) fun _ _ =>
    Step.lined_recheckTypeNames 0
  exact Step.Lined.bind (Links.lined_linkClass _) fun _ _ => Step.Lined.pure trivial

/-- The last phase keeps a file lined, whatever it sees of the project. -/
theorem lined_addBodies : Step.Lined T addBodies fun _ => True := by
  unfold addBodies
  refine Step.Lined.bind Step.lined_current fun _ _ => ?_
  split
  · exact Step.Lined.pure trivial
  · dsimp only
    refine Step.Lined.bind Bodies.lined_tagDeclarations fun _ _ => ?_
    refine Step.Lined.bind Step.lined_tree fun _ _ => ?_
    refine Step.Lined.bind (Step.Lined.forIn _ _ fun _ _ _ => ?_) fun _ _ => ?_
    · refine Step.Lined.bind Step.lined_tree fun _ _ => ?_
      refine Step.Lined.bind (Step.Lined.forIn _ _ fun _ _ _ => ?_) fun _ _ =>
        Step.Lined.pure trivial
      exact Step.Lined.bind (Bodies.lined_methodBody _ _) fun _ _ => Step.Lined.pure trivial
    · exact Step.Lined.bind (Step.lined_recheckTypeNames _) fun _ _ => Step.lined_log _ _ _

end Analysis

end ZScript
