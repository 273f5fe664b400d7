import ZScript.Proofs.LogIndependentReaders

/-!
# The statement readers and the last two phases never read the log

The readers of method bodies, the tagging of the expressions stored by the earlier phases, the
linking of classes, and the last two phases of analysis (`Analysis.link`,
`Analysis.addBodies`) never read the log. The statement readers call each other with less fuel,
so they are taken together, one fuel at a time (`Bodies.IgnoresLogAt`).
-/

namespace ZScript

namespace Bodies

open Parse

theorem ignoresLog_require (inFor : Bool) (f : Form) (t : Token) :
    Parse.IgnoresLog (require inFor f t) := by
  unfold require
  split
  · exact .pure _
  · exact .throw _

theorem ignoresLog_scopeAt (node owner : Nat) : Step.IgnoresLog (scopeAt node owner) :=
  .bind (Step.ignoresLog_here _) fun _ => .pure _

theorem ignoresLog_place (parent : Nat) (name : String) (line : Nat) (kind : NodeKind) :
    Step.IgnoresLog (place parent name line kind) := by
  unfold place
  refine .bind Step.ignoresLog_tree fun _ => ?_
  split
  · exact Step.ignoresLog_add _ _ _ _
  · exact Step.ignoresLog_alloc _ _ _ _

theorem ignoresLog_tagged (stop : List TokenKind) (scope : Scope) :
    Parse.IgnoresLog (tagged stop scope) :=
  .bind (ignoresLog_expression _) fun e => .lift (Expr.ignoresLog_tag e scope)

theorem ignoresLog_tagOpt (scope : Scope) (v : Option Expr) :
    Step.IgnoresLog (v.mapM (Expr.tag · scope)) := by
  cases v with
  | none => exact .pure _
  | some e => exact .bind (Expr.ignoresLog_tag e scope) fun _ => .pure _

theorem ignoresLog_tagDims (dims : List (Option Expr)) (scope : Scope) :
    Step.IgnoresLog (tagDims dims scope) := by
  unfold tagDims
  induction dims with
  | nil => exact .pure _
  | cons d ds ih =>
    rw [List.mapM_cons]
    exact .bind (ignoresLog_tagOpt scope d) fun _ => .bind ih fun _ => .pure _

theorem ignoresLog_attempt {α : Type} {x : Parse α} (h : Parse.IgnoresLog x) :
    Parse.IgnoresLog (attempt x) :=
  .tryCatch (.map some h) fun _ => .pure _

theorem ignoresLog_declarators (parent owner : Nat) (base : Ty) (const : Bool) (scope : Scope)
    (fuel : Nat) (name : Token) (acc : List Nat) :
    Parse.IgnoresLog (declarators parent owner base const scope fuel name acc) := by
  induction fuel generalizing name acc with
  | zero =>
    rw [declarators]
    exact ignoresLog_tooDeep
  | succ fuel ih =>
    rw [declarators]
    refine .bind ignoresLog_fuel fun _ => .bind (ignoresLog_dimensions _) fun _ => ?_
    refine .bind (.lift (ignoresLog_tagDims _ scope)) fun _ =>
      .bind (ignoresLog_accept _) fun _ => ?_
    extract_lets flags jp
    -- the local, once its initializer is read
    have hjp : ∀ init, Parse.IgnoresLog (jp init) := by
      intro init
      dsimp -zeta only [jp]
      refine .bind (.lift (ignoresLog_place _ _ _ _)) fun _ => ?_
      extract_lets acc' jp'
      have hjp' : ∀ u, Parse.IgnoresLog (jp' u) := by
        intro u
        dsimp only [jp']
        refine .bind (.lift (Step.ignoresLog_here _)) fun _ =>
          .bind (.lift (Step.ignoresLog_emitRef _ _ _ _)) fun _ => ?_
        refine .bind (ignoresLog_accept _) fun _ => ?_
        split
        · exact .bind (.lift (Step.ignoresLog_emit _ _)) fun _ =>
            .bind (ignoresLog_expectIdent _) fun name' => ih name' _
        · exact .pure _
      split
      · exact .bind (.lift (Step.ignoresLog_add _ _ _ _)) fun _ => hjp' ()
      · exact hjp' ()
    split
    · split
      · exact .throw_bind _ _
      · exact .bind (.lift (Step.ignoresLog_emit _ _)) fun _ =>
          .bind (ignoresLog_tagged _ _) fun _ => .bind (.pure _) hjp
    · exact .bind (.pure _) hjp

theorem ignoresLog_declaration (parent owner : Nat) (inBlock : Bool) :
    Parse.IgnoresLog (declaration parent owner inBlock) := by
  unfold declaration
  refine .bind .get fun _ => .bind (.lift Step.ignoresLog_mark) fun _ => ?_
  refine .bind (ignoresLog_acceptKeyword _) fun _ =>
    .bind (ignoresLog_attempt (ignoresLog_compoundType _)) fun _ => ?_
  refine .bind (ignoresLog_check _) fun _ => .bind (ignoresLog_peekAt _) fun _ => ?_
  extract_lets follows
  generalize follows = f
  split
  · extract_lets jp
    -- the declarators, once a `const` is tagged
    have hjp : ∀ u, Parse.IgnoresLog (jp u) := by
      intro u
      dsimp only [jp]
      refine .bind (.lift (ignoresLog_scopeAt _ _)) fun _ => .bind ignoresLog_fuel fun _ => ?_
      refine .bind (ignoresLog_expectIdent _) fun _ =>
        .bind (ignoresLog_declarators _ _ _ _ _ _ _ _) fun _ => ?_
      split
      · exact .bind (ignoresLog_semicolon _) fun _ => .pure _
      · exact .pure _
    split
    · exact .bind (.lift (Step.ignoresLog_emit _ _)) hjp
    · exact hjp ()
  · exact .bind (.set _) fun _ => .bind (.lift (Step.ignoresLog_rollback _)) fun _ => .pure _

theorem ignoresLog_letDeclarators (parent : Nat) (scope : Scope) (fuel : Nat) (acc : List Nat) :
    Parse.IgnoresLog (letDeclarators parent scope fuel acc) := by
  induction fuel generalizing acc with
  | zero =>
    rw [letDeclarators]
    exact ignoresLog_tooDeep
  | succ fuel ih =>
    rw [letDeclarators]
    refine .bind (ignoresLog_expectIdent _) fun _ => .bind (ignoresLog_expect _ _) fun _ => ?_
    refine .bind (.lift (Step.ignoresLog_emit _ _)) fun _ => .bind (ignoresLog_tagged _ _) fun _ => ?_
    refine .bind (.lift (ignoresLog_place _ _ _ _)) fun _ =>
      .bind (.lift (Step.ignoresLog_add _ _ _ _)) fun _ => ?_
    refine .bind (.lift (Step.ignoresLog_here _)) fun _ =>
      .bind (.lift (Step.ignoresLog_emitRef _ _ _ _)) fun _ => ?_
    refine .bind (ignoresLog_accept _) fun _ => ?_
    split
    · exact .bind (.lift (Step.ignoresLog_emit _ _)) fun _ => ih _
    · exact .pure _

theorem ignoresLog_letStatement (parent owner : Nat) (inBlock : Bool) :
    Parse.IgnoresLog (letStatement parent owner inBlock) := by
  unfold letStatement
  refine .bind (.lift (ignoresLog_scopeAt _ _)) fun _ => .bind ignoresLog_fuel fun _ => ?_
  refine .bind (ignoresLog_letDeclarators _ _ _ _) fun _ => ?_
  split
  · exact .bind (ignoresLog_semicolon _) fun _ => .pure _
  · exact .pure _

theorem ignoresLog_expressionStatement (parent owner : Nat) (inBlock : Bool) :
    Parse.IgnoresLog (expressionStatement parent owner inBlock) := by
  unfold expressionStatement
  dsimp only
  refine .bind (.lift (ignoresLog_scopeAt _ _)) fun _ => .bind (ignoresLog_tagged _ _) fun _ => ?_
  refine .bind (.lift (ignoresLog_place _ _ _ _)) fun _ => ?_
  split
  · exact .bind (ignoresLog_semicolon _) fun _ => .pure _
  · exact .pure _

theorem ignoresLog_condition (scope : Scope) : Parse.IgnoresLog (condition scope) := by
  unfold condition
  refine .bind (ignoresLog_expect _ _) fun _ => .bind (.lift (Step.ignoresLog_emit _ _)) fun _ => ?_
  refine .bind (ignoresLog_tagged _ _) fun _ => .bind (ignoresLog_expect _ _) fun _ => ?_
  exact .bind (.lift (Step.ignoresLog_emit _ _)) fun _ => .pure _

theorem ignoresLog_returnValues (id : Nat) (scope : Scope) (fuel : Nat) :
    Parse.IgnoresLog (returnValues id scope fuel) := by
  induction fuel with
  | zero =>
    rw [returnValues]
    exact ignoresLog_tooDeep
  | succ fuel ih =>
    rw [returnValues]
    refine .bind (ignoresLog_tagged _ _) fun _ => .bind (.lift (Step.ignoresLog_add _ _ _ _)) fun _ => ?_
    refine .bind (ignoresLog_accept _) fun _ => ?_
    split
    · exact .bind (.lift (Step.ignoresLog_emit _ _)) fun _ => ih
    · exact .pure _

theorem ignoresLog_returnStatement (keyword : Token) (parent owner : Nat) :
    Parse.IgnoresLog (returnStatement keyword parent owner) := by
  unfold returnStatement
  refine .bind (.lift (ignoresLog_place _ _ _ _)) fun _ => ?_
  refine .bind (.lift (ignoresLog_scopeAt _ _)) fun _ => .bind (ignoresLog_check _) fun _ => ?_
  extract_lets jp
  have hjp : ∀ u, Parse.IgnoresLog (jp u) :=
    fun _ => .bind (ignoresLog_semicolon _) fun _ => .pure _
  split
  · exact hjp ()
  · exact .bind ignoresLog_fuel fun _ => .bind (ignoresLog_returnValues _ _ _) hjp

theorem ignoresLog_jump (keyword : Token) (parent : Nat) : Parse.IgnoresLog (jump keyword parent) := by
  unfold jump
  refine .bind (.lift Step.ignoresLog_tree) fun _ => ?_
  dsimp only
  split
  · refine .bind (.lift (ignoresLog_place _ _ _ _)) fun _ => ?_
    exact .bind (ignoresLog_semicolon _) fun _ => .pure _
  · exact .throw_bind _ _

theorem ignoresLog_steps (scope : Scope) (fuel : Nat) : Parse.IgnoresLog (steps scope fuel) := by
  induction fuel with
  | zero =>
    rw [steps]
    exact ignoresLog_tooDeep
  | succ fuel ih =>
    rw [steps]
    refine .bind (ignoresLog_tagged _ _) fun _ => .bind (ignoresLog_accept _) fun _ => ?_
    split
    · exact .bind (.lift (Step.ignoresLog_emit _ _)) fun _ => .bind ih fun _ => .pure _
    · exact .pure _

/-! ## The statement readers -/

/-- One fact for each of the mutually recursive statement readers at `fuel`: none reads the
    log. -/
structure IgnoresLogAt (fuel : Nat) : Prop where
  statement : ∀ p owner inFor, Parse.IgnoresLog (statement p owner inFor fuel)
  statements : ∀ block owner closer, Parse.IgnoresLog (statements block owner closer fuel)
  blockOrLine : ∀ p owner, Parse.IgnoresLog (blockOrLine p owner fuel)
  ifStatement : ∀ keyword p owner, Parse.IgnoresLog (ifStatement keyword p owner fuel)
  initializers : ∀ id owner, Parse.IgnoresLog (initializers id owner fuel)
  forStatement : ∀ keyword p owner, Parse.IgnoresLog (forStatement keyword p owner fuel)
  whileStatement : ∀ keyword p owner, Parse.IgnoresLog (whileStatement keyword p owner fuel)
  doStatement : ∀ keyword p owner, Parse.IgnoresLog (doStatement keyword p owner fuel)

theorem ignoresLogAt_zero : IgnoresLogAt 0 where
  statement _ _ _ := by
    rw [statement]
    exact ignoresLog_tooDeep
  statements _ _ _ := by
    rw [statements]
    exact ignoresLog_tooDeep
  blockOrLine _ _ := by
    rw [blockOrLine]
    exact ignoresLog_tooDeep
  ifStatement _ _ _ := by
    rw [ifStatement]
    exact ignoresLog_tooDeep
  initializers _ _ := by
    rw [initializers]
    exact ignoresLog_tooDeep
  forStatement _ _ _ := by
    rw [forStatement]
    exact ignoresLog_tooDeep
  whileStatement _ _ _ := by
    rw [whileStatement]
    exact ignoresLog_tooDeep
  doStatement _ _ _ := by
    rw [doStatement]
    exact ignoresLog_tooDeep

section Step

variable {fuel : Nat} (ih : IgnoresLogAt fuel)
include ih

theorem IgnoresLogAt.ignoresLog_statement (p owner : Nat) (inFor : Bool) :
    Parse.IgnoresLog (Bodies.statement p owner inFor (fuel + 1)) := by
  rw [Bodies.statement]
  refine .bind (.lift Step.ignoresLog_tree) fun _ => ?_
  dsimp only
  refine .bind ignoresLog_peek fun _ => ?_
  split
  · split
    · split
      · exact .bind ignoresLog_next fun _ => .bind (.lift (Step.ignoresLog_emit _ _)) fun _ =>
          .pure _
      · exact .bind (ignoresLog_require _ _ _) fun _ => ignoresLog_expressionStatement _ _ _
    · exact .bind (ignoresLog_require _ _ _) fun _ => .bind (ih.blockOrLine p owner) fun _ =>
        .pure _
    · split
      · -- a statement keyword, tagged before the statement it starts
        refine .bind (ignoresLog_require _ _ _) fun _ => .bind ignoresLog_next fun _ => ?_
        refine .bind (.lift (Step.ignoresLog_emit _ _)) fun _ => ?_
        split
        · exact ih.ifStatement _ p owner
        · exact ih.forStatement _ p owner
        · exact ih.whileStatement _ p owner
        · exact ih.doStatement _ p owner
        · exact ignoresLog_returnStatement _ p owner
        · exact ignoresLog_jump _ p
        · exact ignoresLog_jump _ p
        · exact ignoresLog_letStatement p owner _
      · -- a declaration when the tokens read as one, else an expression
        split
        · exact .throw_bind _ _
        · refine .bind (ignoresLog_declaration p owner _) fun _ => ?_
          split
          · exact .pure _
          · exact .bind (ignoresLog_require _ _ _) fun _ => ignoresLog_expressionStatement _ _ _
    · exact .bind (ignoresLog_require _ _ _) fun _ => ignoresLog_expressionStatement _ _ _
  · exact ignoresLog_unexpected _

theorem IgnoresLogAt.ignoresLog_statements (block owner : Nat) (closer : Option TokenKind) :
    Parse.IgnoresLog (Bodies.statements block owner closer (fuel + 1)) := by
  rw [Bodies.statements]
  refine .bind ignoresLog_peek fun _ => ?_
  split
  · split
    · exact .pure _
    · exact ignoresLog_unexpected _
  · split
    · exact .pure _
    · exact .bind (ih.statement block owner false) fun _ => ih.statements block owner closer

theorem IgnoresLogAt.ignoresLog_blockOrLine (p owner : Nat) :
    Parse.IgnoresLog (Bodies.blockOrLine p owner (fuel + 1)) := by
  rw [Bodies.blockOrLine]
  refine .bind ignoresLog_peek fun _ => ?_
  extract_lets jp
  -- the block, once the line it starts on is known
  have hjp : ∀ line, Parse.IgnoresLog (jp line) := by
    intro line
    dsimp only [jp]
    refine .bind (.lift (Step.ignoresLog_add _ _ _ _)) fun _ => ?_
    refine .bind (ignoresLog_accept _) fun _ => ?_
    split
    · refine .bind (.lift (Step.ignoresLog_emit _ _)) fun _ => ?_
      refine .bind (ih.statements _ owner _) fun _ => .bind (ignoresLog_expect _ _) fun _ => ?_
      exact .bind (.lift (Step.ignoresLog_emit _ _)) fun _ => .pure _
    · exact .bind (.discard (ih.statement _ owner false)) fun _ => .pure _
  split
  · exact hjp _
  · exact .bind .get fun _ => hjp _

theorem IgnoresLogAt.ignoresLog_ifStatement (keyword : Token) (p owner : Nat) :
    Parse.IgnoresLog (Bodies.ifStatement keyword p owner (fuel + 1)) := by
  rw [Bodies.ifStatement]
  refine .bind (.lift (ignoresLog_scopeAt _ _)) fun _ => .bind (ignoresLog_condition _) fun _ => ?_
  refine .bind (.lift (ignoresLog_place _ _ _ _)) fun _ => ?_
  refine .bind (ih.blockOrLine _ owner) fun _ => .bind (ignoresLog_acceptKeyword _) fun _ => ?_
  split
  · refine .bind (.lift (Step.ignoresLog_emit _ _)) fun _ => ?_
    refine .bind (ih.blockOrLine _ owner) fun _ => ?_
    exact .bind (.lift (Step.ignoresLog_modifyKind _ _)) fun _ => .pure _
  · exact .pure _

theorem IgnoresLogAt.ignoresLog_initializers (id owner : Nat) :
    Parse.IgnoresLog (Bodies.initializers id owner (fuel + 1)) := by
  rw [Bodies.initializers]
  refine .bind (ih.statement id owner true) fun _ => ?_
  refine .bind (.lift (Step.ignoresLog_modifyKind _ _)) fun _ => ?_
  refine .bind (ignoresLog_accept _) fun _ => ?_
  split
  · exact .bind (.lift (Step.ignoresLog_emit _ _)) fun _ => ih.initializers id owner
  · exact .pure _

theorem IgnoresLogAt.ignoresLog_forStatement (keyword : Token) (p owner : Nat) :
    Parse.IgnoresLog (Bodies.forStatement keyword p owner (fuel + 1)) := by
  rw [Bodies.forStatement]
  refine .bind (ignoresLog_expect _ _) fun _ => .bind (.lift (Step.ignoresLog_emit _ _)) fun _ => ?_
  refine .bind (.lift (ignoresLog_place _ _ _ _)) fun _ => ?_
  refine .bind (.lift (ignoresLog_scopeAt _ _)) fun _ => .bind (ignoresLog_check _) fun _ => ?_
  extract_lets afterCond afterInits
  -- the steps and the body, once the condition is read
  have hcond : ∀ c, Parse.IgnoresLog (afterCond c) := by
    intro c
    dsimp -zeta only [afterCond]
    refine .bind (ignoresLog_semicolon _) fun _ => .bind (ignoresLog_check _) fun _ => ?_
    extract_lets afterSteps
    have hsteps : ∀ s, Parse.IgnoresLog (afterSteps s) := by
      intro s
      dsimp only [afterSteps]
      refine .bind (ignoresLog_expect _ _) fun _ =>
        .bind (.lift (Step.ignoresLog_emit _ _)) fun _ => ?_
      refine .bind (.lift (Step.ignoresLog_modifyKind _ _)) fun _ => ?_
      exact .bind (ih.blockOrLine _ owner) fun _ => .pure _
    split
    · exact .bind (.pure _) hsteps
    · exact .bind ignoresLog_fuel fun _ => .bind (ignoresLog_steps _ _) hsteps
  have hinits : ∀ u, Parse.IgnoresLog (afterInits u) := by
    intro u
    dsimp only [afterInits]
    refine .bind (ignoresLog_semicolon _) fun _ => .bind (ignoresLog_check _) fun _ => ?_
    split
    · exact .bind (.pure _) hcond
    · exact .bind (.map some (ignoresLog_tagged _ _)) hcond
  split
  · exact hinits ()
  · exact .bind (ih.initializers _ owner) hinits

theorem IgnoresLogAt.ignoresLog_whileStatement (keyword : Token) (p owner : Nat) :
    Parse.IgnoresLog (Bodies.whileStatement keyword p owner (fuel + 1)) := by
  rw [Bodies.whileStatement]
  refine .bind (.lift (ignoresLog_scopeAt _ _)) fun _ => .bind (ignoresLog_condition _) fun _ => ?_
  refine .bind (.lift (ignoresLog_place _ _ _ _)) fun _ => ?_
  exact .bind (ih.blockOrLine _ owner) fun _ => .pure _

theorem IgnoresLogAt.ignoresLog_doStatement (keyword : Token) (p owner : Nat) :
    Parse.IgnoresLog (Bodies.doStatement keyword p owner (fuel + 1)) := by
  rw [Bodies.doStatement]
  refine .bind (.lift (ignoresLog_place _ _ _ _)) fun _ => ?_
  refine .bind (ih.blockOrLine _ owner) fun _ => .bind (ignoresLog_acceptKeyword _) fun _ => ?_
  split
  · refine .bind (.lift (Step.ignoresLog_emit _ _)) fun _ => ?_
    refine .bind (.lift (ignoresLog_scopeAt _ _)) fun _ => .bind (ignoresLog_condition _) fun _ => ?_
    refine .bind (ignoresLog_semicolon _) fun _ => ?_
    exact .bind (.lift (Step.ignoresLog_modifyKind _ _)) fun _ => .pure _
  · exact ignoresLog_unexpected _

theorem IgnoresLogAt.succ : IgnoresLogAt (fuel + 1) where
  statement := ih.ignoresLog_statement
  statements := ih.ignoresLog_statements
  blockOrLine := ih.ignoresLog_blockOrLine
  ifStatement := ih.ignoresLog_ifStatement
  initializers := ih.ignoresLog_initializers
  forStatement := ih.ignoresLog_forStatement
  whileStatement := ih.ignoresLog_whileStatement
  doStatement := ih.ignoresLog_doStatement

end Step

theorem ignoresLogAt (fuel : Nat) : IgnoresLogAt fuel := by
  induction fuel with
  | zero => exact ignoresLogAt_zero
  | succ fuel ih => exact ih.succ

/-! ## Method bodies and stored expressions -/

theorem ignoresLog_methodBody (owner method : Nat) : Step.IgnoresLog (methodBody owner method) := by
  unfold methodBody
  refine .bind Step.ignoresLog_tree fun _ => ?_
  split
  · split
    · split
      · refine .bind (Step.ignoresLog_modifyKind _ _) fun _ => .bind Step.ignoresLog_mark fun _ => ?_
        refine .bind (Step.ignoresLog_alloc _ _ _ _) fun _ => ?_
        refine .bind (IgnoresLog.runOn ((ignoresLogAt _).statements _ owner none) _) fun _ => ?_
        split
        · exact Step.ignoresLog_attach _ _
        · exact .bind (Step.ignoresLog_report _) fun _ => Step.ignoresLog_discardNodes _
      · exact .pure _
    · exact .pure _
  · exact .pure _

theorem ignoresLog_tagConstant (id : Nat) (scope : Scope) :
    Step.IgnoresLog (tagConstant id scope) := by
  unfold tagConstant
  refine .bind Step.ignoresLog_tree fun _ => ?_
  split
  · refine .bind (Step.ignoresLog_modifyKind _ _) fun _ => ?_
    exact .bind (ignoresLog_tagOpt scope _) fun _ => Step.ignoresLog_modifyKind _ _
  · exact .pure _

theorem ignoresLog_tagEnum (id : Nat) : Step.IgnoresLog (tagEnum id) := by
  unfold tagEnum
  refine .bind (Step.ignoresLog_here _) fun _ => .bind Step.ignoresLog_tree fun _ => ?_
  exact .forIn _ _ fun _ _ => .bind (ignoresLog_tagConstant _ _) fun _ => .pure _

theorem ignoresLog_tagField (id : Nat) (scope : Scope) : Step.IgnoresLog (tagField id scope) := by
  unfold tagField
  refine .bind Step.ignoresLog_tree fun _ => ?_
  split
  · refine .bind (Step.ignoresLog_modifyKind _ _) fun _ => ?_
    refine .bind (ignoresLog_tagDims _ scope) fun _ => ?_
    exact .bind (ignoresLog_tagOpt scope _) fun _ => Step.ignoresLog_modifyKind _ _
  · exact .pure _

theorem ignoresLog_tagDefaults (method : Nat) (scope : Scope) :
    Step.IgnoresLog (tagDefaults method scope) := by
  unfold tagDefaults
  refine .bind Step.ignoresLog_tree fun _ => ?_
  split
  · dsimp only
    refine .forIn _ _ fun _ _ => .bind Step.ignoresLog_tree fun _ => ?_
    refine .bind (.forIn _ _ fun _ _ => ?_) fun _ => .pure _
    refine .bind Step.ignoresLog_tree fun _ => ?_
    split
    · refine .bind (Step.ignoresLog_modifyKind _ _) fun _ => ?_
      refine .bind (Expr.ignoresLog_tag _ _) fun _ => ?_
      exact .bind (Step.ignoresLog_modifyKind _ _) fun _ => .pure _
    · exact .pure _
  · exact .pure _

theorem ignoresLog_tagDeclarations : Step.IgnoresLog tagDeclarations := by
  unfold tagDeclarations
  refine .bind Step.ignoresLog_tree fun _ => ?_
  refine .bind (.forIn _ _ fun _ _ => ?_) fun _ => ?_
  · refine .bind Step.ignoresLog_tree fun _ => ?_
    split
    · exact .bind (ignoresLog_tagConstant _ _) fun _ => .pure _
    · exact .bind (ignoresLog_tagEnum _) fun _ => .pure _
    · exact .pure _
  refine .bind Step.ignoresLog_tree fun _ => ?_
  refine .bind (.forIn _ _ fun _ _ => ?_) fun _ => .pure _
  refine .bind (Step.ignoresLog_here _) fun _ => .bind Step.ignoresLog_tree fun _ => ?_
  refine .bind (.forIn _ _ fun _ _ => ?_) fun _ => .pure _
  refine .bind Step.ignoresLog_tree fun _ => ?_
  split
  · exact .bind (ignoresLog_tagField _ _) fun _ => .pure _
  · exact .bind (ignoresLog_tagConstant _ _) fun _ => .pure _
  · exact .bind (ignoresLog_tagEnum _) fun _ => .pure _
  · exact .bind (ignoresLog_tagDefaults _ _) fun _ => .pure _
  · exact .pure _

end Bodies

/-! ## Linking and looking again -/

theorem Links.ignoresLog_linkClass (id : Nat) : Step.IgnoresLog (Links.linkClass id) := by
  unfold Links.linkClass
  refine .bind Step.ignoresLog_view fun _ => ?_
  split
  · split
    · extract_lets me idx find
      have hfind : ∀ what target, Step.IgnoresLog (find what target) := by
        intro what target
        unfold find
        split
        · exact .pure _
        · dsimp only
          split
          · exact .bind (Step.ignoresLog_warn _ _) fun _ => .pure _
          · exact .pure _
      refine .bind (hfind _ _) fun _ => .bind (hfind _ _) fun _ => .bind (hfind _ _) fun _ => ?_
      exact .bind (Step.ignoresLog_log _ _ _) fun _ => Step.ignoresLog_modifyKind _ _
    · exact .pure _
  · exact .pure _

theorem Step.ignoresLog_recheckTypeNames (start : Nat) :
    Step.IgnoresLog (Step.recheckTypeNames start) := by
  unfold Step.recheckTypeNames
  refine .bind Step.ignoresLog_current fun _ => ?_
  refine .forIn _ _ fun p _ => ?_
  obtain ⟨i, n⟩ := p
  refine .bind Step.ignoresLog_view fun _ => ?_
  dsimp only
  split
  · exact .bind (Step.ignoresLog_change _) fun _ => .pure _
  · refine .bind Step.ignoresLog_current fun _ => ?_
    exact .bind (Step.ignoresLog_emitToken _) fun _ =>
      .bind (Step.ignoresLog_warn _ _) fun _ => .pure _

namespace Analysis

/-- The link phase. -/
theorem ignoresLog_link : Step.IgnoresLog link := by
  unfold link
  refine .bind Step.ignoresLog_current fun _ => ?_
  refine .bind (.forIn _ _ fun _ _ => .bind (Links.ignoresLog_linkClass _) fun _ => .pure _)
    fun _ => ?_
  exact Step.ignoresLog_recheckTypeNames 0

/-- The last phase. -/
theorem ignoresLog_addBodies : Step.IgnoresLog addBodies := by
  unfold addBodies
  refine .bind Step.ignoresLog_current fun _ => ?_
  split
  · exact .pure _
  · dsimp only
    refine .bind Bodies.ignoresLog_tagDeclarations fun _ => .bind Step.ignoresLog_tree fun _ => ?_
    refine .bind (.forIn _ _ fun _ _ => ?_) fun _ => ?_
    · refine .bind Step.ignoresLog_tree fun _ => ?_
      refine .bind (.forIn _ _ fun _ _ => ?_) fun _ => .pure _
      exact .bind (Bodies.ignoresLog_methodBody _ _) fun _ => .pure _
    · exact .bind (Step.ignoresLog_recheckTypeNames _) fun _ => Step.ignoresLog_log _ _ _

end Analysis

end ZScript
