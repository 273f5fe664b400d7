import ZScript.Proofs.ArenaSteps

/-!
# Tagging and reading types only tag

Tagging an expression, and reading a written type, look names up and classify tokens: they add
semantic tokens and warnings, and change nothing else in the file's analysis (`Step.Tags`,
`Parse.Tags`). So every reader may call them without any care for its tree.
-/

namespace ZScript

open Step.Tags in
/-- Naming a declaration only tags. -/
theorem Tagging.tags_emitDecl (t : Token) (d : DeclRef) : Step.Tags (Tagging.emitDecl t d) := by
  unfold Tagging.emitDecl
  refine bind Step.tags_view fun v => ?_
  split
  · exact pure _
  · exact bind (Step.tags_emitRef _ _ _ _) fun _ => pure _

open Step.Tags in
theorem Tagging.tags_ident (t : Token) (scope : Scope) : Step.Tags (Tagging.ident t scope) := by
  unfold Tagging.ident
  refine bind Step.tags_view fun v => ?_
  split
  · exact bind (Step.tags_emit _ _) fun _ => pure _
  split
  · exact bind (Step.tags_emitRef _ _ _ _) fun _ => pure _
  -- a symbol, else a type, else a builtin, else an unresolved name
  split
  · exact Tagging.tags_emitDecl _ _
  split
  · exact Tagging.tags_emitDecl _ _
  split
  · exact bind (Step.tags_emitRef _ _ _ _) fun _ => pure _
  · exact bind (Step.tags_emitRef _ _ _ _) fun _ => bind (Step.tags_warn _ _) fun _ => pure _

open Step.Tags in
theorem Tagging.tags_links : ∀ (current : Option Ty) (rest : List Leaf),
    Step.Tags (Tagging.links current rest)
  | _, [] => pure _
  | current, .ident t :: rest => by
    rw [Tagging.links]
    refine bind Step.tags_view fun v => ?_
    split
    · exact pure _
    split
    · exact bind (Tagging.tags_emitDecl _ _) fun ty => Tagging.tags_links ty rest
    · exact bind (Step.tags_emitRef _ _ _ _) fun _ => bind (Step.tags_warn _ _) fun _ => pure _
  | _, .integer _ :: _ | _, .double _ :: _ | _, .boolean _ :: _ | _, .string _ :: _
  | _, .expr _ :: _ => pure _

open Step.Tags in
theorem Tagging.tags_newClass (t : Token) (scope : Scope) :
    Step.Tags (Tagging.newClass t scope) := by
  unfold Tagging.newClass
  refine bind Step.tags_view fun v => ?_
  dsimp only
  split
  · exact bind (Step.tags_emitRef _ _ _ _) fun _ => pure _
  · exact bind (Step.tags_emitRef _ _ _ _) fun _ => bind (Step.tags_warn _ _) fun _ => pure _

open Step.Tags in
mutual

theorem Tagging.tags_expr (scope : Scope) : ∀ e : Expr, Step.Tags (Tagging.expr scope e)
  | ⟨op, assign, leaves, operators, special, type⟩ => by
    rw [Tagging.expr]
    refine bind (forIn _ _ fun _ _ => bind (Step.tags_emit _ _) fun _ => pure _) fun _ => ?_
    refine bind (forIn _ _ fun _ _ => bind (Step.tags_emit _ _) fun _ => pure _) fun _ => ?_
    exact bind (Tagging.tags_operands scope op leaves) fun _ => pure _

theorem Tagging.tags_operands (scope : Scope) (op : Operator) :
    ∀ ls : List Leaf, Step.Tags (Tagging.operands scope op ls)
  | [] => by
    rw [Tagging.operands]
    exact pure _
  | first :: rest => by
    unfold Tagging.operands
    -- member access, call (a `new` or an ordinary one), cast, and every other operator
    split
    · exact bind (Tagging.tags_leaf scope first) fun ⟨_, _⟩ =>
        bind (Tagging.tags_links _ _) fun _ => pure _
    · split
      · split
        · refine bind (Step.tags_emit _ _) fun _ => ?_
          split
          · exact bind (Tagging.tags_newClass _ _) fun _ => pure _
          · exact bind (Tagging.tags_leaves scope rest) fun ⟨_, _⟩ => pure _
        · exact bind (Tagging.tags_leaf scope _) fun ⟨_, _⟩ =>
            bind (Tagging.tags_leaves scope rest) fun ⟨_, _⟩ => pure _
      · exact bind (Tagging.tags_leaf scope _) fun ⟨_, _⟩ =>
          bind (Tagging.tags_leaves scope rest) fun ⟨_, _⟩ => pure _
    · refine bind (Tagging.tags_leaves scope rest) fun ⟨_, _⟩ => ?_
      dsimp only
      split
      · exact bind (Step.tags_emitRef _ _ _ _) fun _ => pure _
      · exact pure _
    · exact bind (Tagging.tags_leaf scope first) fun ⟨_, _⟩ =>
        bind (Tagging.tags_leaves scope rest) fun ⟨_, _⟩ => pure _

theorem Tagging.tags_leaves (scope : Scope) : ∀ ls : List Leaf, Step.Tags (Tagging.leaves scope ls)
  | [] => by
    rw [Tagging.leaves]
    exact pure _
  | l :: ls => by
    rw [Tagging.leaves]
    exact bind (Tagging.tags_leaf scope l) fun ⟨_, _⟩ =>
      bind (Tagging.tags_leaves scope ls) fun ⟨_, _⟩ => pure _

theorem Tagging.tags_leaf (scope : Scope) : ∀ l : Leaf, Step.Tags (Tagging.leaf scope l)
  | .integer t | .double t | .boolean t | .string t => by
    rw [Tagging.leaf]
    exact bind (Step.tags_emit _ _) fun _ => pure _
  | .ident t => by
    rw [Tagging.leaf]
    exact bind (Tagging.tags_ident t scope) fun _ => pure _
  | .expr e => by
    rw [Tagging.leaf]
    exact bind (Tagging.tags_expr scope e) fun _ => pure _

end

theorem Expr.tags_tag (e : Expr) (scope : Scope) : Step.Tags (e.tag scope) :=
  Step.Tags.bind (Tagging.tags_expr scope e) fun _ => Step.Tags.pure _

/-! ## Reading types -/

open Step.Tags in
theorem Types.tags_emitTypeName (t : Token) (resolved : Option DeclRef) (context : Option Nat) :
    Step.Tags (Types.emitTypeName t resolved context) := by
  unfold Types.emitTypeName
  refine bind Step.tags_view fun v => ?_
  split
  · exact Step.tags_emitRef _ _ _ _
  · exact Step.tags_emitRef _ _ _ _

open Parse.Tags in
theorem Types.tags_dotted (context : Option Nat) :
    ∀ (fuel : Nat) (path : String) (resolved : Option DeclRef),
      Parse.Tags (Types.dotted context fuel path resolved)
  | 0, _, _ => quiet Parse.quiet_tooDeep
  | fuel + 1, path, resolved => by
    rw [Types.dotted]
    refine bind (quiet (Parse.quiet_check _)) fun _ => bind (quiet (Parse.quiet_peekAt _)) fun _ => ?_
    dsimp only
    split
    · exact pure _
    refine bind (quiet Parse.quiet_next) fun dot => ?_
    split
    -- the dot is tagged when there is one; then, either way, the next part of the name
    refine bind (lift (Step.tags_emit _ _)) fun _ => ?_
    all_goals
      exact bind (quiet (Parse.quiet_expectIdent _)) fun _ => bind (lift Step.tags_view) fun _ =>
        bind (lift (Types.tags_emitTypeName _ _ _)) fun _ => Types.tags_dotted context fuel _ _

section
open Parse.Tags

mutual

theorem Types.tags_reference (context : Option Nat) :
    ∀ fuel : Nat, Parse.Tags (Types.reference context fuel)
  | 0 => quiet Parse.quiet_tooDeep
  | fuel + 1 => by
    rw [Types.reference]
    refine bind (quiet (Parse.quiet_expectIdent _)) fun _ => ?_
    dsimp only
    split
    -- a builtin name, or a declared one with its dotted parts; both go on to the type's arguments
    refine bind (lift (Step.tags_emitRef _ _ _ _)) fun _ => bind (pure _) fun _ => ?_
    rotate_left
    refine bind (lift Step.tags_view) fun _ => bind (lift (Types.tags_emitTypeName _ _ _)) fun _ =>
      bind (quiet Parse.quiet_fuel) fun _ => bind (Types.tags_dotted _ _ _ _) fun ⟨_, _⟩ =>
        bind (pure _) fun _ => ?_
    all_goals
      refine bind (quiet (Parse.quiet_accept _)) fun _ => ?_
      split
      · exact pure _
      · exact bind (lift (Step.tags_emit _ _)) fun _ =>
          bind (Types.tags_arguments context fuel) fun ⟨_, _⟩ => pure _

theorem Types.tags_arguments (context : Option Nat) :
    ∀ fuel : Nat, Parse.Tags (Types.arguments context fuel)
  | 0 => quiet Parse.quiet_tooDeep
  | fuel + 1 => by
    rw [Types.arguments]
    refine bind (Types.tags_reference context fuel) fun ⟨_, _⟩ => ?_
    dsimp only
    split
    · exact pure _
    refine bind (quiet (Parse.quiet_expect _ _)) fun _ => bind (lift (Step.tags_emit _ _)) fun _ => ?_
    split
    · exact bind (Types.tags_arguments context fuel) fun ⟨_, _⟩ => pure _
    · exact pure _
    · exact pure _

end

end

open Parse.Tags in
theorem Parse.tags_compoundType (context : Option Nat) : Parse.Tags (Parse.compoundType context) := by
  unfold Parse.compoundType
  refine bind (quiet Parse.quiet_fuel) fun _ => bind (Types.tags_reference _ _) fun ⟨_, _⟩ => ?_
  dsimp only
  split
  · exact bind (quiet Quiet.get) fun _ => throw
  · exact pure _

open Parse.Tags in
theorem Parse.tags_dimensions : ∀ fuel : Nat, Parse.Tags (Parse.dimensions fuel)
  | 0 => quiet Parse.quiet_tooDeep
  | fuel + 1 => by
    rw [Parse.dimensions]
    refine bind (quiet (Parse.quiet_accept _)) fun _ => ?_
    split
    · exact pure _
    refine bind (lift (Step.tags_emit _ _)) fun _ => bind (quiet (Parse.quiet_balanced _)) fun _ =>
      bind (quiet (Parse.quiet_expect _ _)) fun _ => bind (lift (Step.tags_emit _ _)) fun _ => ?_
    dsimp only
    split
    · exact bind (pure _) fun _ => bind (Parse.tags_dimensions fuel) fun _ => pure _
    · exact bind (map _ (quiet (Parse.quiet_ofExcept _))) fun _ =>
        bind (Parse.tags_dimensions fuel) fun _ => pure _

open Parse.Tags in
theorem Parse.tags_bracedBody (what : String) : Parse.Tags (Parse.bracedBody what) :=
  bind (quiet (Parse.quiet_expect _ _)) fun _ => bind (Parse.Tags.step (Step.tags_emit _ _)) fun _ =>
    bind (quiet (Parse.quiet_balanced _)) fun _ => bind (quiet (Parse.quiet_expect _ _)) fun _ =>
      bind (Parse.Tags.step (Step.tags_emit _ _)) fun _ => pure _

open Parse.Tags in
theorem Parse.tags_semicolon (what : String) : Parse.Tags (Parse.semicolon what) :=
  bind (quiet (Parse.quiet_expect _ _)) fun _ => Parse.Tags.step (Step.tags_emit _ _)

/-! ## Expressions of method bodies -/

theorem Bodies.tags_scopeAt (node owner : Nat) : Step.Tags (Bodies.scopeAt node owner) :=
  Step.Tags.bind (Step.tags_here _) fun _ => Step.Tags.pure _

open Parse.Tags in
theorem Bodies.tags_tagged (stop : List TokenKind) (scope : Scope) :
    Parse.Tags (Bodies.tagged stop scope) :=
  bind (quiet (Parse.quiet_expression _)) fun e => lift (Expr.tags_tag e scope)

theorem Bodies.tags_tagDims (dims : List (Option Expr)) (scope : Scope) :
    Step.Tags (Bodies.tagDims dims scope) :=
  Step.Tags.listMapM (Step.Tags.optionMapM fun e => Expr.tags_tag e scope) dims

open Parse.Tags in
theorem Bodies.tags_attempt {α : Type} {x : Parse α} (h : Parse.Tags x) :
    Parse.Tags (Bodies.attempt x) :=
  tryCatch (map _ h) fun _ => pure _

open Parse.Tags in
theorem Bodies.tags_condition (scope : Scope) : Parse.Tags (Bodies.condition scope) :=
  bind (quiet (Parse.quiet_expect _ _)) fun _ => bind (lift (Step.tags_emit _ _)) fun _ =>
    bind (Bodies.tags_tagged _ _) fun _ => bind (quiet (Parse.quiet_expect _ _)) fun _ =>
      bind (lift (Step.tags_emit _ _)) fun _ => pure _

open Parse.Tags in
theorem Bodies.tags_steps (scope : Scope) : ∀ fuel : Nat, Parse.Tags (Bodies.steps scope fuel)
  | 0 => quiet Parse.quiet_tooDeep
  | fuel + 1 => by
    rw [Bodies.steps]
    refine bind (Bodies.tags_tagged _ _) fun _ => bind (quiet (Parse.quiet_accept _)) fun _ => ?_
    split
    · exact bind (lift (Step.tags_emit _ _)) fun _ =>
        bind (Bodies.tags_steps scope fuel) fun _ => pure _
    · exact pure _

end ZScript
