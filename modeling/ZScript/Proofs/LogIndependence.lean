import ZScript.Proofs.StepLogic

/-!
# Analysis never reads the log

A step of analysis changes the work, which is the file's analysis and the project's log. The log
is only ever written: no step reads it to decide what to do. So a step started from two works
with the same analysis and different logs ends with the same value and the same analysis
(`Step.IgnoresLog`), and a reader does so from every cursor (`Parse.IgnoresLog`).

The property is closed under the combinators of the monads (`pure`, `bind`, `throw`, catching a
failure, the lift of a step into a reader, `for` loops), every primitive step has it, and so has
every reader of the cursor, of types and of expressions. The readers and phases built from them
follow in `ZScript.Proofs.LogIndependentReaders` and `ZScript.Proofs.LogIndependentBodies`.
-/

namespace ZScript

namespace Step

/-- A step that never reads the log: from two works with the same analysis it ends with the same
    value and the same analysis, whatever either log holds. -/
def IgnoresLog {α : Type} (x : Step α) : Prop :=
  ∀ u w w', w.file = w'.file → (x u w).1 = (x u w').1 ∧ (x u w).2.file = (x u w').2.file

namespace IgnoresLog

variable {α β : Type}

theorem pure (a : α) : IgnoresLog (Pure.pure a : Step α) := fun _ _ _ h => ⟨rfl, h⟩

theorem bind {x : Step α} {f : α → Step β} (hx : IgnoresLog x) (hf : ∀ a, IgnoresLog (f a)) :
    IgnoresLog (x >>= f) := by
  intro u w w' h
  obtain ⟨hvalue, hfile⟩ := hx u w w' h
  rw [bind_run, bind_run, hvalue]
  exact hf _ u _ _ hfile

theorem map (g : α → β) {x : Step α} (hx : IgnoresLog x) : IgnoresLog (g <$> x) := by
  rw [map_eq_pure_bind]
  exact bind hx fun a => pure (g a)

/-- A step whose value and analysis are functions of the universe and the analysis it starts
    from; every primitive step is one. -/
theorem of_file {x : Step α} (g : Universe → Analysis → α) (F : Universe → Analysis → Analysis)
    (h : ∀ u w, (x u w).1 = g u w.file ∧ (x u w).2.file = F u w.file) : IgnoresLog x := by
  intro u w w' hw
  rw [(h u w).1, (h u w).2, (h u w').1, (h u w').2, hw]
  exact ⟨rfl, rfl⟩

theorem read : IgnoresLog (MonadReader.read : Step Universe) := fun _ _ _ h => ⟨rfl, h⟩

theorem withReader {x : Step α} (h : IgnoresLog x) (f : Universe → Universe) :
    IgnoresLog (withReader f x) :=
  fun u w w' hw => h (f u) w w' hw

/-- A loop whose body never reads the log. -/
theorem forIn {γ σ : Type} (xs : List γ) (init : σ) {f : γ → σ → Step (ForInStep σ)}
    (hf : ∀ b s, IgnoresLog (f b s)) : IgnoresLog (forIn xs init f) := by
  induction xs generalizing init with
  | nil =>
    rw [List.forIn_nil]
    exact pure init
  | cons b bs ih =>
    rw [List.forIn_cons]
    refine bind (hf b init) fun r => ?_
    cases r with
    | done s => exact pure s
    | yield s => exact ih s

/-! ### Steps that may fail -/

theorem except_pure (a : α) : IgnoresLog (Pure.pure a : ExceptT ParseError Step α).run :=
  fun _ _ _ h => ⟨rfl, h⟩

theorem except_throw (e : ParseError) :
    IgnoresLog (MonadExcept.throw e : ExceptT ParseError Step α).run :=
  fun _ _ _ h => ⟨rfl, h⟩

theorem except_lift {x : Step α} (h : IgnoresLog x) :
    IgnoresLog (monadLift x : ExceptT ParseError Step α).run := by
  intro u w w' hw
  obtain ⟨hvalue, hfile⟩ := h u w w' hw
  exact ⟨congrArg Except.ok hvalue, hfile⟩

theorem except_bind {x : ExceptT ParseError Step α} {f : α → ExceptT ParseError Step β}
    (hx : IgnoresLog x.run) (hf : ∀ a, IgnoresLog (f a).run) : IgnoresLog (x >>= f).run := by
  rw [ExceptT.run_bind]
  refine bind hx fun r => ?_
  cases r with
  | error e => exact pure _
  | ok a => exact hf a

end IgnoresLog

/-! ### The primitive steps -/

theorem ignoresLog_current : IgnoresLog current :=
  .of_file (fun _ a => a) (fun _ a => a) fun _ _ => ⟨rfl, rfl⟩

theorem ignoresLog_change (f : Analysis → Analysis) : IgnoresLog (change f) :=
  .of_file (fun _ _ => ()) (fun _ a => f a) fun _ _ => ⟨rfl, rfl⟩

theorem ignoresLog_tree : IgnoresLog tree :=
  .of_file (fun _ a => a.tree) (fun _ a => a) fun _ _ => ⟨rfl, rfl⟩

theorem ignoresLog_changeTree (f : Tree → Tree) : IgnoresLog (changeTree f) :=
  ignoresLog_change _

theorem ignoresLog_log (level : LogLevel) (source : LogSource) (message : String) :
    IgnoresLog (log level source message) :=
  .of_file (fun _ _ => ()) (fun _ a => a) fun _ _ => ⟨rfl, rfl⟩

theorem ignoresLog_node? (d : DeclRef) : IgnoresLog (node? d) := by
  refine .bind ignoresLog_current fun a => ?_
  split
  · exact .pure _
  · exact .bind .read fun _ => .pure _

theorem ignoresLog_here (id : Nat) : IgnoresLog (here id) :=
  .bind ignoresLog_current fun _ => .pure _

theorem ignoresLog_view : IgnoresLog view :=
  .bind ignoresLog_current fun _ => .bind .read fun _ => .pure _

theorem ignoresLog_alloc (parent : Option Nat) (name : String) (line : Nat) (kind : NodeKind) :
    IgnoresLog (alloc parent name line kind) :=
  .bind ignoresLog_tree fun _ => .bind (ignoresLog_changeTree _) fun _ => .pure _

theorem ignoresLog_add (parent : Nat) (name : String) (line : Nat) (kind : NodeKind) :
    IgnoresLog (add parent name line kind) :=
  .bind ignoresLog_tree fun _ => .bind (ignoresLog_changeTree _) fun _ => .pure _

theorem ignoresLog_attach (parent child : Nat) : IgnoresLog (attach parent child) :=
  ignoresLog_changeTree _

theorem ignoresLog_modifyKind (id : Nat) (f : NodeKind → NodeKind) :
    IgnoresLog (modifyKind id f) :=
  ignoresLog_changeTree _

theorem ignoresLog_emitToken (s : SemanticToken) : IgnoresLog (emitToken s) :=
  ignoresLog_change _

theorem ignoresLog_emit (t : Token) (kind : SemanticKind) : IgnoresLog (emit t kind) :=
  ignoresLog_emitToken _

theorem ignoresLog_emitRef (t : Token) (kind : SemanticKind) (ref : Option Target)
    (name : String) : IgnoresLog (emitRef t kind ref name) :=
  ignoresLog_emitToken _

theorem ignoresLog_report (e : ParseError) : IgnoresLog (report e) :=
  .bind ignoresLog_current fun _ => .bind (ignoresLog_log _ _ _) fun _ => ignoresLog_change _

theorem ignoresLog_warn (message : String) (line : Nat) : IgnoresLog (warn message line) :=
  .bind ignoresLog_current fun _ => .bind (ignoresLog_log _ _ _) fun _ => ignoresLog_change _

theorem ignoresLog_fail (e : ParseError) : IgnoresLog (fail e) :=
  .bind (ignoresLog_report e) fun _ => ignoresLog_change _

theorem ignoresLog_mark : IgnoresLog mark :=
  .bind ignoresLog_current fun _ => .pure _

theorem ignoresLog_rollback (m : Mark) : IgnoresLog (rollback m) :=
  ignoresLog_change _

theorem ignoresLog_discardNodes (m : Mark) : IgnoresLog (discardNodes m) :=
  ignoresLog_change _

end Step

namespace Parse

/-- A reader that never reads the log, from any cursor. -/
def IgnoresLog {α : Type} (x : Parse α) : Prop := ∀ c, Step.IgnoresLog (x c).run

namespace IgnoresLog

variable {α β : Type}

theorem pure (a : α) : IgnoresLog (Pure.pure a : Parse α) := fun _ _ _ _ h => ⟨rfl, h⟩

theorem bind {x : Parse α} {f : α → Parse β} (hx : IgnoresLog x) (hf : ∀ a, IgnoresLog (f a)) :
    IgnoresLog (x >>= f) := by
  intro c
  rw [run_bind]
  refine Step.IgnoresLog.bind (hx c) fun r => ?_
  rcases r with e | ⟨a, c'⟩
  · exact Step.IgnoresLog.pure _
  · exact hf a c'

theorem map (g : α → β) {x : Parse α} (hx : IgnoresLog x) : IgnoresLog (g <$> x) := by
  rw [map_eq_pure_bind]
  exact bind hx fun a => pure (g a)

/-- A reader run for its effect alone. -/
theorem discard {x : Parse α} (hx : IgnoresLog x) : IgnoresLog (Functor.discard x) := by
  rw [Functor.discard, LawfulFunctor.map_const, Function.comp_apply]
  exact map _ hx

theorem throw (e : ParseError) : IgnoresLog (MonadExcept.throw e : Parse α) :=
  fun _ _ _ _ h => ⟨rfl, h⟩

/-- What follows a failure never runs. -/
theorem throw_bind (e : ParseError) (f : α → Parse β) :
    IgnoresLog (MonadExcept.throw e >>= f) :=
  fun _ _ _ _ h => ⟨rfl, h⟩

theorem tryCatch {x : Parse α} {h : ParseError → Parse α} (hx : IgnoresLog x)
    (hh : ∀ e, IgnoresLog (h e)) : IgnoresLog (MonadExcept.tryCatch x h) := by
  intro c
  rw [run_tryCatch]
  refine Step.IgnoresLog.bind (hx c) fun r => ?_
  rcases r with e | ⟨a, c'⟩
  · exact hh e c
  · exact Step.IgnoresLog.pure _

/-- A step run inside a reader. -/
theorem step {x : Step α} (h : Step.IgnoresLog x) : IgnoresLog (Parse.step x) := by
  intro c u w w' hw
  obtain ⟨hvalue, hfile⟩ := h u w w' hw
  exact ⟨congrArg (fun a => Except.ok (a, c)) hvalue, hfile⟩

/-- A step lifted into a reader by a `do` block. -/
theorem lift {x : Step α} (h : Step.IgnoresLog x) : IgnoresLog (monadLift x : Parse α) :=
  step h

/-- A step that may fail, lifted into a reader. -/
theorem exceptLift {x : ExceptT ParseError Step α} (h : Step.IgnoresLog x.run) :
    IgnoresLog (monadLift x : Parse α) :=
  fun _ => Step.IgnoresLog.except_bind h fun _ => Step.IgnoresLog.except_pure _

theorem get : IgnoresLog (MonadState.get : Parse Cursor) := fun _ _ _ _ h => ⟨rfl, h⟩

theorem set (c' : Cursor) : IgnoresLog (MonadStateOf.set c' : Parse PUnit) :=
  fun _ _ _ _ h => ⟨rfl, h⟩

theorem modifyGet (f : Cursor → α × Cursor) : IgnoresLog (MonadState.modifyGet f : Parse α) :=
  fun _ _ _ _ h => ⟨rfl, h⟩

/-- A loop whose body never reads the log. -/
theorem forIn {γ σ : Type} (xs : List γ) (init : σ) {f : γ → σ → Parse (ForInStep σ)}
    (hf : ∀ b s, IgnoresLog (f b s)) : IgnoresLog (forIn xs init f) := by
  induction xs generalizing init with
  | nil =>
    rw [List.forIn_nil]
    exact pure init
  | cons b bs ih =>
    rw [List.forIn_cons]
    refine bind (hf b init) fun r => ?_
    cases r with
    | done s => exact pure s
    | yield s => exact ih s

/-- A reader run on a token list of its own. -/
theorem runOn {x : Parse α} (h : IgnoresLog x) (ts : List Token) :
    Step.IgnoresLog (Parse.runOn ts x).run := by
  intro u w w' hw
  obtain ⟨hvalue, hfile⟩ := h (Cursor.ofList ts) u w w' hw
  rw [runOn_run, runOn_run, hvalue]
  exact ⟨rfl, hfile⟩

end IgnoresLog

/-! ### The readers of the cursor -/

theorem ignoresLog_peek : IgnoresLog peek := .bind .get fun _ => .pure _

theorem ignoresLog_peekAt (n : Nat) : IgnoresLog (peekAt n) := .bind .get fun _ => .pure _

theorem ignoresLog_check (k : TokenKind) : IgnoresLog (check k) := .bind .get fun _ => .pure _

theorem ignoresLog_next : IgnoresLog next := by
  refine .bind .get fun c => ?_
  split
  · exact .bind (.set _) fun _ => .pure _
  · exact .pure _

theorem ignoresLog_accept (kinds : List TokenKind) : IgnoresLog (accept kinds) := by
  refine .bind .get fun c => ?_
  split
  · exact .bind (.set _) fun _ => .pure _
  · exact .pure _

theorem ignoresLog_acceptKeyword (word : String) : IgnoresLog (acceptKeyword word) := by
  refine .bind .get fun c => ?_
  split
  · exact .bind (.set _) fun _ => .pure _
  · exact .pure _

theorem ignoresLog_unexpected {α : Type} (expected : String) :
    IgnoresLog (unexpected expected : Parse α) := by
  refine .bind (.bind .get fun c => ?_) fun _ => .throw _
  split <;> exact .pure _

theorem ignoresLog_expect (kinds : List TokenKind) (expected : String) :
    IgnoresLog (expect kinds expected) := by
  refine .bind (ignoresLog_accept kinds) fun r => ?_
  split
  · exact .pure _
  · exact ignoresLog_unexpected expected

theorem ignoresLog_expectIdent (what : String) : IgnoresLog (expectIdent what) :=
  ignoresLog_expect _ _

theorem ignoresLog_balanced (stop : List TokenKind) : IgnoresLog (balanced stop) := .modifyGet _

theorem ignoresLog_liftExpr {α : Type} (x : ExprParser.M α) : IgnoresLog (liftExpr x) := by
  intro c
  unfold liftExpr
  split
  · exact Step.IgnoresLog.except_pure _
  · exact Step.IgnoresLog.except_throw _

theorem ignoresLog_expression (stop : List TokenKind) : IgnoresLog (expression stop) :=
  ignoresLog_liftExpr _

theorem ignoresLog_tooDeep {α : Type} : IgnoresLog (tooDeep : Parse α) :=
  .bind .get fun _ => .throw _

theorem ignoresLog_fuel : IgnoresLog fuel := .bind .get fun _ => .pure _

theorem ignoresLog_ofExcept {α : Type} (x : Except ParseError α) : IgnoresLog (ofExcept x) := by
  cases x with
  | error e => exact .throw e
  | ok a => exact .pure a

theorem ignoresLog_bracedBody (what : String) : IgnoresLog (bracedBody what) := by
  refine .bind (ignoresLog_expect _ _) fun _ => .bind (.step (Step.ignoresLog_emit _ _)) fun _ => ?_
  refine .bind (ignoresLog_balanced _) fun _ => .bind (ignoresLog_expect _ _) fun _ => ?_
  exact .bind (.step (Step.ignoresLog_emit _ _)) fun _ => .pure _

theorem ignoresLog_semicolon (what : String) : IgnoresLog (semicolon what) :=
  .bind (ignoresLog_expect _ _) fun _ => .step (Step.ignoresLog_emit _ _)

end Parse

/-! ## Tagging expressions -/

namespace Tagging

theorem ignoresLog_emitDecl (t : Token) (d : DeclRef) : Step.IgnoresLog (emitDecl t d) := by
  unfold emitDecl
  refine .bind Step.ignoresLog_view fun v => ?_
  split
  · exact .pure _
  · exact .bind (Step.ignoresLog_emitRef _ _ _ _) fun _ => .pure _

theorem ignoresLog_ident (t : Token) (scope : Scope) : Step.IgnoresLog (ident t scope) := by
  unfold ident
  refine .bind Step.ignoresLog_view fun v => ?_
  split
  · exact .bind (Step.ignoresLog_emit _ _) fun _ => .pure _
  split
  · exact .bind (Step.ignoresLog_emitRef _ _ _ _) fun _ => .pure _
  -- a symbol, else a type, else a builtin, else an unresolved name
  split
  · exact ignoresLog_emitDecl _ _
  split
  · exact ignoresLog_emitDecl _ _
  split
  · exact .bind (Step.ignoresLog_emitRef _ _ _ _) fun _ => .pure _
  · exact .bind (Step.ignoresLog_emitRef _ _ _ _) fun _ =>
      .bind (Step.ignoresLog_warn _ _) fun _ => .pure _

theorem ignoresLog_links (current : Option Ty) (rest : List Leaf) :
    Step.IgnoresLog (links current rest) := by
  induction rest generalizing current with
  | nil =>
    rw [links]
    exact .pure _
  | cons l rest ih =>
    cases l with
    | ident t =>
      rw [links]
      refine .bind Step.ignoresLog_view fun v => ?_
      split
      · exact .pure _
      split
      · exact .bind (ignoresLog_emitDecl _ _) fun ty => ih ty
      · exact .bind (Step.ignoresLog_emitRef _ _ _ _) fun _ =>
          .bind (Step.ignoresLog_warn _ _) fun _ => .pure _
    | integer _ | double _ | boolean _ | string _ | expr _ => exact .pure _

theorem ignoresLog_newClass (t : Token) (scope : Scope) : Step.IgnoresLog (newClass t scope) := by
  unfold newClass
  refine .bind Step.ignoresLog_view fun v => ?_
  dsimp only
  split
  · exact .bind (Step.ignoresLog_emitRef _ _ _ _) fun _ => .pure _
  · exact .bind (Step.ignoresLog_emitRef _ _ _ _) fun _ =>
      .bind (Step.ignoresLog_warn _ _) fun _ => .pure _

/-- Tagging every token of a list. -/
theorem ignoresLog_emitAll (ts : List Token) (kind : Token → SemanticKind) :
    Step.IgnoresLog (forIn ts PUnit.unit fun t _ => do
      Step.emit t (kind t); Pure.pure (ForInStep.yield PUnit.unit)) :=
  .forIn ts _ fun _ _ => .bind (Step.ignoresLog_emit _ _) fun _ => .pure _

mutual

theorem ignoresLog_expr (scope : Scope) : ∀ e : Expr, Step.IgnoresLog (expr scope e)
  | ⟨op, assign, leaves, operators, special, type⟩ => by
    rw [expr]
    refine .bind (ignoresLog_emitAll _ _) fun _ => .bind (ignoresLog_emitAll _ _) fun _ => ?_
    refine .bind (ignoresLog_operands scope op leaves) fun r => ?_
    obtain ⟨_, _⟩ := r
    exact .pure _

theorem ignoresLog_operands (scope : Scope) (op : Operator) :
    ∀ ls : List Leaf, Step.IgnoresLog (operands scope op ls)
  | [] => by
    rw [operands]
    exact .pure _
  | first :: rest => by
    unfold operands
    -- member access, call (a `new` or an ordinary one), cast, and every other operator
    split
    · refine .bind (ignoresLog_leaf scope first) fun r => ?_
      obtain ⟨_, _⟩ := r
      exact .bind (ignoresLog_links _ rest) fun _ => .pure _
    · split
      · split
        · refine .bind (Step.ignoresLog_emit _ _) fun _ => ?_
          split
          · exact .bind (ignoresLog_newClass _ _) fun _ => .pure _
          · refine .bind (ignoresLog_leaves scope rest) fun r => ?_
            obtain ⟨_, _⟩ := r
            exact .pure _
        · refine .bind (ignoresLog_leaf scope _) fun r => ?_
          obtain ⟨_, _⟩ := r
          refine .bind (ignoresLog_leaves scope rest) fun r' => ?_
          obtain ⟨_, _⟩ := r'
          exact .pure _
      · refine .bind (ignoresLog_leaf scope _) fun r => ?_
        obtain ⟨_, _⟩ := r
        refine .bind (ignoresLog_leaves scope rest) fun r' => ?_
        obtain ⟨_, _⟩ := r'
        exact .pure _
    · refine .bind (ignoresLog_leaves scope rest) fun r => ?_
      obtain ⟨_, _⟩ := r
      dsimp only
      split
      · exact .bind (Step.ignoresLog_emitRef _ _ _ _) fun _ => .pure _
      · exact .pure _
    · refine .bind (ignoresLog_leaf scope first) fun r => ?_
      obtain ⟨_, _⟩ := r
      refine .bind (ignoresLog_leaves scope rest) fun r' => ?_
      obtain ⟨_, _⟩ := r'
      exact .pure _

theorem ignoresLog_leaves (scope : Scope) : ∀ ls : List Leaf, Step.IgnoresLog (leaves scope ls)
  | [] => by
    rw [leaves]
    exact .pure _
  | l :: ls => by
    rw [leaves]
    refine .bind (ignoresLog_leaf scope l) fun r => ?_
    obtain ⟨_, _⟩ := r
    refine .bind (ignoresLog_leaves scope ls) fun r' => ?_
    obtain ⟨_, _⟩ := r'
    exact .pure _

theorem ignoresLog_leaf (scope : Scope) : ∀ l : Leaf, Step.IgnoresLog (leaf scope l)
  | .integer t | .double t | .boolean t | .string t => by
    rw [leaf]
    exact .bind (Step.ignoresLog_emit _ _) fun _ => .pure _
  | .ident t => by
    rw [leaf]
    exact .bind (ignoresLog_ident t scope) fun _ => .pure _
  | .expr e => by
    rw [leaf]
    refine .bind (ignoresLog_expr scope e) fun r => ?_
    obtain ⟨_, _⟩ := r
    exact .pure _

end

end Tagging

theorem Expr.ignoresLog_tag (e : Expr) (scope : Scope) : Step.IgnoresLog (e.tag scope) :=
  .bind (Tagging.ignoresLog_expr scope e) fun _ => .pure _

/-! ## Reading types -/

namespace Types

open Parse

theorem ignoresLog_emitTypeName (t : Token) (resolved : Option DeclRef) (context : Option Nat) :
    Step.IgnoresLog (emitTypeName t resolved context) := by
  unfold emitTypeName
  refine .bind Step.ignoresLog_view fun v => ?_
  split
  · exact Step.ignoresLog_emitRef _ _ _ _
  · exact Step.ignoresLog_emitRef _ _ _ _

theorem ignoresLog_dotted (context : Option Nat) (fuel : Nat) (path : String)
    (resolved : Option DeclRef) : IgnoresLog (dotted context fuel path resolved) := by
  induction fuel generalizing path resolved with
  | zero =>
    rw [dotted]
    exact ignoresLog_tooDeep
  | succ fuel ih =>
    rw [dotted]
    refine .bind (ignoresLog_check _) fun _ => .bind (ignoresLog_peekAt _) fun _ => ?_
    dsimp only
    split
    · exact .pure _
    refine .bind ignoresLog_next fun dot => ?_
    split
    -- the dot is tagged when there is one; then, either way, the next part of the name
    refine .bind (.lift (Step.ignoresLog_emit _ _)) fun _ => ?_
    all_goals
      exact .bind (ignoresLog_expectIdent _) fun _ => .bind (.lift Step.ignoresLog_view) fun _ =>
        .bind (.lift (ignoresLog_emitTypeName _ _ _)) fun _ => ih _ _

/-- The two type readers, which call each other with less fuel. -/
theorem ignoresLog_reference_arguments (context : Option Nat) (fuel : Nat) :
    IgnoresLog (reference context fuel) ∧ IgnoresLog (arguments context fuel) := by
  induction fuel with
  | zero =>
    rw [reference, arguments]
    exact ⟨ignoresLog_tooDeep, ignoresLog_tooDeep⟩
  | succ fuel ih =>
    constructor
    · rw [reference]
      refine .bind (ignoresLog_expectIdent _) fun name => ?_
      extract_lets jp
      -- what follows the name: the type's arguments, if any
      have hjp : ∀ base, IgnoresLog (jp base) := by
        intro base
        dsimp only [jp]
        refine .bind (ignoresLog_accept _) fun r => ?_
        split
        · exact .pure _
        · refine .bind (.lift (Step.ignoresLog_emit _ _)) fun _ => .bind ih.2 fun r => ?_
          obtain ⟨_, _⟩ := r
          exact .pure _
      -- a builtin name, or a declared one with its dotted parts
      split
      · exact .bind (.lift (Step.ignoresLog_emitRef _ _ _ _)) fun _ => .bind (.pure _) hjp
      · refine .bind (.lift Step.ignoresLog_view) fun _ =>
          .bind (.lift (ignoresLog_emitTypeName _ _ _)) fun _ =>
            .bind ignoresLog_fuel fun _ => .bind (ignoresLog_dotted _ _ _ _) fun r => ?_
        obtain ⟨_, _⟩ := r
        exact .bind (.pure _) hjp
    · rw [arguments]
      refine .bind ih.1 fun r => ?_
      obtain ⟨_, _⟩ := r
      dsimp only
      split
      · exact .pure _
      refine .bind (ignoresLog_expect _ _) fun _ => .bind (.lift (Step.ignoresLog_emit _ _)) fun _ => ?_
      split
      · refine .bind ih.2 fun r => ?_
        obtain ⟨_, _⟩ := r
        exact .pure _
      · exact .pure _
      · exact .pure _

theorem ignoresLog_reference (context : Option Nat) (fuel : Nat) :
    IgnoresLog (reference context fuel) :=
  (ignoresLog_reference_arguments context fuel).1

end Types

namespace Parse

theorem ignoresLog_compoundType (context : Option Nat) : IgnoresLog (compoundType context) := by
  unfold compoundType
  refine .bind ignoresLog_fuel fun _ => .bind (Types.ignoresLog_reference _ _) fun r => ?_
  obtain ⟨_, _⟩ := r
  dsimp only
  split
  · exact .bind .get fun _ => .throw _
  · exact .pure _

theorem ignoresLog_dimensions (fuel : Nat) : IgnoresLog (dimensions fuel) := by
  induction fuel with
  | zero =>
    rw [dimensions]
    exact ignoresLog_tooDeep
  | succ fuel ih =>
    rw [dimensions]
    refine .bind (ignoresLog_accept _) fun _ => ?_
    split
    · exact .pure _
    refine .bind (.lift (Step.ignoresLog_emit _ _)) fun _ => .bind (ignoresLog_balanced _) fun _ =>
      .bind (ignoresLog_expect _ _) fun _ => .bind (.lift (Step.ignoresLog_emit _ _)) fun _ => ?_
    dsimp only
    -- an empty size is a dimension without one; otherwise the size is read on its own
    split
    · exact .bind (.pure _) fun _ => .bind ih fun _ => .pure _
    · exact .bind (.map _ (ignoresLog_ofExcept _)) fun _ => .bind ih fun _ => .pure _

end Parse

end ZScript
