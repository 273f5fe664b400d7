import Mathlib
import ZScript.Analysis.Bodies

/-!
# Triples for analysis steps

A file is analysed by steps (`Step`: read the universe, change the work) and by readers (`Parse`:
a step that also moves a token cursor and may fail). To prove that every run keeps a property of
the work, we use Hoare triples over the work:

* `Step.Triple P x Q`: from a work satisfying `P`, the step ends in a work where `Q` holds of its
  value;
* `Parse.Triple P x Q E`: from a work satisfying `P` and any cursor, a reader that succeeds ends
  where `Q` holds of its value, and one that fails ends where `E` holds. A failure keeps what was
  done before it, so `E` is usually the invariant itself.

The rules follow the combinators of the monads: `pure`, `bind`, consequence, `throw`, the lift of
a step into a reader, `for` loops, and catching a failure. A reader that only looks at the cursor
(`Parse.Quiet`) keeps every property of the work.
-/

namespace ZScript

namespace Step

/-- From a work satisfying `P`, the step ends in a work where `Q` holds of its value. -/
def Triple {α : Type} (P : Work → Prop) (x : Step α) (Q : α → Work → Prop) : Prop :=
  ∀ u w, P w → Q (x u w).1 (x u w).2

namespace Triple

variable {α β : Type} {P P' : Work → Prop} {Q Q' : α → Work → Prop}

theorem pure {a : α} (h : ∀ w, P w → Q a w) : Triple P (Pure.pure a : Step α) Q :=
  fun _ w hw => h w hw

theorem bind {x : Step α} {f : α → Step β} {R : β → Work → Prop} (hx : Triple P x Q)
    (hf : ∀ a, Triple (Q a) (f a) R) : Triple P (x >>= f) R :=
  fun u w hw => hf _ u _ (hx u w hw)

theorem mono {x : Step α} (h : Triple P x Q) (hP : ∀ w, P' w → P w)
    (hQ : ∀ a w, Q a w → Q' a w) : Triple P' x Q' :=
  fun u w hw => hQ _ _ (h u w (hP w hw))

theorem pre {x : Step α} (h : Triple P x Q) (hP : ∀ w, P' w → P w) : Triple P' x Q :=
  h.mono hP fun _ _ => id

theorem post {x : Step α} (h : Triple P x Q) (hQ : ∀ a w, Q a w → Q' a w) : Triple P x Q' :=
  h.mono (fun _ => id) hQ

/-- A loop whose body keeps `I` keeps `I`. -/
theorem forIn {γ σ : Type} {I : Work → Prop} (xs : List γ) (init : σ)
    {f : γ → σ → Step (ForInStep σ)} (hf : ∀ b ∈ xs, ∀ s, Triple I (f b s) fun _ => I) :
    Triple I (forIn xs init f) fun _ => I := by
  induction xs generalizing init with
  | nil =>
    rw [List.forIn_nil]
    exact pure fun _ => id
  | cons b bs ih =>
    rw [List.forIn_cons]
    refine bind (hf b List.mem_cons_self init) fun r => ?_
    cases r with
    | done s => exact pure fun _ => id
    | yield s => exact ih s fun b hb => hf b (List.mem_cons_of_mem _ hb)

/-- A fact that does not depend on the work leaves the precondition for the context. -/
theorem of_fact {φ : Prop} {x : Step α} (h : φ → Triple P x Q) : Triple (fun w => φ ∧ P w) x Q :=
  fun u w hw => h hw.1 u w hw.2

/-- A proof may name the analysis a step starts from. -/
theorem ghost {x : Step α} (h : ∀ a, Triple (fun w => w.file = a ∧ P w) x Q) : Triple P x Q :=
  fun u w hw => h w.file u w ⟨rfl, hw⟩

/-- A step that leaves the tree alone keeps every fact about it. -/
theorem ofTree {x : Step α} {R : Tree → Prop} (h : ∀ u w, (x u w).2.file.tree = w.file.tree) :
    Triple (fun w => R w.file.tree) x (fun _ w => R w.file.tree) := fun u w hw => by
  show R (x u w).2.file.tree
  rw [h u w]
  exact hw

/-- A step that keeps `P` of every work it runs on. -/
theorem keep {x : Step α} (h : ∀ u w, P w → P (x u w).2) : Triple P x fun _ => P := h

/-- A step that keeps `R` of the analysis of each file keeps `R`. -/
theorem of_file {R : Analysis → Prop} {x : Step α}
    (h : ∀ f, Triple (fun w => R w.file ∧ w.file.file = f) x fun _ w => R w.file ∧ w.file.file = f) :
    Triple (fun w => R w.file) x fun _ w => R w.file :=
  fun u w hw => (h w.file.file u w ⟨hw, rfl⟩).1

theorem withReader {x : Step α} (h : Triple P x Q) (f : Universe → Universe) :
    Triple P (withReader f x) Q :=
  fun u w hw => h (f u) w hw

end Triple

/-! ## What the primitive steps do -/

section Run

variable (u : Universe) (w : Work)

theorem bind_run {α β : Type} (x : Step α) (f : α → Step β) :
    (x >>= f) u w = f (x u w).1 u (x u w).2 := rfl

theorem current_run : Step.current u w = (w.file, w) := rfl

theorem tree_run : Step.tree u w = (w.file.tree, w) := rfl

theorem view_run : Step.view u w = (⟨w.file.file, w.file.tree, u⟩, w) := rfl

theorem here_run (id : Nat) : Step.here id u w = (⟨w.file.file, id⟩, w) := rfl

theorem mark_run :
    Step.mark u w = (⟨w.file.tree.size, w.file.semantic.size, w.file.diagnostics.size⟩, w) := rfl

theorem log_run (level : LogLevel) (source : LogSource) (message : String) :
    (Step.log level source message u w).2.file = w.file := rfl

theorem emitToken_run (s : SemanticToken) :
    Step.emitToken s u w = ((), { w with file := { w.file with semantic := w.file.semantic.push s } }) :=
  rfl

theorem warn_run (message : String) (line : Nat) :
    (Step.warn message line u w).2.file =
      { w.file with diagnostics := w.file.diagnostics.push ⟨.warning, message, line⟩ } := rfl

theorem report_run (e : ParseError) :
    (Step.report e u w).2.file =
      { w.file with diagnostics := w.file.diagnostics.push e.toDiagnostic } := rfl

theorem alloc_run (parent : Option Nat) (name : String) (line : Nat) (kind : NodeKind) :
    Step.alloc parent name line kind u w = (w.file.tree.size,
      { w with file := { w.file with tree := (w.file.tree.alloc parent name line kind).2 } }) := rfl

theorem add_run (parent : Nat) (name : String) (line : Nat) (kind : NodeKind) :
    Step.add parent name line kind u w = (w.file.tree.size,
      { w with file := { w.file with tree := (w.file.tree.add parent name line kind).2 } }) := rfl

theorem attach_run (parent child : Nat) :
    Step.attach parent child u w =
      ((), { w with file := { w.file with tree := w.file.tree.attach parent child } }) := rfl

theorem modifyKind_run (id : Nat) (f : NodeKind → NodeKind) :
    Step.modifyKind id f u w =
      ((), { w with file := { w.file with tree := w.file.tree.modifyKind id f } }) := rfl

theorem rollback_run (m : Mark) :
    Step.rollback m u w = ((), { w with file := { w.file with
      tree := w.file.tree.truncate m.nodes, semantic := w.file.semantic.take m.semantic,
      diagnostics := w.file.diagnostics.take m.diagnostics } }) := rfl

theorem discardNodes_run (m : Mark) :
    Step.discardNodes m u w = ((), { w with file := { w.file with
      tree := w.file.tree.truncate m.nodes,
      semantic := (w.file.semantic.take m.semantic) ++
        (w.file.semantic.extract m.semantic w.file.semantic.size).map
          (SemanticToken.forget w.file.file m.nodes) } }) := rfl

end Run

end Step

/-- What a run that may fail ends with: `Q` of its value when it succeeds, `E` when it fails. -/
def Outcome {β : Type} (Q : β → Work → Prop) (E : Work → Prop) :
    Except ParseError β → Work → Prop
  | .ok b, w => Q b w
  | .error _, w => E w

theorem Outcome.imp {β : Type} {Q Q' : β → Work → Prop} {E E' : Work → Prop}
    (hQ : ∀ b w, Q b w → Q' b w) (hE : ∀ w, E w → E' w) (r : Except ParseError β) (w : Work)
    (h : Outcome Q E r w) : Outcome Q' E' r w := by
  cases r with
  | ok b => exact hQ b w h
  | error _ => exact hE w h

/-! ## Steps that may fail -/

namespace Step.Triple

variable {α β : Type} {P : Work → Prop} {Q : α → Work → Prop} {R : β → Work → Prop}
  {E : Work → Prop}

theorem except_pure {a : α} (h : ∀ w, P w → Q a w) :
    Triple P (Pure.pure a : ExceptT ParseError Step α).run (Outcome Q E) :=
  fun _ w hw => h w hw

theorem except_throw {e : ParseError} :
    Triple E (MonadExcept.throw e : ExceptT ParseError Step α).run (Outcome Q E) :=
  fun _ _ hw => hw

/-- A step lifted into one that may fail never fails. -/
theorem except_lift {x : Step α} (h : Triple P x Q) :
    Triple P (monadLift x : ExceptT ParseError Step α).run (Outcome Q E) :=
  fun u w hw => h u w hw

theorem except_bind {x : ExceptT ParseError Step α} {f : α → ExceptT ParseError Step β}
    (hx : Triple P x.run (Outcome Q E)) (hf : ∀ a, Triple (Q a) (f a).run (Outcome R E)) :
    Triple P (x >>= f).run (Outcome R E) := by
  intro u w hw
  rw [ExceptT.run_bind, bind_run]
  have h := hx u w hw
  revert h
  generalize x.run u w = r
  rcases r with ⟨e | a, w'⟩
  · exact id
  · exact hf a u w'

end Step.Triple

namespace Parse

/-- From a work satisfying `P` and any cursor, a successful run ends where `Q` holds of its
    value, and a failed one where `E` holds. -/
def Triple {α : Type} (P : Work → Prop) (x : Parse α) (Q : α → Work → Prop) (E : Work → Prop) :
    Prop :=
  ∀ c, Step.Triple P (x c).run (Outcome (fun p => Q p.1) E)

theorem run_bind {α β : Type} (x : Parse α) (f : α → Parse β) (c : Cursor) :
    ((x >>= f) c).run = (x c).run >>= ExceptT.bindCont fun p => f p.1 p.2 :=
  rfl

theorem run_tryCatch {α : Type} (x : Parse α) (h : ParseError → Parse α) (c : Cursor) :
    ((MonadExcept.tryCatch x h) c).run = ExceptT.tryCatch (x c) fun e => h e c :=
  rfl

/-- Running a reader on a token list of its own: its outcome without the cursor. -/
theorem runOn_run {α : Type} (ts : List Token) (x : Parse α) (u : Universe) (w : Work) :
    (runOn ts x).run u w =
      (((x (Cursor.ofList ts)).run u w).1.map Prod.fst, ((x (Cursor.ofList ts)).run u w).2) := by
  unfold runOn
  rw [ExceptT.run_bind, Step.bind_run]
  show _ = (((x.run (Cursor.ofList ts)).run u w).1.map Prod.fst,
    ((x.run (Cursor.ofList ts)).run u w).2)
  generalize ((x.run (Cursor.ofList ts)).run u w) = r
  rcases r with ⟨_ | ⟨a, c⟩, w'⟩ <;> rfl

/-- When both outcomes ask for the same property, the outcome is that property. -/
theorem outcome_same {β : Type} {I : Work → Prop} {r : Except ParseError β} {w : Work} :
    Outcome (fun _ => I) I r w ↔ I w := by
  cases r <;> rfl

namespace Triple

variable {α β : Type} {P P' : Work → Prop} {Q Q' : α → Work → Prop} {E E' : Work → Prop}

theorem pure {a : α} (h : ∀ w, P w → Q a w) : Triple P (Pure.pure a : Parse α) Q E :=
  fun _ _ w hw => h w hw

theorem bind {x : Parse α} {f : α → Parse β} {R : β → Work → Prop} (hx : Triple P x Q E)
    (hf : ∀ a, Triple (Q a) (f a) R E) : Triple P (x >>= f) R E := by
  intro c
  rw [run_bind]
  refine Step.Triple.bind (hx c) fun r => ?_
  rcases r with e | ⟨a, c'⟩
  · exact fun _ _ hw => hw
  · exact hf a c'

theorem mono {x : Parse α} (h : Triple P x Q E) (hP : ∀ w, P' w → P w)
    (hQ : ∀ a w, Q a w → Q' a w) (hE : ∀ w, E w → E' w) : Triple P' x Q' E' := by
  intro c u w hw
  have h' := h c u w (hP w hw)
  revert h'
  generalize ((x c).run u w) = r
  rcases r with ⟨e | ⟨a, c'⟩, w'⟩
  · exact hE w'
  · exact hQ a w'

theorem pre {x : Parse α} (h : Triple P x Q E) (hP : ∀ w, P' w → P w) : Triple P' x Q E :=
  h.mono hP (fun _ _ => id) fun _ => id

theorem post {x : Parse α} (h : Triple P x Q E) (hQ : ∀ a w, Q a w → Q' a w) :
    Triple P x Q' E :=
  h.mono (fun _ => id) hQ fun _ => id

theorem throw {e : ParseError} : Triple E (MonadExcept.throw e : Parse α) Q E :=
  fun _ _ _ h => h

/-- Nothing runs from a state that cannot be reached. -/
theorem of_false {x : Parse α} : Triple (fun _ => False) x Q E :=
  fun _ _ _ h => h.elim

/-- A fact that does not depend on the work leaves the precondition for the context. -/
theorem of_fact {φ : Prop} {x : Parse α} (h : φ → Triple P x Q E) :
    Triple (fun w => φ ∧ P w) x Q E :=
  fun c u w hw => h hw.1 c u w hw.2

/-- A reader run for its effect alone. -/
theorem discard {x : Parse α} {Q : PUnit → Work → Prop} (h : Triple P x (fun _ => Q ()) E) :
    Triple P (Functor.discard x) Q E := by
  rw [Functor.discard, LawfulFunctor.map_const, Function.comp_apply, map_eq_pure_bind]
  exact bind h fun _ => pure fun _ => id

theorem ite {c : Prop} [Decidable c] {x y : Parse α} (hx : c → Triple P x Q E)
    (hy : ¬c → Triple P y Q E) : Triple P (if c then x else y) Q E := by
  split
  · exact hx ‹_›
  · exact hy ‹_›

/-- A step run inside a reader. -/
theorem step {x : Step α} (h : Step.Triple P x Q) : Triple P (Parse.step x) Q E :=
  fun _ u w hw => h u w hw

/-- A step lifted into a reader by a `do` block. -/
theorem lift {x : Step α} (h : Step.Triple P x Q) : Triple P (monadLift x : Parse α) Q E :=
  step h

theorem get {Q : Cursor → Work → Prop} (h : ∀ c w, P w → Q c w) :
    Triple P (MonadState.get : Parse Cursor) Q E :=
  fun c _ w hw => h c w hw

theorem set {c' : Cursor} {Q : PUnit → Work → Prop} :
    Triple (Q ()) (MonadStateOf.set c' : Parse PUnit) Q E :=
  fun _ _ _ hw => hw

/-- A failure caught by `tryCatch` ends in the handler, from the work the failure left. -/
theorem tryCatch {x : Parse α} {h : ParseError → Parse α} {F : Work → Prop}
    (hx : Triple P x Q F) (hh : ∀ e, Triple F (h e) Q E) :
    Triple P (MonadExcept.tryCatch x h) Q E := by
  intro c
  rw [run_tryCatch]
  refine Step.Triple.bind (hx c) fun r => ?_
  rcases r with e | ⟨a, c'⟩
  · exact hh e c
  · exact Step.Triple.pure fun _ => id

/-- A proof may name the analysis a reader starts from. -/
theorem ghost {x : Parse α} (h : ∀ a, Triple (fun w => w.file = a ∧ P w) x Q E) :
    Triple P x Q E :=
  fun c u w hw => h w.file c u w ⟨rfl, hw⟩

/-- A step that may fail, lifted into a reader. -/
theorem exceptLift {x : ExceptT ParseError Step α} (h : Step.Triple P x.run (Outcome Q E)) :
    Triple P (monadLift x : Parse α) Q E :=
  fun _ => Step.Triple.except_bind h fun _ => Step.Triple.except_pure fun _ => id

/-- A reader run on a token list of its own. -/
theorem runOn {x : Parse α} (h : Triple P x Q E) (ts : List Token) :
    Step.Triple P (Parse.runOn ts x).run (Outcome Q E) := by
  intro u w hw
  rw [runOn_run]
  have h' := h (Cursor.ofList ts) u w hw
  revert h'
  generalize (x (Cursor.ofList ts)).run u w = r
  rcases r with ⟨e | ⟨a, _⟩, w'⟩
  · exact id
  · exact id

end Triple

/-- A reader that leaves the work alone: it only moves the cursor, or fails. -/
def Quiet {α : Type} (x : Parse α) : Prop := ∀ c u w, ((x c).run u w).2 = w

namespace Quiet

variable {α β : Type}

/-- A reader that leaves the work alone keeps every property of it. -/
theorem triple {x : Parse α} {I : Work → Prop} (h : Quiet x) : Triple I x (fun _ => I) I := by
  intro c u w hw
  show Outcome (fun _ => I) I _ _
  rw [outcome_same, h c u w]
  exact hw

theorem pure (a : α) : Quiet (Pure.pure a : Parse α) := fun _ _ _ => rfl

theorem bind {x : Parse α} {f : α → Parse β} (hx : Quiet x) (hf : ∀ a, Quiet (f a)) :
    Quiet (x >>= f) := by
  intro c u w
  have h := Triple.bind (hx.triple (I := (· = w))) (fun a => (hf a).triple) c u w rfl
  exact (outcome_same (I := (· = w))).1 h

theorem throw {e : ParseError} : Quiet (MonadExcept.throw e : Parse α) := fun _ _ _ => rfl

theorem get : Quiet (MonadState.get : Parse Cursor) := fun _ _ _ => rfl

theorem set {c' : Cursor} : Quiet (MonadStateOf.set c' : Parse PUnit) := fun _ _ _ => rfl

theorem modifyGet {f : Cursor → α × Cursor} : Quiet (MonadState.modifyGet f : Parse α) :=
  fun _ _ _ => rfl

end Quiet

/-! ## The readers of the cursor -/

theorem quiet_peek : Quiet peek := Quiet.bind Quiet.get fun _ => Quiet.pure _

theorem quiet_peekAt (n : Nat) : Quiet (peekAt n) := Quiet.bind Quiet.get fun _ => Quiet.pure _

theorem quiet_check (k : TokenKind) : Quiet (check k) := Quiet.bind Quiet.get fun _ => Quiet.pure _

theorem quiet_next : Quiet next := by
  refine Quiet.bind Quiet.get fun c => ?_
  split
  · exact Quiet.bind Quiet.set fun _ => Quiet.pure _
  · exact Quiet.pure _

theorem quiet_accept (kinds : List TokenKind) : Quiet (accept kinds) := by
  refine Quiet.bind Quiet.get fun c => ?_
  split
  · exact Quiet.bind Quiet.set fun _ => Quiet.pure _
  · exact Quiet.pure _

theorem quiet_acceptKeyword (word : String) : Quiet (acceptKeyword word) := by
  refine Quiet.bind Quiet.get fun c => ?_
  split
  · exact Quiet.bind Quiet.set fun _ => Quiet.pure _
  · exact Quiet.pure _

theorem quiet_unexpectedHere (expected : String) : Quiet (unexpectedHere expected) := by
  refine Quiet.bind Quiet.get fun c => ?_
  split <;> exact Quiet.pure _

theorem quiet_unexpected {α : Type} (expected : String) : Quiet (unexpected expected : Parse α) :=
  Quiet.bind (quiet_unexpectedHere expected) fun _ => Quiet.throw

theorem quiet_expect (kinds : List TokenKind) (expected : String) : Quiet (expect kinds expected) := by
  refine Quiet.bind (quiet_accept kinds) fun r => ?_
  split
  · exact Quiet.pure _
  · exact quiet_unexpected expected

theorem quiet_expectIdent (what : String) : Quiet (expectIdent what) := quiet_expect _ _

theorem quiet_balanced (stop : List TokenKind) : Quiet (balanced stop) := Quiet.modifyGet

theorem quiet_liftExpr {α : Type} (x : ExprParser.M α) : Quiet (liftExpr x) := by
  intro c u w
  unfold liftExpr
  split <;> rfl

theorem quiet_expression (stop : List TokenKind) : Quiet (expression stop) := quiet_liftExpr _

theorem quiet_tooDeep {α : Type} : Quiet (tooDeep : Parse α) :=
  Quiet.bind Quiet.get fun _ => Quiet.throw

theorem quiet_fuel : Quiet fuel := Quiet.bind Quiet.get fun _ => Quiet.pure _

theorem quiet_ofExcept {α : Type} (x : Except ParseError α) : Quiet (ofExcept x) := by
  cases x with
  | error e => exact Quiet.throw
  | ok a => exact Quiet.pure a

end Parse

end ZScript
