import ZScript.Proofs.ExprErrorLines
import ZScript.Proofs.SourcedTokens

/-!
# The lines diagnostics are reported on

Every diagnostic of a file's analysis is on line `1` or on the line of one of the file's own
tokens. Errors take their line from a token the reader holds, from the last token of its cursor,
from the node of a class or struct, or from an expression reader, which never makes a line up
(`ExprParser.lined_expression`); warnings take theirs from a token being tagged, from the node of
a class or an include, or from the token under a semantic token. So the invariant
`Analysis.Lined T a` says it of every diagnostic and of every node whose line a diagnostic may
name; it carries `Analysis.Sourced T` along, since the bodies that later phases read are the
nodes' tokens.

Steps keep the invariant (`Step.Lined`) when the lines they report on are such lines. Readers
(`Parse.Lined`) keep it from a cursor whose tokens, read or not, are in `T`, and when they fail,
fail on such a line: so a caller that catches the failure and reports it keeps the invariant.
-/

namespace ZScript

/-- Whether diagnostics may be reported on the node's line: a class or struct, whose parents
    and whose too deeply nested body are reported there, or an include, whose missing file is. -/
def NodeKind.lendsLine : NodeKind → Bool
  | .classDecl _ | .structDecl _ | .inclusion _ _ => true
  | _ => false

@[simp] theorem NodeKind.lendsLine_setTypeInfo (k : NodeKind) (i : TypeInfo) :
    (k.setTypeInfo i).lendsLine = k.lendsLine := by
  cases k <;> rfl

/-- A node whose line diagnostics may name is on line `1` or on the line of a token of `T`. -/
def Node.Lined (T : List Token) (node : Node) : Prop :=
  node.kind.lendsLine = true → LineOf (· ∈ T) node.line

/-- Every node of the tree is lined in `T`. -/
def Tree.Lined (T : List Token) (t : Tree) : Prop :=
  ∀ i node, t.get? i = some node → node.Lined T

/-- The analysis is sourced in `T`, and its diagnostics and the nodes of its tree whose lines
    they may name are on line `1` or on lines of tokens of `T`. -/
structure Analysis.Lined (T : List Token) (a : Analysis) : Prop extends a.Sourced T where
  diagnostics : ∀ d ∈ a.diagnostics, LineOf (· ∈ T) d.line
  nodes : a.tree.Lined T

/-! ## Lined trees -/

namespace Tree.Lined

variable {T : List Token} {t : Tree}

theorem alloc (h : t.Lined T) {parent : Option Nat} {name : String} {line : Nat}
    {kind : NodeKind} (hl : kind.lendsLine = true → LineOf (· ∈ T) line) :
    (t.alloc parent name line kind).2.Lined T := by
  intro i node hg
  rw [get?_alloc] at hg
  split at hg
  · cases hg
    exact hl
  · exact h i node hg

/-- A change of nodes that keeps each lined node lined. -/
theorem modify (h : t.Lined T) {id : Nat} {f : Node → Node} (hf : ∀ n, n.Lined T → (f n).Lined T) :
    (t.modify id f).Lined T := by
  intro i node hg
  rw [get?_modify] at hg
  split at hg
  · obtain ⟨old, hold, rfl⟩ := Option.map_eq_some_iff.1 hg
    exact hf old (h i old hold)
  · exact h i node hg

theorem add (h : t.Lined T) {parent : Nat} {name : String} {line : Nat} {kind : NodeKind}
    (hl : kind.lendsLine = true → LineOf (· ∈ T) line) :
    (t.add parent name line kind).2.Lined T := by
  rw [Tree.add_eq]
  refine Lined.modify (h.alloc hl) ?_
  intro _ hn
  exact hn

theorem attach (h : t.Lined T) (p c : Nat) : (t.attach p c).Lined T := by
  unfold Tree.attach
  refine Lined.modify (Lined.modify h ?_) ?_ <;> intro _ hn <;> exact hn

/-- Changing what node `id` holds, into a kind that lends its line only where the node's line
    is a lined one. -/
theorem modifyKind (h : t.Lined T) {id : Nat} {f : NodeKind → NodeKind}
    (hf : ∀ node, t.get? id = some node → node.Lined T → (f node.kind).lendsLine = true →
      LineOf (· ∈ T) node.line) : (t.modifyKind id f).Lined T := by
  intro i node hg
  rw [Tree.modifyKind, get?_modify] at hg
  split at hg
  · next hid =>
    obtain ⟨old, hold, rfl⟩ := Option.map_eq_some_iff.1 hg
    exact hf old (hid ▸ hold) (h i old hold)
  · exact h i node hg

/-- Dropping nodes keeps the lines and kinds of those that stay. -/
theorem truncate (h : t.Lined T) (m : Nat) : (t.truncate m).Lined T := by
  intro i node hg
  unfold Tree.truncate at hg
  dsimp only at hg
  split at hg
  · exact h i node hg
  · simp only [get?, Array.getElem?_map, Array.getElem?_extract] at hg
    split at hg
    · obtain ⟨old, hold, rfl⟩ := Option.map_eq_some_iff.1 hg
      exact h i old (by simpa [get?] using hold)
    · cases hg

end Tree.Lined

namespace Analysis.Lined

variable {T : List Token} {a : Analysis}

/-- Another analysis with the same tokens, semantic tokens, tree and diagnostics: only the
    failure flag differs. -/
theorem congr (h : a.Lined T) {b : Analysis} (htok : b.tokens = a.tokens)
    (hs : b.semantic = a.semantic) (ht : b.tree = a.tree) (hd : b.diagnostics = a.diagnostics) :
    b.Lined T :=
  ⟨h.toSourced.congr htok hs ht, hd ▸ h.diagnostics, ht ▸ h.nodes⟩

theorem push (h : a.Lined T) {s : SemanticToken} (hs : s.range ∈ T.map Token.range) :
    { a with semantic := a.semantic.push s }.Lined T :=
  ⟨h.toSourced.push hs, h.diagnostics, h.nodes⟩

theorem withTree (h : a.Lined T) {t : Tree} (hs : t.Sourced T) (hl : t.Lined T) :
    { a with tree := t }.Lined T :=
  ⟨h.toSourced.withTree hs, h.diagnostics, hl⟩

/-- A diagnostic on a line of `T` keeps the analysis lined. -/
theorem report (h : a.Lined T) {d : Diagnostic} (hd : LineOf (· ∈ T) d.line) :
    { a with diagnostics := a.diagnostics.push d }.Lined T := by
  refine ⟨h.toSourced.congr rfl rfl rfl, fun d' hd' => ?_, h.nodes⟩
  rcases Array.mem_push.1 hd' with hd' | rfl
  · exact h.diagnostics d' hd'
  · exact hd

end Analysis.Lined

/-! ## Steps -/

/-- A step that keeps the file lined in `T` and answers a value satisfying `V`. -/
def Step.Lined {α : Type} (T : List Token) (x : Step α) (V : α → Prop) : Prop :=
  Step.Triple (fun w => w.file.Lined T) x fun a w => V a ∧ w.file.Lined T

namespace Step.Lined

variable {α β : Type} {T : List Token} {V V' : α → Prop}

theorem pure {a : α} (h : V a) : Lined T (Pure.pure a : Step α) V :=
  Triple.pure fun _ hw => ⟨h, hw⟩

theorem bind {x : Step α} {f : α → Step β} {W : β → Prop} (hx : Lined T x V)
    (hf : ∀ a, V a → Lined T (f a) W) : Lined T (x >>= f) W :=
  Triple.bind hx fun a u w hw => hf a hw.1 u w hw.2

theorem mono {x : Step α} (h : Lined T x V) (hV : ∀ a, V a → V' a) : Lined T x V' :=
  Triple.post h fun a _ hw => ⟨hV a hw.1, hw.2⟩

/-- A loop whose body keeps the file lined. -/
theorem forIn {γ σ : Type} (xs : List γ) (init : σ) {f : γ → σ → Step (ForInStep σ)}
    (hf : ∀ b ∈ xs, ∀ s, Lined T (f b s) fun _ => True) :
    Lined T (forIn xs init f) fun _ => True :=
  Triple.post (Triple.forIn xs init fun b hb s => (hf b hb s).post fun _ _ hw => hw.2)
    fun _ _ hw => ⟨trivial, hw⟩

theorem withReader {x : Step α} (h : Lined T x V) (f : Universe → Universe) :
    Lined T (withReader f x) V :=
  Triple.withReader h f

/-- A step that changes neither the tokens, the semantic tokens, the tree nor the diagnostics
    of the file. -/
theorem of_same {x : Step α} (hV : ∀ u w, w.file.Lined T → V (x u w).1)
    (h : ∀ u w, (x u w).2.file.tokens = w.file.tokens ∧ (x u w).2.file.semantic = w.file.semantic ∧
      (x u w).2.file.tree = w.file.tree ∧ (x u w).2.file.diagnostics = w.file.diagnostics) :
    Lined T x V := fun u w hw =>
  ⟨hV u w hw, hw.congr (h u w).1 (h u w).2.1 (h u w).2.2.1 (h u w).2.2.2⟩

end Step.Lined

namespace Step

variable {T : List Token}

theorem lined_current : Step.Lined T current (·.Lined T) := fun _ _ hw => ⟨hw, hw⟩

theorem lined_tree : Step.Lined T tree fun t => t.Sourced T ∧ t.Lined T :=
  fun _ _ hw => ⟨⟨hw.tree, hw.nodes⟩, hw⟩

theorem lined_view : Step.Lined T view fun v => v.tree.Sourced T ∧ v.tree.Lined T :=
  fun _ _ hw => ⟨⟨hw.tree, hw.nodes⟩, hw⟩

theorem lined_here (id : Nat) : Step.Lined T (here id) fun _ => True :=
  fun _ _ hw => ⟨trivial, hw⟩

theorem lined_mark : Step.Lined T mark fun _ => True := fun _ _ hw => ⟨trivial, hw⟩

theorem lined_log (level : LogLevel) (source : LogSource) (message : String) :
    Step.Lined T (log level source message) fun _ => True :=
  Lined.of_same (fun _ _ _ => trivial) fun _ _ => ⟨rfl, rfl, rfl, rfl⟩

theorem lined_emitToken {s : SemanticToken} (hs : s.range ∈ T.map Token.range) :
    Step.Lined T (emitToken s) fun _ => True :=
  fun _ _ hw => ⟨trivial, hw.push hs⟩

theorem lined_emit {t : Token} (ht : t ∈ T) (kind : SemanticKind) :
    Step.Lined T (emit t kind) fun _ => True :=
  lined_emitToken (List.mem_map_of_mem ht)

theorem lined_emitRef {t : Token} (ht : t ∈ T) (kind : SemanticKind) (ref : Option Target)
    (name : String) : Step.Lined T (emitRef t kind ref name) fun _ => True :=
  lined_emitToken (List.mem_map_of_mem ht)

theorem lined_warn (message : String) {line : Nat} (hl : LineOf (· ∈ T) line) :
    Step.Lined T (warn message line) fun _ => True :=
  fun u w hw => ⟨trivial, by rw [warn_run]; exact hw.report hl⟩

theorem lined_report {e : ParseError} (he : LineOf (· ∈ T) e.line) :
    Step.Lined T (report e) fun _ => True :=
  fun u w hw => ⟨trivial, by rw [report_run]; exact hw.report he⟩

theorem lined_fail {e : ParseError} (he : LineOf (· ∈ T) e.line) :
    Step.Lined T (fail e) fun _ => True := by
  unfold fail
  exact Lined.bind (lined_report he) fun _ _ u w hw => ⟨trivial, hw.congr rfl rfl rfl rfl⟩

theorem lined_alloc (parent : Option Nat) (name : String) {line : Nat} {kind : NodeKind}
    (hk : kind.tokens ⊆ T) (hl : kind.lendsLine = true → LineOf (· ∈ T) line) :
    Step.Lined T (alloc parent name line kind) fun _ => True :=
  fun _ _ hw => ⟨trivial, hw.withTree (hw.tree.alloc hk) (hw.nodes.alloc hl)⟩

theorem lined_add (parent : Nat) (name : String) {line : Nat} {kind : NodeKind}
    (hk : kind.tokens ⊆ T) (hl : kind.lendsLine = true → LineOf (· ∈ T) line) :
    Step.Lined T (add parent name line kind) fun _ => True :=
  fun _ _ hw => ⟨trivial, hw.withTree (hw.tree.add hk) (hw.nodes.add hl)⟩

theorem lined_attach (parent child : Nat) : Step.Lined T (attach parent child) fun _ => True :=
  fun _ _ hw => ⟨trivial, hw.withTree (hw.tree.attach parent child) (hw.nodes.attach parent child)⟩

/-- Changing what a node holds, into a kind whose tokens are in `T` whenever the node's were,
    and which lends its line only if the old one did. -/
theorem lined_modifyKind (id : Nat) {f : NodeKind → NodeKind}
    (hf : ∀ k, k.tokens ⊆ T → (f k).tokens ⊆ T) (hl : ∀ k, (f k).lendsLine = true → k.lendsLine = true) :
    Step.Lined T (modifyKind id f) fun _ => True :=
  fun _ _ hw => ⟨trivial, hw.withTree (hw.tree.modifyKind fun node hg => hf _ (hw.tree id node hg))
    (hw.nodes.modifyKind fun _ _ hn hf' => hn (hl _ hf'))⟩

theorem lined_rollback (m : Mark) : Step.Lined T (rollback m) fun _ => True := by
  intro u w hw
  rw [rollback_run]
  exact ⟨trivial, ⟨(sourced_rollback m u w hw.toSourced).2, fun d hd =>
    hw.diagnostics d (mem_of_mem_extract hd), hw.nodes.truncate m.nodes⟩⟩

theorem lined_discardNodes (m : Mark) : Step.Lined T (discardNodes m) fun _ => True := by
  intro u w hw
  rw [discardNodes_run]
  exact ⟨trivial, ⟨(sourced_discardNodes m u w hw.toSourced).2, hw.diagnostics,
    hw.nodes.truncate m.nodes⟩⟩

end Step

/-- A step that may fail, keeps the file lined in `T` either way, fails only on a line of `T`,
    and answers a value satisfying `V` when it succeeds. -/
def Step.LinedRun {α : Type} (T : List Token) (x : ExceptT ParseError Step α) (V : α → Prop) :
    Prop :=
  Step.Triple (fun w => w.file.Lined T) x.run
    fun r w => ExprParser.LinedRun (· ∈ T) V r ∧ w.file.Lined T

namespace Step.LinedRun

variable {α β : Type} {T : List Token} {V : α → Prop}

theorem pure {a : α} (h : V a) : LinedRun T (Pure.pure a : ExceptT ParseError Step α) V :=
  fun _ _ hw => ⟨h, hw⟩

theorem throw {e : ParseError} (he : LineOf (· ∈ T) e.line) :
    LinedRun T (MonadExcept.throw e : ExceptT ParseError Step α) V :=
  fun _ _ hw => ⟨he, hw⟩

theorem lift {x : Step α} (h : Step.Lined T x V) : LinedRun T (monadLift x : ExceptT ParseError Step α) V :=
  fun u w hw => h u w hw

theorem bind {x : ExceptT ParseError Step α} {f : α → ExceptT ParseError Step β} {W : β → Prop}
    (hx : LinedRun T x V) (hf : ∀ a, V a → LinedRun T (f a) W) : LinedRun T (x >>= f) W := by
  intro u w hw
  rw [ExceptT.run_bind, bind_run]
  have h := hx u w hw
  revert h
  generalize x.run u w = r
  rcases r with ⟨e | a, w'⟩
  · exact id
  · exact fun h => hf a h.1 u w' h.2

end Step.LinedRun

/-! ## Readers -/

/-- A reader that keeps the file lined in `T` from a cursor whose tokens are in `T`: when it
    fails, it fails on line `1` or on the line of a token of `T`; when it succeeds, its value
    satisfies `V` and the cursor it leaves holds tokens of `T` only. -/
def Parse.Lined {α : Type} (T : List Token) (x : Parse α) (V : α → Prop) : Prop :=
  ∀ c : Cursor, c.Holds (· ∈ T) → Step.Triple (fun w => w.file.Lined T) (x c).run
    fun r w => ExprParser.Landed (· ∈ T) V r ∧ w.file.Lined T

namespace Parse.Lined

variable {α β : Type} {T : List Token} {V V' : α → Prop}

theorem pure {a : α} (h : V a) : Lined T (Pure.pure a : Parse α) V :=
  fun _ hc _ _ hw => ⟨⟨h, hc⟩, hw⟩

theorem bind {x : Parse α} {f : α → Parse β} {W : β → Prop} (hx : Lined T x V)
    (hf : ∀ a, V a → Lined T (f a) W) : Lined T (x >>= f) W := by
  intro c hc
  rw [run_bind]
  refine Step.Triple.bind (hx c hc) fun r => ?_
  rcases r with e | ⟨a, c'⟩
  · exact fun _ _ hw => hw
  · exact fun u w hw => hf a hw.1.1 c' hw.1.2 u w hw.2

theorem mono {x : Parse α} (h : Lined T x V) (hV : ∀ a, V a → V' a) : Lined T x V' := by
  intro c hc u w hw
  have h' := h c hc u w hw
  revert h'
  generalize (x c).run u w = r
  rcases r with ⟨e | ⟨a, c'⟩, w'⟩
  · exact id
  · exact fun h => ⟨⟨hV a h.1.1, h.1.2⟩, h.2⟩

theorem throw {e : ParseError} (he : LineOf (· ∈ T) e.line) :
    Lined T (MonadExcept.throw e : Parse α) V :=
  fun _ _ _ _ hw => ⟨he, hw⟩

theorem step {x : Step α} (h : Step.Lined T x V) : Lined T (Parse.step x) V :=
  fun _ hc u w hw => ⟨⟨(h u w hw).1, hc⟩, (h u w hw).2⟩

theorem lift {x : Step α} (h : Step.Lined T x V) : Lined T (monadLift x : Parse α) V :=
  step h

theorem get : Lined T (MonadState.get : Parse Cursor) fun c => c.Holds (· ∈ T) :=
  fun _ hc _ _ hw => ⟨⟨hc, hc⟩, hw⟩

theorem set {c' : Cursor} (hc' : c'.Holds (· ∈ T)) :
    Lined T (MonadStateOf.set c' : Parse PUnit) fun _ => True :=
  fun _ _ _ _ hw => ⟨⟨trivial, hc'⟩, hw⟩

theorem modifyGet {f : Cursor → α × Cursor}
    (hf : ∀ c : Cursor, c.Holds (· ∈ T) → V (f c).1 ∧ (f c).2.Holds (· ∈ T)) :
    Lined T (MonadState.modifyGet f : Parse α) V :=
  fun c hc _ _ hw => ⟨hf c hc, hw⟩

theorem map {x : Parse α} (f : α → β) {W : β → Prop} (h : Lined T x V)
    (hf : ∀ a, V a → W (f a)) : Lined T (f <$> x) W := by
  rw [map_eq_pure_bind]
  exact bind h fun a ha => pure (hf a ha)

/-- A reader run for its effect alone. -/
theorem discard {x : Parse α} (h : Lined T x V) : Lined T (Functor.discard x) fun _ => True := by
  rw [Functor.discard, LawfulFunctor.map_const, Function.comp_apply]
  exact map _ h fun _ _ => trivial

/-- A failure caught by `tryCatch` reaches the handler with its line, from the cursor the reader
    started from and the work the failure left. -/
theorem tryCatch {x : Parse α} {h : ParseError → Parse α} (hx : Lined T x V)
    (hh : ∀ e, LineOf (· ∈ T) e.line → Lined T (h e) V) : Lined T (MonadExcept.tryCatch x h) V := by
  intro c hc
  rw [run_tryCatch]
  refine Step.Triple.bind (hx c hc) fun r => ?_
  rcases r with e | ⟨a, c'⟩
  · exact fun u w hw => hh e hw.1 c hc u w hw.2
  · exact Step.Triple.pure fun _ => id

/-- A step that may fail, lifted into a reader. -/
theorem exceptLift {x : ExceptT ParseError Step α} (h : Step.LinedRun T x V) :
    Lined T (monadLift x : Parse α) V := by
  intro c hc u w hw
  show ExprParser.Landed (· ∈ T) V ((x >>= fun a => Pure.pure (a, c)).run u w).1 ∧
    ((x >>= fun a => Pure.pure (a, c)).run u w).2.file.Lined T
  rw [ExceptT.run_bind, Step.bind_run]
  have h' := h u w hw
  revert h'
  generalize x.run u w = r
  rcases r with ⟨e | a, w'⟩
  · exact id
  · exact fun h => ⟨⟨h.1, hc⟩, h.2⟩

/-- A reader run on a token list of `T`. -/
theorem runOn {x : Parse α} (h : Lined T x V) {ts : List Token} (hts : ts ⊆ T) :
    Step.LinedRun T (Parse.runOn ts x) V := by
  intro u w hw
  rw [runOn_run]
  have h' := h (Cursor.ofList ts) (Cursor.Holds.ofList fun _ ht => hts ht) u w hw
  revert h'
  generalize (x (Cursor.ofList ts)).run u w = r
  rcases r with ⟨e | ⟨a, _⟩, w'⟩
  · exact id
  · exact fun h => ⟨h.1.1, h.2⟩

end Parse.Lined

/-! ## Readers that need a fact about the work

A struct nested in a class body has its own body read as soon as it is declared, and that
reading, when nesting runs out, reports on the struct's line: it needs the struct's node to lend
its line. `Tree.Lends` says so of a node, and `Parse.LinedIf` is `Parse.Lined` from a work
that satisfies a further fact.
-/

/-- Node `id`, if there is one, is a node whose line diagnostics may name. -/
def Tree.Lends (t : Tree) (id : Nat) : Prop :=
  ∀ node, t.get? id = some node → node.kind.lendsLine = true

/-- A reader lined in `T` from every work that also satisfies `P`. -/
def Parse.LinedIf {α : Type} (T : List Token) (P : Work → Prop) (x : Parse α) (V : α → Prop) :
    Prop :=
  ∀ c : Cursor, c.Holds (· ∈ T) → Step.Triple (fun w => w.file.Lined T ∧ P w) (x c).run
    fun r w => ExprParser.Landed (· ∈ T) V r ∧ w.file.Lined T

namespace Parse

variable {α β : Type} {T : List Token} {V : α → Prop} {W : β → Prop}

/-- Any reader keeps what holds of every work. -/
theorem Triple.anything (x : Parse α) : Triple (fun _ => True) x (fun _ _ => True) fun _ => True := by
  intro c u w _
  generalize (x c).run u w = r
  rcases r with ⟨_ | _, _⟩ <;> trivial

/-- A reader whose success leaves a fact `R` of its value and the work, followed by readers
    that need it. -/
theorem Lined.bind_of {x : Parse α} {f : α → Parse β} {R : α → Work → Prop} (hx : Lined T x V)
    (hR : Triple (fun _ => True) x R fun _ => True) (hf : ∀ a, V a → LinedIf T (R a) (f a) W) :
    Lined T (x >>= f) W := by
  intro c hc
  rw [run_bind]
  refine Step.Triple.bind (Q := fun r w => (ExprParser.Landed (· ∈ T) V r ∧ w.file.Lined T) ∧
    Outcome (fun p => R p.1) (fun _ => True) r w) (fun u w hw => ⟨hx c hc u w hw, hR c u w trivial⟩)
    fun r => ?_
  rcases r with e | ⟨a, c'⟩
  · exact fun _ _ hw => hw.1
  · exact fun u w hw => hf a hw.1.1.1 c' hw.1.1.2 u w ⟨hw.1.2, hw.2⟩

theorem LinedIf.bind {P : Work → Prop} {x : Parse α} {f : α → Parse β} (hx : LinedIf T P x V)
    (hf : ∀ a, V a → Lined T (f a) W) : LinedIf T P (x >>= f) W := by
  intro c hc
  rw [run_bind]
  refine Step.Triple.bind (hx c hc) fun r => ?_
  rcases r with e | ⟨a, c'⟩
  · exact fun _ _ hw => hw
  · exact fun u w hw => hf a hw.1.1 c' hw.1.2 u w hw.2

/-- A step that may fail and needs `P`, lifted into a reader. -/
theorem LinedIf.exceptLift {P : Work → Prop} {x : ExceptT ParseError Step α}
    (h : Step.Triple (fun w => w.file.Lined T ∧ P w) x.run
      fun r w => ExprParser.LinedRun (· ∈ T) V r ∧ w.file.Lined T) :
    LinedIf T P (monadLift x : Parse α) V := by
  intro c hc u w hw
  show ExprParser.Landed (· ∈ T) V ((x >>= fun a => Pure.pure (a, c)).run u w).1 ∧
    ((x >>= fun a => Pure.pure (a, c)).run u w).2.file.Lined T
  rw [ExceptT.run_bind, Step.bind_run]
  have h' := h u w hw
  revert h'
  generalize x.run u w = r
  rcases r with ⟨e | a, w'⟩
  · exact id
  · exact fun h => ⟨⟨h.1, hc⟩, h.2⟩

end Parse

/-! ## The readers of the cursor -/

namespace Parse

open Lined

variable {α : Type} {T : List Token}

theorem lined_peek : Lined T peek fun o => ∀ t ∈ o, t ∈ T :=
  bind get fun _ hc => pure fun _ ht => hc.peek? ht

theorem lined_peekAt (n : Nat) : Lined T (peekAt n) fun o => ∀ t ∈ o, t ∈ T :=
  bind get fun _ hc => pure fun _ ht => hc.rest (List.mem_of_getElem? ht)

theorem lined_check (k : TokenKind) : Lined T (check k) fun _ => True :=
  bind get fun _ _ => pure trivial

theorem lined_next : Lined T next fun o => ∀ t ∈ o, t ∈ T := by
  refine bind get fun c hc => ?_
  split
  · next t c' hread =>
    obtain ⟨ht, hc'⟩ := hc.read? hread
    exact bind (set hc') fun _ _ => pure fun _ hx => Option.mem_some_iff.1 hx ▸ ht
  · exact pure fun _ ht => by cases ht

theorem lined_accept (kinds : List TokenKind) : Lined T (accept kinds) fun o => ∀ t ∈ o, t ∈ T := by
  refine bind get fun c hc => ?_
  split
  · next t c' hread =>
    obtain ⟨ht, hc'⟩ := hc.accept? hread
    exact bind (set hc') fun _ _ => pure fun _ hx => Option.mem_some_iff.1 hx ▸ ht
  · exact pure fun _ ht => by cases ht

theorem lined_acceptKeyword (word : String) :
    Lined T (acceptKeyword word) fun o => ∀ t ∈ o, t ∈ T := by
  refine bind get fun c hc => ?_
  split
  · next t c' hread =>
    obtain ⟨ht, hc'⟩ := hc.acceptKeyword? hread
    exact bind (set hc') fun _ _ => pure fun _ hx => Option.mem_some_iff.1 hx ▸ ht
  · exact pure fun _ ht => by cases ht

/-- The error for the next token is on its line, and at the end of the input on the last line
    of the cursor. -/
theorem lined_unexpectedHere (expected : String) :
    Lined T (unexpectedHere expected) fun e => LineOf (· ∈ T) e.line := by
  refine bind get fun c hc => ?_
  split
  · next t ht => exact pure (.of (hc.peek? ht))
  · exact pure hc.lastLine

theorem lined_unexpected (expected : String) {V : α → Prop} :
    Lined T (unexpected expected : Parse α) V :=
  bind (lined_unexpectedHere expected) fun _ he => throw he

theorem lined_expect (kinds : List TokenKind) (expected : String) :
    Lined T (expect kinds expected) (· ∈ T) := by
  refine bind (lined_accept kinds) fun o ho => ?_
  split
  · exact pure (ho _ rfl)
  · exact lined_unexpected expected

theorem lined_expectIdent (what : String) : Lined T (expectIdent what) (· ∈ T) :=
  lined_expect _ _

theorem lined_tooDeep {V : α → Prop} : Lined T (tooDeep : Parse α) V :=
  bind get fun _ hc => throw hc.lastLine

theorem lined_fuel : Lined T fuel fun _ => True :=
  bind get fun _ _ => pure trivial

theorem lined_balanced (stop : List TokenKind) : Lined T (balanced stop) (· ⊆ T) :=
  modifyGet fun _ hc => ⟨fun _ ht => (hc.balanced stop).1 _ ht, (hc.balanced stop).2⟩

theorem lined_ofExcept {x : Except ParseError α} {V : α → Prop}
    (hx : ExprParser.LinedRun (· ∈ T) V x) : Lined T (ofExcept x) V := by
  cases x with
  | error e => exact throw hx
  | ok a => exact pure hx

/-- An expression read from a cursor over `T` stores tokens of `T` only, and fails on a line of
    `T`. -/
theorem lined_expression (stop : List TokenKind) :
    Lined T (expression stop) fun e => e.tokens ⊆ T := by
  intro c hc u w hw
  have hl := ExprParser.lined_expression stop c hc
  unfold expression liftExpr
  split
  · next r p hrun =>
    obtain ⟨e, c'⟩ := p
    change ExprParser.expression stop c = .ok (e, c') at hrun
    rw [hrun] at hl
    rw [ExprParser.expression_eq] at hrun
    obtain ⟨ts, hts, htok⟩ := (ExprParser.conserving _).parseExpr_ok stop c e c' hrun
    have hrest : c.rest ⊆ T := fun _ ht => hc.rest ht
    rw [hts, List.append_subset] at hrest
    exact ⟨⟨List.Subset.trans (Multiset.coe_eq_coe.1 htok).subset hrest.1, hl.2⟩, hw⟩
  · next r e hrun =>
    change ExprParser.expression stop c = .error e at hrun
    rw [hrun] at hl
    exact ⟨hl, hw⟩

/-- A run of tokens of `T` read as one expression, on the line of one of them or on `line`. -/
theorem lined_run {ts : List Token} (hts : ts ⊆ T) {line : Nat} (hl : LineOf (· ∈ T) line) :
    ExprParser.LinedRun (· ∈ T) (fun e => e.tokens ⊆ T) (ExprParser.run ts line) := by
  have h := ExprParser.run_lined (Q := (· ∈ T)) (fun _ ht => hts ht) hl
  cases hr : ExprParser.run ts line with
  | error e =>
    rw [hr] at h
    exact h
  | ok e => exact List.Subset.trans (tokens_run hr) hts

theorem lined_bracedBody (what : String) : Lined T (bracedBody what) (· ⊆ T) :=
  bind (lined_expect _ _) fun _ ho => bind (Lined.step (Step.lined_emit ho _)) fun _ _ =>
    bind (lined_balanced _) fun _ hb => bind (lined_expect _ _) fun _ hc =>
      bind (Lined.step (Step.lined_emit hc _)) fun _ _ => pure hb

theorem lined_semicolon (what : String) : Lined T (semicolon what) fun _ => True :=
  bind (lined_expect _ _) fun _ ht => Lined.step (Step.lined_emit ht _)

end Parse

/-! ## Tagging expressions -/

namespace Tagging

open Step.Lined

variable {T : List Token}

theorem lined_emitDecl {t : Token} (ht : t ∈ T) (d : DeclRef) :
    Step.Lined T (emitDecl t d) fun _ => True := by
  unfold emitDecl
  refine bind Step.lined_view fun v _ => ?_
  split
  · exact pure trivial
  · exact bind (Step.lined_emitRef ht _ _ _) fun _ _ => pure trivial

/-- An unresolved identifier is reported on its own line. -/
theorem lined_ident {t : Token} (ht : t ∈ T) (scope : Scope) :
    Step.Lined T (ident t scope) fun _ => True := by
  unfold ident
  refine bind Step.lined_view fun v _ => ?_
  split
  · exact bind (Step.lined_emit ht _) fun _ _ => pure trivial
  split
  · exact bind (Step.lined_emitRef ht _ _ _) fun _ _ => pure trivial
  -- a symbol, else a type, else a builtin, else an unresolved name
  split
  · exact lined_emitDecl ht _
  split
  · exact lined_emitDecl ht _
  split
  · exact bind (Step.lined_emitRef ht _ _ _) fun _ _ => pure trivial
  · exact bind (Step.lined_emitRef ht _ _ _) fun _ _ =>
      bind (Step.lined_warn _ (.of ht)) fun _ _ => pure trivial

theorem lined_links : ∀ (current : Option Ty) (rest : List Leaf), Leaf.tokensOf rest ⊆ T →
    Step.Lined T (links current rest) fun _ => True
  | _, [], _ => pure trivial
  | current, .ident t :: rest, h => by
    rw [links]
    rw [Leaf.tokensOf_cons, List.append_subset] at h
    have ht : t ∈ T := h.1 (by simp [Leaf.tokens])
    refine bind Step.lined_view fun v _ => ?_
    split
    · exact pure trivial
    split
    · exact bind (lined_emitDecl ht _) fun ty _ => lined_links ty rest h.2
    · exact bind (Step.lined_emitRef ht _ _ _) fun _ _ =>
        bind (Step.lined_warn _ (.of ht)) fun _ _ => pure trivial
  | _, .integer _ :: _, _ | _, .double _ :: _, _ | _, .boolean _ :: _, _ | _, .string _ :: _, _
  | _, .expr _ :: _, _ => pure trivial

theorem lined_newClass {t : Token} (ht : t ∈ T) (scope : Scope) :
    Step.Lined T (newClass t scope) fun _ => True := by
  unfold newClass
  refine bind Step.lined_view fun v _ => ?_
  dsimp only
  split
  · exact bind (Step.lined_emitRef ht _ _ _) fun _ _ => pure trivial
  · exact bind (Step.lined_emitRef ht _ _ _) fun _ _ =>
      bind (Step.lined_warn _ (.of ht)) fun _ _ => pure trivial

/-- Tagging each token of a list of tokens of `T`. -/
theorem lined_emitAll {ts : List Token} (h : ts ⊆ T) (kind : Token → SemanticKind) :
    Step.Lined T (forIn ts PUnit.unit fun t _ => do
      Step.emit t (kind t); Pure.pure (ForInStep.yield PUnit.unit)) fun _ => True :=
  forIn ts _ fun _ ht _ => bind (Step.lined_emit (h ht) _) fun _ _ => pure trivial

mutual

/-- Tagging an expression of tokens of `T` keeps the file lined, and keeps the expression's
    tokens. -/
theorem lined_expr (scope : Scope) : ∀ e : Expr, e.tokens ⊆ T →
    Step.Lined T (expr scope e) fun r => r.1.tokens = e.tokens
  | ⟨op, assign, leaves, operators, special, type⟩, he => by
    rw [expr]
    simp only [Expr.tokens_mk, List.append_subset] at he
    refine bind (lined_emitAll he.1.2 fun _ => .operator) fun _ _ => ?_
    refine bind (lined_emitAll he.2 _) fun _ _ => ?_
    exact bind (lined_operands scope op leaves he.1.1) fun ⟨_, _⟩ hls =>
      pure (by simp only [Expr.tokens_mk]; rw [hls])

theorem lined_operands (scope : Scope) (op : Operator) : ∀ ls : List Leaf,
    Leaf.tokensOf ls ⊆ T →
      Step.Lined T (operands scope op ls) fun r => Leaf.tokensOf r.1 = Leaf.tokensOf ls
  | [], _ => by
    rw [operands]
    exact pure rfl
  | first :: rest, h => by
    unfold operands
    have h' := h
    rw [Leaf.tokensOf_cons, List.append_subset] at h'
    -- member access, call (a `new` or an ordinary one), cast, and every other operator
    split
    · exact bind (lined_leaf scope first h'.1) fun ⟨_, _⟩ hf =>
        bind (lined_links _ rest h'.2) fun _ _ => pure (by simp only [Leaf.tokensOf_cons]; rw [hf])
    · split
      · split
        · next t =>
          refine bind (Step.lined_emit (h'.1 (by simp [Leaf.tokens])) _) fun _ _ => ?_
          split
          · next name hname =>
            exact bind (lined_newClass (h'.2 (mem_of_newClassName hname)) _) fun _ _ => pure rfl
          · exact bind (lined_leaves scope rest h'.2) fun ⟨_, _⟩ hr =>
              pure (by simp only [Leaf.tokensOf_cons]; rw [hr])
        · exact bind (lined_leaf scope _ h'.1) fun ⟨_, _⟩ hf =>
            bind (lined_leaves scope rest h'.2) fun ⟨_, _⟩ hr =>
              pure (by simp only [Leaf.tokensOf_cons]; rw [hf, hr])
      · exact bind (lined_leaf scope _ h'.1) fun ⟨_, _⟩ hf =>
          bind (lined_leaves scope rest h'.2) fun ⟨_, _⟩ hr =>
            pure (by simp only [Leaf.tokensOf_cons]; rw [hf, hr])
    · refine bind (lined_leaves scope rest h'.2) fun ⟨_, _⟩ hr => ?_
      dsimp only
      split
      · exact bind (Step.lined_emitRef (h'.1 (by simp [Leaf.tokens])) _ _ _) fun _ _ =>
          pure (by simp only [Leaf.tokensOf_cons]; rw [hr])
      · exact pure (by simp only [Leaf.tokensOf_cons]; rw [hr])
    · exact bind (lined_leaf scope first h'.1) fun ⟨_, _⟩ hf =>
        bind (lined_leaves scope rest h'.2) fun ⟨_, _⟩ hr =>
          pure (by simp only [Leaf.tokensOf_cons]; rw [hf, hr])

theorem lined_leaves (scope : Scope) : ∀ ls : List Leaf, Leaf.tokensOf ls ⊆ T →
    Step.Lined T (leaves scope ls) fun r => Leaf.tokensOf r.1 = Leaf.tokensOf ls
  | [], _ => by
    rw [leaves]
    exact pure rfl
  | l :: ls, h => by
    rw [leaves]
    rw [Leaf.tokensOf_cons, List.append_subset] at h
    exact bind (lined_leaf scope l h.1) fun ⟨_, _⟩ hl =>
      bind (lined_leaves scope ls h.2) fun ⟨_, _⟩ hls =>
        pure (by simp only [Leaf.tokensOf_cons]; rw [hl, hls])

theorem lined_leaf (scope : Scope) : ∀ l : Leaf, l.tokens ⊆ T →
    Step.Lined T (leaf scope l) fun r => r.1.tokens = l.tokens
  | .integer t, h | .double t, h | .boolean t, h | .string t, h => by
    rw [leaf]
    exact bind (Step.lined_emit (h (by simp [Leaf.tokens])) _) fun _ _ => pure rfl
  | .ident t, h => by
    rw [leaf]
    exact bind (lined_ident (h (by simp [Leaf.tokens])) scope) fun _ _ => pure rfl
  | .expr e, h => by
    rw [leaf]
    rw [Leaf.tokens_expr] at h
    exact bind (lined_expr scope e h) fun ⟨_, _⟩ he => pure (by simpa using he)

end

end Tagging

theorem Expr.lined_tag {T : List Token} {e : Expr} (he : e.tokens ⊆ T) (scope : Scope) :
    Step.Lined T (e.tag scope) fun e' => e'.tokens = e.tokens :=
  Step.Lined.bind (Tagging.lined_expr scope e he) fun _ h => Step.Lined.pure h

/-! ## Reading types -/

namespace Types

open Parse Parse.Lined

variable {T : List Token}

theorem lined_emitTypeName {t : Token} (ht : t ∈ T) (resolved : Option DeclRef)
    (context : Option Nat) : Step.Lined T (emitTypeName t resolved context) fun _ => True := by
  unfold emitTypeName
  refine Step.Lined.bind Step.lined_view fun v _ => ?_
  split
  · exact Step.lined_emitRef ht _ _ _
  · exact Step.lined_emitRef ht _ _ _

theorem lined_dotted (context : Option Nat) :
    ∀ (fuel : Nat) (path : String) (resolved : Option DeclRef),
      Parse.Lined T (dotted context fuel path resolved) fun _ => True
  | 0, _, _ => lined_tooDeep
  | fuel + 1, path, resolved => by
    rw [dotted]
    refine bind (lined_check _) fun _ _ => bind (lined_peekAt _) fun _ _ => ?_
    dsimp only
    split
    · exact pure trivial
    refine bind lined_next fun dot hdot => ?_
    split
    -- the dot is tagged when there is one; then, either way, the next part of the name
    refine bind (lift (Step.lined_emit (hdot _ rfl) _)) fun _ _ => ?_
    all_goals
      exact bind (lined_expectIdent _) fun _ hp => bind (lift Step.lined_view) fun _ _ =>
        bind (lift (lined_emitTypeName hp _ _)) fun _ _ => lined_dotted context fuel _ _

mutual

/-- A type read from a cursor over `T` has no dimensions yet. -/
theorem lined_reference (context : Option Nat) :
    ∀ fuel : Nat, Parse.Lined T (reference context fuel) fun r => r.1.dims = []
  | 0 => lined_tooDeep
  | fuel + 1 => by
    rw [reference]
    refine bind (lined_expectIdent _) fun _ hname => ?_
    dsimp only
    split
    -- a builtin name, or a declared one with its dotted parts; both go on to the type's arguments
    refine bind (lift (Step.lined_emitRef hname _ _ _)) fun _ _ =>
      bind (pure (V := fun ty : Ty => ty.dims = []) rfl) fun _ hb => ?_
    rotate_left
    refine bind (lift Step.lined_view) fun _ _ => bind (lift (lined_emitTypeName hname _ _))
      fun _ _ => bind lined_fuel fun _ _ => bind (lined_dotted _ _ _ _) fun ⟨_, _⟩ _ =>
        bind (pure (V := fun ty : Ty => ty.dims = []) rfl) fun _ hb => ?_
    all_goals
      refine bind (lined_accept _) fun _ ho => ?_
      split
      · exact pure hb
      · exact bind (lift (Step.lined_emit (ho _ rfl) _)) fun _ _ =>
          bind (lined_arguments context fuel) fun ⟨_, _⟩ _ => pure hb

theorem lined_arguments (context : Option Nat) :
    ∀ fuel : Nat, Parse.Lined T (arguments context fuel) fun _ => True
  | 0 => lined_tooDeep
  | fuel + 1 => by
    rw [arguments]
    refine bind (lined_reference context fuel) fun ⟨_, _⟩ _ => ?_
    dsimp only
    split
    · exact pure trivial
    refine bind (lined_expect _ _) fun _ hs => bind (lift (Step.lined_emit hs _)) fun _ _ => ?_
    split
    · exact bind (lined_arguments context fuel) fun ⟨_, _⟩ _ => pure trivial
    · exact pure trivial
    · exact pure trivial

end

end Types

namespace Parse

open Lined

variable {T : List Token}

/-- A `>>` that closes one list too many is reported at the end of what was read. -/
theorem lined_compoundType (context : Option Nat) :
    Parse.Lined T (compoundType context) fun ty => ty.dims = [] := by
  unfold compoundType
  refine bind lined_fuel fun _ _ => bind (Types.lined_reference _ _) fun ⟨_, _⟩ hty => ?_
  dsimp only
  split
  · exact bind get fun _ hc => throw hc.lastLine
  · exact pure hty

/-- The dimensions read from a cursor over `T` have sizes of tokens of `T`; a size that is not
    an expression is reported on one of its tokens or on the line of its bracket. -/
theorem lined_dimensions :
    ∀ fuel : Nat, Parse.Lined T (dimensions fuel) fun dims => Expr.dimTokens dims ⊆ T
  | 0 => lined_tooDeep
  | fuel + 1 => by
    rw [dimensions]
    refine bind (lined_accept _) fun _ ho => ?_
    split
    · exact pure (by simp)
    refine bind (lift (Step.lined_emit (ho _ rfl) _)) fun _ _ =>
      bind (lined_balanced _) fun _ hsize => bind (lined_expect _ _) fun _ hc =>
        bind (lift (Step.lined_emit hc _)) fun _ _ => ?_
    dsimp only
    -- an empty size is a dimension without one; otherwise the size is read on its own
    split
    · exact bind (pure (V := fun d : Option Expr => (d.map Expr.tokens).getD [] ⊆ T) (by simp))
        fun _ hd => bind (lined_dimensions fuel) fun _ hds =>
          pure (by rw [Expr.dimTokens_cons, List.append_subset]; exact ⟨hd, hds⟩)
    · exact bind (map some (lined_ofExcept (lined_run hsize (.of (ho _ rfl))))
        (W := fun d : Option Expr => (d.map Expr.tokens).getD [] ⊆ T) fun _ he => he)
        fun _ hd => bind (lined_dimensions fuel) fun _ hds =>
          pure (by rw [Expr.dimTokens_cons, List.append_subset]; exact ⟨hd, hds⟩)

end Parse

end ZScript
