import ZScript.Proofs.NewCalls
import ZScript.Proofs.ReaderTokens
import ZScript.Proofs.Handles

/-!
# Where semantic tokens come from

A file's analysis classifies ranges of its text only by its own tokens: every semantic token
spans one of them, and every token that a node keeps for later (a stored body, an expression, the
sizes of a type's dimensions) is one of them. `Analysis.Sourced T a` says so of the token list
`T`, which is the analysis' own.

Readers take their tokens from a cursor over the file's tokens, or over a body stored in a node;
they emit them, and store them in nodes, expressions and types, and never make one up. So steps
keep the invariant (`Step.Sourced`), and readers keep it from any cursor over tokens of `T`,
leaving such a cursor (`Parse.Sourced`). Each rule below follows one combinator or primitive of
the monads.
-/

namespace ZScript

/-- The tokens of the dimension sizes of a type. -/
def Expr.dimTokens (dims : List (Option Expr)) : List Token :=
  dims.flatMap fun d => (d.map Expr.tokens).getD []

@[simp] theorem Expr.dimTokens_nil : Expr.dimTokens [] = [] := rfl

@[simp] theorem Expr.dimTokens_cons (d : Option Expr) (ds : List (Option Expr)) :
    Expr.dimTokens (d :: ds) = (d.map Expr.tokens).getD [] ++ Expr.dimTokens ds := rfl

@[simp] theorem Expr.dimTokens_append (ds ds' : List (Option Expr)) :
    Expr.dimTokens (ds ++ ds') = Expr.dimTokens ds ++ Expr.dimTokens ds' := by
  simp [Expr.dimTokens]

/-- The tokens a node keeps: stored bodies, and those of the expressions it holds and of the
    dimensions of its types. -/
def NodeKind.tokens : NodeKind → List Token
  | .enumDecl base => (base.map fun ty => Expr.dimTokens ty.dims).getD []
  | .classDecl c => c.info.body
  | .structDecl info => info.body
  | .field f => Expr.dimTokens f.type.dims ++ (f.init.map Expr.tokens).getD []
  | .method m => (m.returns.flatMap fun ty => Expr.dimTokens ty.dims) ++ m.body.getD []
  | .expression e => e.tokens
  | .forLoop _ c s => (c.map Expr.tokens).getD [] ++ s.flatMap Expr.tokens
  | .whileLoop c _ => c.tokens
  | .cond c _ => c.tokens
  | .constant v => (v.map Expr.tokens).getD []
  | .localVar ty _ => (ty.map fun ty => Expr.dimTokens ty.dims).getD []
  | .root _ | .inclusion _ _ | .block | .property _ | .control _ => []

/-- A class or struct keeps the tokens of its stored body. -/
theorem NodeKind.tokens_of_typeInfo? {k : NodeKind} {i : TypeInfo} (h : k.typeInfo? = some i) :
    k.tokens = i.body := by
  cases k <;> simp_all [typeInfo?, tokens]

theorem NodeKind.tokens_setTypeInfo {k : NodeKind} {i : TypeInfo} (h : k.typeInfo? = some i)
    (i' : TypeInfo) : (k.setTypeInfo i').tokens = i'.body := by
  cases k <;> simp_all [typeInfo?, setTypeInfo, tokens]

/-- Changing what a class or struct declares keeps no token but those of the new body. -/
theorem NodeKind.tokens_setTypeInfo_subset (k : NodeKind) (i : TypeInfo) :
    (k.setTypeInfo i).tokens ⊆ k.tokens ++ i.body := by
  cases k <;> simp [setTypeInfo, tokens]

/-- Every token a node of the tree keeps is in `T`. -/
def Tree.Sourced (T : List Token) (t : Tree) : Prop :=
  ∀ i node, t.get? i = some node → node.kind.tokens ⊆ T

/-- Every range the analysis classifies is the range of a token of `T`, every token its nodes
    keep is in `T`, and `T` is the analysis' token list. -/
structure Analysis.Sourced (T : List Token) (a : Analysis) : Prop where
  tokens : a.tokens = T
  semantic : ∀ s ∈ a.semantic, s.range ∈ T.map Token.range
  tree : a.tree.Sourced T

/-! ## Sourced trees -/

namespace Tree.Sourced

variable {T : List Token} {t : Tree}

theorem alloc (h : t.Sourced T) {parent : Option Nat} {name : String} {line : Nat}
    {kind : NodeKind} (hk : kind.tokens ⊆ T) : (t.alloc parent name line kind).2.Sourced T := by
  intro i node hg
  rw [get?_alloc] at hg
  split at hg
  · cases hg
    exact hk
  · exact h i node hg

/-- A change of nodes that keeps every kind. -/
theorem modify (h : t.Sourced T) {id : Nat} {f : Node → Node} (hf : ∀ n, (f n).kind = n.kind) :
    (t.modify id f).Sourced T := by
  intro i node hg
  obtain ⟨old, hold, hk⟩ := kind_modify hg hf
  exact hk ▸ h i old hold

theorem add (h : t.Sourced T) {parent : Nat} {name : String} {line : Nat} {kind : NodeKind}
    (hk : kind.tokens ⊆ T) : (t.add parent name line kind).2.Sourced T := by
  rw [Tree.add_eq]
  refine Sourced.modify (h.alloc hk) ?_
  intro _
  rfl

theorem attach (h : t.Sourced T) (p c : Nat) : (t.attach p c).Sourced T := by
  unfold Tree.attach
  refine Sourced.modify (Sourced.modify h ?_) ?_ <;> intro _ <;> rfl

theorem modifyKind (h : t.Sourced T) {id : Nat} {f : NodeKind → NodeKind}
    (hf : ∀ node, t.get? id = some node → (f node.kind).tokens ⊆ T) :
    (t.modifyKind id f).Sourced T := by
  intro i node hg
  rw [Tree.modifyKind, get?_modify] at hg
  split at hg
  · next hid =>
    obtain ⟨old, hold, rfl⟩ := Option.map_eq_some_iff.1 hg
    exact hf old (hid ▸ hold)
  · exact h i node hg

/-- Dropping nodes keeps the kinds of those that stay. -/
theorem truncate (h : t.Sourced T) (m : Nat) : (t.truncate m).Sourced T := by
  intro i node hg
  unfold Tree.truncate at hg
  dsimp only at hg
  split at hg
  · exact h i node hg
  · simp only [get?, Array.getElem?_map, Array.getElem?_extract] at hg
    split at hg
    · obtain ⟨old, hold, rfl⟩ := Option.map_eq_some_iff.1 hg
      exact h i old (by simpa [get?] using hold)
    · cases hg

end Tree.Sourced

namespace Analysis.Sourced

variable {T : List Token} {a : Analysis}

/-- Another analysis with the same tokens, semantic tokens and tree: only the diagnostics or
    the failure flag differ. -/
theorem congr (h : a.Sourced T) {b : Analysis} (htok : b.tokens = a.tokens)
    (hs : b.semantic = a.semantic) (ht : b.tree = a.tree) : b.Sourced T :=
  ⟨htok.trans h.tokens, hs ▸ h.semantic, ht ▸ h.tree⟩

theorem push (h : a.Sourced T) {s : SemanticToken} (hs : s.range ∈ T.map Token.range) :
    { a with semantic := a.semantic.push s }.Sourced T := by
  refine ⟨h.tokens, fun s' hs' => ?_, h.tree⟩
  rcases Array.mem_push.1 hs' with hs' | rfl
  · exact h.semantic s' hs'
  · exact hs

theorem withTree (h : a.Sourced T) {t : Tree} (ht : t.Sourced T) : { a with tree := t }.Sourced T :=
  ⟨h.tokens, h.semantic, ht⟩

end Analysis.Sourced

/-! ## Steps -/

/-- A step that keeps the file sourced in `T` and answers a value satisfying `V`. -/
def Step.Sourced {α : Type} (T : List Token) (x : Step α) (V : α → Prop) : Prop :=
  Step.Triple (fun w => w.file.Sourced T) x fun a w => V a ∧ w.file.Sourced T

namespace Step.Sourced

variable {α β : Type} {T : List Token} {V V' : α → Prop}

theorem pure {a : α} (h : V a) : Sourced T (Pure.pure a : Step α) V :=
  Triple.pure fun _ hw => ⟨h, hw⟩

theorem bind {x : Step α} {f : α → Step β} {W : β → Prop} (hx : Sourced T x V)
    (hf : ∀ a, V a → Sourced T (f a) W) : Sourced T (x >>= f) W :=
  Triple.bind hx fun a u w hw => hf a hw.1 u w hw.2

theorem mono {x : Step α} (h : Sourced T x V) (hV : ∀ a, V a → V' a) : Sourced T x V' :=
  Triple.post h fun a _ hw => ⟨hV a hw.1, hw.2⟩

/-- A loop whose body keeps the file sourced. -/
theorem forIn {γ σ : Type} (xs : List γ) (init : σ) {f : γ → σ → Step (ForInStep σ)}
    (hf : ∀ b ∈ xs, ∀ s, Sourced T (f b s) fun _ => True) :
    Sourced T (forIn xs init f) fun _ => True :=
  Triple.post (Triple.forIn xs init fun b hb s => (hf b hb s).post fun _ _ hw => hw.2)
    fun _ _ hw => ⟨trivial, hw⟩

theorem withReader {x : Step α} (h : Sourced T x V) (f : Universe → Universe) :
    Sourced T (withReader f x) V :=
  Triple.withReader h f

/-- A step that changes neither the tokens, the semantic tokens nor the tree of the file. -/
theorem of_same {x : Step α} (hV : ∀ u w, w.file.Sourced T → V (x u w).1)
    (h : ∀ u w, (x u w).2.file.tokens = w.file.tokens ∧
      (x u w).2.file.semantic = w.file.semantic ∧ (x u w).2.file.tree = w.file.tree) :
    Sourced T x V := fun u w hw =>
  ⟨hV u w hw, hw.congr (h u w).1 (h u w).2.1 (h u w).2.2⟩

end Step.Sourced

namespace Step

variable {T : List Token}

theorem sourced_current : Step.Sourced T current (·.Sourced T) := fun _ _ hw => ⟨hw, hw⟩

theorem sourced_tree : Step.Sourced T tree (·.Sourced T) := fun _ _ hw => ⟨hw.tree, hw⟩

theorem sourced_view : Step.Sourced T view (·.tree.Sourced T) := fun _ _ hw => ⟨hw.tree, hw⟩

theorem sourced_here (id : Nat) : Step.Sourced T (here id) fun _ => True :=
  fun _ _ hw => ⟨trivial, hw⟩

theorem sourced_mark : Step.Sourced T mark fun _ => True := fun _ _ hw => ⟨trivial, hw⟩

theorem sourced_log (level : LogLevel) (source : LogSource) (message : String) :
    Step.Sourced T (log level source message) fun _ => True :=
  Sourced.of_same (fun _ _ _ => trivial) fun _ _ => ⟨rfl, rfl, rfl⟩

theorem sourced_emitToken {s : SemanticToken} (hs : s.range ∈ T.map Token.range) :
    Step.Sourced T (emitToken s) fun _ => True :=
  fun _ _ hw => ⟨trivial, hw.push hs⟩

theorem sourced_emit {t : Token} (ht : t ∈ T) (kind : SemanticKind) :
    Step.Sourced T (emit t kind) fun _ => True :=
  sourced_emitToken (List.mem_map_of_mem ht)

theorem sourced_emitRef {t : Token} (ht : t ∈ T) (kind : SemanticKind) (ref : Option Target)
    (name : String) : Step.Sourced T (emitRef t kind ref name) fun _ => True :=
  sourced_emitToken (List.mem_map_of_mem ht)

theorem sourced_warn (message : String) (line : Nat) :
    Step.Sourced T (warn message line) fun _ => True :=
  Sourced.of_same (fun _ _ _ => trivial) fun _ _ => ⟨rfl, rfl, rfl⟩

theorem sourced_report (e : ParseError) : Step.Sourced T (report e) fun _ => True :=
  Sourced.of_same (fun _ _ _ => trivial) fun _ _ => ⟨rfl, rfl, rfl⟩

theorem sourced_fail (e : ParseError) : Step.Sourced T (fail e) fun _ => True :=
  Sourced.of_same (fun _ _ _ => trivial) fun _ _ => ⟨rfl, rfl, rfl⟩

theorem sourced_alloc (parent : Option Nat) (name : String) (line : Nat) {kind : NodeKind}
    (hk : kind.tokens ⊆ T) : Step.Sourced T (alloc parent name line kind) fun _ => True :=
  fun _ _ hw => ⟨trivial, hw.withTree (hw.tree.alloc hk)⟩

theorem sourced_add (parent : Nat) (name : String) (line : Nat) {kind : NodeKind}
    (hk : kind.tokens ⊆ T) : Step.Sourced T (add parent name line kind) fun _ => True :=
  fun _ _ hw => ⟨trivial, hw.withTree (hw.tree.add hk)⟩

theorem sourced_attach (parent child : Nat) : Step.Sourced T (attach parent child) fun _ => True :=
  fun _ _ hw => ⟨trivial, hw.withTree (hw.tree.attach parent child)⟩

/-- Changing what a node holds, into a kind whose tokens are in `T` whenever the node's were. -/
theorem sourced_modifyKind (id : Nat) {f : NodeKind → NodeKind}
    (hf : ∀ k, k.tokens ⊆ T → (f k).tokens ⊆ T) :
    Step.Sourced T (modifyKind id f) fun _ => True :=
  fun _ _ hw => ⟨trivial, hw.withTree (hw.tree.modifyKind fun node hg => hf _ (hw.tree id node hg))⟩

/-- A member of a slice of an array, such as the semantic tokens kept by a rollback, is one of
    the array's. -/
theorem mem_of_mem_extract {α : Type} {ss : Array α} {i j : Nat} {s : α}
    (h : s ∈ ss.extract i j) : s ∈ ss := by
  rw [Array.mem_extract_iff_getElem] at h
  obtain ⟨k, hk, rfl⟩ := h
  exact Array.getElem_mem _

theorem sourced_rollback (m : Mark) : Step.Sourced T (rollback m) fun _ => True := by
  intro u w hw
  rw [rollback_run]
  refine ⟨trivial, hw.tokens, fun s hs => hw.semantic s ?_, hw.tree.truncate m.nodes⟩
  exact mem_of_mem_extract hs

/-- Forgetting a reference keeps the range. -/
theorem range_forget (file cut : Nat) (s : SemanticToken) : (s.forget file cut).range = s.range := by
  unfold SemanticToken.forget
  split
  · split <;> rfl
  · rfl

theorem sourced_discardNodes (m : Mark) : Step.Sourced T (discardNodes m) fun _ => True := by
  intro u w hw
  rw [discardNodes_run]
  refine ⟨trivial, hw.tokens, fun s hs => ?_, hw.tree.truncate m.nodes⟩
  rcases Array.mem_append.1 hs with hs | hs
  · exact hw.semantic s (mem_of_mem_extract hs)
  · obtain ⟨s', hs', rfl⟩ := Array.mem_map.1 hs
    rw [range_forget]
    exact hw.semantic s' (mem_of_mem_extract hs')

end Step

/-- A step that may fail, keeps the file sourced in `T` either way, and answers a value
    satisfying `V` when it succeeds. -/
def Step.SourcedRun {α : Type} (T : List Token) (x : ExceptT ParseError Step α) (V : α → Prop) :
    Prop :=
  Step.Triple (fun w => w.file.Sourced T) x.run
    (Outcome (fun a w => V a ∧ w.file.Sourced T) fun w => w.file.Sourced T)

/-! ## Readers -/

/-- A reader that keeps the file sourced in `T` from a cursor over tokens of `T`: when it
    succeeds, its value satisfies `V` and the cursor it leaves is over tokens of `T`. -/
def Parse.Sourced {α : Type} (T : List Token) (x : Parse α) (V : α → Prop) : Prop :=
  ∀ c : Cursor, c.rest ⊆ T → Step.Triple (fun w => w.file.Sourced T) (x c).run
    (Outcome (fun p w => V p.1 ∧ p.2.rest ⊆ T ∧ w.file.Sourced T) fun w => w.file.Sourced T)

namespace Parse.Sourced

variable {α β : Type} {T : List Token} {V V' : α → Prop}

theorem pure {a : α} (h : V a) : Sourced T (Pure.pure a : Parse α) V :=
  fun _ hc _ _ hw => ⟨h, hc, hw⟩

theorem bind {x : Parse α} {f : α → Parse β} {W : β → Prop} (hx : Sourced T x V)
    (hf : ∀ a, V a → Sourced T (f a) W) : Sourced T (x >>= f) W := by
  intro c hc
  rw [run_bind]
  refine Step.Triple.bind (hx c hc) fun r => ?_
  rcases r with e | ⟨a, c'⟩
  · exact fun _ _ hw => hw
  · exact fun u w hw => hf a hw.1 c' hw.2.1 u w hw.2.2

theorem mono {x : Parse α} (h : Sourced T x V) (hV : ∀ a, V a → V' a) : Sourced T x V' := by
  intro c hc u w hw
  have h' := h c hc u w hw
  revert h'
  generalize (x c).run u w = r
  rcases r with ⟨e | ⟨a, c'⟩, w'⟩
  · exact id
  · exact fun h => ⟨hV a h.1, h.2⟩

theorem throw {e : ParseError} : Sourced T (MonadExcept.throw e : Parse α) V :=
  fun _ _ _ _ hw => hw

theorem step {x : Step α} (h : Step.Sourced T x V) : Sourced T (Parse.step x) V :=
  fun _ hc u w hw => ⟨(h u w hw).1, hc, (h u w hw).2⟩

theorem lift {x : Step α} (h : Step.Sourced T x V) : Sourced T (monadLift x : Parse α) V :=
  step h

theorem get : Sourced T (MonadState.get : Parse Cursor) fun c => c.rest ⊆ T :=
  fun _ hc _ _ hw => ⟨hc, hc, hw⟩

theorem set {c' : Cursor} (hc' : c'.rest ⊆ T) :
    Sourced T (MonadStateOf.set c' : Parse PUnit) fun _ => True :=
  fun _ _ _ _ hw => ⟨trivial, hc', hw⟩

theorem modifyGet {f : Cursor → α × Cursor}
    (hf : ∀ c : Cursor, c.rest ⊆ T → V (f c).1 ∧ (f c).2.rest ⊆ T) :
    Sourced T (MonadState.modifyGet f : Parse α) V :=
  fun c hc _ _ hw => ⟨(hf c hc).1, (hf c hc).2, hw⟩

theorem map {x : Parse α} (f : α → β) {W : β → Prop} (h : Sourced T x V)
    (hf : ∀ a, V a → W (f a)) : Sourced T (f <$> x) W := by
  rw [map_eq_pure_bind]
  exact bind h fun a ha => pure (hf a ha)

/-- A reader run for its effect alone. -/
theorem discard {x : Parse α} (h : Sourced T x V) : Sourced T (Functor.discard x) fun _ => True := by
  rw [Functor.discard, LawfulFunctor.map_const, Function.comp_apply]
  exact map _ h fun _ _ => trivial

/-- A failure caught by `tryCatch` ends in the handler, from the cursor the reader started
    from and the work the failure left. -/
theorem tryCatch {x : Parse α} {h : ParseError → Parse α} (hx : Sourced T x V)
    (hh : ∀ e, Sourced T (h e) V) : Sourced T (MonadExcept.tryCatch x h) V := by
  intro c hc
  rw [run_tryCatch]
  refine Step.Triple.bind (hx c hc) fun r => ?_
  rcases r with e | ⟨a, c'⟩
  · exact hh e c hc
  · exact Step.Triple.pure fun _ => id

/-- A step that may fail, lifted into a reader. -/
theorem exceptLift {x : ExceptT ParseError Step α} (h : Step.SourcedRun T x V) :
    Sourced T (monadLift x : Parse α) V :=
  fun _ hc => Step.Triple.except_bind h fun _ => Step.Triple.except_pure fun _ hw => ⟨hw.1, hc, hw.2⟩

/-- A reader run on a token list of `T`. -/
theorem runOn {x : Parse α} (h : Sourced T x V) {ts : List Token} (hts : ts ⊆ T) :
    Step.SourcedRun T (Parse.runOn ts x) V := by
  intro u w hw
  rw [runOn_run]
  have h' := h (Cursor.ofList ts) hts u w hw
  revert h'
  generalize (x (Cursor.ofList ts)).run u w = r
  rcases r with ⟨e | ⟨a, _⟩, w'⟩
  · exact id
  · exact fun h => ⟨h.1, h.2.2⟩

end Parse.Sourced

/-! ## The readers of the cursor -/

theorem Cursor.read?_rest {c c' : Cursor} {t : Token} (h : c.read? = some (t, c')) :
    c.rest = t :: c'.rest := by
  unfold Cursor.read? at h
  split at h
  · cases h
  · simp only [Option.some.injEq, Prod.mk.injEq] at h
    obtain ⟨rfl, rfl⟩ := h
    assumption

theorem Cursor.acceptKeyword?_rest {c c' : Cursor} {word : String} {t : Token}
    (h : c.acceptKeyword? word = some (t, c')) : c.rest = t :: c'.rest := by
  unfold Cursor.acceptKeyword? at h
  split at h
  · split at h
    · simp only [Option.some.injEq, Prod.mk.injEq] at h
      obtain ⟨rfl, rfl⟩ := h
      assumption
    · cases h
  · cases h

namespace Parse

open Sourced

variable {α : Type} {T : List Token}

/-- Taking the next token off a cursor over `T`. -/
theorem sourced_take {c c' : Cursor} {t : Token} (hc : c.rest ⊆ T) (h : c.rest = t :: c'.rest) :
    Sourced T (do MonadStateOf.set c'; Pure.pure (some t) : Parse (Option Token))
      fun o => ∀ t ∈ o, t ∈ T := by
  rw [h, List.cons_subset] at hc
  exact bind (set hc.2) fun _ _ => pure fun _ ht => Option.mem_some_iff.1 ht ▸ hc.1

theorem sourced_peek : Sourced T peek fun o => ∀ t ∈ o, t ∈ T :=
  bind get fun _ hc => pure fun _ ht => hc (List.mem_of_mem_head? ht)

theorem sourced_peekAt (n : Nat) : Sourced T (peekAt n) fun o => ∀ t ∈ o, t ∈ T :=
  bind get fun _ hc => pure fun _ ht => hc (List.mem_of_getElem? ht)

theorem sourced_check (k : TokenKind) : Sourced T (check k) fun _ => True :=
  bind get fun _ _ => pure trivial

theorem sourced_next : Sourced T next fun o => ∀ t ∈ o, t ∈ T := by
  refine bind get fun c hc => ?_
  split
  · next hread => exact sourced_take hc (Cursor.read?_rest hread)
  · exact pure fun _ ht => by cases ht

theorem sourced_accept (kinds : List TokenKind) : Sourced T (accept kinds) fun o => ∀ t ∈ o, t ∈ T := by
  refine bind get fun c hc => ?_
  split
  · next hread => exact sourced_take hc (ExprParser.Cursor.accept?_rest hread)
  · exact pure fun _ ht => by cases ht

theorem sourced_acceptKeyword (word : String) :
    Sourced T (acceptKeyword word) fun o => ∀ t ∈ o, t ∈ T := by
  refine bind get fun c hc => ?_
  split
  · next hread => exact sourced_take hc (Cursor.acceptKeyword?_rest hread)
  · exact pure fun _ ht => by cases ht

theorem sourced_unexpected (expected : String) {V : α → Prop} :
    Sourced T (unexpected expected : Parse α) V := by
  refine bind (bind get fun c _ => ?_) fun _ (_ : True) => throw
  split <;> exact pure trivial

theorem sourced_expect (kinds : List TokenKind) (expected : String) :
    Sourced T (expect kinds expected) (· ∈ T) := by
  refine bind (sourced_accept kinds) fun o ho => ?_
  split
  · exact pure (ho _ rfl)
  · exact sourced_unexpected expected

theorem sourced_expectIdent (what : String) : Sourced T (expectIdent what) (· ∈ T) :=
  sourced_expect _ _

theorem sourced_tooDeep {V : α → Prop} : Sourced T (tooDeep : Parse α) V :=
  bind get fun _ _ => throw

theorem sourced_fuel : Sourced T fuel fun _ => True :=
  bind get fun _ _ => pure trivial

theorem sourced_balanced (stop : List TokenKind) : Sourced T (balanced stop) (· ⊆ T) := by
  refine modifyGet fun c hc => ?_
  have happ := balancedRun_append stop [] c.rest
  rw [← happ, List.append_subset] at hc
  exact hc

theorem sourced_ofExcept (x : Except ParseError α) : Sourced T (ofExcept x) (x = .ok ·) := by
  cases x with
  | error e => exact throw
  | ok a => exact pure rfl

/-- An expression read from a cursor over `T` stores tokens of `T` only. -/
theorem sourced_expression (stop : List TokenKind) :
    Sourced T (expression stop) fun e => e.tokens ⊆ T := by
  intro c hc u w hw
  unfold expression liftExpr
  split
  · next r p hrun =>
    obtain ⟨e, c'⟩ := p
    change ExprParser.expression stop c = .ok (e, c') at hrun
    rw [ExprParser.expression_eq] at hrun
    obtain ⟨ts, hts, htok⟩ := (ExprParser.conserving _).parseExpr_ok stop c e c' hrun
    rw [hts, List.append_subset] at hc
    exact ⟨List.Subset.trans (Multiset.coe_eq_coe.1 htok).subset hc.1, hc.2, hw⟩
  · exact hw

/-- An expression read from its own tokens stores those only. -/
theorem tokens_run {ts : List Token} {line : Nat} {e : Expr} (h : ExprParser.run ts line = .ok e) :
    e.tokens ⊆ ts :=
  (Multiset.coe_eq_coe.1 ((ExprParser.conserving _).parseRun_ok ts line e h)).subset

theorem sourced_bracedBody (what : String) : Sourced T (bracedBody what) (· ⊆ T) :=
  bind (sourced_expect _ _) fun _ ho => bind (Sourced.step (Step.sourced_emit ho _)) fun _ _ =>
    bind (sourced_balanced _) fun _ hb => bind (sourced_expect _ _) fun _ hc =>
      bind (Sourced.step (Step.sourced_emit hc _)) fun _ _ => pure hb

theorem sourced_semicolon (what : String) : Sourced T (semicolon what) fun _ => True :=
  bind (sourced_expect _ _) fun _ ht => Sourced.step (Step.sourced_emit ht _)

end Parse

/-! ## Tagging expressions -/

/-- The class literal of a `new` call is one of the call's tokens. -/
theorem Tagging.mem_of_newClassName {rest : List Leaf} {name : Token}
    (h : Tagging.newClassName rest = some name) : name ∈ Leaf.tokensOf rest := by
  unfold Tagging.newClassName at h
  split at h
  · cases h
    simp [Leaf.tokens]
  · cases h

namespace Tagging

open Step.Sourced

variable {T : List Token}

theorem sourced_emitDecl {t : Token} (ht : t ∈ T) (d : DeclRef) :
    Step.Sourced T (emitDecl t d) fun _ => True := by
  unfold emitDecl
  refine bind Step.sourced_view fun v _ => ?_
  split
  · exact pure trivial
  · exact bind (Step.sourced_emitRef ht _ _ _) fun _ _ => pure trivial

theorem sourced_ident {t : Token} (ht : t ∈ T) (scope : Scope) :
    Step.Sourced T (ident t scope) fun _ => True := by
  unfold ident
  refine bind Step.sourced_view fun v _ => ?_
  split
  · exact bind (Step.sourced_emit ht _) fun _ _ => pure trivial
  split
  · exact bind (Step.sourced_emitRef ht _ _ _) fun _ _ => pure trivial
  -- a symbol, else a type, else a builtin, else an unresolved name
  split
  · exact sourced_emitDecl ht _
  split
  · exact sourced_emitDecl ht _
  split
  · exact bind (Step.sourced_emitRef ht _ _ _) fun _ _ => pure trivial
  · exact bind (Step.sourced_emitRef ht _ _ _) fun _ _ =>
      bind (Step.sourced_warn _ _) fun _ _ => pure trivial

theorem sourced_links : ∀ (current : Option Ty) (rest : List Leaf), Leaf.tokensOf rest ⊆ T →
    Step.Sourced T (links current rest) fun _ => True
  | _, [], _ => pure trivial
  | current, .ident t :: rest, h => by
    rw [links]
    rw [Leaf.tokensOf_cons, List.append_subset] at h
    have ht : t ∈ T := h.1 (by simp [Leaf.tokens])
    refine bind Step.sourced_view fun v _ => ?_
    split
    · exact pure trivial
    split
    · exact bind (sourced_emitDecl ht _) fun ty _ => sourced_links ty rest h.2
    · exact bind (Step.sourced_emitRef ht _ _ _) fun _ _ =>
        bind (Step.sourced_warn _ _) fun _ _ => pure trivial
  | _, .integer _ :: _, _ | _, .double _ :: _, _ | _, .boolean _ :: _, _ | _, .string _ :: _, _
  | _, .expr _ :: _, _ => pure trivial

theorem sourced_newClass {t : Token} (ht : t ∈ T) (scope : Scope) :
    Step.Sourced T (newClass t scope) fun _ => True := by
  unfold newClass
  refine bind Step.sourced_view fun v _ => ?_
  dsimp only
  split
  · exact bind (Step.sourced_emitRef ht _ _ _) fun _ _ => pure trivial
  · exact bind (Step.sourced_emitRef ht _ _ _) fun _ _ =>
      bind (Step.sourced_warn _ _) fun _ _ => pure trivial

/-- Tagging each token of a list of tokens of `T`. -/
theorem sourced_emitAll {ts : List Token} (h : ts ⊆ T) (kind : Token → SemanticKind) :
    Step.Sourced T (forIn ts PUnit.unit fun t _ => do
      Step.emit t (kind t); Pure.pure (ForInStep.yield PUnit.unit)) fun _ => True :=
  forIn ts _ fun _ ht _ => bind (Step.sourced_emit (h ht) _) fun _ _ => pure trivial

mutual

/-- Tagging an expression of tokens of `T` keeps the file sourced, and keeps the expression's
    tokens. -/
theorem sourced_expr (scope : Scope) : ∀ e : Expr, e.tokens ⊆ T →
    Step.Sourced T (expr scope e) fun r => r.1.tokens = e.tokens
  | ⟨op, assign, leaves, operators, special, type⟩, he => by
    rw [expr]
    simp only [Expr.tokens_mk, List.append_subset] at he
    refine bind (sourced_emitAll he.1.2 fun _ => .operator) fun _ _ => ?_
    refine bind (sourced_emitAll he.2 _) fun _ _ => ?_
    exact bind (sourced_operands scope op leaves he.1.1) fun ⟨_, _⟩ hls =>
      pure (by simp only [Expr.tokens_mk]; rw [hls])

theorem sourced_operands (scope : Scope) (op : Operator) : ∀ ls : List Leaf,
    Leaf.tokensOf ls ⊆ T →
      Step.Sourced T (operands scope op ls) fun r => Leaf.tokensOf r.1 = Leaf.tokensOf ls
  | [], _ => by
    rw [operands]
    exact pure rfl
  | first :: rest, h => by
    unfold operands
    have h' := h
    rw [Leaf.tokensOf_cons, List.append_subset] at h'
    -- member access, call (a `new` or an ordinary one), cast, and every other operator
    split
    · exact bind (sourced_leaf scope first h'.1) fun ⟨_, _⟩ hf =>
        bind (sourced_links _ rest h'.2) fun _ _ => pure (by simp only [Leaf.tokensOf_cons]; rw [hf])
    · split
      · split
        · next t =>
          refine bind (Step.sourced_emit (h'.1 (by simp [Leaf.tokens])) _) fun _ _ => ?_
          split
          · next name hname =>
            exact bind (sourced_newClass (h'.2 (mem_of_newClassName hname)) _) fun _ _ => pure rfl
          · exact bind (sourced_leaves scope rest h'.2) fun ⟨_, _⟩ hr =>
              pure (by simp only [Leaf.tokensOf_cons]; rw [hr])
        · exact bind (sourced_leaf scope _ h'.1) fun ⟨_, _⟩ hf =>
            bind (sourced_leaves scope rest h'.2) fun ⟨_, _⟩ hr =>
              pure (by simp only [Leaf.tokensOf_cons]; rw [hf, hr])
      · exact bind (sourced_leaf scope _ h'.1) fun ⟨_, _⟩ hf =>
          bind (sourced_leaves scope rest h'.2) fun ⟨_, _⟩ hr =>
            pure (by simp only [Leaf.tokensOf_cons]; rw [hf, hr])
    · refine bind (sourced_leaves scope rest h'.2) fun ⟨_, _⟩ hr => ?_
      dsimp only
      split
      · exact bind (Step.sourced_emitRef (h'.1 (by simp [Leaf.tokens])) _ _ _) fun _ _ =>
          pure (by simp only [Leaf.tokensOf_cons]; rw [hr])
      · exact pure (by simp only [Leaf.tokensOf_cons]; rw [hr])
    · exact bind (sourced_leaf scope first h'.1) fun ⟨_, _⟩ hf =>
        bind (sourced_leaves scope rest h'.2) fun ⟨_, _⟩ hr =>
          pure (by simp only [Leaf.tokensOf_cons]; rw [hf, hr])

theorem sourced_leaves (scope : Scope) : ∀ ls : List Leaf, Leaf.tokensOf ls ⊆ T →
    Step.Sourced T (leaves scope ls) fun r => Leaf.tokensOf r.1 = Leaf.tokensOf ls
  | [], _ => by
    rw [leaves]
    exact pure rfl
  | l :: ls, h => by
    rw [leaves]
    rw [Leaf.tokensOf_cons, List.append_subset] at h
    exact bind (sourced_leaf scope l h.1) fun ⟨_, _⟩ hl =>
      bind (sourced_leaves scope ls h.2) fun ⟨_, _⟩ hls =>
        pure (by simp only [Leaf.tokensOf_cons]; rw [hl, hls])

theorem sourced_leaf (scope : Scope) : ∀ l : Leaf, l.tokens ⊆ T →
    Step.Sourced T (leaf scope l) fun r => r.1.tokens = l.tokens
  | .integer t, h | .double t, h | .boolean t, h | .string t, h => by
    rw [leaf]
    exact bind (Step.sourced_emit (h (by simp [Leaf.tokens])) _) fun _ _ => pure rfl
  | .ident t, h => by
    rw [leaf]
    exact bind (sourced_ident (h (by simp [Leaf.tokens])) scope) fun _ _ => pure rfl
  | .expr e, h => by
    rw [leaf]
    rw [Leaf.tokens_expr] at h
    exact bind (sourced_expr scope e h) fun ⟨_, _⟩ he => pure (by simpa using he)

end

end Tagging

theorem Expr.sourced_tag {T : List Token} {e : Expr} (he : e.tokens ⊆ T) (scope : Scope) :
    Step.Sourced T (e.tag scope) fun e' => e'.tokens = e.tokens :=
  Step.Sourced.bind (Tagging.sourced_expr scope e he) fun _ h => Step.Sourced.pure h

/-! ## Reading types -/

namespace Types

open Parse Parse.Sourced

variable {T : List Token}

theorem sourced_emitTypeName {t : Token} (ht : t ∈ T) (resolved : Option DeclRef)
    (context : Option Nat) : Step.Sourced T (emitTypeName t resolved context) fun _ => True := by
  unfold emitTypeName
  refine Step.Sourced.bind Step.sourced_view fun v _ => ?_
  split
  · exact Step.sourced_emitRef ht _ _ _
  · exact Step.sourced_emitRef ht _ _ _

theorem sourced_dotted (context : Option Nat) :
    ∀ (fuel : Nat) (path : String) (resolved : Option DeclRef),
      Parse.Sourced T (dotted context fuel path resolved) fun _ => True
  | 0, _, _ => sourced_tooDeep
  | fuel + 1, path, resolved => by
    rw [dotted]
    refine bind (sourced_check _) fun _ _ => bind (sourced_peekAt _) fun _ _ => ?_
    dsimp only
    split
    · exact pure trivial
    refine bind sourced_next fun dot hdot => ?_
    split
    -- the dot is tagged when there is one; then, either way, the next part of the name
    refine bind (lift (Step.sourced_emit (hdot _ rfl) _)) fun _ _ => ?_
    all_goals
      exact bind (sourced_expectIdent _) fun _ hp => bind (lift Step.sourced_view) fun _ _ =>
        bind (lift (sourced_emitTypeName hp _ _)) fun _ _ => sourced_dotted context fuel _ _

mutual

/-- A type read from a cursor over `T` has no dimensions yet. -/
theorem sourced_reference (context : Option Nat) :
    ∀ fuel : Nat, Parse.Sourced T (reference context fuel) fun r => r.1.dims = []
  | 0 => sourced_tooDeep
  | fuel + 1 => by
    rw [reference]
    refine bind (sourced_expectIdent _) fun _ hname => ?_
    dsimp only
    split
    -- a builtin name, or a declared one with its dotted parts; both go on to the type's arguments
    refine bind (lift (Step.sourced_emitRef hname _ _ _)) fun _ _ =>
      bind (pure (V := fun ty : Ty => ty.dims = []) rfl) fun _ hb => ?_
    rotate_left
    refine bind (lift Step.sourced_view) fun _ _ => bind (lift (sourced_emitTypeName hname _ _))
      fun _ _ => bind sourced_fuel fun _ _ => bind (sourced_dotted _ _ _ _) fun ⟨_, _⟩ _ =>
        bind (pure (V := fun ty : Ty => ty.dims = []) rfl) fun _ hb => ?_
    all_goals
      refine bind (sourced_accept _) fun _ ho => ?_
      split
      · exact pure hb
      · exact bind (lift (Step.sourced_emit (ho _ rfl) _)) fun _ _ =>
          bind (sourced_arguments context fuel) fun ⟨_, _⟩ _ => pure hb

theorem sourced_arguments (context : Option Nat) :
    ∀ fuel : Nat, Parse.Sourced T (arguments context fuel) fun _ => True
  | 0 => sourced_tooDeep
  | fuel + 1 => by
    rw [arguments]
    refine bind (sourced_reference context fuel) fun ⟨_, _⟩ _ => ?_
    dsimp only
    split
    · exact pure trivial
    refine bind (sourced_expect _ _) fun _ hs => bind (lift (Step.sourced_emit hs _)) fun _ _ => ?_
    split
    · exact bind (sourced_arguments context fuel) fun ⟨_, _⟩ _ => pure trivial
    · exact pure trivial
    · exact pure trivial

end

end Types

namespace Parse

open Sourced

variable {T : List Token}

theorem sourced_compoundType (context : Option Nat) :
    Parse.Sourced T (compoundType context) fun ty => ty.dims = [] := by
  unfold compoundType
  refine bind sourced_fuel fun _ _ => bind (Types.sourced_reference _ _) fun ⟨_, _⟩ hty => ?_
  dsimp only
  split
  · exact bind get fun _ _ => throw
  · exact pure hty

/-- The dimensions read from a cursor over `T` have sizes of tokens of `T`. -/
theorem sourced_dimensions :
    ∀ fuel : Nat, Parse.Sourced T (dimensions fuel) fun dims => Expr.dimTokens dims ⊆ T
  | 0 => sourced_tooDeep
  | fuel + 1 => by
    rw [dimensions]
    refine bind (sourced_accept _) fun _ ho => ?_
    split
    · exact pure (by simp)
    refine bind (lift (Step.sourced_emit (ho _ rfl) _)) fun _ _ =>
      bind (sourced_balanced _) fun _ hsize => bind (sourced_expect _ _) fun _ hc =>
        bind (lift (Step.sourced_emit hc _)) fun _ _ => ?_
    dsimp only
    -- an empty size is a dimension without one; otherwise the size is read on its own
    split
    · exact bind (pure (V := fun d : Option Expr => (d.map Expr.tokens).getD [] ⊆ T) (by simp))
        fun _ hd => bind (sourced_dimensions fuel) fun _ hds =>
          pure (by rw [Expr.dimTokens_cons, List.append_subset]; exact ⟨hd, hds⟩)
    · refine bind (map some (sourced_ofExcept _)
        (W := fun d : Option Expr => (d.map Expr.tokens).getD [] ⊆ T) fun e he => ?_)
        fun _ hd => bind (sourced_dimensions fuel) fun _ hds =>
          pure (by rw [Expr.dimTokens_cons, List.append_subset]; exact ⟨hd, hds⟩)
      exact List.Subset.trans (tokens_run he) hsize

end Parse

end ZScript
