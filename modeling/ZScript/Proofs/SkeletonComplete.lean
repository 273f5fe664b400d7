import ZScript.Proofs.SkeletonSound
import ZScript.Proofs.RootItems

/-!
# What the grammar derives, the first reading accepts

From tokens that the skeleton grammar derives, every reader of the first phase succeeds and
stops where the derivation ends (`Skeleton`), and the file it reads is left unfailed, with the
root listing each item read (`Tree.ListsItems`). The proofs follow a derivation and the reader's
code together: each token the derivation names is one the reader finds, so each `accept` and
`expect` hits or misses as the derivation says, and each step of the analysis in between keeps
the invariant or moves it along by one item (`RootItems`).

Reading a type only tags, so it keeps the tree, and it never marks the file failed
(`Parse.keepsFailed_compoundType`); the other leaves are read by the exact rules of
`SkeletonSound`.
-/

namespace ZScript

/-! ## The failed flag -/

/-- A step that leaves the file's failed flag alone. -/
def Step.KeepsFailed {α : Type} (x : Step α) : Prop := ∀ u w, (x u w).2.file.failed = w.file.failed

/-- A reader that leaves the file's failed flag alone, whether it succeeds or fails. -/
def Parse.KeepsFailed {α : Type} (x : Parse α) : Prop :=
  ∀ c u w, ((x c).run u w).2.file.failed = w.file.failed

namespace Parse.KeepsFailed

variable {α β : Type}

theorem pure (a : α) : KeepsFailed (Pure.pure a : Parse α) := fun _ _ _ => rfl

theorem throw {e : ParseError} : KeepsFailed (MonadExcept.throw e : Parse α) := fun _ _ _ => rfl

theorem quiet {x : Parse α} (h : Quiet x) : KeepsFailed x := fun c u w => by rw [h c u w]

theorem lift {x : Step α} (h : Step.KeepsFailed x) : KeepsFailed (monadLift x : Parse α) :=
  fun _ u w => h u w

theorem bind {x : Parse α} {f : α → Parse β} (hx : KeepsFailed x) (hf : ∀ a, KeepsFailed (f a)) :
    KeepsFailed (x >>= f) := by
  intro c u w
  rw [bind_run_eq]
  have hr := hx c u w
  generalize (x c).run u w = r at hr
  rcases r with ⟨_ | ⟨a, c'⟩, w'⟩
  · exact hr
  · exact (hf a c' u w').trans hr

end Parse.KeepsFailed

theorem Step.keepsFailed_emitRef (t : Token) (kind : SemanticKind) (ref : Option Target)
    (name : String) : Step.KeepsFailed (Step.emitRef t kind ref name) := fun _ _ => rfl

theorem Step.keepsFailed_emit (t : Token) (kind : SemanticKind) :
    Step.KeepsFailed (Step.emit t kind) := fun _ _ => rfl

theorem Types.keepsFailed_emitTypeName (t : Token) (resolved : Option DeclRef)
    (context : Option Nat) : Step.KeepsFailed (Types.emitTypeName t resolved context) := by
  intro u w
  unfold Types.emitTypeName
  rw [Step.bind_run, Step.view_run]
  dsimp only
  split <;> rfl

section
open Parse.KeepsFailed

theorem Types.keepsFailed_dotted (context : Option Nat) (fuel : Nat) :
    ∀ (path : String) (resolved : Option DeclRef),
      Parse.KeepsFailed (Types.dotted context fuel path resolved) := by
  induction fuel with
  | zero =>
    intro _ _
    rw [Types.dotted]
    exact quiet Parse.quiet_tooDeep
  | succ fuel ih =>
    intro path resolved
    rw [Types.dotted]
    refine bind (quiet (Parse.quiet_check _)) fun _ => bind (quiet (Parse.quiet_peekAt _)) fun _ => ?_
    dsimp only
    split
    · exact pure _
    refine bind (quiet Parse.quiet_next) fun dot => ?_
    -- the dot is tagged when there is one; then, either way, the next part of the name
    have part : ∀ r : Unit, Parse.KeepsFailed (do
        let part ← Parse.expectIdent "type name"
        let v ← liftM Step.view
        liftM (Types.emitTypeName part ((resolved.bind fun x => v.findNestedType x part.text).orElse
          fun _ => v.resolveType (path ++ "." ++ part.text) (context.map (⟨v.file, ·⟩))) context)
        Types.dotted context fuel (path ++ "." ++ part.text)
          ((resolved.bind fun x => v.findNestedType x part.text).orElse
            fun _ => v.resolveType (path ++ "." ++ part.text) (context.map (⟨v.file, ·⟩))) :
          Parse (String × Option DeclRef)) := fun _ =>
      bind (quiet (Parse.quiet_expectIdent _)) fun _ => bind (lift fun _ _ => rfl) fun _ =>
        bind (lift (Types.keepsFailed_emitTypeName _ _ _)) fun _ => ih _ _
    split
    · exact bind (lift (Step.keepsFailed_emit _ _)) part
    · exact part ()

/-- Reading a type, or the arguments of one, never marks the file failed. -/
theorem Types.keepsFailed_reference (context : Option Nat) (fuel : Nat) :
    Parse.KeepsFailed (Types.reference context fuel) ∧
      Parse.KeepsFailed (Types.arguments context fuel) := by
  induction fuel with
  | zero =>
    rw [Types.reference, Types.arguments]
    exact ⟨quiet Parse.quiet_tooDeep, quiet Parse.quiet_tooDeep⟩
  | succ fuel ih =>
    constructor
    · rw [Types.reference]
      refine bind (quiet (Parse.quiet_expectIdent _)) fun _ => ?_
      extract_lets jp
      have hjp : ∀ base, Parse.KeepsFailed (jp base) := by
        intro base
        refine bind (quiet (Parse.quiet_accept _)) fun _ => ?_
        split
        · exact pure _
        · exact bind (lift (Step.keepsFailed_emit _ _)) fun _ => bind ih.2 fun _ => pure _
      split
      · exact bind (lift (Step.keepsFailed_emitRef _ _ _ _)) fun _ => bind (pure _) hjp
      · refine bind (lift fun _ _ => rfl) fun _ => bind (lift (Types.keepsFailed_emitTypeName _ _ _))
          fun _ => bind (quiet Parse.quiet_fuel) fun _ => ?_
        exact bind (Types.keepsFailed_dotted _ _ _ _) fun _ => bind (pure _) hjp
    · rw [Types.arguments]
      refine bind ih.1 fun r => ?_
      dsimp only
      split
      · exact pure _
      refine bind (quiet (Parse.quiet_expect _ _)) fun _ =>
        bind (lift (Step.keepsFailed_emit _ _)) fun _ => ?_
      split
      · exact bind ih.2 fun _ => pure _
      · exact pure _
      · exact pure _

theorem Parse.keepsFailed_compoundType (context : Option Nat) :
    Parse.KeepsFailed (Parse.compoundType context) := by
  unfold Parse.compoundType
  refine bind (quiet Parse.quiet_fuel) fun _ => bind (Types.keepsFailed_reference _ _).1 fun r => ?_
  dsimp only
  split
  · exact bind (quiet Quiet.get) fun _ => throw
  · exact pure _

end

namespace Parse.TripleAt

variable {α β : Type} {u : Universe} {ts : List Token} {P : Work → Prop}
  {Q : α → List Token → Work → Prop} {E : Work → Prop}

/-- A step of the analysis reads no token; what it does to the work, with its value, is what the
    rest starts from. -/
theorem step_bind {x : Step α} {f : α → Parse β} {S : α → Work → Prop}
    {R : β → List Token → Work → Prop} (hx : ∀ w, P w → S (x u w).1 (x u w).2)
    (h : ∀ a, TripleAt u ts (S a) (f a) R E) : TripleAt u ts P (monadLift x >>= f) R E := by
  refine bind (lift (Q := fun a ts' w => ts' = ts ∧ S a w) fun w hw => ⟨rfl, hx w hw⟩)
    fun a ts' => ?_
  intro c w hc hw
  obtain ⟨rfl, hw⟩ := hw
  exact h a c w hc hw

/-- A step that keeps `P`, and the rest from the same tokens. -/
theorem keep_bind {x : Step α} {f : α → Parse β} {R : β → List Token → Work → Prop}
    (hx : ∀ w, P w → P (x u w).2) (h : ∀ a, TripleAt u ts P (f a) R E) :
    TripleAt u ts P (monadLift x >>= f) R E :=
  step_bind (S := fun _ => P) hx h

/-- A reader that ends where the rest starts, whatever it answers. -/
theorem seq {x : Parse α} {f : α → Parse β} {ts' : List Token} {P' : Work → Prop}
    {R : β → List Token → Work → Prop} (hx : TripleAt u ts P x (fun _ ts'' w => ts'' = ts' ∧ P' w) E)
    (h : ∀ a, TripleAt u ts' P' (f a) R E) : TripleAt u ts P (x >>= f) R E :=
  bind hx fun a _ => of_fact fun hts => hts ▸ h a

end Parse.TripleAt

namespace Skeleton

/-- The expression reader is deterministic, so an expression ends in one place. -/
theorem ExprPhrase.unique {stop : List TokenKind} {ts ts₁ ts₂ : List Token}
    (h₁ : ExprPhrase stop ts ts₁) (h₂ : ExprPhrase stop ts ts₂) : ts₁ = ts₂ := by
  obtain ⟨e₁, c₁, h₁, rfl⟩ := h₁
  obtain ⟨e₂, c₂, h₂, rfl⟩ := h₂
  rw [h₁] at h₂
  cases h₂
  rfl

/-- Every flag takes at least its word. -/
theorem Flag.length_lt {ts ts' : List Token} (h : Flag ts ts') : ts'.length < ts.length := by
  cases h <;> simp only [List.length_cons] <;> omega

theorem Flags.length_le {ts ts' : List Token} (h : Flags ts ts') : ts'.length ≤ ts.length := by
  induction h with
  | nil _ => exact Nat.le_refl _
  | cons hf _ ih => exact Nat.le_trans ih (Nat.le_of_lt hf.length_lt)

/-- An expression stops at a suffix of the tokens it starts at. -/
theorem ExprPhrase.suffix {stop : List TokenKind} {ts ts' : List Token}
    (h : ExprPhrase stop ts ts') : ∃ s, ts = s ++ ts' := by
  obtain ⟨e, c', h, rfl⟩ := h
  rw [ExprParser.expression_eq] at h
  obtain ⟨s, hs, -⟩ := (ExprParser.conserving _).parseExpr_ok stop _ e c' h
  exact ⟨s, hs⟩

theorem ExprPhrase.length_le {stop : List TokenKind} {ts ts' : List Token}
    (h : ExprPhrase stop ts ts') : ts'.length ≤ ts.length := by
  obtain ⟨s, rfl⟩ := h.suffix
  simp

theorem Optional.length_le {lead : Token → Bool} {G : List Token → List Token → Prop}
    (hG : ∀ ts ts', G ts ts' → ts'.length ≤ ts.length) {ts ts' : List Token}
    (h : Optional lead G ts ts') : ts'.length ≤ ts.length := by
  cases h with
  | skip _ => exact Nat.le_refl _
  | take _ hg => exact Nat.le_trans (hG _ _ hg) (Nat.le_succ _)

theorem Body.length_lt {ts ts' : List Token} (h : Body ts ts') : ts'.length < ts.length := by
  obtain ⟨o, tail, close, rfl, -, hrun, -⟩ := h
  have happ := congrArg List.length (balancedRun_append [] [] tail)
  rw [hrun] at happ
  simp only [List.length_append, List.length_cons] at happ ⊢
  omega

theorem Members.length_lt {ts ts' : List Token} (h : Members ts ts') : ts'.length < ts.length := by
  induction h with
  | close _ => simp
  | last _ hvalue _ =>
    have := hvalue.length_le fun _ _ h => h.length_le
    simp only [List.length_cons] at this ⊢
    omega
  | more _ hvalue _ _ ih =>
    have := hvalue.length_le fun _ _ h => h.length_le
    simp only [List.length_cons] at this ⊢
    omega

/-- Every item takes at least its first token. -/
theorem Item.length_lt {ts ts' : List Token} {o : Option TopItem} (h : Item ts ts' o) :
    ts'.length < ts.length := by
  have hident : ∀ {ts ts'}, Ident ts ts' → ts'.length ≤ ts.length := by
    rintro _ _ ⟨t, rfl, -⟩
    simp
  cases h with
  | semicolon _ => simp
  | «include» _ htail =>
    cases htail
    simp only [List.length_cons]
    omega
  | classDecl _ htail =>
    obtain ⟨_, hparent, hreplace, hflags, hbody⟩ := htail
    have h₁ := (hflags.length_le.trans (hreplace.length_le fun _ _ => hident)).trans
      (hparent.length_le fun _ _ => hident)
    have h₂ := hbody.length_lt
    simp only [List.length_cons] at h₁ h₂ ⊢
    omega
  | extendClass _ _ htail =>
    obtain ⟨_, hparent, hreplace, hflags, hbody⟩ := htail
    have h₁ := (hflags.length_le.trans (hreplace.length_le fun _ _ => hident)).trans
      (hparent.length_le fun _ _ => hident)
    have h₂ := hbody.length_lt
    simp only [List.length_cons] at h₁ h₂ ⊢
    omega
  | structDecl _ htail =>
    obtain ⟨_, hflags, hbody⟩ := htail
    have h₁ := hflags.length_le
    have h₂ := hbody.length_lt
    simp only [List.length_cons]
    omega
  | enumDecl _ htail =>
    obtain ⟨_, hbase, _, hmembers⟩ := htail
    have h₁ := hbase.length_le fun _ _ ⟨_, _, _, _, h⟩ => by simp [h]
    have h₂ := hmembers.length_lt
    simp only [List.length_cons] at h₁ h₂ ⊢
    omega
  | constant _ htail =>
    obtain ⟨_, _, hvalue, _⟩ := htail
    have := hvalue.length_le
    simp only [List.length_cons] at this ⊢
    omega

end Skeleton

namespace Token

theorem kind_of_isKeyword {t : Token} {word : String} (h : t.isKeyword word = true) :
    t.kind = .identifier := by
  simp only [isKeyword, Bool.and_eq_true, beq_iff_eq] at h
  exact h.1

/-- A token is the keyword of one word only, up to case. -/
theorem isKeyword_eq_false {t : Token} {a b : String} (ha : t.isKeyword a = true)
    (hab : (a.toLower == b.toLower) = false) : t.isKeyword b = false := by
  simp only [isKeyword, Bool.and_eq_true, beq_iff_eq] at ha
  simp only [isKeyword, ha.1, ha.2, hab, beq_self_eq_true, Bool.true_and]

end Token

/-- No item starts with the word `version`. -/
theorem Skeleton.Item.not_version {t : Token} {ts ts' : List Token} {o : Option TopItem}
    (h : Skeleton.Item (t :: ts) ts' o) : t.isKeyword "version" = false := by
  cases h with
  | semicolon ht => simp [Token.isKeyword, ht]
  | «include» ht _ => simp [Token.isKeyword, ht]
  | classDecl hkw _ => exact Token.isKeyword_eq_false hkw (by decide +kernel)
  | extendClass hkw _ _ => exact Token.isKeyword_eq_false hkw (by decide +kernel)
  | structDecl hkw _ => exact Token.isKeyword_eq_false hkw (by decide +kernel)
  | enumDecl hkw _ => exact Token.isKeyword_eq_false hkw (by decide +kernel)
  | constant hkw _ => exact Token.isKeyword_eq_false hkw (by decide +kernel)

/-- A property of the work that classifying a token keeps. -/
def Parse.EmitStable (P : Work → Prop) : Prop := ∀ u w s, P w → P (Step.emitToken s u w).2

namespace Declarations

open Parse TripleAt Skeleton

variable {u : Universe} {P : Work → Prop}

/-- Classifying a token keeps an emit-stable property. -/
theorem emit_then {β : Type} {t : Token} {kind : SemanticKind} {f : Unit → Parse β}
    {ts : List Token} {R : β → List Token → Work → Prop} {E : Work → Prop} (hP : EmitStable P)
    (h : TripleAt u ts P (f ()) R E) : TripleAt u ts P (monadLift (Step.emit t kind) >>= f) R E :=
  keep_bind (fun w hw => hP u w _ hw) fun _ => h

theorem flagArgument_complete (hP : EmitStable P) (flag : String) {op s close : Token}
    {ts : List Token} (hop : op.kind = .openParen) (hs : s.kind = .string)
    (hclose : close.kind = .closeParen) :
    TripleAt u (op :: s :: close :: ts) P (flagArgument flag) (fun _ ts' w => ts' = ts ∧ P w)
      fun _ => False := by
  unfold flagArgument
  refine bind_eq (expect_hit (by simp [hop])) (bind_eq (expect_hit (by simp [hs])) ?_)
  refine bind_eq (expect_hit (by simp [hclose])) ?_
  exact emit_then hP (emit_then hP (emit_then hP (pure fun _ hw => ⟨rfl, hw⟩)))

/-- Every word of a flag with an argument is a type flag word. -/
theorem typeFlagWord_of_argument {t : Token}
    (h : (t.isKeyword "version" || t.isKeyword "deprecated") = true) :
    typeFlagWords.any t.isKeyword = true := by
  simp only [Bool.or_eq_true] at h
  rcases h with h | h <;> simp [typeFlagWords, h]

theorem flag_complete (hP : EmitStable P) {t : Token} {ts ts' : List Token} (h : Flag (t :: ts) ts')
    (mods : Modifiers) :
    TripleAt u ts P (flag t mods) (fun _ ts'' w => ts'' = ts' ∧ P w) fun _ => False := by
  unfold flag
  cases h with
  | word _ _ hv hd =>
    rw [if_neg (by simp [hv]), if_neg (by simp [hd])]
    exact pure fun _ hw => ⟨rfl, hw⟩
  | argument hvd hop hs hclose =>
    split
    · exact bind (flagArgument_complete hP _ hop hs hclose) fun _ _ => of_fact fun h =>
        pure fun _ hw => ⟨h, hw⟩
    · next hv =>
      have hd : t.isKeyword "deprecated" = true := by simpa [hv] using hvd
      rw [if_pos hd]
      exact bind (flagArgument_complete hP _ hop hs hclose) fun _ _ => of_fact fun h =>
        pure fun _ hw => ⟨h, hw⟩

/-- The flags of a derivation are read with any fuel above their number of tokens. -/
theorem typeFlags_complete (hP : EmitStable P) {ts ts' : List Token} (h : Flags ts ts') :
    ∀ (fuel : Nat) (mods : Modifiers), ts.length < fuel →
      TripleAt u ts P (typeFlags fuel mods) (fun _ ts'' w => ts'' = ts' ∧ P w) fun _ => False := by
  induction h with
  | nil hstop =>
    intro fuel mods hfuel
    obtain ⟨fuel, rfl⟩ : ∃ f, fuel = f + 1 := ⟨fuel - 1, by omega⟩
    rw [typeFlags]
    refine bind_eq (accept_miss fun t ht => by simpa using hstop t ht) ?_
    exact pure fun _ hw => ⟨rfl, hw⟩
  | @cons ts ts₁ ts' hflag hflags ih =>
    intro fuel mods hfuel
    obtain ⟨fuel, rfl⟩ : ∃ f, fuel = f + 1 := ⟨fuel - 1, by omega⟩
    have hlt := hflag.length_lt
    -- the flag's word is an identifier among the type flag words
    obtain ⟨t, tail, rfl, ht, hword⟩ : ∃ t tail, ts = t :: tail ∧ t.kind = .identifier ∧
        typeFlagWords.any t.isKeyword = true := by
      cases hflag with
      | word ht hword _ _ => exact ⟨_, _, rfl, ht, hword⟩
      | argument hvd _ _ _ =>
        refine ⟨_, _, rfl, ?_, typeFlagWord_of_argument hvd⟩
        rcases Bool.or_eq_true_iff.1 hvd with h | h <;> exact Token.kind_of_isKeyword h
    rw [typeFlags]
    refine bind_eq (accept_hit (by simp [ht])) ?_
    dsimp only
    rw [if_pos hword]
    refine emit_then hP (bind (flag_complete hP hflag mods) fun _ ts₂ => ?_)
    intro c w hc hw
    have hfuel' : ts₁.length < fuel := by
      simp only [List.length_cons] at hfuel hlt
      omega
    exact ih fuel _ hfuel' c w (hc.trans hw.1) hw.2

theorem bracedBody_complete (hP : EmitStable P) (what : String) {ts ts' : List Token}
    (h : Body ts ts') :
    TripleAt u ts P (bracedBody what) (fun _ ts'' w => ts'' = ts' ∧ P w) fun _ => False := by
  obtain ⟨o, tail, close, rfl, ho, hrun, hclose⟩ := h
  unfold bracedBody
  refine bind_eq (expect_hit (by simp [ho])) ?_
  refine emit_then hP (bind_eq (balanced _) ?_)
  rw [hrun]
  refine bind_eq (expect_hit (by simp [hclose])) ?_
  exact emit_then hP (pure fun _ hw => ⟨rfl, hw⟩)

/-- An expression of the derivation is read up to where it ends. -/
theorem expression_complete {stop : List TokenKind} {ts ts' : List Token}
    (h : ExprPhrase stop ts ts') :
    TripleAt u ts P (Parse.expression stop) (fun _ ts'' w => ts'' = ts' ∧ P w) fun _ => False :=
  (TripleAt.expression stop).mono (fun _ hw => hw) (fun _ _ _ h' => ⟨h'.1.unique h, h'.2⟩)
    fun _ h' => h'.1 _ h

/-- A type of the derivation, followed by what cannot go on with a type name, is read up to its
    end; reading it keeps the tree and the failed flag. -/
theorem compoundType_complete (context : Option Nat) {R : Tree → Bool → Prop} {ts ts' : List Token}
    (hty : TypePhrase ts ts') (hend : Types.EndsName ts') :
    TripleAt u ts (fun w => R w.file.tree w.file.failed) (compoundType context)
      (fun _ ts'' w => ts'' = ts' ∧ R w.file.tree w.file.failed) fun _ => False := by
  obtain ⟨T, s, hs, hp, rfl⟩ := hty
  intro c w hc hw
  have h := Types.compoundType_plain context (v := ⟨w.file.file, w.file.tree, u⟩) hs hp hend c w hc
    ⟨rfl, rfl⟩
  have hf := Parse.keepsFailed_compoundType context c u w
  generalize (compoundType context c).run u w = r at h hf
  rcases r with ⟨_ | ⟨ty, c'⟩, w'⟩
  · exact h
  · obtain ⟨⟨-, hrest⟩, -, htree⟩ := h
    refine ⟨hrest, ?_⟩
    rw [htree, hf]
    exact hw

/-- The file is not failed, and its root lists the items `is`. -/
def Listed (is : List TopItem) (w : Work) : Prop := w.file.tree.ListsItems is ∧ w.file.failed = false

theorem listed_emitStable (is : List TopItem) : EmitStable (Listed is) := fun _ _ _ h => h

/-- Adding a node that stands for `item` under the root lists it. -/
theorem listed_add {is : List TopItem} {name : String} {line : Nat} {kind : NodeKind}
    {item : TopItem} (hk : (⟨name, some 0, [], line, kind⟩ : Node).topItem? = some item) (w : Work)
    (hw : Listed is w) : Listed (is ++ [item]) (Step.add 0 name line kind u w).2 :=
  ⟨hw.1.add hk, hw.2⟩

theorem structDecl_complete (keyword : Token) {ts ts' : List Token} {name : String}
    (h : StructTail ts ts' name) (is : List TopItem) :
    TripleAt u ts (Listed is) (structDecl keyword 0)
      (fun _ ts'' w => ts'' = ts' ∧ Listed (is ++ [.structDecl name]) w) fun _ => False := by
  cases h with
  | @mk tok ts₁ ts₂ ts' hident hflags hbody =>
  unfold structDecl
  refine emit_then (listed_emitStable is) ?_
  refine bind_eq (expectIdent_hit hident) (bind_eq TripleAt.fuel ?_)
  refine seq (typeFlags_complete (listed_emitStable is) hflags _ _ (by omega)) fun _ => ?_
  refine seq (bracedBody_complete (listed_emitStable is) _ hbody) fun _ => ?_
  refine step_bind (S := fun _ => Listed (is ++ [.structDecl tok.text])) (listed_add rfl) fun _ => ?_
  refine keep_bind (fun _ hw => hw) fun _ => keep_bind (fun _ hw => hw) fun _ => ?_
  exact keep_bind (fun _ hw => hw) fun _ => pure fun _ hw => ⟨rfl, hw⟩

theorem constantDecl_complete (keyword : Token) {ts ts' : List Token} {name : String}
    (h : ConstTail ts ts' name) (is : List TopItem) :
    TripleAt u ts (Listed is) (constantDecl keyword 0)
      (fun _ ts'' w => ts'' = ts' ∧ Listed (is ++ [.constant name]) w) fun _ => False := by
  cases h with
  | @mk tok eq semi ts₁ ts' hident heq hexpr hsemi =>
  unfold constantDecl
  refine emit_then (listed_emitStable is) ?_
  refine bind_eq (expectIdent_hit hident) (bind_eq (expect_hit (by simp [heq])) ?_)
  refine emit_then (listed_emitStable is) ?_
  refine seq (expression_complete hexpr) fun _ => ?_
  refine bind_eq (expect_hit (by simp [hsemi])) (emit_then (listed_emitStable is) ?_)
  refine step_bind (S := fun _ => Listed (is ++ [.constant tok.text])) (listed_add rfl) fun _ => ?_
  refine keep_bind (fun _ hw => hw) fun _ => keep_bind (fun _ hw => hw) fun _ => ?_
  exact keep_bind (fun _ hw => hw) fun _ => pure fun _ hw => ⟨rfl, hw⟩

theorem directive_complete (hash : Token) {ts ts' : List Token} {path : String}
    (h : IncludeTail hash ts ts' path) (is : List TopItem) :
    TripleAt u ts (Listed is) (directive hash)
      (fun _ ts'' w => ts'' = ts' ∧ Listed (is ++ [.include path]) w) fun _ => False := by
  cases h with
  | @mk d p ts' hinc hline hpath hpline =>
  have hd := Token.kind_of_isKeyword hinc
  unfold directive
  refine bind_eq peek ?_
  simp only [List.head?_cons, Option.filter_some, hd, hline, beq_self_eq_true, Bool.and_self,
    if_true]
  refine bind_eq next ?_
  simp only [List.tail_cons]
  rw [if_pos hinc]
  refine bind_eq peek ?_
  simp only [List.head?_cons, Option.filter_some, hpath, hpline, beq_self_eq_true, Bool.and_self,
    if_true]
  refine bind_eq next ?_
  refine emit_then (listed_emitStable is) (emit_then (listed_emitStable is)
    (emit_then (listed_emitStable is) ?_))
  exact step_bind (S := fun _ => Listed (is ++ [.include p.content])) (listed_add rfl) fun _ =>
    pure fun _ hw => ⟨rfl, hw⟩

/-- The version goes into the root, which is no item. -/
theorem version_complete (word : Token) {value : Token} {ts : List Token}
    (hvalue : value.kind = .string) (hline : value.line = word.line) (is : List TopItem) :
    TripleAt u (value :: ts) (Listed is) (version word) (fun _ ts' w => ts' = ts ∧ Listed is w)
      fun _ => False := by
  unfold version
  refine bind_eq peek ?_
  simp only [List.head?_cons, Option.filter_some, hvalue, hline, beq_self_eq_true, Bool.and_self,
    if_true]
  refine bind_eq next (emit_then (listed_emitStable is) (emit_then (listed_emitStable is) ?_))
  refine TripleAt.lift fun w hw => ⟨rfl, ?_, hw.2⟩
  rw [Step.modifyKind_run]
  dsimp only
  exact Tree.ListsItems.modifyKind hw.1 fun c hc => Nat.ne_of_gt (hw.1.children c hc).1

theorem classDecl_complete (keyword : Token) (extend : Option Token) {ts ts' : List Token}
    {name : String} (h : ClassTail ts ts' name) (is : List TopItem) :
    TripleAt u ts (Listed is) (classDecl keyword extend)
      (fun _ ts'' w => ts'' = ts' ∧ Listed (is ++ [.classDecl name]) w) fun _ => False := by
  cases h with
  | @mk tok ts₁ ts₂ ts₃ ts₄ ts' hident hparent hreplace hflags hbody =>
  unfold classDecl
  extract_lets afterExtend
  suffices h : ∀ r, TripleAt u (tok :: ts₁) (Listed is) (afterExtend r)
      (fun _ ts'' w => ts'' = ts' ∧ Listed (is ++ [.classDecl tok.text]) w) fun _ => False by
    split
    · exact keep_bind (fun _ hw => hw) h
    · exact h ()
  intro r
  dsimp -zeta only [afterExtend]
  refine emit_then (listed_emitStable is) (bind_eq (expectIdent_hit hident) ?_)
  extract_lets extendName afterParent
  -- the parent, when named, is read and referred to; either way the rest starts at `ts₂`
  suffices h : ∀ parentName, TripleAt u ts₂ (Listed is) (afterParent parentName)
      (fun _ ts'' w => ts'' = ts' ∧ Listed (is ++ [.classDecl tok.text]) w) fun _ => False by
    cases hparent with
    | skip hstop =>
      refine bind_eq (accept_miss fun t ht => by simpa using hstop t ht) ?_
      exact bind_eq (pure fun _ hw => ⟨⟨rfl, rfl⟩, hw⟩) (h _)
    | take hcolon hp =>
      obtain ⟨p, rfl, hpk⟩ := hp
      refine bind_eq (accept_hit (by simpa using hcolon)) ?_
      dsimp only
      refine emit_then (listed_emitStable is) (bind_eq (expectIdent_hit hpk) ?_)
      exact keep_bind (fun _ hw => hw) fun _ => bind_eq (pure fun _ hw => ⟨⟨rfl, rfl⟩, hw⟩) (h _)
  intro parentName
  dsimp -zeta only [afterParent]
  extract_lets afterReplace
  suffices h : ∀ replaceName, TripleAt u ts₃ (Listed is) (afterReplace replaceName)
      (fun _ ts'' w => ts'' = ts' ∧ Listed (is ++ [.classDecl tok.text]) w) fun _ => False by
    cases hreplace with
    | skip hstop =>
      refine bind_eq (acceptKeyword_miss hstop) ?_
      exact bind_eq (pure fun _ hw => ⟨⟨rfl, rfl⟩, hw⟩) (h _)
    | take hword hother =>
      obtain ⟨other, rfl, hok⟩ := hother
      refine bind_eq (acceptKeyword_hit hword) ?_
      dsimp only
      refine emit_then (listed_emitStable is) (bind_eq (expectIdent_hit hok) ?_)
      exact keep_bind (fun _ hw => hw) fun _ => bind_eq (pure fun _ hw => ⟨⟨rfl, rfl⟩, hw⟩) (h _)
  intro replaceName
  dsimp only [afterReplace]
  refine bind_eq TripleAt.fuel ?_
  refine seq (typeFlags_complete (listed_emitStable is) hflags _ _ (by omega)) fun _ => ?_
  refine seq (bracedBody_complete (listed_emitStable is) _ hbody) fun _ => ?_
  refine step_bind (S := fun _ => Listed (is ++ [.classDecl tok.text])) (listed_add rfl) fun _ => ?_
  -- the name refers to the new class, or to the class it extends
  split
  · exact TripleAt.lift fun _ hw => ⟨rfl, hw⟩
  · exact keep_bind (fun _ hw => hw) fun _ => TripleAt.lift fun _ hw => ⟨rfl, hw⟩

/-- The enum `e` is allocated, not yet under the root, and the file has not failed. -/
def Open (is : List TopItem) (e : Nat) (item : TopItem) (w : Work) : Prop :=
  w.file.tree.Pending is e item ∧ w.file.failed = false

theorem open_emitStable (is : List TopItem) (e : Nat) (item : TopItem) :
    EmitStable (Open is e item) := fun _ _ _ h => h

/-- Changing a node past the enum keeps it open. -/
theorem open_modifyKind {is : List TopItem} {e : Nat} {item : TopItem} {w : Work}
    (hw : Open is e item w) {m : Nat} (hm : e < m) (f : NodeKind → NodeKind) :
    Open is e item (Step.modifyKind m f u w).2 :=
  ⟨hw.1.modifyKind hm f, hw.2⟩

section Members

variable {is : List TopItem} {e : Nat} {item : TopItem}

/-- A member's name and value, read up to the `,` or `}` after them; what follows that separator
    is the same for every member. -/
theorem member_complete {t sep : Token} {ts₀ ts₁ : List Token} {fuel : Nat}
    {R : Unit → List Token → Work → Prop} (hident : t.kind = .identifier)
    (hvalue : Optional (·.kind == .assign) (ExprPhrase [.comma, .closeCurly]) ts₀ (sep :: ts₁))
    (hsep : [TokenKind.comma, .closeCurly].contains sep.kind = true)
    (hrest : TripleAt u ts₁ (Open is e item)
      (if sep.kind == .closeCurly then pure () else enumMembers e fuel) R fun _ => False) :
    TripleAt u (t :: ts₀) (Open is e item) (enumMembers e (fuel + 1)) R fun _ => False := by
  rw [enumMembers]
  refine bind_eq (expect_hit (by simp [hident])) ?_
  rw [if_neg (by simp [hident])]
  -- the member's node goes below the enum, past it in the tree
  refine step_bind (S := fun m w => Open is e item w ∧ e < m) (fun w hw => ?_) fun m => ?_
  · have h := hw.1.add t.text t.line (.constant none)
    exact ⟨⟨h.1, hw.2⟩, h.2⟩
  refine keep_bind (fun _ hw => hw) fun _ => keep_bind (fun _ hw => hw) fun _ => ?_
  refine keep_bind (fun _ hw => hw) fun _ => ?_
  have hsep' : [TokenKind.comma, .assign, .closeCurly].contains sep.kind = true := by
    simp only [List.contains_cons, List.contains_nil, Bool.or_false, Bool.or_eq_true,
      beq_iff_eq] at hsep ⊢
    rcases hsep with h | h <;> simp [h]
  have hnot : (sep.kind == .assign) = false := by
    simp only [List.contains_cons, List.contains_nil, Bool.or_false, Bool.or_eq_true,
      beq_iff_eq] at hsep
    rcases hsep with h | h <;> simp [h]
  extract_lets jp
  have hjp : TripleAt u ts₁ (fun w => Open is e item w ∧ e < m) (jp sep) R fun _ => False := by
    dsimp only [jp]
    exact emit_then (fun _ _ _ h => h) (hrest.mono (fun _ hw => hw.1) (fun _ _ _ h => h) fun _ h => h)
  cases hvalue with
  | skip _ =>
    refine bind_eq (expect_hit hsep') ?_
    rw [if_neg (by simp [hnot])]
    exact bind_eq (pure fun _ hw => ⟨⟨rfl, rfl⟩, hw⟩) hjp
  | @take eq ts₂ _ hassign hexpr =>
    have hassign : eq.kind = .assign := by simpa using hassign
    refine bind_eq (expect_hit (by simp [hassign])) ?_
    rw [if_pos (by simp [hassign])]
    refine emit_then (fun _ _ _ h => h) (seq (expression_complete hexpr) fun _ => ?_)
    -- the value goes into the member's node
    exact keep_bind (fun _ hw => ⟨open_modifyKind hw.1 hw.2 _, hw.2⟩) fun _ =>
      bind_eq (expect_hit hsep) hjp

theorem enumMembers_complete {ts ts' : List Token} (h : Members ts ts') :
    ∀ fuel, ts.length < fuel →
      TripleAt u ts (Open is e item) (enumMembers e fuel)
        (fun _ ts'' w => ts'' = ts' ∧ Open is e item w) fun _ => False := by
  induction h with
  | close hclose =>
    intro fuel hfuel
    obtain ⟨fuel, rfl⟩ : ∃ f, fuel = f + 1 := ⟨fuel - 1, by omega⟩
    rw [enumMembers]
    refine bind_eq (expect_hit (by simp [hclose])) ?_
    rw [if_pos (by simp [hclose])]
    exact emit_then (open_emitStable is e item) (pure fun _ hw => ⟨rfl, hw⟩)
  | last hident hvalue hclose =>
    intro fuel hfuel
    obtain ⟨fuel, rfl⟩ : ∃ f, fuel = f + 1 := ⟨fuel - 1, by omega⟩
    refine member_complete hident hvalue (by simp [hclose]) ?_
    rw [if_pos (by simp [hclose])]
    exact pure fun _ hw => ⟨rfl, hw⟩
  | more hident hvalue hcomma _ ih =>
    intro fuel hfuel
    obtain ⟨fuel, rfl⟩ : ∃ f, fuel = f + 1 := ⟨fuel - 1, by omega⟩
    refine member_complete hident hvalue (by simp [hcomma]) ?_
    rw [if_neg (by simp [hcomma])]
    -- the value, if any, takes no tokens from the ones after the comma
    have hlen := hvalue.length_le fun _ _ h => h.length_le
    simp only [List.length_cons] at hlen hfuel
    exact ih fuel (by omega)

end Members

theorem enumDecl_complete (keyword : Token) {ts ts' : List Token} {name : String}
    (h : EnumTail ts ts' name) (is : List TopItem) :
    TripleAt u ts (Listed is) (enumDecl keyword 0)
      (fun _ ts'' w => ts'' = ts' ∧ Listed (is ++ [.enumDecl name]) w) fun _ => False := by
  cases h with
  | @mk tok o ts₁ ts₂ ts' hident hbase ho hmembers =>
  unfold enumDecl
  refine emit_then (listed_emitStable is) (bind_eq (expectIdent_hit hident) ?_)
  extract_lets jp
  -- the body after the base type, if any
  have hjp : ∀ base, TripleAt u (o :: ts₂) (Listed is) (jp base)
      (fun _ ts'' w => ts'' = ts' ∧ Listed (is ++ [.enumDecl tok.text]) w) fun _ => False := by
    intro base
    dsimp only [jp]
    refine bind_eq (expect_hit (by simp [ho])) (emit_then (listed_emitStable is) ?_)
    -- the enum's node is allocated first and put under the root once its members are read
    refine step_bind (S := fun m => Open is m (.enumDecl tok.text))
      (fun w hw => ⟨hw.1.alloc rfl, hw.2⟩) fun m => ?_
    refine keep_bind (fun _ hw => hw) fun _ => keep_bind (fun _ hw => hw) fun _ => ?_
    refine keep_bind (fun _ hw => hw) fun _ => bind_eq TripleAt.fuel ?_
    refine seq (enumMembers_complete hmembers _ (by omega)) fun _ => ?_
    refine step_bind (S := fun _ => Listed (is ++ [TopItem.enumDecl tok.text]))
      (fun w hw => ⟨hw.1.attach, hw.2⟩) fun _ => ?_
    exact pure fun _ hw => ⟨rfl, hw⟩
  cases hbase with
  | skip hstop =>
    refine bind_eq (accept_miss fun t ht => by simpa using hstop t ht) ?_
    exact bind_eq (pure fun _ hw => ⟨⟨rfl, rfl⟩, hw⟩) (hjp _)
  | take hcolon hty =>
    refine bind_eq (accept_hit (by simpa using hcolon)) ?_
    have hend : Types.EndsName (o :: ts₂) := fun t ht => by
      obtain rfl := Option.some.inj ht
      simp [ho]
    refine emit_then (listed_emitStable is) (seq (compoundType_complete none
      (R := fun t f => t.ListsItems is ∧ f = false) hty hend) fun _ => ?_)
    exact bind_eq (pure fun _ hw => ⟨⟨rfl, rfl⟩, hw⟩) (hjp _)

/-- At the end of the tokens the items are done. -/
theorem items_nil (fuel : Nat) (leading : Bool) (acc : List TopItem) :
    TripleAt u [] (Listed acc) (items (fuel + 1) leading) (fun _ _ w => Listed acc w)
      fun _ => False := by
  rw [items]
  exact bind_eq next (pure fun _ hw => hw)

/-- `discard` keeps what a reader leaves true whatever it answers. -/
theorem discard_keep {α : Type} {x : Parse α} {ts : List Token} {P : Work → Prop}
    {Q : List Token → Work → Prop} {E : Work → Prop} (h : TripleAt u ts P x (fun _ => Q) E) :
    TripleAt u ts P (Functor.discard x) (fun _ => Q) E :=
  TripleAt.discard h

/-- One item read from the tokens its derivation starts at, then the items after it from where it
    ends: the item is listed after the ones before it. -/
theorem item_complete {leading : Bool} {t : Token} {ts ts' : List Token} {o : Option TopItem}
    {acc : List TopItem} {fuel : Nat} {R : Unit → List Token → Work → Prop}
    (h : Skeleton.Item (t :: ts) ts' o)
    (hrest : TripleAt u ts' (Listed (acc ++ o.toList)) (items fuel false) R fun _ => False) :
    TripleAt u (t :: ts) (Listed acc) (items (fuel + 1) leading) R fun _ => False := by
  rw [items]
  refine bind_eq next ?_
  simp only [List.head?_cons, List.tail_cons]
  have hversion : ¬ (leading && t.isKeyword "version") = true := by simp [h.not_version]
  -- each declaration's keyword fails the tests of the keywords tried before it
  cases h with
  | semicolon ht =>
    simp only [ht]
    exact emit_then (listed_emitStable acc) (by simpa using hrest)
  | «include» hhash htail =>
    simp only [hhash]
    exact seq (directive_complete t htail acc) fun _ => hrest
  | classDecl hkw htail =>
    simp only [Token.kind_of_isKeyword hkw]
    rw [if_neg hversion, if_pos hkw]
    exact seq (classDecl_complete t none htail acc) fun _ => hrest
  | extendClass he hkw htail =>
    have hc := Token.isKeyword_eq_false (b := "class") he (by decide +kernel)
    simp only [Token.kind_of_isKeyword he]
    rw [if_neg hversion, if_neg (by simp [hc]), if_pos he]
    refine bind_eq (acceptKeyword_hit hkw) ?_
    exact seq (classDecl_complete _ (some t) htail acc) fun _ => hrest
  | structDecl hkw htail =>
    have hc := Token.isKeyword_eq_false (b := "class") hkw (by decide +kernel)
    have he := Token.isKeyword_eq_false (b := "extend") hkw (by decide +kernel)
    simp only [Token.kind_of_isKeyword hkw]
    rw [if_neg hversion, if_neg (by simp [hc]), if_neg (by simp [he]), if_pos hkw]
    exact seq (discard_keep (structDecl_complete t htail acc)) fun _ => hrest
  | enumDecl hkw htail =>
    have hc := Token.isKeyword_eq_false (b := "class") hkw (by decide +kernel)
    have he := Token.isKeyword_eq_false (b := "extend") hkw (by decide +kernel)
    have hs := Token.isKeyword_eq_false (b := "struct") hkw (by decide +kernel)
    simp only [Token.kind_of_isKeyword hkw]
    rw [if_neg hversion, if_neg (by simp [hc]), if_neg (by simp [he]), if_neg (by simp [hs]),
      if_pos hkw]
    exact seq (discard_keep (enumDecl_complete t htail acc)) fun _ => hrest
  | constant hkw htail =>
    have hc := Token.isKeyword_eq_false (b := "class") hkw (by decide +kernel)
    have he := Token.isKeyword_eq_false (b := "extend") hkw (by decide +kernel)
    have hs := Token.isKeyword_eq_false (b := "struct") hkw (by decide +kernel)
    have hn := Token.isKeyword_eq_false (b := "enum") hkw (by decide +kernel)
    simp only [Token.kind_of_isKeyword hkw]
    rw [if_neg hversion, if_neg (by simp [hc]), if_neg (by simp [he]), if_neg (by simp [hs]),
      if_neg (by simp [hn]), if_pos hkw]
    exact seq (discard_keep (constantDecl_complete t htail acc)) fun _ => hrest

/-- Items derived from the tokens are all read, each listed under the root in order. -/
theorem items_complete {ts : List Token} {is : List TopItem} (h : Items ts is) :
    ∀ (fuel : Nat) (acc : List TopItem), ts.length < fuel →
      TripleAt u ts (Listed acc) (items fuel false) (fun _ _ w => Listed (acc ++ is) w)
        fun _ => False := by
  induction h with
  | nil =>
    intro fuel acc hfuel
    obtain ⟨fuel, rfl⟩ : ∃ f, fuel = f + 1 := ⟨fuel - 1, by omega⟩
    exact (items_nil fuel false acc).post fun _ _ _ hw => by simpa using hw
  | @cons ts ts' o is hitem _ ih =>
    intro fuel acc hfuel
    obtain ⟨fuel, rfl⟩ : ∃ f, fuel = f + 1 := ⟨fuel - 1, by omega⟩
    have hlen := hitem.length_lt
    cases ts with
    | nil => simp at hlen
    | cons t ts =>
      exact item_complete hitem ((ih fuel _ (by omega)).post fun _ _ _ hw => by simpa using hw)

/-- A whole file of the grammar is read to its end, its items listed under the root in order. -/
theorem root_complete {ts : List Token} {is : List TopItem} (h : Root ts is) (fuel : Nat)
    (hfuel : ts.length < fuel) :
    TripleAt u ts (Listed []) (items fuel true) (fun _ _ w => Listed is w) fun _ => False := by
  obtain ⟨fuel, rfl⟩ : ∃ f, fuel = f + 1 := ⟨fuel - 1, by omega⟩
  cases h with
  | plain hitems =>
    cases hitems with
    | nil => exact items_nil fuel true []
    | @cons ts ts' o is hitem hrest =>
      have hlen := hitem.length_lt
      cases ts with
      | nil => simp at hlen
      | cons t ts => exact item_complete hitem (items_complete hrest fuel _ (by omega))
  | versioned hword hvalue hline hitems =>
    rw [items]
    refine bind_eq next ?_
    simp only [List.head?_cons, List.tail_cons, Token.kind_of_isKeyword hword]
    rw [if_pos (by simp [hword])]
    refine seq (version_complete _ hvalue hline []) fun _ => ?_
    simp only [List.length_cons] at hfuel
    exact (items_complete hitems fuel [] (by omega)).post fun _ _ _ hw => by simpa using hw

end Declarations

end ZScript
