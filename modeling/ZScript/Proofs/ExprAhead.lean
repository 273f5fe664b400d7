import ZScript.Proofs.ReaderTokens

/-!
# The expression reader reads only what lies ahead

A cursor holds the tokens read so far and those ahead. The expression readers look back only to
find the line of an error and the line passed to `Item.reduce`, whose success and tree do not
depend on it (`Grammar.reduce_eq_ok_iff_expression`). So two cursors with the same tokens ahead
read the same expression and leave the same tokens ahead (`ExprParser.expression_alike`).

`Alike x y` says that every success of `x` is matched, from a cursor with the same tokens ahead,
by a success of `y` with the same value. The readers are one mutual recursion on a fuel argument;
`Uniform n` collects `Alike` of each of them with itself at fuel `n`, and `uniform_succ` proves
the facts at `n + 1` from those at `n`, one step lemma per reader.
-/

namespace ZScript

namespace ExprParser

/-- From cursors with the same tokens ahead, a success of `x` is matched by a success of `y` with
    the same value, again at cursors with the same tokens ahead. -/
def Alike {α : Type} (x y : M α) : Prop :=
  ∀ c₁ c₂ a c₁', c₁.rest = c₂.rest → x c₁ = .ok (a, c₁') →
    ∃ c₂', y c₂ = .ok (a, c₂') ∧ c₁'.rest = c₂'.rest

namespace Alike

variable {α β : Type}

theorem pure (a : α) : Alike (Pure.pure a : M α) (Pure.pure a) := by
  intro c₁ c₂ b c₁' hc h
  simp only [Pure.pure, StateT.pure, Except.pure, Except.ok.injEq, Prod.mk.injEq] at h
  obtain ⟨rfl, rfl⟩ := h
  exact ⟨c₂, rfl, hc⟩

theorem bind {x y : M α} {f g : α → M β} (hx : Alike x y) (hf : ∀ a, Alike (f a) (g a)) :
    Alike (x >>= f) (y >>= g) := by
  intro c₁ c₂ b c₁' hc h
  obtain ⟨a, d₁, h₁, h₂⟩ := bind_eq_ok.1 h
  obtain ⟨d₂, h₁', hd⟩ := hx c₁ c₂ a d₁ hc h₁
  obtain ⟨c₂', h₂', hc'⟩ := hf a d₁ d₂ b c₁' hd h₂
  exact ⟨c₂', bind_eq_ok.2 ⟨a, d₂, h₁', h₂'⟩, hc'⟩

/-- A reader that never succeeds is matched by any other. -/
theorem of_fails {x : M α} (y : M α) (h : Reads x fun _ _ => False) : Alike x y := by
  intro c₁ _ a c₁' _ hx
  obtain ⟨_, _, hf⟩ := h c₁ a c₁' hx
  exact hf.elim

theorem throw (e : ParseError) (y : M α) : Alike (MonadExcept.throw e) y :=
  of_fails y Reads.throw

/-- Code that looks at the cursor first may be proved for each pair of cursors with the same
    tokens ahead. -/
theorem get_bind {f g : Cursor → M β} (h : ∀ c₁ c₂, c₁.rest = c₂.rest → Alike (f c₁) (g c₂)) :
    Alike (get >>= f) (get >>= g) := by
  intro c₁ c₂ b c₁' hc hb
  obtain ⟨c₀, d₁, hget, hf⟩ := bind_eq_ok.1 hb
  simp only [get, getThe, MonadStateOf.get, StateT.get, Pure.pure, Except.pure,
    Except.ok.injEq, Prod.mk.injEq] at hget
  obtain ⟨rfl, rfl⟩ := hget
  obtain ⟨c₂', hg, hc'⟩ := h c₁ c₂ hc c₁ c₂ b c₁' hc hf
  exact ⟨c₂', bind_eq_ok.2 ⟨c₂, c₂, rfl, hg⟩, hc'⟩

theorem set_bind {d₁ d₂ : Cursor} {f g : PUnit → M β} (hd : d₁.rest = d₂.rest)
    (h : Alike (f ⟨⟩) (g ⟨⟩)) : Alike (set d₁ >>= f) (set d₂ >>= g) := by
  intro c₁ c₂ b c₁' _ hb
  obtain ⟨u, e₁, hset, hf⟩ := bind_eq_ok.1 hb
  simp only [set, MonadStateOf.set, StateT.set, Pure.pure, Except.pure, Except.ok.injEq,
    Prod.mk.injEq] at hset
  obtain ⟨-, rfl⟩ := hset
  obtain ⟨c₂', hg, hc'⟩ := h d₁ d₂ b c₁' hd hf
  exact ⟨c₂', bind_eq_ok.2 ⟨⟨⟩, d₂, rfl, hg⟩, hc'⟩

theorem lift (x : Except ParseError α) : Alike (ExprParser.lift x) (ExprParser.lift x) := by
  intro c₁ c₂ a c₁' hc h
  cases hx : x with
  | error e => simp [ExprParser.lift, hx, Except.map] at h
  | ok a' =>
    simp only [ExprParser.lift, hx, Except.map, Except.ok.injEq, Prod.mk.injEq] at h ⊢
    obtain ⟨rfl, rfl⟩ := h
    exact ⟨c₂, ⟨rfl, rfl⟩, hc⟩

end Alike

/-! ## The primitive readers -/

theorem alike_accept (kinds : List TokenKind) : Alike (accept kinds) (accept kinds) := by
  unfold accept
  refine Alike.get_bind fun c₁ c₂ hc => ?_
  unfold Cursor.accept?
  rw [← hc]
  cases c₁.rest with
  | nil => exact Alike.pure _
  | cons t ts =>
    dsimp only
    by_cases hk : kinds.contains t.kind = true
    · rw [if_pos hk, if_pos hk]
      exact Alike.set_bind rfl (Alike.pure _)
    · rw [if_neg hk, if_neg hk]
      exact Alike.pure _

theorem alike_expect (kinds : List TokenKind) (expected : String) :
    Alike (expect kinds expected) (expect kinds expected) := by
  refine Alike.bind (alike_accept kinds) fun o => ?_
  cases o with
  | some t => exact Alike.pure t
  | none => exact Alike.of_fails _ reads_unexpected

theorem alike_balanced (stop : List TokenKind) : Alike (balanced stop) (balanced stop) := by
  intro c₁ c₂ run c₁' hc h
  simp only [balanced, modifyGet, MonadStateOf.modifyGet, StateT.modifyGet, Cursor.balanced,
    Pure.pure, Except.pure, Except.ok.injEq, Prod.mk.injEq] at h ⊢
  obtain ⟨rfl, rfl⟩ := h
  exact ⟨_, ⟨by rw [hc], rfl⟩, by rw [hc]⟩

theorem alike_skip : Alike skip skip := by
  intro c₁ c₂ u c₁' hc h
  simp only [skip, modify, modifyGet, MonadStateOf.modifyGet, StateT.modifyGet, Pure.pure,
    Except.pure, Except.ok.injEq, Prod.mk.injEq] at h ⊢
  obtain ⟨-, rfl⟩ := h
  refine ⟨_, ⟨trivial, rfl⟩, ?_⟩
  rcases c₁ with ⟨d₁, r₁⟩
  rcases c₂ with ⟨d₂, r₂⟩
  dsimp only at hc
  subst hc
  cases r₁ <;> rfl

theorem alike_popOperand (items : List Item) (t : Token) :
    Alike (popOperand items t) (popOperand items t) := by
  unfold popOperand
  split
  · exact Alike.pure _
  · exact Alike.throw _ _

theorem alike_memberNames (fuel : Nat) : Alike (memberNames fuel) (memberNames fuel) := by
  induction fuel with
  | zero => exact Alike.of_fails _ reads_tooDeep
  | succ fuel ih =>
    refine Alike.bind (alike_expect _ _) fun name => Alike.bind (alike_accept _) fun o => ?_
    cases o with
    | some d => exact Alike.bind ih fun _ => Alike.pure _
    | none => exact Alike.pure _

/-! ## Every reader at a given fuel -/

/-- The readers at fuel `n`, each alike with itself. -/
structure Uniform (n : Nat) : Prop where
  parseExpr_alike : ∀ stop, Alike (parseExpr n stop) (parseExpr n stop)
  collect_alike : ∀ stop want acc, Alike (collect n stop want acc) (collect n stop want acc)
  primary_alike : ∀ t, Alike (primary n t) (primary n t)
  cast_alike : ∀ t, Alike (cast n t) (cast n t)
  callArgs_alike : ∀ count, Alike (callArgs n count) (callArgs n count)
  subscripts_alike : Alike (subscripts n) (subscripts n)

/-- With no fuel every reader fails. -/
theorem uniform_zero : Uniform 0 where
  parseExpr_alike _ := by rw [parseExpr.eq_1]; exact Alike.of_fails _ reads_tooDeep
  collect_alike _ _ _ := by rw [collect.eq_1]; exact Alike.of_fails _ reads_tooDeep
  primary_alike _ := by rw [primary.eq_1]; exact Alike.of_fails _ reads_tooDeep
  cast_alike _ := by rw [cast.eq_1]; exact Alike.of_fails _ reads_tooDeep
  callArgs_alike _ := by rw [callArgs.eq_1]; exact Alike.of_fails _ reads_tooDeep
  subscripts_alike := by rw [subscripts.eq_1]; exact Alike.of_fails _ reads_tooDeep

/-- A cast reads a bracketed run and reads it on its own. -/
theorem cast_alike_succ (n : Nat) (t : Token) : Alike (cast (n + 1) t) (cast (n + 1) t) := by
  rw [cast.eq_2]
  refine Alike.bind (alike_expect _ _) fun o => Alike.bind (alike_balanced _) fun inner => ?_
  refine Alike.bind (alike_expect _ _) fun close => Alike.bind (Alike.lift _) fun v => ?_
  exact Alike.pure _

section Step

variable {n : Nat} (h : Uniform n)
include h

/-- The line handed to `Item.reduce` is the only thing read behind the cursor, and neither the
    success of reducing nor its tree depends on it. -/
theorem parseExpr_alike_succ (stop : List TokenKind) :
    Alike (parseExpr (n + 1) stop) (parseExpr (n + 1) stop) := by
  intro c₁ c₂ e c₁' hc he
  rw [parseExpr_succ] at he ⊢
  cases h₁ : collect n stop true [] c₁ with
  | error err => simp [h₁, Except.bind] at he
  | ok r =>
    obtain ⟨items, d₁⟩ := r
    obtain ⟨d₂, h₂, hd⟩ := h.collect_alike stop true [] c₁ c₂ items d₁ hc h₁
    simp only [h₁, Except.bind] at he
    cases hr : Item.reduce items d₁.lastLine with
    | error err => simp [hr, Except.map] at he
    | ok e' =>
      simp only [hr, Except.map, Except.ok.injEq, Prod.mk.injEq] at he
      obtain ⟨rfl, rfl⟩ := he
      have hr₂ : Item.reduce items d₂.lastLine = .ok e' :=
        (Grammar.reduce_eq_ok_iff_expression items _ e').2
          ((Grammar.reduce_eq_ok_iff_expression items _ e').1 hr)
      exact ⟨d₂, by simp [h₂, hr₂, Except.bind, Except.map], hd⟩

theorem callArgs_alike_succ (count : Nat) :
    Alike (callArgs (n + 1) count) (callArgs (n + 1) count) := by
  rw [callArgs.eq_2]
  refine Alike.bind (alike_balanced _) fun arg => Alike.bind (alike_expect _ _) fun sep => ?_
  -- the argument just read, then the rest of the list unless `)` closed it
  extract_lets rest
  have hrest : ∀ r, Alike (rest r) (rest r) := by
    rintro ⟨leaves, labels⟩
    dsimp only [rest]
    split
    · exact Alike.pure _
    · exact Alike.bind (h.callArgs_alike _) fun _ => Alike.pure _
  split
  · split
    · exact Alike.bind (Alike.throw _ _) hrest
    · exact Alike.bind (Alike.pure _) hrest
  · split
    exact Alike.bind (Alike.lift _) fun _ => Alike.bind (Alike.pure _) hrest

theorem subscripts_alike_succ : Alike (subscripts (n + 1)) (subscripts (n + 1)) := by
  rw [subscripts.eq_2]
  refine Alike.bind (alike_balanced _) fun idx => Alike.bind (alike_expect _ _) fun close => ?_
  refine Alike.bind (Alike.lift _) fun e => Alike.bind (alike_accept _) fun o => ?_
  cases o with
  | some _ => exact Alike.bind h.subscripts_alike fun _ => Alike.pure _
  | none => exact Alike.pure _

theorem primary_alike_succ (t : Token) : Alike (primary (n + 1) t) (primary (n + 1) t) := by
  rw [primary.eq_2]
  split
  · exact Alike.pure _
  · exact Alike.pure _
  · exact Alike.pure _
  · exact Alike.pure _
  · refine Alike.bind (alike_balanced _) fun inner => Alike.bind (alike_expect _ _) fun close => ?_
    refine Alike.bind (Alike.lift _) fun r => Alike.bind (Alike.lift _) fun leaves => ?_
    exact Alike.pure _
  · refine Alike.bind (alike_balanced _) fun inner => Alike.bind (alike_expect _ _) fun close => ?_
    refine Alike.bind (Alike.lift _) fun r => ?_
    extract_lets close_
    have hclose : ∀ e, Alike (close_ e) (close_ e) := fun _ => Alike.pure _
    split
    split
    · exact Alike.bind (Alike.lift _) fun _ => Alike.bind (Alike.pure _) hclose
    · exact Alike.bind (Alike.lift _) hclose
  · split
    · exact Alike.pure _
    · refine Alike.get_bind fun c₁ c₂ hc => ?_
      rw [show c₂.check .openParen = c₁.check .openParen by simp [Cursor.check, Cursor.peek?, hc]]
      split
      · -- a cast is tried from the cursor itself: it succeeds from both cursors or from neither
        refine Alike.get_bind fun s₁ s₂ hs => ?_
        cases h₁ : (cast n t).run s₁ with
        | ok p =>
          obtain ⟨leaf, e₁⟩ := p
          obtain ⟨e₂, h₂, he⟩ := h.cast_alike t s₁ s₂ leaf e₁ hs h₁
          rw [show (cast n t).run s₂ = .ok (leaf, e₂) from h₂]
          exact Alike.set_bind he (Alike.pure _)
        | error err =>
          have h₂ : ∃ err', (cast n t).run s₂ = .error err' := by
            cases h₂ : (cast n t).run s₂ with
            | error err' => exact ⟨err', rfl⟩
            | ok p =>
              obtain ⟨e₁, h₁', -⟩ := h.cast_alike t s₂ s₁ p.1 p.2 hs.symm h₂
              rw [show (cast n t) s₁ = (cast n t).run s₁ from rfl, h₁] at h₁'
              cases h₁'
          obtain ⟨err', h₂⟩ := h₂
          rw [h₂]
          exact Alike.pure _
      · exact Alike.pure _
  · exact Alike.throw _ _

/-- Pushing an item, or stopping, the same way from both cursors. -/
theorem collect_alike_succ (stop : List TokenKind) (want : Bool) (acc : List Item) :
    Alike (collect (n + 1) stop want acc) (collect (n + 1) stop want acc) := by
  rw [collect.eq_2]
  refine Alike.get_bind fun c₁ c₂ hc => ?_
  rw [show c₂.peek? = c₁.peek? by simp [Cursor.peek?, hc]]
  have hend : Alike (if acc.isEmpty = true then unexpected "expression" else Pure.pure acc.reverse)
      (if acc.isEmpty = true then unexpected "expression" else Pure.pure acc.reverse) := by
    split
    · exact Alike.of_fails _ reads_unexpected
    · exact Alike.pure _
  cases c₁.peek? with
  | none => exact hend
  | some t =>
    dsimp only
    split
    · exact hend
    refine Alike.bind alike_skip fun _ => ?_
    split
    · split
      · exact h.collect_alike _ _ _
      · exact Alike.bind (h.primary_alike t) fun _ => h.collect_alike _ _ _
    · -- the postfix forms pop the operand before them and read their suffix
      split
      · exact Alike.bind (alike_popOperand _ _) fun _ =>
          Alike.bind (alike_memberNames n) fun _ => h.collect_alike _ _ _
      · exact Alike.bind (alike_popOperand _ _) fun _ =>
          Alike.bind (h.callArgs_alike 0) fun _ => h.collect_alike _ _ _
      · exact Alike.bind (alike_popOperand _ _) fun _ =>
          Alike.bind h.subscripts_alike fun _ => h.collect_alike _ _ _
      · exact h.collect_alike _ _ _
      · exact h.collect_alike _ _ _
      · exact h.collect_alike _ _ _
      · exact h.collect_alike _ _ _
      · split
        · exact Alike.throw _ _
        · split
          · refine Alike.bind (alike_accept _) fun o => ?_
            cases o with
            | some _ => exact h.collect_alike _ _ _
            | none => exact h.collect_alike _ _ _
          · exact h.collect_alike _ _ _

end Step

theorem uniform_succ {n : Nat} (h : Uniform n) : Uniform (n + 1) where
  parseExpr_alike := parseExpr_alike_succ h
  collect_alike := collect_alike_succ h
  primary_alike := primary_alike_succ h
  cast_alike := cast_alike_succ n
  callArgs_alike := callArgs_alike_succ h
  subscripts_alike := subscripts_alike_succ h

theorem uniform (n : Nat) : Uniform n := by
  induction n with
  | zero => exact uniform_zero
  | succ n ih => exact uniform_succ ih

/-- Reading an expression from two cursors with the same tokens ahead: when one succeeds, so does
    the other, with the same tree and the same tokens left. -/
theorem expression_alike (stop : List TokenKind) : Alike (expression stop) (expression stop) := by
  intro c₁ c₂ e c₁' hc he
  rw [expression_eq] at he ⊢
  rw [← hc]
  exact (uniform _).parseExpr_alike stop c₁ c₂ e c₁' hc he

end ExprParser

end ZScript
