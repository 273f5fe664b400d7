import ZScript.Proofs.ReaderRuns

/-!
# Triples over the tokens left

The readers decide by the tokens ahead of the cursor, never by those already read. A triple
`Parse.TripleAt u ts P x Q E` says what a run of `x` does from every cursor whose tokens left are
`ts`, in the universe `u` and a work satisfying `P`: it succeeds with a value, leaving tokens and
a work that satisfy `Q`, or it fails in a work satisfying `E`.

Grammars are relations on token lists, so these are the triples that compare a reader with a
grammar: from the tokens of a derivation the reader succeeds, with `E` false, leaving what follows
the derivation; and a success of the reader gives a derivation of the tokens it took.

The primitive readers of the cursor have their rules here, by the token they find: `accept_hit`
and `accept_miss`, `expect_hit` and `expect_miss`, and so on. Each gives the value and the tokens
left as one equation, which `bind_eq` chains.
-/

namespace ZScript

namespace Parse

/-- A triple over the tokens left: from every cursor at `ts` and every work satisfying `P`, a run
    of `x` in `u` succeeds with a value, tokens left and work satisfying `Q`, or fails in a work
    satisfying `E`. -/
def TripleAt {α : Type} (u : Universe) (ts : List Token) (P : Work → Prop) (x : Parse α)
    (Q : α → List Token → Work → Prop) (E : Work → Prop) : Prop :=
  ∀ c w, c.rest = ts → P w →
    Outcome (fun p => Q p.1 p.2.rest) E ((x c).run u w).1 ((x c).run u w).2

namespace TripleAt

variable {α β : Type} {u : Universe} {ts : List Token} {P P' : Work → Prop}
  {Q Q' : α → List Token → Work → Prop} {E E' : Work → Prop}

theorem pure {a : α} (h : ∀ w, P w → Q a ts w) : TripleAt u ts P (Pure.pure a : Parse α) Q E := by
  intro c w hc hw
  subst hc
  exact h w hw

theorem bind {x : Parse α} {f : α → Parse β} {R : β → List Token → Work → Prop}
    (hx : TripleAt u ts P x Q E) (hf : ∀ a ts', TripleAt u ts' (Q a ts') (f a) R E) :
    TripleAt u ts P (x >>= f) R E := by
  intro c w hc hw
  have hr := hx c w hc hw
  rw [bind_run_eq]
  generalize (x c).run u w = r at hr
  rcases r with ⟨_ | ⟨a, c'⟩, w'⟩
  · exact hr
  · exact hf a c'.rest c' w' rfl hr

/-- A reader whose value and tokens left are known, followed by the rest. -/
theorem bind_eq {x : Parse α} {f : α → Parse β} {a : α} {ts' : List Token} {P' : Work → Prop}
    {R : β → List Token → Work → Prop}
    (hx : TripleAt u ts P x (fun b ts'' w => (b = a ∧ ts'' = ts') ∧ P' w) E)
    (hf : TripleAt u ts' P' (f a) R E) : TripleAt u ts P (x >>= f) R E := by
  refine bind hx fun b ts'' => ?_
  intro c w hc hw
  obtain ⟨⟨rfl, rfl⟩, hw⟩ := hw
  exact hf c w hc hw

/-- What a triple says of one run: a success satisfying `Q`, or a failure satisfying `E`. -/
theorem run_cases {x : Parse α} (h : TripleAt u ts P x Q E) {c : Cursor} {w : Work}
    (hc : c.rest = ts) (hw : P w) :
    (∃ a c', ((x c).run u w).1 = .ok (a, c') ∧ Q a c'.rest ((x c).run u w).2) ∨
      ∃ e, ((x c).run u w).1 = .error e ∧ E ((x c).run u w).2 := by
  have hr := h c w hc hw
  generalize (x c).run u w = r at hr ⊢
  rcases r with ⟨e | ⟨a, c'⟩, w'⟩
  · exact Or.inr ⟨e, rfl, hr⟩
  · exact Or.inl ⟨a, c', rfl, hr⟩

theorem mono {x : Parse α} (h : TripleAt u ts P x Q E) (hP : ∀ w, P' w → P w)
    (hQ : ∀ a ts' w, Q a ts' w → Q' a ts' w) (hE : ∀ w, E w → E' w) : TripleAt u ts P' x Q' E' := by
  intro c w hc hw
  exact Outcome.imp (fun (p : α × Cursor) w' => hQ p.1 p.2.rest w') hE _ _ (h c w hc (hP w hw))

theorem post {x : Parse α} (h : TripleAt u ts P x Q E) (hQ : ∀ a ts' w, Q a ts' w → Q' a ts' w) :
    TripleAt u ts P x Q' E :=
  mono h (fun _ hw => hw) hQ fun _ hw => hw

theorem of_fact {φ : Prop} {x : Parse α} (h : φ → TripleAt u ts P x Q E) :
    TripleAt u ts (fun w => φ ∧ P w) x Q E := by
  intro c w hc hw
  exact h hw.1 c w hc hw.2

theorem of_false {x : Parse α} : TripleAt u ts (fun _ => False) x Q E :=
  fun _ _ _ hw => hw.elim

theorem throw {e : ParseError} (h : ∀ w, P w → E w) :
    TripleAt u ts P (MonadExcept.throw e : Parse α) Q E := by
  intro c w _ hw
  exact h w hw

theorem lift {x : Step α} (h : ∀ w, P w → Q (x u w).1 ts (x u w).2) :
    TripleAt u ts P (monadLift x : Parse α) Q E := by
  intro c w hc hw
  subst hc
  exact h w hw

theorem get {Q : Cursor → List Token → Work → Prop} (h : ∀ c w, c.rest = ts → P w → Q c ts w) :
    TripleAt u ts P (MonadState.get : Parse Cursor) Q E := by
  intro c w hc hw
  subst hc
  exact h c w rfl hw

/-- Running out of fuel fails, and leaves the work alone. -/
theorem tooDeep : TripleAt u ts P (Parse.tooDeep : Parse α) Q P :=
  bind (get (Q := fun _ _ => P) fun _ _ _ hw => hw) fun _ _ => throw fun _ hw => hw

/-- The fuel for the tokens left: one round per token, and one more. -/
theorem fuel : TripleAt u ts P Parse.fuel (fun n ts' w => (n = ts.length + 1 ∧ ts' = ts) ∧ P w) E :=
  bind (get (Q := fun c ts' w => c.rest = ts ∧ ts' = ts ∧ P w) fun _ _ hc hw => ⟨hc, rfl, hw⟩)
    fun c _ => of_fact fun hc => pure fun _ hw => ⟨⟨by rw [hc], hw.1⟩, hw.2⟩

theorem check (k : TokenKind) :
    TripleAt u ts P (Parse.check k) (fun b ts' w => (b = ts.head?.any (·.kind == k) ∧ ts' = ts) ∧ P w)
      E :=
  bind (get (Q := fun c ts' w => c.rest = ts ∧ ts' = ts ∧ P w) fun _ _ hc hw => ⟨hc, rfl, hw⟩)
    fun c _ => of_fact fun hc => pure fun _ hw => ⟨⟨by rw [← hc]; rfl, hw.1⟩, hw.2⟩

theorem peekAt (n : Nat) :
    TripleAt u ts P (Parse.peekAt n) (fun o ts' w => (o = ts[n]? ∧ ts' = ts) ∧ P w) E :=
  bind (get (Q := fun c ts' w => c.rest = ts ∧ ts' = ts ∧ P w) fun _ _ hc hw => ⟨hc, rfl, hw⟩)
    fun c _ => of_fact fun hc => pure fun _ hw => ⟨⟨by rw [← hc]; rfl, hw.1⟩, hw.2⟩

theorem peek : TripleAt u ts P Parse.peek (fun o ts' w => (o = ts.head? ∧ ts' = ts) ∧ P w) E :=
  bind (get (Q := fun c ts' w => c.rest = ts ∧ ts' = ts ∧ P w) fun _ _ hc hw => ⟨hc, rfl, hw⟩)
    fun c _ => of_fact fun hc => pure fun _ hw => ⟨⟨by rw [← hc]; rfl, hw.1⟩, hw.2⟩

theorem next : TripleAt u ts P Parse.next (fun o ts' w => (o = ts.head? ∧ ts' = ts.tail) ∧ P w) E := by
  intro c w hc hw
  subst hc
  unfold Parse.next
  rw [bind_run_eq, get_run]
  dsimp only
  unfold Cursor.read?
  cases hr : c.rest with
  | nil => exact ⟨⟨rfl, hr⟩, hw⟩
  | cons t ts' => exact ⟨⟨rfl, rfl⟩, hw⟩

theorem accept_hit {kinds : List TokenKind} {t : Token} (h : kinds.contains t.kind = true) :
    TripleAt u (t :: ts) P (Parse.accept kinds) (fun o ts' w => (o = some t ∧ ts' = ts) ∧ P w) E := by
  intro c w hc hw
  rw [accept_run]
  unfold Cursor.accept?
  rw [hc]
  simp only [h, if_true, Option.map_some, Option.getD_some]
  exact ⟨⟨rfl, rfl⟩, hw⟩

theorem accept_miss {kinds : List TokenKind} (h : ∀ t ∈ ts.head?, kinds.contains t.kind = false) :
    TripleAt u ts P (Parse.accept kinds) (fun o ts' w => (o = none ∧ ts' = ts) ∧ P w) E := by
  intro c w hc hw
  rw [accept_run]
  unfold Cursor.accept?
  cases ts with
  | nil =>
    rw [hc]
    exact ⟨⟨rfl, hc⟩, hw⟩
  | cons t ts =>
    rw [hc]
    simp only [h t rfl, Bool.false_eq_true, if_false, Option.map_none, Option.getD_none]
    exact ⟨⟨rfl, hc⟩, hw⟩

theorem acceptKeyword_hit {word : String} {t : Token} (h : t.isKeyword word = true) :
    TripleAt u (t :: ts) P (Parse.acceptKeyword word)
      (fun o ts' w => (o = some t ∧ ts' = ts) ∧ P w) E := by
  intro c w hc hw
  rw [acceptKeyword_run]
  unfold Cursor.acceptKeyword?
  rw [hc]
  simp only [h, if_true, Option.map_some, Option.getD_some]
  exact ⟨⟨rfl, rfl⟩, hw⟩

theorem acceptKeyword_miss {word : String} (h : ∀ t ∈ ts.head?, t.isKeyword word = false) :
    TripleAt u ts P (Parse.acceptKeyword word) (fun o ts' w => (o = none ∧ ts' = ts) ∧ P w) E := by
  intro c w hc hw
  rw [acceptKeyword_run]
  unfold Cursor.acceptKeyword?
  cases ts with
  | nil =>
    rw [hc]
    exact ⟨⟨rfl, hc⟩, hw⟩
  | cons t ts =>
    rw [hc]
    simp only [h t rfl, Bool.false_eq_true, if_false, Option.map_none, Option.getD_none]
    exact ⟨⟨rfl, hc⟩, hw⟩

theorem unexpected {what : String} : TripleAt u ts P (Parse.unexpected what : Parse α) Q P := by
  unfold Parse.unexpected
  refine bind (Q := fun _ _ => P) ?_ fun _ _ => throw fun _ hw => hw
  unfold Parse.unexpectedHere
  refine bind (get (Q := fun _ _ => P) fun _ _ _ hw => hw) fun c _ => ?_
  split <;> exact pure fun _ hw => hw

theorem expect_hit {kinds : List TokenKind} {what : String} {t : Token}
    (h : kinds.contains t.kind = true) :
    TripleAt u (t :: ts) P (Parse.expect kinds what) (fun t' ts' w => (t' = t ∧ ts' = ts) ∧ P w)
      E := by
  unfold Parse.expect
  exact bind_eq (accept_hit h) (pure fun _ hw => ⟨⟨rfl, rfl⟩, hw⟩)

theorem expect_miss {kinds : List TokenKind} {what : String} {Q : Token → List Token → Work → Prop}
    (h : ∀ t ∈ ts.head?, kinds.contains t.kind = false) :
    TripleAt u ts P (Parse.expect kinds what) Q P := by
  unfold Parse.expect
  exact bind_eq (accept_miss h) unexpected

theorem expectIdent_hit {what : String} {t : Token} (h : t.kind = .identifier) :
    TripleAt u (t :: ts) P (Parse.expectIdent what) (fun t' ts' w => (t' = t ∧ ts' = ts) ∧ P w)
      E :=
  expect_hit (by simp [h])

/-! ### The same readers from any tokens ahead -/

/-- `accept` reads the next token when its kind is one of `kinds`, and nothing otherwise. -/
theorem accept (kinds : List TokenKind) :
    TripleAt u ts P (Parse.accept kinds) (fun o ts' w => (ts = o.toList ++ ts' ∧
      (∀ t ∈ o, kinds.contains t.kind = true) ∧
      (o = none → ∀ t ∈ ts.head?, kinds.contains t.kind = false)) ∧ P w) E := by
  cases ts with
  | nil =>
    refine (accept_miss (by simp)).post fun o ts' w h => ⟨?_, h.2⟩
    obtain ⟨⟨rfl, rfl⟩, -⟩ := h
    simp
  | cons t ts =>
    cases hk : kinds.contains t.kind
    · refine (accept_miss (by simpa using hk)).post fun o ts' w h => ⟨?_, h.2⟩
      obtain ⟨⟨rfl, rfl⟩, -⟩ := h
      simp only [Option.toList_none, List.nil_append, Option.mem_def, reduceCtorEq,
        IsEmpty.forall_iff, implies_true, List.head?_cons, Option.some.injEq, forall_eq', hk,
        true_and]
    · refine (accept_hit hk).post fun o ts' w h => ⟨?_, h.2⟩
      obtain ⟨⟨rfl, rfl⟩, -⟩ := h
      simp only [Option.toList_some, List.singleton_append, Option.mem_def, Option.some.injEq,
        forall_eq', hk, reduceCtorEq, IsEmpty.forall_iff, and_self]

/-- `expect` reads the next token when its kind is one of `kinds`, and fails otherwise. -/
theorem expect (kinds : List TokenKind) (what : String) :
    TripleAt u ts P (Parse.expect kinds what)
      (fun t ts' w => (ts = t :: ts' ∧ kinds.contains t.kind = true) ∧ P w) P := by
  unfold Parse.expect
  refine bind (accept kinds) fun o ts' => of_fact fun h => ?_
  cases o with
  | some t => exact pure fun _ hw => ⟨⟨h.1, h.2.1 t rfl⟩, hw⟩
  | none => exact unexpected

theorem expectIdent (what : String) :
    TripleAt u ts P (Parse.expectIdent what)
      (fun t ts' w => (ts = t :: ts' ∧ t.kind = .identifier) ∧ P w) P :=
  (expect _ what).post fun _ _ _ h => ⟨⟨h.1.1, by simpa using h.1.2⟩, h.2⟩

/-- `acceptKeyword` reads the next token when it is the keyword, and nothing otherwise. -/
theorem acceptKeyword (word : String) :
    TripleAt u ts P (Parse.acceptKeyword word) (fun o ts' w => (ts = o.toList ++ ts' ∧
      (∀ t ∈ o, t.isKeyword word = true) ∧
      (o = none → ∀ t ∈ ts.head?, t.isKeyword word = false)) ∧ P w) E := by
  cases ts with
  | nil =>
    refine (acceptKeyword_miss (by simp)).post fun o ts' w h => ⟨?_, h.2⟩
    obtain ⟨⟨rfl, rfl⟩, -⟩ := h
    simp
  | cons t ts =>
    cases hk : t.isKeyword word
    · refine (acceptKeyword_miss (by simpa using hk)).post fun o ts' w h => ⟨?_, h.2⟩
      obtain ⟨⟨rfl, rfl⟩, -⟩ := h
      simp [hk]
    · refine (acceptKeyword_hit hk).post fun o ts' w h => ⟨?_, h.2⟩
      obtain ⟨⟨rfl, rfl⟩, -⟩ := h
      simp [hk]

/-- A step of the analysis reads no token: what follows it starts from the same tokens. -/
theorem lift_bind {x : Step α} {f : α → Parse β} {R : β → List Token → Work → Prop}
    (h : ∀ a, TripleAt u ts (fun _ => True) (f a) R E) :
    TripleAt u ts (fun _ => True) (monadLift x >>= f) R E := by
  refine bind (lift (Q := fun _ ts' _ => ts' = ts) fun _ _ => rfl) fun a ts' => ?_
  intro c w hc hts
  subst hts
  exact h a c w hc trivial

end TripleAt

end Parse

end ZScript
