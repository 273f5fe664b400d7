import ZScript.Proofs.ExprTokens
import ZScript.Token.Lexer
import Mathlib

/-!
# Reading an expression stores every token it reads

When `ExprParser.expression` reads an expression from a cursor, the tree it returns stores,
as a multiset, exactly the tokens it moved over: none is dropped and none is stored twice, in
every syntactic form (literals, brackets, vectors, array initializers, casts, calls with
named arguments, member chains, subscripts) and through every nesting.

The readers run in a state monad over the cursor. `Reads m P` says that every successful run
of `m` moves over a prefix `ts` of the input and ends with a value `a` such that `P a ts`;
`Reads.bind` chains such facts through a `do` block, so each reader's proof follows its code
line by line. The readers are one mutual recursion on a fuel argument, and `Conserving n`
collects the conservation fact of each of them at fuel `n`: `conserving_succ` proves the facts
at `n + 1` from those at `n`, each reader by its own step lemma.
-/

namespace ZScript

namespace ExprParser

/-! ## Runs that move over a prefix of the input -/

/-- Every successful run of `m` from the cursor `c` moves over a prefix `ts` of the input and
    ends with a value `a` such that `P a ts`. -/
def ReadsFrom {α : Type} (c : Cursor) (m : M α) (P : α → List Token → Prop) : Prop :=
  ∀ a c', m c = .ok (a, c') → ∃ ts, c.rest = ts ++ c'.rest ∧ P a ts

/-- `ReadsFrom` from every cursor. -/
def Reads {α : Type} (m : M α) (P : α → List Token → Prop) : Prop :=
  ∀ c, ReadsFrom c m P

theorem bind_eq_ok {α β : Type} {x : M α} {f : α → M β} {c c' : Cursor} {b : β} :
    (x >>= f) c = .ok (b, c') ↔ ∃ a c₁, x c = .ok (a, c₁) ∧ f a c₁ = .ok (b, c') := by
  simp only [bind, StateT.bind]
  cases x c with
  | error e => simp [Except.bind]
  | ok p => simp [Except.bind]; constructor <;> intro h <;> grind

namespace Reads

variable {α β : Type}

theorem mono {m : M α} {P Q : α → List Token → Prop} (h : Reads m P)
    (hPQ : ∀ a ts, P a ts → Q a ts) : Reads m Q := by
  intro c a c' hm
  obtain ⟨ts, hts, hP⟩ := h c a c' hm
  exact ⟨ts, hts, hPQ a ts hP⟩

/-- The tokens read by `x >>= f` are those read by `x` followed by those read by `f`. -/
theorem bind {x : M α} {f : α → M β} {P : α → List Token → Prop} {Q : β → List Token → Prop}
    (hx : Reads x P) (hf : ∀ a ts, P a ts → Reads (f a) fun b us => Q b (ts ++ us)) :
    Reads (x >>= f) Q := by
  intro c b c' h
  obtain ⟨a, c₁, h₁, h₂⟩ := bind_eq_ok.1 h
  obtain ⟨ts, hts, hP⟩ := hx c a c₁ h₁
  obtain ⟨us, hus, hQ⟩ := hf a ts hP c₁ b c' h₂
  exact ⟨ts ++ us, by rw [hts, hus, List.append_assoc], hQ⟩

theorem pure {a : α} {P : α → List Token → Prop} (h : P a []) : Reads (Pure.pure a) P := by
  intro c b c' hc
  simp only [Pure.pure, StateT.pure, Except.pure, Except.ok.injEq, Prod.mk.injEq] at hc
  obtain ⟨rfl, rfl⟩ := hc
  exact ⟨[], rfl, h⟩

theorem throw {e : ParseError} {P : α → List Token → Prop} : Reads (MonadExcept.throw e) P := by
  intro c a c' h
  simp [MonadExcept.throw, throwThe, MonadExceptOf.throw, StateT.lift] at h

/-- Nothing after a failure runs. -/
theorem throw_bind {e : ParseError} {f : α → M β} {Q : β → List Token → Prop} :
    Reads (MonadExcept.throw e >>= f) Q :=
  Reads.bind (P := fun _ _ => False) Reads.throw fun _ _ hf => hf.elim

theorem lift {x : Except ParseError α} {P : α → List Token → Prop}
    (h : ∀ a, x = .ok a → P a []) : Reads (ExprParser.lift x) P := by
  intro c a c' hc
  cases hx : x with
  | error e => simp [ExprParser.lift, hx, Except.map] at hc
  | ok a' =>
    simp only [ExprParser.lift, hx, Except.map, Except.ok.injEq, Prod.mk.injEq] at hc
    obtain ⟨rfl, rfl⟩ := hc
    exact ⟨[], rfl, h _ hx⟩

end Reads

theorem reads_tooDeep {α : Type} {P : α → List Token → Prop} : Reads tooDeep P := by
  intro c a c' h
  simp [tooDeep, bind_eq_ok, get, getThe, MonadStateOf.get, StateT.get, throw, throwThe,
    MonadExceptOf.throw, StateT.lift] at h

theorem reads_unexpected {α : Type} {expected : String} {P : α → List Token → Prop} :
    Reads (unexpected expected) P := by
  intro c a c' h
  simp only [unexpected, bind_eq_ok] at h
  obtain ⟨c₀, c₁, -, h⟩ := h
  cases hp : c₀.peek? <;> simp [hp, throw, throwThe, MonadExceptOf.throw, StateT.lift] at h

/-! ## The primitive readers -/

theorem reads_get : Reads (get : M Cursor) fun _ ts => ts = [] := by
  intro c a c' h
  simp only [get, getThe, MonadStateOf.get, StateT.get, Pure.pure, Except.pure,
    Except.ok.injEq, Prod.mk.injEq] at h
  obtain ⟨rfl, rfl⟩ := h
  exact ⟨[], rfl, rfl⟩

/-- Looking at the cursor reads nothing. -/
theorem ReadsFrom.get_bind {β : Type} {c : Cursor} {f : Cursor → M β}
    {Q : β → List Token → Prop} (h : ReadsFrom c (f c) Q) : ReadsFrom c (get >>= f) Q := by
  intro b c' hb
  obtain ⟨c₀, c₁, hget, hf⟩ := bind_eq_ok.1 hb
  simp only [get, getThe, MonadStateOf.get, StateT.get, Pure.pure, Except.pure,
    Except.ok.injEq, Prod.mk.injEq] at hget
  obtain ⟨rfl, rfl⟩ := hget
  exact h b c' hf

/-- Code that first looks at the cursor may be proved from each cursor in turn. -/
theorem Reads.get_bind {β : Type} {f : Cursor → M β} {Q : β → List Token → Prop}
    (h : ∀ c, ReadsFrom c (f c) Q) : Reads (get >>= f) Q :=
  fun c => ReadsFrom.get_bind (h c)

/-- Stepping over the next token `t` reads it. -/
theorem ReadsFrom.skip_bind {β : Type} {c : Cursor} {t : Token} {g : Unit → M β}
    {Q : β → List Token → Prop} (hp : c.peek? = some t)
    (hg : Reads (g ()) fun b us => Q b (t :: us)) : ReadsFrom c (skip >>= g) Q := by
  intro b c' hb
  obtain ⟨u, c₁, hskip, hrest⟩ := bind_eq_ok.1 hb
  obtain ⟨us, hus, hQ⟩ := hg c₁ b c' hrest
  have hc : c.rest = t :: c₁.rest := by
    simp only [Cursor.peek?] at hp
    simp only [skip, modify, modifyGet, MonadStateOf.modifyGet, StateT.modifyGet, Cursor.read?,
      Pure.pure, Except.pure, Except.ok.injEq, Prod.mk.injEq] at hskip
    obtain ⟨-, rfl⟩ := hskip
    cases hrest : c.rest with
    | nil => simp [hrest] at hp
    | cons x xs =>
      simp only [hrest, List.head?_cons, Option.some.injEq] at hp
      simp [hp]
  exact ⟨t :: us, by rw [hc, hus]; rfl, hQ⟩

theorem reads_balanced (stop : List TokenKind) :
    Reads (balanced stop) fun run ts => ts = run := by
  intro c run c' h
  simp only [balanced, modifyGet, MonadStateOf.modifyGet, StateT.modifyGet, Cursor.balanced,
    Pure.pure, Except.pure, Except.ok.injEq, Prod.mk.injEq] at h
  obtain ⟨rfl, rfl⟩ := h
  exact ⟨_, (balancedRun_append stop [] c.rest).symm, rfl⟩

theorem Cursor.accept?_rest {c c' : Cursor} {kinds : List TokenKind} {t : Token}
    (h : c.accept? kinds = some (t, c')) : c.rest = t :: c'.rest := by
  unfold Cursor.accept? at h
  split at h
  · split at h
    · simp only [Option.some.injEq, Prod.mk.injEq] at h
      obtain ⟨rfl, rfl⟩ := h
      assumption
    · cases h
  · cases h

theorem reads_accept (kinds : List TokenKind) :
    Reads (accept kinds) fun o ts => ts = o.toList := by
  intro c o c' h
  simp only [accept, bind_eq_ok] at h
  obtain ⟨c₀, c₁, hget, h⟩ := h
  simp only [get, getThe, MonadStateOf.get, StateT.get, Pure.pure, Except.pure,
    Except.ok.injEq, Prod.mk.injEq] at hget
  obtain ⟨rfl, rfl⟩ := hget
  cases ha : c.accept? kinds with
  | none =>
    simp only [ha, Pure.pure, StateT.pure, Except.pure, Except.ok.injEq, Prod.mk.injEq] at h
    obtain ⟨rfl, rfl⟩ := h
    exact ⟨[], rfl, rfl⟩
  | some r =>
    obtain ⟨t, c₂⟩ := r
    simp only [ha, bind_eq_ok, set, MonadStateOf.set, StateT.set, Pure.pure, StateT.pure,
      Except.pure, Except.ok.injEq, Prod.mk.injEq] at h
    obtain ⟨_, _, ⟨-, rfl⟩, rfl, rfl⟩ := h
    exact ⟨[t], Cursor.accept?_rest ha, rfl⟩

theorem reads_expect (kinds : List TokenKind) (expected : String) :
    Reads (expect kinds expected) fun t ts => ts = [t] := by
  refine Reads.bind (reads_accept kinds) fun o ts hts => ?_
  cases o with
  | some t => exact Reads.pure (by simp [hts])
  | none => exact reads_unexpected

theorem reads_popOperand (items : List Item) (at_ : Token) :
    Reads (popOperand items at_) fun r ts => ts = [] ∧ items = .operand r.1 :: r.2 := by
  unfold popOperand
  split
  · exact Reads.pure ⟨rfl, rfl⟩
  · exact Reads.throw

/-- The names and dots of a member chain are the tokens read. -/
theorem reads_memberNames (fuel : Nat) :
    Reads (memberNames fuel) fun r ts => (↑(Leaf.tokensOf r.1 ++ r.2) : Multiset Token) = ts := by
  induction fuel with
  | zero => exact reads_tooDeep
  | succ fuel ih =>
    refine Reads.bind (reads_expect _ _) fun name ts hts => ?_
    refine Reads.bind (reads_accept _) fun o us hus => ?_
    cases o with
    | some d =>
      refine Reads.bind ih fun r vs hvs => ?_
      refine Reads.pure ?_
      subst hts hus
      simp only [Leaf.tokensOf_cons, Leaf.tokens, Option.toList_some, List.append_nil,
        ← Multiset.coe_add, ← hvs]
      have hd : ∀ (x : Token) (xs : List Token), x :: xs = [x] ++ xs := fun _ _ => rfl
      rw [hd d r.2, ← Multiset.coe_add]
      abel
    | none =>
      refine Reads.pure ?_
      subst hts hus
      simp [Leaf.tokens]

theorem splitArgs_of_end {ts run : List Token}
    (hrun : balancedRun [.comma] [] ts = (run, [])) : splitArgs ts = .ok ([run], []) := by
  rw [splitArgs.eq_1]
  split
  · next run' hrun' =>
    rw [hrun] at hrun'
    cases hrun'
    rfl
  · next run' t rest hrun' =>
    rw [hrun] at hrun'
    cases hrun'

theorem splitArgs_of_sep {ts run rest : List Token} {t : Token}
    (hrun : balancedRun [.comma] [] ts = (run, t :: rest)) :
    splitArgs ts = if (t.kind == .comma) = true then
      (match splitArgs rest with
        | .ok (parts, commas) => .ok (run :: parts, t :: commas)
        | .error e => .error e)
      else .error (ParseError.unexpectedToken t "','") := by
  rw [splitArgs.eq_1]
  split
  · next run' hrun' =>
    rw [hrun] at hrun'
    cases hrun'
  · next run' t' rest' hrun' =>
    rw [hrun] at hrun'
    cases hrun'
    rfl

/-- Splitting a run on its commas keeps every token: the parts and the commas. -/
theorem splitArgs_tokens {ts : List Token} {parts : List (List Token)} {commas : List Token}
    (h : splitArgs ts = .ok (parts, commas)) :
    (↑(parts.flatten ++ commas) : Multiset Token) = ts := by
  induction ts using splitArgs.induct generalizing parts commas with
  | case1 ts run hrun =>
    rw [splitArgs_of_end hrun, Except.ok.injEq, Prod.mk.injEq] at h
    obtain ⟨rfl, rfl⟩ := h
    have hts := balancedRun_append [.comma] [] ts
    rw [hrun] at hts
    simpa using congrArg (fun l : List Token => (l : Multiset Token)) hts
  | case2 ts run t rest hrun hcomma parts' commas' hrec ih =>
    rw [splitArgs_of_sep hrun, if_pos hcomma, hrec, Except.ok.injEq, Prod.mk.injEq] at h
    obtain ⟨rfl, rfl⟩ := h
    have hts := balancedRun_append [.comma] [] ts
    rw [hrun] at hts
    have hrest := ih hrec
    -- the run before the first comma, the comma, and the parts of the rest
    rw [← hts]
    simp only [List.flatten_cons, ← Multiset.coe_add, ← Multiset.cons_coe,
      ← Multiset.singleton_add] at hrest ⊢
    rw [← hrest]
    abel
  | case3 ts run t rest hrun hcomma e hrec =>
    rw [splitArgs_of_sep hrun, if_pos hcomma, hrec] at h
    cases h
  | case4 ts run t rest hrun hcomma =>
    rw [splitArgs_of_sep hrun, if_neg hcomma] at h
    cases h

theorem splitLabel_append (arg : List Token) : (splitLabel arg).1 ++ (splitLabel arg).2 = arg := by
  unfold splitLabel
  split
  · split <;> simp
  · simp

theorem except_bind_eq_ok {α β : Type} {x : Except ParseError α} {f : α → Except ParseError β}
    {b : β} : x >>= f = .ok b ↔ ∃ a, x = .ok a ∧ f a = .ok b := by
  cases x <;> simp [bind, Except.bind]

/-! ## Every reader at a given fuel -/

/-- The conservation facts of the readers at fuel `n`: each stores exactly the tokens it reads,
    on top of the token it starts at (`primary`, `cast`) or of the items collected so far
    (`collect`). -/
structure Conserving (n : Nat) : Prop where
  parseExpr_ok : ∀ stop, Reads (parseExpr n stop) fun e ts => (↑e.tokens : Multiset Token) = ts
  parseRun_ok : ∀ ts line e, parseRun n ts line = .ok e → (↑e.tokens : Multiset Token) = ts
  collect_ok : ∀ stop want acc, Reads (collect n stop want acc) fun items ts =>
    (↑(Item.tokensOf items) : Multiset Token) = ↑(Item.tokensOf acc ++ ts)
  primary_ok : ∀ t, Reads (primary n t) fun l ts => (↑l.tokens : Multiset Token) = ↑(t :: ts)
  arrayParts_ok : ∀ parts line leaves, arrayParts n parts line = .ok leaves →
    (↑(Leaf.tokensOf leaves) : Multiset Token) = ↑parts.flatten
  vectorParts_ok : ∀ parts line leaves, vectorParts n parts line = .ok leaves →
    (↑(Leaf.tokensOf leaves) : Multiset Token) = ↑parts.flatten
  cast_ok : ∀ t, Reads (cast n t) fun l ts => (↑l.tokens : Multiset Token) = ↑(t :: ts)
  callArgs_ok : ∀ count, Reads (callArgs n count) fun r ts =>
    (↑(Leaf.tokensOf r.1 ++ r.2) : Multiset Token) = ts
  subscripts_ok : Reads (subscripts n) fun r ts =>
    (↑(Leaf.tokensOf r.1 ++ r.2) : Multiset Token) = ts

/-- With no fuel every reader fails. -/
theorem conserving_zero : Conserving 0 where
  parseExpr_ok _ := by rw [parseExpr.eq_1]; exact reads_tooDeep
  parseRun_ok _ _ _ h := by simp [parseRun] at h
  collect_ok _ _ _ := by rw [collect.eq_1]; exact reads_tooDeep
  primary_ok _ := by rw [primary.eq_1]; exact reads_tooDeep
  arrayParts_ok _ _ _ h := by simp [arrayParts] at h
  vectorParts_ok _ _ _ h := by simp [vectorParts] at h
  cast_ok _ := by rw [cast.eq_1]; exact reads_tooDeep
  callArgs_ok _ := by rw [callArgs.eq_1]; exact reads_tooDeep
  subscripts_ok := by rw [subscripts.eq_1]; exact reads_tooDeep

section Step

variable {n : Nat} (h : Conserving n)
include h

theorem parseExpr_conserves (stop : List TokenKind) :
    Reads (parseExpr (n + 1) stop) fun e ts => (↑e.tokens : Multiset Token) = ts := by
  rw [parseExpr.eq_2]
  refine Reads.bind (h.collect_ok stop true []) fun items ts hts => ?_
  refine Reads.bind reads_get fun c us hus => ?_
  refine Reads.lift fun e he => ?_
  subst hus
  simpa [reduce_tokens he] using hts

theorem parseRun_conserves {ts : List Token} {line : Nat} {e : Expr}
    (he : parseRun (n + 1) ts line = .ok e) : (↑e.tokens : Multiset Token) = ts := by
  unfold parseRun at he
  split at he
  · cases he
  · split at he
    · next e' c hrun =>
      split at he
      · cases he
      · next hend =>
        cases he
        obtain ⟨us, hus, htok⟩ := h.parseExpr_ok [] (Cursor.ofList ts) e c hrun
        -- the run ended at the end of the tokens, so it read all of them
        have hrest : c.rest = [] := by simpa [Cursor.peek?] using hend
        have hread : us = ts := by simpa [hrest, Cursor.ofList] using hus.symm
        rw [htok, hread]
    · cases he

theorem reads_lift_parseRun (ts : List Token) (line : Nat) :
    Reads (lift (parseRun n ts line)) fun e us => us = [] ∧ (↑e.tokens : Multiset Token) = ts :=
  Reads.lift fun e he => ⟨rfl, h.parseRun_ok ts line e he⟩

theorem arrayParts_conserves {parts : List (List Token)} {line : Nat} {leaves : List Leaf}
    (hl : arrayParts (n + 1) parts line = .ok leaves) :
    (↑(Leaf.tokensOf leaves) : Multiset Token) = ↑parts.flatten := by
  cases parts with
  | nil =>
    simp only [arrayParts, Except.ok.injEq] at hl
    simp [← hl]
  | cons p ps =>
    simp only [arrayParts] at hl
    split at hl
    · -- only an empty last part is skipped, and it holds no token
      next hempty =>
      simp only [Bool.and_eq_true, List.isEmpty_iff] at hempty
      simp only [Except.ok.injEq] at hl
      simp [← hl, hempty.1, hempty.2]
    · obtain ⟨e, he, hl⟩ := except_bind_eq_ok.1 hl
      obtain ⟨rest, hr, hl⟩ := except_bind_eq_ok.1 hl
      simp only [pure, Except.pure, Except.ok.injEq] at hl
      subst hl
      simp only [Leaf.tokensOf_cons, Leaf.tokens_expr, List.flatten_cons, ← Multiset.coe_add,
        h.parseRun_ok p line e he, h.arrayParts_ok ps line rest hr]

theorem vectorParts_conserves {parts : List (List Token)} {line : Nat} {leaves : List Leaf}
    (hl : vectorParts (n + 1) parts line = .ok leaves) :
    (↑(Leaf.tokensOf leaves) : Multiset Token) = ↑parts.flatten := by
  cases parts with
  | nil =>
    simp only [vectorParts, Except.ok.injEq] at hl
    simp [← hl]
  | cons p ps =>
    simp only [vectorParts] at hl
    obtain ⟨e, he, hl⟩ := except_bind_eq_ok.1 hl
    obtain ⟨rest, hr, hl⟩ := except_bind_eq_ok.1 hl
    simp only [pure, Except.pure, Except.ok.injEq] at hl
    subst hl
    simp only [Leaf.tokensOf_cons, Leaf.tokens_expr, List.flatten_cons, ← Multiset.coe_add,
      h.parseRun_ok p line e he, h.vectorParts_ok ps line rest hr]

theorem cast_conserves (t : Token) :
    Reads (cast (n + 1) t) fun l ts => (↑l.tokens : Multiset Token) = ↑(t :: ts) := by
  rw [cast.eq_2]
  refine Reads.bind (reads_expect _ _) fun o ts hts => ?_
  refine Reads.bind (reads_balanced _) fun inner us hus => ?_
  refine Reads.bind (reads_expect _ _) fun close vs hvs => ?_
  refine Reads.bind (reads_lift_parseRun h inner o.line) fun v ws hws => ?_
  refine Reads.pure ?_
  obtain ⟨rfl, hv⟩ := hws
  subst hts hus hvs
  simp only [Expr.node, Expr.tokens_mk, Leaf.tokensOf_cons, Leaf.tokensOf_nil, Leaf.tokens,
    List.append_nil, ← Multiset.coe_add, ← Multiset.cons_coe, ← Multiset.singleton_add, hv]
  abel

/-- After one argument, a call's argument list ends at `)` or reads the next argument. -/
theorem callArgs_rest (count : Nat) (sep : Token) (leaves : List Leaf) (labels : List Token) :
    Reads (if (sep.kind == .closeParen) = true then pure (leaves, labels ++ [sep])
      else do
        let (more, special) ← callArgs n (count + leaves.length)
        pure (leaves ++ more, labels ++ sep :: special))
      fun r ts => (↑(Leaf.tokensOf r.1 ++ r.2) : Multiset Token) =
        ↑(Leaf.tokensOf leaves ++ labels ++ sep :: ts) := by
  split
  · exact Reads.pure (by simp)
  · refine Reads.bind (h.callArgs_ok _) fun r ws hws => ?_
    obtain ⟨more, special⟩ := r
    refine Reads.pure ?_
    simp only [Leaf.tokensOf_append, List.append_nil, ← Multiset.coe_add, ← Multiset.cons_coe,
      ← Multiset.singleton_add] at hws ⊢
    rw [← hws]
    abel

theorem callArgs_conserves (count : Nat) :
    Reads (callArgs (n + 1) count) fun r ts =>
      (↑(Leaf.tokensOf r.1 ++ r.2) : Multiset Token) = ts := by
  rw [callArgs.eq_2]
  refine Reads.bind (reads_balanced _) fun arg ts hts => ?_
  refine Reads.bind (reads_expect _ _) fun sep us hus => ?_
  subst ts us
  dsimp only
  split
  · -- an empty argument is allowed only as the whole of `()`
    next hempty =>
    split
    · exact Reads.throw_bind
    · refine Reads.bind (Reads.pure (P := fun r vs => r = ([], []) ∧ vs = []) ⟨rfl, rfl⟩)
        fun r vs hr => ?_
      obtain ⟨rfl, rfl⟩ := hr
      refine (callArgs_rest h count sep [] []).mono fun r ws hws => ?_
      simpa [List.isEmpty_iff.1 hempty] using hws
  · -- a labelled or plain argument
    rcases hsplit : splitLabel arg with ⟨labels, value⟩
    have hback := splitLabel_append arg
    rw [hsplit] at hback
    refine Reads.bind (reads_lift_parseRun h value sep.line) fun e vs hvs => ?_
    obtain ⟨rfl, he⟩ := hvs
    refine Reads.bind (Reads.pure (P := fun r vs => r = ([.expr e], labels) ∧ vs = [])
      ⟨rfl, rfl⟩) fun r ws hr => ?_
    obtain ⟨rfl, rfl⟩ := hr
    refine (callArgs_rest h count sep [.expr e] labels).mono fun r ws hws => ?_
    rw [hws, ← hback]
    simp only [Leaf.tokensOf_cons, Leaf.tokensOf_nil, Leaf.tokens_expr, List.append_nil,
      List.nil_append, ← Multiset.coe_add, ← Multiset.cons_coe, ← Multiset.singleton_add, he]
    abel

theorem subscripts_conserves :
    Reads (subscripts (n + 1)) fun r ts =>
      (↑(Leaf.tokensOf r.1 ++ r.2) : Multiset Token) = ts := by
  rw [subscripts.eq_2]
  refine Reads.bind (reads_balanced _) fun idx ts hts => ?_
  refine Reads.bind (reads_expect _ _) fun close us hus => ?_
  refine Reads.bind (reads_lift_parseRun h idx close.line) fun e vs hvs => ?_
  refine Reads.bind (reads_accept _) fun o ws hws => ?_
  obtain ⟨rfl, he⟩ := hvs
  subst hts hus hws
  cases o with
  | some o =>
    refine Reads.bind h.subscripts_ok fun r xs hxs => ?_
    obtain ⟨more, special⟩ := r
    refine Reads.pure ?_
    simp only [Leaf.tokensOf_cons, Leaf.tokens_expr, Option.toList_some, List.append_nil,
      List.nil_append, ← Multiset.coe_add, ← Multiset.cons_coe, ← Multiset.singleton_add,
      he] at hxs ⊢
    rw [← hxs]
    abel
  | none =>
    refine Reads.pure ?_
    simp only [Leaf.tokensOf_cons, Leaf.tokensOf_nil, Leaf.tokens_expr, Option.toList_none,
      List.append_nil, ← Multiset.coe_add, he]

theorem primary_conserves (t : Token) :
    Reads (primary (n + 1) t) fun l ts => (↑l.tokens : Multiset Token) = ↑(t :: ts) := by
  rw [primary.eq_2]
  split
  · exact Reads.pure (by simp [Leaf.tokens])
  · exact Reads.pure (by simp [Leaf.tokens])
  · exact Reads.pure (by simp [Leaf.tokens])
  · exact Reads.pure (by simp [Leaf.tokens])
  · -- an array initializer: its parts, the commas and both braces
    refine Reads.bind (reads_balanced _) fun inner ts hts => ?_
    refine Reads.bind (reads_expect _ _) fun close us hus => ?_
    refine Reads.bind (Reads.lift (P := fun r vs => vs = [] ∧ splitArgs inner = .ok r)
      fun r hr => ⟨rfl, hr⟩) fun r vs hvs => ?_
    obtain ⟨parts, commas⟩ := r
    obtain ⟨rfl, hsplit⟩ := hvs
    refine Reads.bind (Reads.lift (P := fun leaves ws => ws = [] ∧
      (↑(Leaf.tokensOf leaves) : Multiset Token) = ↑parts.flatten)
      fun leaves hl => ⟨rfl, h.arrayParts_ok parts _ leaves hl⟩) fun leaves ws hws => ?_
    obtain ⟨rfl, hleaves⟩ := hws
    refine Reads.pure ?_
    subst ts us
    have hinner := splitArgs_tokens hsplit
    simp only [Expr.node, Leaf.tokens_expr, Expr.tokens_mk, List.append_nil, List.cons_append,
      ← Multiset.coe_add, ← Multiset.cons_coe, ← Multiset.singleton_add,
      hleaves] at hinner ⊢
    rw [← hinner]
    abel
  · -- a bracketed expression or a vector: the inner run and both brackets
    refine Reads.bind (reads_balanced _) fun inner ts hts => ?_
    refine Reads.bind (reads_expect _ _) fun close us hus => ?_
    refine Reads.bind (Reads.lift (P := fun r vs => vs = [] ∧ splitArgs inner = .ok r)
      fun r hr => ⟨rfl, hr⟩) fun r vs hvs => ?_
    obtain ⟨parts, commas⟩ := r
    obtain ⟨rfl, hsplit⟩ := hvs
    subst ts us
    have hclose : ∀ (e : Expr) (ws : List Token), ws = [] → (↑e.tokens : Multiset Token) = inner →
        Reads (Pure.pure (Leaf.expr { e with special := e.special ++ [t, close] }) : M Leaf)
          fun l xs => (↑l.tokens : Multiset Token) = ↑(t :: (inner ++ ([close] ++ ([] ++
            (ws ++ xs))))) := by
      rintro e ws rfl he
      refine Reads.pure ?_
      simp only [Leaf.tokens_expr, Expr.tokens_append_special, List.append_nil,
        ← Multiset.coe_add, ← Multiset.cons_coe, ← Multiset.singleton_add, he]
      abel
    dsimp only
    split
    · refine Reads.bind (Reads.lift (P := fun leaves ws => ws = [] ∧
        (↑(Leaf.tokensOf leaves) : Multiset Token) = ↑parts.flatten)
        fun leaves hl => ⟨rfl, h.vectorParts_ok parts _ leaves hl⟩) fun leaves ws hws => ?_
      obtain ⟨rfl, hleaves⟩ := hws
      refine Reads.bind (Reads.pure (P := fun e xs => xs = [] ∧
        (↑e.tokens : Multiset Token) = inner) ⟨rfl, ?_⟩) fun e xs hxs => ?_
      · have hinner := splitArgs_tokens hsplit
        simpa [Expr.node, ← Multiset.coe_add, hleaves] using hinner
      · exact (hclose e xs hxs.1 hxs.2).mono fun l ys hys => by simpa using hys
    · refine Reads.bind (reads_lift_parseRun h inner t.line) fun e ws hws => ?_
      exact (hclose e ws hws.1 hws.2).mono fun l ys hys => by simpa using hys
  · -- a literal `true` or `false`, a cast, or an identifier
    split
    · exact Reads.pure (by simp [Leaf.tokens])
    · refine Reads.get_bind fun c => ?_
      split
      · refine ReadsFrom.get_bind ?_
        split
        · next leaf c₂ hcast =>
          -- the cast read its tokens from the saved cursor, which the reader then takes
          obtain ⟨ts, hts, htok⟩ := h.cast_ok t c leaf c₂ hcast
          intro b c' hb
          simp only [bind_eq_ok, set, MonadStateOf.set, StateT.set, Pure.pure, StateT.pure,
            Except.pure, Except.ok.injEq, Prod.mk.injEq] at hb
          obtain ⟨_, _, ⟨-, rfl⟩, rfl, rfl⟩ := hb
          exact ⟨ts, hts, htok⟩
        · exact Reads.pure (by simp [Leaf.tokens]) c
      · exact Reads.pure (by simp [Leaf.tokens]) c
  · exact Reads.throw

/-- Pushing an item and collecting on reads what the collecting reads. -/
theorem collect_push (stop : List TokenKind) (want : Bool) (acc : List Item) (x : Item) :
    Reads (collect n stop want (x :: acc)) fun items ts =>
      (↑(Item.tokensOf items) : Multiset Token) = ↑(Item.tokensOf acc ++ (x.tokens ++ ts)) :=
  (h.collect_ok stop want (x :: acc)).mono fun items ts hts => by
    rw [hts]
    simp only [Item.tokensOf_cons, ← Multiset.coe_add]
    abel

/-- A member access, a call or a subscript binds into the operand before it, with the tokens
    that follow its first token. -/
theorem collect_postfix (stop : List TokenKind) (acc : List Item) (t : Token) (op : Operator)
    (suffix : M (List Leaf × List Token))
    (hsuffix : Reads suffix fun r ts => (↑(Leaf.tokensOf r.1 ++ r.2) : Multiset Token) = ts) :
    Reads (do
        let (target, rest) ← popOperand acc t
        let (xs, sp) ← suffix
        let m : Expr := { Expr.node op (target :: xs) with special := t :: sp }
        collect n stop false (.operand (.expr m) :: rest))
      fun items ts => (↑(Item.tokensOf items) : Multiset Token) =
        ↑(Item.tokensOf acc ++ t :: ts) := by
  refine Reads.bind (reads_popOperand acc t) fun r ts hts => ?_
  obtain ⟨target, rest⟩ := r
  obtain ⟨rfl, rfl⟩ := hts
  refine Reads.bind hsuffix fun r us hus => ?_
  obtain ⟨xs, sp⟩ := r
  refine (collect_push h stop false rest _).mono fun items vs hvs => ?_
  rw [hvs]
  simp only [Item.tokensOf_cons, Item.tokens_operand, Leaf.tokens_expr, Expr.node,
    Expr.tokens_mk, Leaf.tokensOf_cons, List.append_nil, List.nil_append, ← Multiset.coe_add,
    ← Multiset.cons_coe, ← Multiset.singleton_add] at hus ⊢
  rw [← hus]
  abel

theorem collect_conserves (stop : List TokenKind) (want : Bool) (acc : List Item) :
    Reads (collect (n + 1) stop want acc) fun items ts =>
      (↑(Item.tokensOf items) : Multiset Token) = ↑(Item.tokensOf acc ++ ts) := by
  rw [collect.eq_2]
  refine Reads.get_bind fun c => ?_
  -- at the end of the input or at a stop token the items collected are the result
  have hend : ReadsFrom c (if acc.isEmpty = true then unexpected "expression"
      else Pure.pure acc.reverse) fun items ts =>
        (↑(Item.tokensOf items) : Multiset Token) = ↑(Item.tokensOf acc ++ ts) := by
    split
    · exact reads_unexpected c
    · exact Reads.pure (by simpa using Item.tokensOf_reverse acc) c
  cases hp : c.peek? with
  | none => exact hend
  | some t =>
    dsimp only
    split
    · exact hend
    · refine ReadsFrom.skip_bind hp ?_
      split
      · -- an operand is wanted: a prefix operator, or an operand read whole
        split
        · exact (collect_push h stop true acc (.op t)).mono fun items ts hts => by simpa using hts
        · refine Reads.bind (h.primary_ok t) fun leaf us hus => ?_
          refine (collect_push h stop false acc (.operand leaf)).mono fun items vs hvs => ?_
          rw [hvs]
          simp only [Item.tokens_operand, ← Multiset.coe_add, hus, ← Multiset.cons_coe,
            ← Multiset.singleton_add] at hus ⊢
          abel
      · -- an operator or a postfix form is wanted
        split
        · exact collect_postfix h stop acc t .member _ (reads_memberNames n)
        · exact collect_postfix h stop acc t .call _ (h.callArgs_ok 0)
        · exact collect_postfix h stop acc t .arraySubscript _ h.subscripts_ok
        · exact (collect_push h stop false acc (.op t)).mono fun items ts hts => by simpa using hts
        · exact (collect_push h stop false acc (.op t)).mono fun items ts hts => by simpa using hts
        · exact (collect_push h stop true acc (.op t)).mono fun items ts hts => by simpa using hts
        · exact (collect_push h stop true acc (.op t)).mono fun items ts hts => by simpa using hts
        · split
          · exact Reads.throw
          · split
            · refine Reads.bind (reads_accept _) fun o us hus => ?_
              cases o with
              | some a =>
                -- a compound assignment pushes its operator and its `=`
                refine (collect_push h stop true (.op t :: acc) (.op a)).mono
                  fun items vs hvs => ?_
                rw [hvs, hus]
                simp only [Item.tokensOf_cons, Item.tokens_op, Option.toList_some,
                  ← Multiset.coe_add, ← Multiset.cons_coe, ← Multiset.singleton_add]
                abel
              | none =>
                refine (collect_push h stop true acc (.op t)).mono fun items vs hvs => ?_
                simpa [hus] using hvs
            · exact (collect_push h stop true acc (.op t)).mono fun items ts hts => by
                simpa using hts

end Step

/-- Each reader at fuel `n + 1` conserves tokens when those at fuel `n` do. -/
theorem conserving_succ {n : Nat} (h : Conserving n) : Conserving (n + 1) where
  parseExpr_ok := parseExpr_conserves h
  parseRun_ok _ _ _ := parseRun_conserves h
  collect_ok := collect_conserves h
  primary_ok := primary_conserves h
  arrayParts_ok _ _ _ := arrayParts_conserves h
  vectorParts_ok _ _ _ := vectorParts_conserves h
  cast_ok := cast_conserves h
  callArgs_ok := callArgs_conserves h
  subscripts_ok := subscripts_conserves h

theorem conserving (n : Nat) : Conserving n := by
  induction n with
  | zero => exact conserving_zero
  | succ n ih => exact conserving_succ ih

/-- Reading an expression moves over a run of tokens and returns a tree that stores each of
    them exactly once and no other token. -/
theorem expression_tokens {stop : List TokenKind} {c c' : Cursor} {e : Expr}
    (h : expression stop c = .ok (e, c')) :
    ∃ ts, c.rest = ts ++ c'.rest ∧ (↑e.tokens : Multiset Token) = ts := by
  rw [expression_eq] at h
  exact (conserving _).parseExpr_ok stop c e c' h

/-- A call with a named argument that holds a cast of a subscript, and an array initializer:
    reading it moves over every token, and the tree stores each of them once. -/
theorem expression_tokens_nested :
    ∃ e c', expression [] (Cursor.ofList (Token.lex "f(x:int(a[1]),\x7b1,2\x7d)")) = .ok (e, c') ∧
      c'.rest = [] ∧ ∃ ts, (Cursor.ofList (Token.lex "f(x:int(a[1]),\x7b1,2\x7d)")).rest =
        ts ++ c'.rest ∧ (↑e.tokens : Multiset Token) = ts := by
  -- one run of the reader, evaluated by the kernel: it succeeds and leaves nothing behind
  have hrun : ((expression [] (Cursor.ofList (Token.lex "f(x:int(a[1]),\x7b1,2\x7d)"))).toOption.map
      fun r => r.2.rest.isEmpty) = some true := by
    decide +kernel
  generalize hx : expression [] (Cursor.ofList (Token.lex "f(x:int(a[1]),\x7b1,2\x7d)")) = x at hrun
  cases x with
  | error err => simp [Except.toOption] at hrun
  | ok r =>
    obtain ⟨e, c'⟩ := r
    have hrest : c'.rest = [] := by simpa [Except.toOption] using hrun
    exact ⟨e, c', rfl, hrest, expression_tokens hx⟩

end ExprParser

end ZScript
