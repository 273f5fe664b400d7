import Mathlib
import ZScript.Expr.Parser

/-!
# Balanced runs

`Cursor.balanced stop` cuts out the tokens of a nested construct: call arguments, subscripts,
array initializers, deferred bodies. Its recursion carries the stack of open brackets; here the
same run is described without recursion, through the stack after each prefix of the input
(`Nesting.stackAfter`): the run ends at the least position where no bracket is open and the next
token is of a kind in `stop` or is a closer, or at the end of the input (`Nesting.stopsAt`).

From that description follow the facts the readers of nested constructs rely on. Well-nested text
followed by a closer is read whole, up to the closer, when none of its depth-zero tokens is a stop
token. A run has no position where it could have stopped, so reading it again gives it whole, and
splitting it on its depth-zero commas never meets a stray closer.
-/

namespace ZScript

namespace Nesting

/-- The open brackets, innermost first, after token `t`: an opener is pushed; a closer pops the
    innermost opener when it matches it, and leaves the stack as it is otherwise. -/
def push (s : List TokenKind) (t : Token) : List TokenKind :=
  if t.kind.isOpener then t.kind :: s
  else
    match t.kind.opener?, s with
    | some o, top :: inner => if top == o then inner else s
    | _, _ => s

/-- The open brackets after reading `ts` with the brackets `s` open. -/
def stackAfter (s : List TokenKind) (ts : List Token) : List TokenKind := ts.foldl push s

/-- Whether a run over `ts`, begun with the brackets `s` open, ends before position `n`: at the
    end of the input, or where no bracket is open and the next token is of a kind in `stop` or
    closes a bracket. -/
def stopsAt (stop s : List TokenKind) (ts : List Token) (n : Nat) : Bool :=
  match ts[n]? with
  | none => true
  | some t => (stackAfter s (ts.take n)).isEmpty && (stop.contains t.kind || t.kind.opener?.isSome)

/-- No token of `w` with a kind in `stop` stands at depth zero. -/
def StopFree (stop : List TokenKind) (w : List Token) : Prop :=
  ∀ pre t post, w = pre ++ t :: post → stackAfter [] pre = [] → t.kind ∉ stop

@[simp] theorem stackAfter_nil (s : List TokenKind) : stackAfter s [] = s := rfl

@[simp] theorem stackAfter_cons (s : List TokenKind) (t : Token) (ts : List Token) :
    stackAfter s (t :: ts) = stackAfter (push s t) ts := rfl

theorem stackAfter_append (s : List TokenKind) (xs ys : List Token) :
    stackAfter s (xs ++ ys) = stackAfter (stackAfter s xs) ys := List.foldl_append

/-- An opener is pushed. -/
theorem push_open {s : List TokenKind} {t : Token} (ho : t.kind.isOpener = true) :
    push s t = t.kind :: s := by
  simp [push, ho]

/-- A token that neither opens nor closes a bracket leaves the stack alone. -/
theorem push_plain {s : List TokenKind} {t : Token} (ho : t.kind.isOpener = false)
    (hc : t.kind.opener? = none) : push s t = s := by
  simp [push, ho, hc]

/-- A closer is no opener. -/
theorem isOpener_eq_false_of_opener? {c : Token} {k : TokenKind} (hc : c.kind.opener? = some k) :
    c.kind.isOpener = false := by
  cases h : c.kind <;> simp_all [TokenKind.opener?, TokenKind.isOpener]

/-- A closer pops the opener it matches. -/
theorem push_close {s : List TokenKind} {c : Token} {k : TokenKind} (hc : c.kind.opener? = some k) :
    push (k :: s) c = s := by
  simp [push, isOpener_eq_false_of_opener? hc, hc]

/-- The kind a closer matches is an opener. -/
theorem isOpener_of_opener? {c : Token} {k : TokenKind} (hc : c.kind.opener? = some k) :
    k.isOpener = true := by
  cases h : c.kind <;> simp only [h, TokenKind.opener?, reduceCtorEq, Option.some.injEq] at hc <;>
    subst hc <;> rfl

@[simp] theorem stopsAt_nil (stop s : List TokenKind) (n : Nat) : stopsAt stop s [] n = true := rfl

theorem stopsAt_cons_zero (stop s : List TokenKind) (t : Token) (ts : List Token) :
    stopsAt stop s (t :: ts) 0 = (s.isEmpty && (stop.contains t.kind || t.kind.opener?.isSome)) :=
  rfl

theorem stopsAt_cons_succ (stop s : List TokenKind) (t : Token) (ts : List Token) (n : Nat) :
    stopsAt stop s (t :: ts) (n + 1) = stopsAt stop (push s t) ts n := by
  simp [stopsAt]

/-- Past a prefix, a run stops where a run begun with the prefix's stack stops. -/
theorem stopsAt_append (stop s : List TokenKind) (xs ys : List Token) (n : Nat) :
    stopsAt stop s (xs ++ ys) (xs.length + n) = stopsAt stop (stackAfter s xs) ys n := by
  induction xs generalizing s with
  | nil => simp
  | cons x xs ih =>
    rw [List.cons_append, List.length_cons, Nat.add_right_comm, stopsAt_cons_succ, ih]
    rfl

/-- Before `q`, a prefix of length `q` stops where the whole list does. -/
theorem stopsAt_take {stop s : List TokenKind} {ts : List Token} {m q : Nat} (h : m < q) :
    stopsAt stop s (ts.take q) m = stopsAt stop s ts m := by
  simp only [stopsAt, List.getElem?_take, h, if_true, List.take_take, Nat.min_eq_left h.le]

/-- A run that cannot stop at `m` cannot stop there with fewer stop kinds either. -/
theorem stopsAt_nil_of_false {stop s : List TokenKind} {ts : List Token} {m : Nat}
    (h : stopsAt stop s ts m = false) : stopsAt [] s ts m = false := by
  unfold stopsAt at h ⊢
  split <;> simp_all

/-- Every run can stop at the end of its input. -/
theorem stopsAt_length (stop s : List TokenKind) (ts : List Token) :
    stopsAt stop s ts ts.length = true := by
  simp [stopsAt]

/-- Two least stopping positions are the same. -/
theorem least_unique {stop s : List TokenKind} {ts : List Token} {q q' : Nat}
    (hq : stopsAt stop s ts q = true) (hlt : ∀ m < q, stopsAt stop s ts m = false)
    (hq' : stopsAt stop s ts q' = true) (hlt' : ∀ m < q', stopsAt stop s ts m = false) :
    q = q' := by
  rcases Nat.lt_trichotomy q q' with h | h | h
  · simp [hlt' q h] at hq
  · exact h
  · simp [hlt q' h] at hq'

/-- The least stopping position lies within the input. -/
theorem le_length_of_least {stop s : List TokenKind} {ts : List Token} {q : Nat}
    (hlt : ∀ m < q, stopsAt stop s ts m = false) : q ≤ ts.length := by
  by_contra h
  simpa [stopsAt_length] using hlt ts.length (by omega)

end Nesting

open Nesting

/-- The balanced run from stack `s` is the input up to the least position where the run stops. -/
theorem balancedRun_least (stop s : List TokenKind) (ts : List Token) :
    ∃ q, stopsAt stop s ts q = true ∧ (∀ m < q, stopsAt stop s ts m = false) ∧
      balancedRun stop s ts = (ts.take q, ts.drop q) := by
  -- one case per branch of the scan; where it reads on, the stopping position moves one token on
  fun_induction balancedRun stop s ts with
  | case1 s => exact ⟨0, rfl, by simp, rfl⟩
  | case2 s t ts hstop =>
    refine ⟨0, ?_, by simp, rfl⟩
    rw [stopsAt_cons_zero]
    simp only [Bool.and_eq_true, Bool.or_eq_true] at hstop ⊢
    exact ⟨hstop.1, .inl hstop.2⟩
  | case3 s t ts hstop hopen run rest hrun ih =>
    obtain ⟨q, hq, hlt, heq⟩ := ih
    have hclose : t.kind.opener? = none := by
      cases h : t.kind <;> simp_all [TokenKind.isOpener, TokenKind.opener?]
    refine ⟨q + 1, by rwa [stopsAt_cons_succ, push_open hopen], fun m hm => ?_, ?_⟩
    · cases m with
      | zero => simpa [stopsAt_cons_zero, hclose] using hstop
      | succ m => rw [stopsAt_cons_succ, push_open hopen]; exact hlt m (by omega)
    · rw [hrun, Prod.mk.injEq] at heq
      obtain ⟨rfl, rfl⟩ := heq
      simp
  | case4 t ts hopen o ho hstop => exact ⟨0, by simp [stopsAt_cons_zero, ho], by simp, rfl⟩
  | case5 t ts hopen o ho top inner run rest hstop hrun ih =>
    obtain ⟨q, hq, hlt, heq⟩ := ih
    have hpush : push (top :: inner) t = if top == o then inner else top :: inner := by
      simp [push, hopen, ho]
    refine ⟨q + 1, by rwa [stopsAt_cons_succ, hpush], fun m hm => ?_, ?_⟩
    · cases m with
      | zero => simp [stopsAt_cons_zero]
      | succ m => rw [stopsAt_cons_succ, hpush]; exact hlt m (by omega)
    · rw [heq]
      simp
  | case6 s t ts hstop hopen ho run rest hrun ih =>
    obtain ⟨q, hq, hlt, heq⟩ := ih
    have hpush : push s t = s := push_plain (by simpa using hopen) ho
    refine ⟨q + 1, by rwa [stopsAt_cons_succ, hpush], fun m hm => ?_, ?_⟩
    · cases m with
      | zero => simpa [stopsAt_cons_zero, ho] using hstop
      | succ m => rw [stopsAt_cons_succ, hpush]; exact hlt m (by omega)
    · rw [hrun, Prod.mk.injEq] at heq
      obtain ⟨rfl, rfl⟩ := heq
      simp

/-- A list with no position to stop at before its end is read whole. -/
theorem balancedRun_of_unstopped {stop s : List TokenKind} {ts : List Token}
    (h : ∀ m < ts.length, stopsAt stop s ts m = false) : balancedRun stop s ts = (ts, []) := by
  obtain ⟨q, hq, hlt, heq⟩ := balancedRun_least stop s ts
  have hlen : ts.length = q := least_unique (stopsAt_length stop s ts) h hq hlt
  simp [heq, ← hlen]

/-- A balanced run has no position before its end where it could have stopped. -/
theorem balancedRun_unstopped (stop s : List TokenKind) (ts : List Token) :
    ∀ m < (balancedRun stop s ts).1.length,
      stopsAt stop s (balancedRun stop s ts).1 m = false := by
  obtain ⟨q, hq, hlt, heq⟩ := balancedRun_least stop s ts
  intro m hm
  rw [heq] at hm ⊢
  have hmq : m < q := lt_of_lt_of_le hm (List.length_take_le q ts)
  rw [stopsAt_take hmq]
  exact hlt m hmq

section WellNested

/-- Well-nested text: each bracket it opens is closed by the matching closer, and it holds no
    other closer. -/
inductive WellNested : List Token → Prop
  | nil : WellNested []
  | plain {t : Token} {ts : List Token} : t.kind.isOpener = false → t.kind.opener? = none →
      WellNested ts → WellNested (t :: ts)
  | group {o c : Token} {inner rest : List Token} : c.kind.opener? = some o.kind →
      WellNested inner → WellNested rest → WellNested (o :: inner ++ c :: rest)

/-- Well-nested text leaves the stack as it found it. -/
theorem WellNested.stackAfter_eq {w : List Token} (hw : WellNested w) (s : List TokenKind) :
    stackAfter s w = s := by
  induction hw generalizing s with
  | nil => rfl
  | plain ho hc _ ih => rw [stackAfter_cons, push_plain ho hc, ih]
  | group hc _ _ ihi ihr =>
    have ho := isOpener_of_opener? hc
    rw [List.cons_append, stackAfter_cons, stackAfter_append, stackAfter_cons, push_open ho, ihi,
      push_close hc, ihr]

/-- Inside an open bracket, well-nested text is read whole whatever the stop set. -/
theorem balancedRun_wellNested_open {stop : List TokenKind} {w : List Token} (hw : WellNested w)
    {s : List TokenKind} (hs : s ≠ []) (r : List Token) :
    balancedRun stop s (w ++ r) =
      (w ++ (balancedRun stop s r).1, (balancedRun stop s r).2) := by
  induction hw generalizing s r with
  | nil => rfl
  | plain ho hc _ ih =>
    have hne : s.isEmpty = false := by simpa using hs
    simp [balancedRun, hne, ho, hc, ih hs r]
  | @group o c inner rest hc _ _ ihi ihr =>
    have hne : s.isEmpty = false := by simpa using hs
    have ho := isOpener_of_opener? hc
    have hpop : (o.kind == o.kind) = true := beq_self_eq_true _
    simp [balancedRun, hne, ho, ihi (List.cons_ne_nil o.kind s), hc,
      isOpener_eq_false_of_opener? hc, ihr hs]

/-- The stop-free part of well-nested text after a leading token that leaves the stack empty. -/
theorem StopFree.tail {stop : List TokenKind} {x : Token} {ts : List Token}
    (h : StopFree stop (x :: ts)) (hx : push [] x = []) : StopFree stop ts := by
  intro pre t post hts hpre
  exact h (x :: pre) t post (by simp [hts]) (by simpa [hx] using hpre)

/-- At depth zero, well-nested text with no stop token there is read whole. -/
theorem balancedRun_wellNested {stop : List TokenKind} {w : List Token} (hw : WellNested w)
    (hfree : StopFree stop w) (r : List Token) :
    balancedRun stop [] (w ++ r) =
      (w ++ (balancedRun stop [] r).1, (balancedRun stop [] r).2) := by
  induction hw generalizing r with
  | nil => rfl
  | @plain t ts ho hc _ ih =>
    have ht : t.kind ∉ stop := hfree [] t ts rfl rfl
    have hrest := ih (StopFree.tail hfree (push_plain ho hc)) r
    simp [balancedRun, ho, hc, ht, hrest]
  | @group o c inner rest hc hi _ _ ihr =>
    have ho := isOpener_of_opener? hc
    have hnot : o.kind ∉ stop := hfree [] o (inner ++ c :: rest) rfl rfl
    -- past the group the stack is empty again, so the rest is stop free as well
    have hrest : StopFree stop rest := by
      intro pre t post hts hpre
      refine hfree (o :: inner ++ c :: pre) t post (by simp [hts]) ?_
      rw [List.cons_append, stackAfter_cons, stackAfter_append, stackAfter_cons, push_open ho,
        hi.stackAfter_eq, push_close hc, hpre]
    have hpop : (o.kind == o.kind) = true := beq_self_eq_true _
    simp [balancedRun, ho, hnot, balancedRun_wellNested_open hi (List.cons_ne_nil o.kind []), hc,
      isOpener_eq_false_of_opener? hc, ihr hrest r]

end WellNested

/-- Where a balanced run stops short of the end, no bracket is open and the next token is of a
    stop kind or closes a bracket. -/
theorem balancedRun_stops {stop s : List TokenKind} {ts run rest : List Token} {t : Token}
    (h : balancedRun stop s ts = (run, t :: rest)) :
    ts = run ++ t :: rest ∧ stackAfter s run = [] ∧
      (stop.contains t.kind || t.kind.opener?.isSome) = true := by
  obtain ⟨q, hq, hlt, heq⟩ := balancedRun_least stop s ts
  rw [h, Prod.mk.injEq] at heq
  obtain ⟨hrun, hrest⟩ := heq
  have hts : ts = run ++ t :: rest := by rw [hrun, hrest, List.take_append_drop]
  have hlen : run.length = q := by
    rw [hrun, List.length_take, Nat.min_eq_left (le_length_of_least hlt)]
  rw [hts, ← hlen, ← Nat.add_zero run.length, stopsAt_append, stopsAt_cons_zero,
    Bool.and_eq_true] at hq
  exact ⟨hts, List.isEmpty_iff.1 hq.1, hq.2⟩

/-- Splitting a run on its depth-zero commas succeeds when no closer stands at depth zero. -/
theorem splitArgs_of_unstopped {ts : List Token}
    (h : ∀ m < ts.length, stopsAt [] [] ts m = false) :
    ∃ r, ExprParser.splitArgs ts = .ok r := by
  fun_induction ExprParser.splitArgs ts with
  | case1 ts run hrun => exact ⟨_, rfl⟩
  | case2 ts run t rest hrun hcomma parts commas _ _ => exact ⟨_, rfl⟩
  | case3 ts run t rest hrun hcomma e hsplit ih =>
    -- the part before the comma leaves the stack empty, so the rest has no closer at depth zero
    obtain ⟨hts, hempty, -⟩ := balancedRun_stops hrun
    have hk : t.kind = .comma := by simpa using hcomma
    have hrest : ∀ m < rest.length, stopsAt [] [] rest m = false := by
      intro m hm
      have := h (run.length + (m + 1)) (by simp [hts]; omega)
      rwa [hts, stopsAt_append, hempty, stopsAt_cons_succ,
        push_plain (by rw [hk]; rfl) (by rw [hk]; rfl)] at this
    obtain ⟨r, hr⟩ := ih hrest
    simp [hr] at hsplit
  | case4 ts run t rest hrun hcomma =>
    -- the run stopped at `t` with no bracket open; `t` is no comma, so it closes a bracket
    obtain ⟨hts, hempty, hstop⟩ := balancedRun_stops hrun
    have hk : t.kind ≠ .comma := by simpa using hcomma
    have hclose : t.kind.opener?.isSome = true := by simpa [hk] using hstop
    have hat := h run.length (by simp [hts])
    rw [hts, ← Nat.add_zero run.length, stopsAt_append, stopsAt_cons_zero, hempty] at hat
    simp [hclose] at hat

namespace Cursor

/-- Reading a balanced run meets its specification. The run is the input up to the least
    position where it stops, and the cursor moves past it. Well-nested text followed by a closer
    is read up to the closer when none of its depth-zero tokens is a stop token. A run has no
    position where it could have stopped, so it reads again whole, and splitting it on its
    depth-zero commas succeeds. -/
theorem balanced_meets_spec (c : Cursor) (stop : List TokenKind) :
    (∃ q, stopsAt stop [] c.rest q = true ∧ (∀ m < q, stopsAt stop [] c.rest m = false) ∧
      (c.balanced stop).1 = c.rest.take q ∧
      (c.balanced stop).2 = { done := (c.rest.take q).reverse ++ c.done, rest := c.rest.drop q } ∧
      (c.balanced stop).2.position = c.position + q) ∧
    (∀ w t r, c.rest = w ++ t :: r → WellNested w → StopFree stop w →
      t.kind.opener?.isSome = true →
      c.balanced stop = (w, { done := w.reverse ++ c.done, rest := t :: r })) ∧
    (∀ m < (c.balanced stop).1.length, stopsAt stop [] (c.balanced stop).1 m = false) ∧
    (Cursor.ofList (c.balanced stop).1).balanced stop =
      ((c.balanced stop).1, { done := (c.balanced stop).1.reverse, rest := [] }) ∧
    ∃ r, ExprParser.splitArgs (c.balanced stop).1 = .ok r := by
  have hrun : (c.balanced stop).1 = (balancedRun stop [] c.rest).1 := rfl
  have hunstopped := balancedRun_unstopped stop [] c.rest
  rw [← hrun] at hunstopped
  refine ⟨?_, ?_, hunstopped, ?_,
    splitArgs_of_unstopped fun m hm => stopsAt_nil_of_false (hunstopped m hm)⟩
  · obtain ⟨q, hq, hlt, heq⟩ := balancedRun_least stop [] c.rest
    have hle := le_length_of_least hlt
    refine ⟨q, hq, hlt, by rw [hrun, heq], ?_, ?_⟩
    · simp only [balanced, heq]
    · simp only [balanced, heq, position, List.length_append, List.length_reverse,
        List.length_take, Nat.min_eq_left hle]
      omega
  · intro w t r hrest hw hfree hclose
    -- the closer after `w` stops the run at once: no bracket is open there
    have hstop : balancedRun stop [] (t :: r) = ([], t :: r) := by
      obtain ⟨o, ho⟩ := Option.isSome_iff_exists.1 hclose
      simp [balancedRun, ho, isOpener_eq_false_of_opener? ho]
    simp only [balanced, hrest, balancedRun_wellNested hw hfree, hstop, List.append_nil]
  · rw [hrun, balanced, balancedRun_of_unstopped (by rwa [← hrun])]
    simp [ofList]

/-- A stop token at depth zero ends the run inside well-nested text too: with identifiers as
    stop tokens, nothing of the text `a` before `)` is read. -/
theorem balanced_stops_inside_wellNested :
    WellNested [{ kind := .identifier, text := "a", start := 0, stop := 1, line := 1 }] ∧
      ((Cursor.ofList [{ kind := .identifier, text := "a", start := 0, stop := 1, line := 1 },
        { kind := .closeParen, text := ")", start := 2, stop := 3, line := 1 }]).balanced
        [.identifier]).1 = [] :=
  ⟨.plain rfl rfl .nil, rfl⟩

end Cursor

end ZScript
