import ZScript.Proofs.ReaderTokens
import ZScript.Proofs.Handles

/-!
# Expressions as read hold no handles

Reading builds every node of an expression with `Expr.node`, which has no derived type, and
every operand from a token or a nested expression, so the tree an expression reader returns
holds no handle (`expression_plain`, `run_plain`). Types and references enter an expression only
later, when it is tagged against the lookups.

For the grammar this is a fact per layer (`KeepsPlain`): a form whose items hold no handles holds
none, and so neither does what `Item.reduce` returns. For the readers it is the walk of the
token conservation again, one fact per reader at each fuel (`Plainly`), each reader's step proved
along its `do` block.
-/

namespace ZScript

/-- The handles an item holds: an operand's. -/
def Item.handles : Item → List Target
  | .operand l => l.handles
  | .op _ => []

/-- Items none of which holds a handle. -/
def Item.Plain (items : List Item) : Prop := ∀ x ∈ items, x.handles = []

@[simp] theorem Item.handles_operand (l : Leaf) : (Item.operand l).handles = l.handles := rfl

@[simp] theorem Item.handles_op (t : Token) : (Item.op t).handles = [] := rfl

theorem Item.plain_nil : Item.Plain [] := fun _ hx => absurd hx List.not_mem_nil

theorem Item.plain_cons {x : Item} {xs : List Item} :
    Item.Plain (x :: xs) ↔ x.handles = [] ∧ Item.Plain xs := by
  simp [Item.Plain]

theorem Item.plain_append {xs ys : List Item} :
    Item.Plain (xs ++ ys) ↔ Item.Plain xs ∧ Item.Plain ys := by
  simp only [Item.Plain, List.mem_append, or_imp, forall_and]

@[simp] theorem Leaf.handlesList_append (ls ls' : List Leaf) :
    Leaf.handlesList (ls ++ ls') = Leaf.handlesList ls ++ Leaf.handlesList ls' := by
  induction ls with
  | nil => rfl
  | cons l ls ih => simp [ih]

@[simp] theorem Reduce.handles_binary (op : Operator) (assign : Bool) (l r : Leaf)
    (tokens : List Token) : (Reduce.binary op assign l r tokens).handles = l.handles ++ r.handles := by
  simp [Reduce.binary, Expr.node]

@[simp] theorem Reduce.handles_unary (op : Operator) (x : Leaf) (t : Token) :
    (Reduce.unary op x t).handles = x.handles := by
  simp [Reduce.unary, Expr.node]

@[simp] theorem Grammar.handles_cond (q colon : Token) (c a b : Leaf) :
    (Grammar.cond q colon c a b).handles = c.handles ++ a.handles ++ b.handles := by
  simp [Grammar.cond, Expr.node]

@[simp] theorem Leaf.handles_toExpr (l : Leaf) : l.toExpr.handles = l.handles := by
  cases l <;> simp [Leaf.toExpr, Expr.node, Leaf.handles]

/-! ## Every derivation from plain items is plain -/

namespace Grammar

/-- The forms of `R` hold no handles when the items they derive from hold none. -/
def KeepsPlain (R : List Item → Leaf → Prop) : Prop :=
  ∀ s l, R s l → Item.Plain s → l.handles = []

section Keeps

variable {R : List Item → Leaf → Prop}

theorem Primary.keepsPlain : KeepsPlain Primary := by
  intro s l h hs
  cases h
  simpa using hs _ List.mem_cons_self

theorem LeftChain.keepsPlain {F : List Operator} (hR : KeepsPlain R) :
    KeepsPlain (LeftChain F R) := by
  intro s l h
  induction h with
  | lower h => exact hR _ _ h
  | step _ _ _ hr ih =>
    intro hs
    obtain ⟨hs, hrs⟩ := Item.plain_append.1 hs
    simp [ih hs, hR _ _ hr (Item.plain_cons.1 hrs).2]

theorem Postfixed.keepsPlain (hR : KeepsPlain R) : KeepsPlain (Postfixed R) := by
  intro s l h
  induction h with
  | lower h => exact hR _ _ h
  | step _ _ ih =>
    intro hs
    simpa using ih (Item.plain_append.1 hs).1

theorem Prefixed.keepsPlain {pick : Token → Option Operator} (hR : KeepsPlain R) :
    KeepsPlain (Prefixed pick R) := by
  intro s l h
  induction h with
  | lower h => exact hR _ _ h
  | step _ _ ih =>
    intro hs
    simpa using ih (Item.plain_cons.1 hs).2

theorem Conditional.keepsPlain (hR : KeepsPlain R) : KeepsPlain (Conditional R) := by
  intro s l h
  induction h with
  | lower h => exact hR _ _ h
  | step hc _ _ _ _ iha ihb =>
    intro hs
    -- the condition, the branch taken when it holds, and the other branch
    obtain ⟨hca, hcolb⟩ := Item.plain_append.1 hs
    obtain ⟨hcs, hqa⟩ := Item.plain_append.1 hca
    simp [hR _ _ hc hcs, iha (Item.plain_cons.1 hqa).2, ihb (Item.plain_cons.1 hcolb).2]

theorem Assignment.keepsPlain (hR : KeepsPlain R) : KeepsPlain (Assignment R) := by
  intro s l h
  induction h with
  | lower h => exact hR _ _ h
  | assign hs _ _ ih =>
    intro hall
    obtain ⟨hl, hr⟩ := Item.plain_append.1 hall
    simp [hR _ _ hs hl, ih (Item.plain_cons.1 hr).2]
  | compound hs _ _ _ _ ih =>
    intro hall
    obtain ⟨hl, hr⟩ := Item.plain_append.1 hall
    simp [hR _ _ hs hl, ih (Item.plain_cons.1 (Item.plain_cons.1 hr).2).2]

theorem layer_keepsPlain (k : Nat) (hR : KeepsPlain R) : KeepsPlain (layer k R) := by
  match k with
  | 0 => exact LeftChain.keepsPlain hR
  | 1 => exact Postfixed.keepsPlain hR
  | 2 => exact Prefixed.keepsPlain hR
  | 3 => exact Prefixed.keepsPlain hR
  | n + 4 =>
    rcases Nat.lt_trichotomy n 9 with hn | rfl | hn
    · rw [layer_family hn]
      exact LeftChain.keepsPlain hR
    · exact Conditional.keepsPlain hR
    · rw [layer_assignment hn]
      exact Assignment.keepsPlain hR

end Keeps

theorem stack_keepsPlain (j m : Nat) : KeepsPlain (stack Primary j m) := by
  induction m with
  | zero => exact Primary.keepsPlain
  | succ m ih => exact layer_keepsPlain (j + m) ih

end Grammar

/-- The expression `Item.reduce` returns from items that hold no handles holds none. -/
theorem reduce_plain {items : List Item} {line : Nat} {e : Expr}
    (h : Item.reduce items line = .ok e) (hs : Item.Plain items) : e.handles = [] := by
  obtain ⟨l, hl, rfl⟩ := Grammar.reduce_sound h
  rw [Leaf.handles_toExpr]
  exact Grammar.stack_keepsPlain 0 15 items l hl hs

/-! ## Every reader returns plain trees -/

namespace ExprParser

theorem reads_memberNames_plain (fuel : Nat) :
    Reads (memberNames fuel) fun r _ => Leaf.handlesList r.1 = [] := by
  induction fuel with
  | zero => exact reads_tooDeep
  | succ fuel ih =>
    rw [memberNames]
    refine Reads.bind (reads_expect _ _) fun name _ _ => ?_
    refine Reads.bind (reads_accept _) fun o _ _ => ?_
    cases o with
    | some d =>
      refine Reads.bind ih fun r _ hr => ?_
      obtain ⟨names, dots⟩ := r
      exact Reads.pure (by simpa [Leaf.handles] using hr)
    | none => exact Reads.pure (by simp [Leaf.handles])

/-- The plainness facts of the readers at fuel `n`: each returns trees that hold no handles,
    and `collect` adds only such operands to the items it was given. -/
structure Plainly (n : Nat) : Prop where
  parseExpr_ok : ∀ stop, Reads (parseExpr n stop) fun e _ => e.handles = []
  parseRun_ok : ∀ ts line e, parseRun n ts line = .ok e → e.handles = []
  collect_ok : ∀ stop want acc, Item.Plain acc →
    Reads (collect n stop want acc) fun items _ => Item.Plain items
  primary_ok : ∀ t, Reads (primary n t) fun l _ => l.handles = []
  arrayParts_ok : ∀ parts line leaves, arrayParts n parts line = .ok leaves →
    Leaf.handlesList leaves = []
  vectorParts_ok : ∀ parts line leaves, vectorParts n parts line = .ok leaves →
    Leaf.handlesList leaves = []
  cast_ok : ∀ t, Reads (cast n t) fun l _ => l.handles = []
  callArgs_ok : ∀ count, Reads (callArgs n count) fun r _ => Leaf.handlesList r.1 = []
  subscripts_ok : Reads (subscripts n) fun r _ => Leaf.handlesList r.1 = []

/-- With no fuel every reader fails. -/
theorem plainly_zero : Plainly 0 where
  parseExpr_ok _ := by rw [parseExpr.eq_1]; exact reads_tooDeep
  parseRun_ok _ _ _ h := by simp [parseRun] at h
  collect_ok _ _ _ _ := by rw [collect.eq_1]; exact reads_tooDeep
  primary_ok _ := by rw [primary.eq_1]; exact reads_tooDeep
  arrayParts_ok _ _ _ h := by simp [arrayParts] at h
  vectorParts_ok _ _ _ h := by simp [vectorParts] at h
  cast_ok _ := by rw [cast.eq_1]; exact reads_tooDeep
  callArgs_ok _ := by rw [callArgs.eq_1]; exact reads_tooDeep
  subscripts_ok := by rw [subscripts.eq_1]; exact reads_tooDeep

section Step

variable {n : Nat} (h : Plainly n)
include h

theorem parseExpr_plain (stop : List TokenKind) :
    Reads (parseExpr (n + 1) stop) fun e _ => e.handles = [] := by
  rw [parseExpr.eq_2]
  refine Reads.bind (h.collect_ok stop true [] Item.plain_nil) fun items _ hitems => ?_
  refine Reads.bind reads_get fun _ _ _ => ?_
  exact Reads.lift fun e he => reduce_plain he hitems

theorem parseRun_plain {ts : List Token} {line : Nat} {e : Expr}
    (he : parseRun (n + 1) ts line = .ok e) : e.handles = [] := by
  unfold parseRun at he
  split at he
  · cases he
  · split at he
    · next e' c hrun =>
      split at he
      · cases he
      · cases he
        obtain ⟨_, _, hplain⟩ := h.parseExpr_ok [] (Cursor.ofList ts) e c hrun
        exact hplain
    · cases he

theorem reads_lift_parseRun_plain (ts : List Token) (line : Nat) :
    Reads (lift (parseRun n ts line)) fun e _ => e.handles = [] :=
  Reads.lift fun e he => h.parseRun_ok ts line e he

theorem arrayParts_plain {parts : List (List Token)} {line : Nat} {leaves : List Leaf}
    (hl : arrayParts (n + 1) parts line = .ok leaves) : Leaf.handlesList leaves = [] := by
  cases parts with
  | nil =>
    simp only [arrayParts, Except.ok.injEq] at hl
    simp [← hl]
  | cons p ps =>
    simp only [arrayParts] at hl
    split at hl
    · simp only [Except.ok.injEq] at hl
      simp [← hl]
    · obtain ⟨e, he, hl⟩ := except_bind_eq_ok.1 hl
      obtain ⟨rest, hr, hl⟩ := except_bind_eq_ok.1 hl
      simp only [pure, Except.pure, Except.ok.injEq] at hl
      subst hl
      simp [h.parseRun_ok p line e he, h.arrayParts_ok ps line rest hr]

theorem vectorParts_plain {parts : List (List Token)} {line : Nat} {leaves : List Leaf}
    (hl : vectorParts (n + 1) parts line = .ok leaves) : Leaf.handlesList leaves = [] := by
  cases parts with
  | nil =>
    simp only [vectorParts, Except.ok.injEq] at hl
    simp [← hl]
  | cons p ps =>
    simp only [vectorParts] at hl
    obtain ⟨e, he, hl⟩ := except_bind_eq_ok.1 hl
    obtain ⟨rest, hr, hl⟩ := except_bind_eq_ok.1 hl
    simp only [pure, Except.pure, Except.ok.injEq] at hl
    subst hl
    simp [h.parseRun_ok p line e he, h.vectorParts_ok ps line rest hr]

theorem cast_plain (t : Token) : Reads (cast (n + 1) t) fun l _ => l.handles = [] := by
  rw [cast.eq_2]
  refine Reads.bind (reads_expect _ _) fun o _ _ => ?_
  refine Reads.bind (reads_balanced _) fun inner _ _ => ?_
  refine Reads.bind (reads_expect _ _) fun close _ _ => ?_
  refine Reads.bind (reads_lift_parseRun_plain h inner o.line) fun v _ hv => ?_
  exact Reads.pure (by simp [Expr.node, Leaf.handles, hv])

/-- After one argument, a call's argument list ends at `)` or reads the next argument. -/
theorem callArgs_rest_plain (count : Nat) (sep : Token) (leaves : List Leaf) (labels : List Token)
    (hleaves : Leaf.handlesList leaves = []) :
    Reads (if (sep.kind == .closeParen) = true then pure (leaves, labels ++ [sep])
      else do
        let (more, special) ← callArgs n (count + leaves.length)
        pure (leaves ++ more, labels ++ sep :: special))
      fun r _ => Leaf.handlesList r.1 = [] := by
  split
  · exact Reads.pure hleaves
  · refine Reads.bind (h.callArgs_ok _) fun r _ hr => ?_
    obtain ⟨more, special⟩ := r
    exact Reads.pure (by simp [hleaves, hr])

theorem callArgs_plain (count : Nat) :
    Reads (callArgs (n + 1) count) fun r _ => Leaf.handlesList r.1 = [] := by
  rw [callArgs.eq_2]
  refine Reads.bind (reads_balanced _) fun arg _ _ => ?_
  refine Reads.bind (reads_expect _ _) fun sep _ _ => ?_
  dsimp only
  split
  · split
    · exact Reads.throw_bind
    · refine Reads.bind (Reads.pure (P := fun r _ => r = ([], [])) rfl) fun r _ hr => ?_
      subst hr
      exact callArgs_rest_plain h count sep [] [] rfl
  · refine Reads.bind (reads_lift_parseRun_plain h _ sep.line) fun e _ he => ?_
    refine Reads.bind (Reads.pure (P := fun r _ => r = ([.expr e], (splitLabel arg).1)) rfl)
      fun r _ hr => ?_
    subst hr
    exact callArgs_rest_plain h count sep [.expr e] _ (by simp [he])

theorem subscripts_plain : Reads (subscripts (n + 1)) fun r _ => Leaf.handlesList r.1 = [] := by
  rw [subscripts.eq_2]
  refine Reads.bind (reads_balanced _) fun idx _ _ => ?_
  refine Reads.bind (reads_expect _ _) fun close _ _ => ?_
  refine Reads.bind (reads_lift_parseRun_plain h idx close.line) fun e _ he => ?_
  refine Reads.bind (reads_accept _) fun o _ _ => ?_
  cases o with
  | some o =>
    refine Reads.bind h.subscripts_ok fun r _ hr => ?_
    obtain ⟨more, special⟩ := r
    exact Reads.pure (by simp [he, hr])
  | none => exact Reads.pure (by simp [he])

theorem primary_plain (t : Token) : Reads (primary (n + 1) t) fun l _ => l.handles = [] := by
  rw [primary.eq_2]
  split
  · exact Reads.pure (by simp [Leaf.handles])
  · exact Reads.pure (by simp [Leaf.handles])
  · exact Reads.pure (by simp [Leaf.handles])
  · exact Reads.pure (by simp [Leaf.handles])
  · -- an array initializer: a node over its parts
    refine Reads.bind (reads_balanced _) fun inner _ _ => ?_
    refine Reads.bind (reads_expect _ _) fun close _ _ => ?_
    refine Reads.bind (Reads.lift (P := fun _ _ => True) fun _ _ => trivial) fun r _ _ => ?_
    obtain ⟨parts, commas⟩ := r
    refine Reads.bind (Reads.lift (P := fun leaves _ => Leaf.handlesList leaves = [])
      fun leaves hl => h.arrayParts_ok parts _ leaves hl) fun leaves _ hleaves => ?_
    exact Reads.pure (by simp [Expr.node, hleaves])
  · -- a bracketed expression or a vector
    refine Reads.bind (reads_balanced _) fun inner _ _ => ?_
    refine Reads.bind (reads_expect _ _) fun close _ _ => ?_
    refine Reads.bind (Reads.lift (P := fun _ _ => True) fun _ _ => trivial) fun r _ _ => ?_
    obtain ⟨parts, commas⟩ := r
    -- the brackets only add structural tokens
    have hclose : ∀ e : Expr, e.handles = [] →
        Reads (Pure.pure (Leaf.expr { e with special := e.special ++ [t, close] }) : M Leaf)
          fun l _ => l.handles = [] := by
      intro e he
      obtain ⟨op, assign, leaves, operators, special, type⟩ := e
      exact Reads.pure (by simpa using he)
    dsimp only
    split
    · refine Reads.bind (Reads.lift (P := fun leaves _ => Leaf.handlesList leaves = [])
        fun leaves hl => h.vectorParts_ok parts _ leaves hl) fun leaves _ hleaves => ?_
      refine Reads.bind (Reads.pure (P := fun e _ => e.handles = []) ?_) fun e _ he => hclose e he
      simp [Expr.node, hleaves]
    · exact Reads.bind (reads_lift_parseRun_plain h inner t.line) fun e _ he => hclose e he
  · -- a literal `true` or `false`, a cast, or an identifier
    split
    · exact Reads.pure (by simp [Leaf.handles])
    · refine Reads.get_bind fun c => ?_
      split
      · refine ReadsFrom.get_bind ?_
        split
        · next leaf c₂ hcast =>
          -- the cast was read from the saved cursor, which the reader then takes
          obtain ⟨ts, hts, hplain⟩ := h.cast_ok t c leaf c₂ hcast
          intro b c' hb
          simp only [bind_eq_ok, set, MonadStateOf.set, StateT.set, Pure.pure, StateT.pure,
            Except.pure, Except.ok.injEq, Prod.mk.injEq] at hb
          obtain ⟨_, _, ⟨-, rfl⟩, rfl, rfl⟩ := hb
          exact ⟨ts, hts, hplain⟩
        · exact Reads.pure (by simp [Leaf.handles]) c
      · exact Reads.pure (by simp [Leaf.handles]) c
  · exact Reads.throw

/-- Pushing a plain item and collecting on gives plain items. -/
theorem collect_push_plain (stop : List TokenKind) (want : Bool) {acc : List Item} {x : Item}
    (hacc : Item.Plain acc) (hx : x.handles = []) :
    Reads (collect n stop want (x :: acc)) fun items _ => Item.Plain items :=
  h.collect_ok stop want (x :: acc) (Item.plain_cons.2 ⟨hx, hacc⟩)

/-- A member access, a call or a subscript binds into the operand before it. -/
theorem collect_postfix_plain (stop : List TokenKind) {acc : List Item} (hacc : Item.Plain acc)
    (t : Token) (op : Operator) (suffix : M (List Leaf × List Token))
    (hsuffix : Reads suffix fun r _ => Leaf.handlesList r.1 = []) :
    Reads (do
        let (target, rest) ← popOperand acc t
        let (xs, sp) ← suffix
        let m : Expr := { Expr.node op (target :: xs) with special := t :: sp }
        collect n stop false (.operand (.expr m) :: rest))
      fun items _ => Item.Plain items := by
  refine Reads.bind (reads_popOperand acc t) fun r _ hr => ?_
  obtain ⟨target, rest⟩ := r
  obtain ⟨-, rfl⟩ := hr
  obtain ⟨htarget, hrest⟩ := Item.plain_cons.1 hacc
  refine Reads.bind hsuffix fun r _ hxs => ?_
  obtain ⟨xs, sp⟩ := r
  exact collect_push_plain h stop false hrest (by simpa [Expr.node, hxs] using htarget)

theorem collect_plain (stop : List TokenKind) (want : Bool) {acc : List Item}
    (hacc : Item.Plain acc) :
    Reads (collect (n + 1) stop want acc) fun items _ => Item.Plain items := by
  rw [collect.eq_2]
  refine Reads.get_bind fun c => ?_
  -- at the end of the input or at a stop token the items collected are the result
  have hend : ReadsFrom c (if acc.isEmpty = true then unexpected "expression"
      else Pure.pure acc.reverse) fun items _ => Item.Plain items := by
    split
    · exact reads_unexpected c
    · exact Reads.pure (fun x hx => hacc x (List.mem_reverse.1 hx)) c
  cases hp : c.peek? with
  | none => exact hend
  | some t =>
    dsimp only
    split
    · exact hend
    · refine ReadsFrom.skip_bind hp ?_
      split
      · -- an operand is wanted: a prefix operator, or an operand read whole
        split
        · exact collect_push_plain h stop true hacc rfl
        · exact Reads.bind (h.primary_ok t) fun leaf _ hleaf =>
            collect_push_plain h stop false hacc hleaf
      · -- an operator or a postfix form is wanted
        split
        · exact collect_postfix_plain h stop hacc t .member _ (reads_memberNames_plain n)
        · exact collect_postfix_plain h stop hacc t .call _ (h.callArgs_ok 0)
        · exact collect_postfix_plain h stop hacc t .arraySubscript _ h.subscripts_ok
        · exact collect_push_plain h stop false hacc rfl
        · exact collect_push_plain h stop false hacc rfl
        · exact collect_push_plain h stop true hacc rfl
        · exact collect_push_plain h stop true hacc rfl
        · split
          · exact Reads.throw
          · split
            · refine Reads.bind (reads_accept _) fun o _ _ => ?_
              cases o with
              | some a =>
                exact collect_push_plain h stop true (Item.plain_cons.2 ⟨rfl, hacc⟩) rfl
              | none => exact collect_push_plain h stop true hacc rfl
            · exact collect_push_plain h stop true hacc rfl

end Step

/-- Each reader at fuel `n + 1` returns plain trees when those at fuel `n` do. -/
theorem plainly_succ {n : Nat} (h : Plainly n) : Plainly (n + 1) where
  parseExpr_ok := parseExpr_plain h
  parseRun_ok _ _ _ := parseRun_plain h
  collect_ok _ _ _ := collect_plain h _ _
  primary_ok := primary_plain h
  arrayParts_ok _ _ _ := arrayParts_plain h
  vectorParts_ok _ _ _ := vectorParts_plain h
  cast_ok := cast_plain h
  callArgs_ok := callArgs_plain h
  subscripts_ok := subscripts_plain h

theorem plainly (n : Nat) : Plainly n := by
  induction n with
  | zero => exact plainly_zero
  | succ n ih => exact plainly_succ ih

/-- An expression as read holds no handle. -/
theorem expression_plain {stop : List TokenKind} {c c' : Cursor} {e : Expr}
    (h : expression stop c = .ok (e, c')) : e.handles = [] := by
  rw [expression_eq] at h
  obtain ⟨_, _, hplain⟩ := (plainly _).parseExpr_ok stop c e c' h
  exact hplain

/-- A token run read as one expression holds no handle. -/
theorem run_plain {ts : List Token} {line : Nat} {e : Expr} (h : run ts line = .ok e) :
    e.handles = [] :=
  (plainly _).parseRun_ok ts line e h

end ExprParser

end ZScript
