import ZScript.Proofs.ReduceComplete
import Mathlib.Algebra.Order.Group.Multiset
import Mathlib.Tactic.Abel

/-!
# The tokens stored in an expression

Every token an expression was read from is stored somewhere in its tree: an operand keeps its
own token, a node keeps its operator tokens (`operators`) and its structural tokens
(`special`), and nested expressions keep theirs. `Expr.tokens` lists them all, operands first.

Folding the flat item list into a tree moves tokens around but neither loses nor adds any: for
every derivation of the precedence grammar the derived tree stores, as a multiset, exactly the
tokens of the items (`Expression.tokens`), and so does the tree `Item.reduce` returns
(`reduce_tokens`).
-/

namespace ZScript

mutual
/-- The tokens stored in an operand: its own token, or all those of its expression. -/
def Leaf.tokens : Leaf → List Token
  | .expr e => e.tokens
  | .integer t | .double t | .boolean t | .string t | .ident t => [t]

/-- The tokens stored in an expression: those of its operands, then its operator tokens, then
    its structural tokens. -/
def Expr.tokens : Expr → List Token
  | ⟨_, _, leaves, operators, special, _⟩ => Leaf.tokensOf leaves ++ operators ++ special

/-- The tokens stored in a list of operands. -/
def Leaf.tokensOf : List Leaf → List Token
  | [] => []
  | l :: ls => l.tokens ++ Leaf.tokensOf ls
end

@[simp] theorem Leaf.tokensOf_nil : Leaf.tokensOf [] = [] := by
  simp [Leaf.tokensOf]

@[simp] theorem Leaf.tokensOf_cons (l : Leaf) (ls : List Leaf) :
    Leaf.tokensOf (l :: ls) = l.tokens ++ Leaf.tokensOf ls := by
  simp [Leaf.tokensOf]

@[simp] theorem Leaf.tokensOf_append (ls ls' : List Leaf) :
    Leaf.tokensOf (ls ++ ls') = Leaf.tokensOf ls ++ Leaf.tokensOf ls' := by
  induction ls with
  | nil => simp
  | cons l ls ih => simp [ih]

@[simp] theorem Leaf.tokens_expr (e : Expr) : (Leaf.expr e).tokens = e.tokens := by
  simp [Leaf.tokens]

@[simp] theorem Expr.tokens_mk (op : Operator) (assign : Bool) (leaves : List Leaf)
    (operators special : List Token) (type : Option Ty) :
    Expr.tokens ⟨op, assign, leaves, operators, special, type⟩ =
      Leaf.tokensOf leaves ++ operators ++ special := by
  simp [Expr.tokens]

/-- Adding structural tokens to an expression adds them to its tokens. -/
theorem Expr.tokens_append_special (e : Expr) (xs : List Token) :
    ({ e with special := e.special ++ xs } : Expr).tokens = e.tokens ++ xs := by
  cases e
  simp

/-- The tokens of an item: an operand's stored tokens, or the operator token itself. -/
def Item.tokens : Item → List Token
  | .operand l => l.tokens
  | .op t => [t]

/-- The tokens of a list of items. -/
def Item.tokensOf (items : List Item) : List Token := items.flatMap Item.tokens

@[simp] theorem Item.tokensOf_nil : Item.tokensOf [] = [] := rfl

@[simp] theorem Item.tokensOf_cons (x : Item) (xs : List Item) :
    Item.tokensOf (x :: xs) = x.tokens ++ Item.tokensOf xs := rfl

@[simp] theorem Item.tokensOf_append (xs ys : List Item) :
    Item.tokensOf (xs ++ ys) = Item.tokensOf xs ++ Item.tokensOf ys := by
  simp [Item.tokensOf]

/-- Reversing a list of items keeps the tokens it holds. -/
theorem Item.tokensOf_reverse (xs : List Item) :
    (↑(Item.tokensOf xs.reverse) : Multiset Token) = ↑(Item.tokensOf xs) := by
  induction xs with
  | nil => rfl
  | cons x xs ih =>
    simp only [List.reverse_cons, Item.tokensOf_append, Item.tokensOf_cons, Item.tokensOf_nil,
      List.append_nil, ← Multiset.coe_add, ih]
    abel

@[simp] theorem Item.tokens_operand (l : Leaf) : (Item.operand l).tokens = l.tokens := rfl

@[simp] theorem Item.tokens_op (t : Token) : (Item.op t).tokens = [t] := rfl

@[simp] theorem Reduce.tokens_binary (op : Operator) (assign : Bool) (l r : Leaf)
    (ts : List Token) : (Reduce.binary op assign l r ts).tokens = l.tokens ++ r.tokens ++ ts := by
  simp [Reduce.binary, Expr.node]

@[simp] theorem Reduce.tokens_unary (op : Operator) (x : Leaf) (t : Token) :
    (Reduce.unary op x t).tokens = x.tokens ++ [t] := by
  simp [Reduce.unary, Expr.node]

@[simp] theorem Grammar.tokens_cond (q colon : Token) (c a b : Leaf) :
    (Grammar.cond q colon c a b).tokens = c.tokens ++ a.tokens ++ b.tokens ++ [q, colon] := by
  simp [Grammar.cond, Expr.node]

/-- Wrapping a lone operand into an expression keeps its tokens. -/
@[simp] theorem Leaf.tokens_toExpr (l : Leaf) : l.toExpr.tokens = l.tokens := by
  cases l <;> simp [Leaf.toExpr, Expr.node, Leaf.tokens]

/-! ## Every derivation keeps the tokens of its items -/

namespace Grammar

/-- The forms of `R` store exactly the tokens of the items they derive from. -/
def KeepsTokens (R : List Item → Leaf → Prop) : Prop :=
  ∀ s l, R s l → (l.tokens : Multiset Token) = Item.tokensOf s

section Keeps

variable {R : List Item → Leaf → Prop}

theorem Primary.keepsTokens : KeepsTokens Primary := by
  intro s l h
  cases h
  simp

theorem LeftChain.keepsTokens {F : List Operator} (hR : KeepsTokens R) :
    KeepsTokens (LeftChain F R) := by
  intro s l h
  induction h with
  | lower h => exact hR _ _ h
  | step _ _ _ hr ih =>
    simp only [Reduce.tokens_binary, Item.tokensOf_append, Item.tokensOf_cons, Item.tokens_op,
      ← Multiset.coe_add, ih, hR _ _ hr]
    abel

theorem Postfixed.keepsTokens (hR : KeepsTokens R) : KeepsTokens (Postfixed R) := by
  intro s l h
  induction h with
  | lower h => exact hR _ _ h
  | step _ _ ih =>
    simp only [Reduce.tokens_unary, Item.tokensOf_append, Item.tokensOf_cons, Item.tokens_op,
      Item.tokensOf_nil, List.append_nil, ← Multiset.coe_add, ih]

theorem Prefixed.keepsTokens {pick : Token → Option Operator} (hR : KeepsTokens R) :
    KeepsTokens (Prefixed pick R) := by
  intro s l h
  induction h with
  | lower h => exact hR _ _ h
  | step _ _ ih =>
    simp only [Reduce.tokens_unary, Item.tokensOf_cons, Item.tokens_op, ← Multiset.coe_add, ih]
    abel

theorem Conditional.keepsTokens (hR : KeepsTokens R) : KeepsTokens (Conditional R) := by
  intro s l h
  induction h with
  | lower h => exact hR _ _ h
  | step hc _ _ _ _ iha ihb =>
    have hq : ∀ q colon : Token, ([q, colon] : List Token) = [q] ++ [colon] := fun _ _ => rfl
    simp only [tokens_cond, Item.tokensOf_append, Item.tokensOf_cons, Item.tokens_op, hq,
      ← Multiset.coe_add, iha, ihb, hR _ _ hc]
    abel

theorem Assignment.keepsTokens (hR : KeepsTokens R) : KeepsTokens (Assignment R) := by
  intro s l h
  induction h with
  | lower h => exact hR _ _ h
  | assign hs _ _ ih =>
    simp only [Reduce.tokens_binary, Item.tokensOf_append, Item.tokensOf_cons, Item.tokens_op,
      ← Multiset.coe_add, ih, hR _ _ hs]
    abel
  | compound hs _ _ _ _ ih =>
    have hte : ∀ t eq : Token, ([t, eq] : List Token) = [t] ++ [eq] := fun _ _ => rfl
    simp only [Reduce.tokens_binary, Item.tokensOf_append, Item.tokensOf_cons, Item.tokens_op,
      hte, ← Multiset.coe_add, ih, hR _ _ hs]
    abel

theorem layer_keepsTokens (k : Nat) (hR : KeepsTokens R) : KeepsTokens (layer k R) := by
  match k with
  | 0 => exact LeftChain.keepsTokens hR
  | 1 => exact Postfixed.keepsTokens hR
  | 2 => exact Prefixed.keepsTokens hR
  | 3 => exact Prefixed.keepsTokens hR
  | n + 4 =>
    rcases Nat.lt_trichotomy n 9 with hn | rfl | hn
    · rw [layer_family hn]
      exact LeftChain.keepsTokens hR
    · exact Conditional.keepsTokens hR
    · rw [layer_assignment hn]
      exact Assignment.keepsTokens hR

end Keeps

theorem stack_keepsTokens (j m : Nat) : KeepsTokens (stack Primary j m) := by
  induction m with
  | zero => exact Primary.keepsTokens
  | succ m ih => exact layer_keepsTokens (j + m) ih

/-- A derived tree stores exactly the tokens of the items it derives from. -/
theorem Expression.tokens {items : List Item} {l : Leaf} (h : Expression items l) :
    (l.tokens : Multiset Token) = Item.tokensOf items :=
  stack_keepsTokens 0 15 items l h

end Grammar

/-- The expression `Item.reduce` returns stores exactly the tokens of the items. -/
theorem reduce_tokens {items : List Item} {line : Nat} {e : Expr}
    (h : Item.reduce items line = .ok e) : (e.tokens : Multiset Token) = Item.tokensOf items := by
  obtain ⟨l, hl, rfl⟩ := Grammar.reduce_sound h
  rw [Leaf.tokens_toExpr]
  exact hl.tokens

end ZScript
