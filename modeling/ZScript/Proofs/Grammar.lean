import ZScript.Expr.Parser

/-!
# The precedence grammar of expressions

The flat list that expression reading collects (`Item`s: operands and raw operator tokens) is
meant to derive from a layered grammar, tightest binding first:

```text
E0  ::= operand ((dot | cross) operand)*          left
E1  ::= E0 (++ | --)*
E2  ::= (++ | --)* E1
E3  ::= (~ | ! | -)* E2
E4  ::= E3 ((* | / | %) E3)*                       left, and so on up to
E12 ::= E11 (|| E11)*                              (the nine binary families)
T   ::= E12 | E12 ? T : T
A   ::= T | T = A | T op = A                       op one of + - * / % << >> >>> & ^ |
```

Each layer is a relation between a list of items and the operand (a tree) it derives, built
from the relation of the layer below: `LeftChain`, `Postfixed`, `Prefixed`, `Conditional` and
`Assignment`. `layer n` is layer `n` of the table above as a function of the layer below, and
`stack base j n` stacks `n` layers from layer `j` on top of `base`; `Expression`, the start
symbol `A`, is all fifteen layers over single operands.

The reduction passes line up with the layers: `pass n` folds the operators of layer `n`, and
`reduce_eq_ok_iff` says that `Item.reduce` runs `passes 13` (layers `0` to `12`), then the
conditional and the assignment passes, and succeeds exactly when one operand is left.
-/

namespace ZScript

namespace Grammar

/-- A single operand derives itself. -/
inductive Primary : List Item → Leaf → Prop
  | operand (l : Leaf) : Primary [.operand l] l

/-- Forms of `lower` joined, left-associatively, by the binary operators of `family`. -/
inductive LeftChain (family : List Operator) (lower : List Item → Leaf → Prop) :
    List Item → Leaf → Prop
  | lower {s : List Item} {l : Leaf} : lower s l → LeftChain family lower s l
  | step {s rs : List Item} {l r : Leaf} {t : Token} {op : Operator} :
      LeftChain family lower s l → Operator.ofToken t = some op → op ∈ family → lower rs r →
      LeftChain family lower (s ++ .op t :: rs) (Reduce.binary op false l r [t])

/-- A form of `lower` followed by increments and decrements. -/
inductive Postfixed (lower : List Item → Leaf → Prop) : List Item → Leaf → Prop
  | lower {s : List Item} {l : Leaf} : lower s l → Postfixed lower s l
  | step {s : List Item} {l : Leaf} {t : Token} {op : Operator} :
      Postfixed lower s l → Reduce.postfixOf t = some op →
      Postfixed lower (s ++ [.op t]) (Reduce.unary op l t)

/-- A form of `lower` preceded by the prefix operators that `pick` selects. -/
inductive Prefixed (pick : Token → Option Operator) (lower : List Item → Leaf → Prop) :
    List Item → Leaf → Prop
  | lower {s : List Item} {l : Leaf} : lower s l → Prefixed pick lower s l
  | step {s : List Item} {l : Leaf} {t : Token} {op : Operator} :
      pick t = some op → Prefixed pick lower s l →
      Prefixed pick lower (.op t :: s) (Reduce.unary op l t)

/-- `c ? a : b` with its two operator tokens, as the conditional pass builds it. -/
def cond (q colon : Token) (c a b : Leaf) : Leaf :=
  .expr { Expr.node .ternary [c, a, b] with operators := [q, colon] }

/-- `T ::= lower | lower ? T : T`: the branches nest to the right. -/
inductive Conditional (lower : List Item → Leaf → Prop) : List Item → Leaf → Prop
  | lower {s : List Item} {l : Leaf} : lower s l → Conditional lower s l
  | step {c a b : List Item} {lc la lb : Leaf} {q colon : Token} :
      lower c lc → q.kind = .questionmark → Conditional lower a la → colon.kind = .colon →
      Conditional lower b lb →
      Conditional lower (c ++ .op q :: a ++ .op colon :: b) (cond q colon lc la lb)

/-- `A ::= lower | lower = A | lower op = A`: assignments nest to the right, and a compound
    assignment keeps both of its tokens. -/
inductive Assignment (lower : List Item → Leaf → Prop) : List Item → Leaf → Prop
  | lower {s : List Item} {l : Leaf} : lower s l → Assignment lower s l
  | assign {s rs : List Item} {l r : Leaf} {t : Token} :
      lower s l → Operator.ofToken t = some .assign → Assignment lower rs r →
      Assignment lower (s ++ .op t :: rs) (Reduce.binary .assign false l r [t])
  | compound {s rs : List Item} {l r : Leaf} {t eq : Token} {op : Operator} :
      lower s l → Operator.ofToken t = some op → op.takesAssign = true → eq.kind = .assign →
      Assignment lower rs r →
      Assignment lower (s ++ .op t :: .op eq :: rs) (Reduce.binary op true l r [t, eq])

/-- The dot and cross products, the tightest binary family. -/
def products : List Operator := [.vectorDot, .vectorCross]

/-- Layer `n` of the grammar, as a function of the forms of the layer below. -/
def layer : Nat → (List Item → Leaf → Prop) → List Item → Leaf → Prop
  | 0 => LeftChain products
  | 1 => Postfixed
  | 2 => Prefixed Reduce.incrementOf
  | 3 => Prefixed Reduce.unaryOf
  | n + 4 =>
    if n < 9 then LeftChain (Reduce.families.getD n [])
    else if n = 9 then Conditional else Assignment

theorem layer_family {n : Nat} (hn : n < 9) :
    layer (n + 4) = LeftChain (Reduce.families.getD n []) := by
  simp [layer, hn]

theorem layer_thirteen : layer 13 = Conditional := rfl

theorem layer_fourteen : layer 14 = Assignment := rfl

theorem layer_assignment {n : Nat} (hn : 9 < n) : layer (n + 4) = Assignment := by
  simp [layer, show ¬n < 9 by omega, show n ≠ 9 by omega]

/-- The forms of `n` layers, from layer `j` up, stacked on `base`. -/
def stack (base : List Item → Leaf → Prop) (j : Nat) : Nat → List Item → Leaf → Prop
  | 0 => base
  | n + 1 => layer (j + n) (stack base j n)

/-- Every layer derives the forms of the layer below. -/
theorem layer_lower {R : List Item → Leaf → Prop} (k : Nat) {s : List Item} {l : Leaf}
    (h : R s l) : layer k R s l := by
  match k with
  | 0 => exact .lower h
  | 1 => exact .lower h
  | 2 => exact .lower h
  | 3 => exact .lower h
  | n + 4 =>
    rcases Nat.lt_trichotomy n 9 with hn | rfl | hn
    · rw [layer_family hn]
      exact .lower h
    · exact Conditional.lower h
    · rw [layer_assignment hn]
      exact .lower h

/-- A lone operand derives itself in every stack of layers. -/
theorem stack_operand (j m : Nat) (l : Leaf) : stack Primary j m [.operand l] l := by
  induction m with
  | zero => exact .operand l
  | succ m ih => exact layer_lower (j + m) ih

/-- The start symbol: all fifteen layers over single operands. -/
def Expression : List Item → Leaf → Prop := stack Primary 0 15

/-- A stack of `n + 1` layers is the `n` upper ones on top of the lowest. -/
theorem stack_succ_bottom (base : List Item → Leaf → Prop) (j n : Nat) :
    stack base j (n + 1) = stack (layer j base) (j + 1) n := by
  induction n with
  | zero => rfl
  | succ n ih =>
    show layer (j + (n + 1)) (stack base j (n + 1)) = layer (j + 1 + n) _
    rw [ih, show j + (n + 1) = j + 1 + n by omega]

/-! ## The passes by layer -/

/-- The pass that folds the operators of layer `n`, for the layers below the conditional. -/
def pass : Nat → List Item → List Item
  | 0 => Reduce.binaryPass products []
  | 1 => Reduce.postfixPass []
  | 2 => fun xs => Reduce.prefixPass Reduce.incrementOf xs.reverse []
  | 3 => fun xs => Reduce.prefixPass Reduce.unaryOf xs.reverse []
  | n + 4 => Reduce.binaryPass (Reduce.families.getD n []) []

/-- The first `n` passes, in order. -/
def passes : Nat → List Item → List Item
  | 0, xs => xs
  | n + 1, xs => pass n (passes n xs)

open Reduce in
private theorem passes_thirteen (items : List Item) :
    passes 13 items = families.foldl (fun acc fam => binaryPass fam [] acc)
      (prefixPass unaryOf (prefixPass incrementOf
        (postfixPass [] (binaryPass products [] items)).reverse []).reverse []) :=
  rfl

open Reduce in
/-- `Item.reduce` runs the thirteen passes below the conditional, then the conditional and the
    assignment passes, and succeeds exactly when they leave a single operand. -/
theorem reduce_eq_ok_iff (items : List Item) (line : Nat) (e : Expr) :
    Item.reduce items line = .ok e ↔ ∃ ys l, ternaryPass (passes 13 items).reverse [] = .ok ys ∧
      assignPass ys.reverse [] = [.operand l] ∧ e = l.toExpr := by
  unfold Item.reduce
  dsimp only
  rw [show binaryPass [.vectorDot, .vectorCross] [] items = binaryPass products [] items from rfl,
    ← passes_thirteen]
  cases h : ternaryPass (passes 13 items).reverse [] with
  | error err => simp [bind, Except.bind]
  | ok ys =>
    simp only [bind, Except.bind]
    split
    · next l hl => simp [hl, pure, Except.pure, eq_comm]
    · next zs hz => simp [throw, throwThe, MonadExceptOf.throw]; grind

end Grammar

end ZScript
