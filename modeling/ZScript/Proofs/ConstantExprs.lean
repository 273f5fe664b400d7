import Mathlib
import ZScript.Expr.Fold

/-!
# What constant folding reads

Folding reads an expression node by node, and at each node only the operands its operator
needs. `Leaf.Constant l v` is that reading as a relation: the operand `l` is a constant of value
`v` when it is an integer, double, boolean or string literal, or a node that is

* a literal wrapper, of a constant operand;
* a cast of a constant, whose type operand is read only for its text;
* a unary `-`, `~` or `!` of a constant;
* a conditional whose condition is a constant, and of the branch that condition picks;
* a node of two constant operands, not assigning, whose operator combines constants: arithmetic,
  bitwise, comparison, logical or concatenation (`Operator.combinesConstants`).

No rule reads an identifier, and no rule has a call, member access, subscript, initializer,
vector product, assignment or increment as its node.

`Expr.fold_eq_some_iff_constant` says that folding gives a value exactly when the expression is a
constant of that value. Every node with two operands reaches the folders of `Fold.binary`, whatever
its operator; each of them turns down the operators outside the list
(`Fold.combinesConstants_of_binary`), which is why a call with one argument, a member access or a
two-element initializer of literals has no value.
-/

namespace ZScript

/-- The operators that combine two constants: arithmetic, bitwise, comparison, logical and
    concatenation. -/
def Operator.combinesConstants : Operator → Bool
  | .add | .sub | .mul | .div | .modulo => true
  | .bitOr | .bitAnd | .bitShr | .bitShrUnsigned | .bitShl | .xor => true
  | .cmpLT | .cmpGT | .cmpLTEQ | .cmpGTEQ | .cmpSpaceship | .cmpEq | .cmpNotEq
  | .cmpSomewhatEq => true
  | .logicalAnd | .logicalOr => true
  | .concat => true
  | _ => false

/-- `Constant l v`: folding reads the operand `l` as the constant `v`, reading only literals and
    the nodes listed in the module's introduction. -/
inductive Leaf.Constant : Leaf → Value → Prop
  | integer (t : Token) : Constant (.integer t) (.int (Int32.ofInt t.intValue))
  | double (t : Token) : Constant (.double t) (.float t.floatValue)
  | boolean (t : Token) : Constant (.boolean t) (.bool (t.isKeyword "true"))
  | string (t : Token) : Constant (.string t) (.str t.content)
  | literal {l : Leaf} {v : Value} {a : Bool} {ls : List Leaf} {os ss : List Token}
      {ty : Option Ty} :
      Constant l v → Constant (.expr ⟨.literal, a, l :: ls, os, ss, ty⟩) v
  | cast {t l : Leaf} {tok : Token} {v w : Value} {a : Bool} {ls : List Leaf}
      {os ss : List Token} {ty : Option Ty} :
      t.token? = some tok → Constant l v → v.cast tok.text true = some w →
        Constant (.expr ⟨.cast, a, t :: l :: ls, os, ss, ty⟩) w
  | unary {op : Operator} {l : Leaf} {v w : Value} {a : Bool} {ls : List Leaf}
      {os ss : List Token} {ty : Option Ty} :
      op = .unaryMinus ∨ op = .unaryNeg ∨ op = .unaryNot → Constant l v →
        Fold.unary op v = some w → Constant (.expr ⟨op, a, l :: ls, os, ss, ty⟩) w
  | binary {op : Operator} {l r : Leaf} {u v w : Value} {os ss : List Token} {ty : Option Ty} :
      op.combinesConstants = true → Constant l u → Constant r v →
        Fold.binary op u v = some w →
        Constant (.expr ⟨op, false, [l, r], os, ss, ty⟩) w
  | ternaryTrue {c x : Leaf} {u v : Value} {a : Bool} {ls : List Leaf} {os ss : List Token}
      {ty : Option Ty} :
      Constant c u → u.truthy? = some true → Constant x v →
        Constant (.expr ⟨.ternary, a, c :: x :: ls, os, ss, ty⟩) v
  | ternaryFalse {c x y : Leaf} {u v : Value} {a : Bool} {ls : List Leaf} {os ss : List Token}
      {ty : Option Ty} :
      Constant c u → u.truthy? = some false → Constant y v →
        Constant (.expr ⟨.ternary, a, c :: x :: y :: ls, os, ss, ty⟩) v

/-! ## The folders turn down every other operator -/

namespace Fold

theorem combinesConstants_of_floats {op : Operator} {a b : Float} {v : Value}
    (h : floats op a b = some v) : op.combinesConstants = true := by
  cases op <;> simp_all [floats, Operator.combinesConstants]

theorem combinesConstants_of_ints {op : Operator} {a b : Int32} {v : Value}
    (h : ints op a b = some v) : op.combinesConstants = true := by
  cases op <;> simp_all [ints, Operator.combinesConstants]

theorem combinesConstants_of_concat {op : Operator} {x v : Value}
    (h : (if op == .concat then some x else none) = some v) : op.combinesConstants = true := by
  split at h
  · next hop =>
    rw [beq_iff_eq] at hop
    rw [hop]
    rfl
  · cases h

/-- The branch a condition picks is a value only when the condition is a truth value and the
    branch it picks is a value. -/
theorem pick_eq_some {c : Option Bool} {yes no : Option Value} {v : Value} :
    pick c yes no = some v ↔
      (c = some true ∧ yes = some v) ∨ (c = some false ∧ no = some v) := by
  rcases c with _ | _ | _ <;> simp [pick]

/-- A binary operator that folds two values combines constants: the string folder takes only
    concatenation and the comparisons, a string with another value only concatenation, and the
    double and integer folders only arithmetic, bitwise, comparison and logical operators. -/
theorem combinesConstants_of_binary {op : Operator} {l r v : Value} (h : binary op l r = some v) :
    op.combinesConstants = true := by
  unfold binary at h
  split at h
  · -- two strings
    cases op <;> simp_all [Operator.combinesConstants]
  · exact combinesConstants_of_concat h
  · exact combinesConstants_of_concat h
  -- a double operand on either side, then integers and booleans
  all_goals simp only [Option.bind_eq_bind, Option.bind_eq_some_iff] at h
  all_goals obtain ⟨a, -, b, -, hf⟩ := h
  · exact combinesConstants_of_floats hf
  · exact combinesConstants_of_floats hf
  · exact combinesConstants_of_ints hf

end Fold

/-! ## Folding is the constant reading -/

namespace Leaf

/-- An operand of a node is smaller than the node. -/
theorem sizeOf_lt_of_mem {e : Expr} {l : Leaf} (h : l ∈ e.leaves) :
    sizeOf l < sizeOf (Leaf.expr e) := by
  obtain ⟨op, a, leaves, os, ss, ty⟩ := e
  have hl := List.sizeOf_lt_of_mem (show l ∈ leaves from h)
  simp only [Leaf.expr.sizeOf_spec, Expr.mk.sizeOf_spec]
  omega

/-- Induction over operands, through the operands of each node. -/
theorem induction_on {P : Leaf → Prop} (l : Leaf)
    (token : ∀ t,
      P (.integer t) ∧ P (.double t) ∧ P (.boolean t) ∧ P (.string t) ∧ P (.ident t))
    (node : ∀ e : Expr, (∀ l ∈ e.leaves, P l) → P (.expr e)) : P l := by
  induction hn : sizeOf l using Nat.strong_induction_on generalizing l with
  | _ n ih =>
    cases l with
    | integer t => exact (token t).1
    | double t => exact (token t).2.1
    | boolean t => exact (token t).2.2.1
    | string t => exact (token t).2.2.2.1
    | ident t => exact (token t).2.2.2.2
    | expr e => exact node e fun l hl => ih _ (hn ▸ sizeOf_lt_of_mem hl) l rfl

/-- The node case of `constant_of_fold`: a node folds to a value only by one of the rules of
    `Constant`, given that each of its operands folds only so. -/
theorem constant_of_fold_node {e : Expr}
    (ih : ∀ l ∈ e.leaves, ∀ v, l.fold = some v → Constant l v) {v : Value}
    (h : e.fold = some v) : Constant (.expr e) v := by
  obtain ⟨op, a, leaves, os, ss, ty⟩ := e
  unfold Expr.fold at h
  split at h
  · -- a literal wrapper reads its first operand
    rcases leaves with _ | ⟨l, ls⟩
    · cases h
    · exact .literal (ih l (by simp) v h)
  · -- a cast reads its second operand, and the first only for its text
    rcases leaves with _ | ⟨t, _ | ⟨l, ls⟩⟩
    · cases h
    · cases h
    · have hb : (t.token?.bind fun tok => l.fold.bind fun x => x.cast tok.text true) = some v := by
        cases t <;> exact h
      obtain ⟨tok, htok, hb⟩ := Option.bind_eq_some_iff.1 hb
      obtain ⟨u, hu, hcast⟩ := Option.bind_eq_some_iff.1 hb
      exact .cast htok (ih l (by simp) u hu) hcast
  -- the unary operators read their first operand
  case h_3 | h_4 | h_5 =>
    rcases leaves with _ | ⟨l, ls⟩
    · cases h
    · obtain ⟨u, hu, hv⟩ := Option.bind_eq_some_iff.1 h
      exact .unary (by simp) (ih l (by simp) u hu) hv
  · -- a conditional reads its condition, then the branch it picks
    rcases leaves with _ | ⟨c, _ | ⟨x, _ | ⟨y, ls⟩⟩⟩
    · cases h
    · simp [Fold.pick_eq_some] at h
    · obtain ⟨hc, hx⟩ | ⟨-, hno⟩ := Fold.pick_eq_some.1 h
      · obtain ⟨u, hu, htrue⟩ := Option.bind_eq_some_iff.1 hc
        exact .ternaryTrue (ih c (by simp) u hu) htrue (ih x (by simp) v hx)
      · cases hno
    · obtain ⟨hc, hx⟩ | ⟨hc, hy⟩ := Fold.pick_eq_some.1 h
      · obtain ⟨u, hu, htrue⟩ := Option.bind_eq_some_iff.1 hc
        exact .ternaryTrue (ih c (by simp) u hu) htrue (ih x (by simp) v hx)
      · obtain ⟨u, hu, hfalse⟩ := Option.bind_eq_some_iff.1 hc
        exact .ternaryFalse (ih c (by simp) u hu) hfalse (ih y (by simp) v hy)
  · -- every other operator folds exactly two operands, when it does not assign
    rcases leaves with _ | ⟨l, _ | ⟨r, _ | ⟨_, _⟩⟩⟩
    · cases h
    · cases h
    · cases a
      · simp only [Bool.false_eq_true, ↓reduceIte] at h
        obtain ⟨u, hu, hb⟩ := Option.bind_eq_some_iff.1 h
        obtain ⟨w, hw, hv⟩ := Option.bind_eq_some_iff.1 hb
        exact .binary (Fold.combinesConstants_of_binary hv) (ih l (by simp) u hu)
          (ih r (by simp) w hw) hv
      · simp at h
    · cases h

/-- Folding gives a value only by the rules of `Constant`. -/
theorem constant_of_fold (l : Leaf) : ∀ v, l.fold = some v → Constant l v := by
  refine induction_on l (fun t => ⟨?_, ?_, ?_, ?_, ?_⟩) fun e ih v h =>
    constant_of_fold_node ih (by simpa [Leaf.fold] using h)
  all_goals
    intro v h
    simp only [Leaf.fold, Option.some.injEq, reduceCtorEq] at h
  · exact h ▸ .integer t
  · exact h ▸ .double t
  · exact h ▸ .boolean t
  · exact h ▸ .string t

/-- A cast of a token operand folds its second operand and converts it to the type the token
    names. -/
theorem fold_cast (a : Bool) (t l : Leaf) (ls : List Leaf) (os ss : List Token) (ty : Option Ty) :
    Expr.fold ⟨.cast, a, t :: l :: ls, os, ss, ty⟩ =
      t.token?.bind fun tok => l.fold.bind fun x => x.cast tok.text true := by
  cases t <;> rfl

/-- A constant folds to its value. -/
theorem fold_of_constant {l : Leaf} {v : Value} (h : Constant l v) : l.fold = some v := by
  induction h with
  | integer t | double t | boolean t | string t => rfl
  | literal _ ih => simp [Leaf.fold, Expr.fold, ih]
  | cast htok _ hcast ih => simp [Leaf.fold, fold_cast, htok, ih, hcast]
  | unary hop _ hv ih =>
    rcases hop with rfl | rfl | rfl <;> simp [Leaf.fold, Expr.fold, ih, hv]
  | @binary op l r u v w os ss ty hop _ _ hv ihl ihr =>
    -- the operators that combine constants are none of those that fold apart from the pairs
    have hfold : Expr.fold ⟨op, false, [l, r], os, ss, ty⟩ =
        l.fold.bind fun a => r.fold.bind fun b => Fold.binary op a b := by
      cases op <;> simp_all [Operator.combinesConstants, Expr.fold]
    simp [Leaf.fold, hfold, ihl, ihr, hv]
  | @ternaryTrue c x u v a ls os ss ty _ hc _ ihc ihx =>
    cases ls <;> simp [Leaf.fold, Expr.fold, ihc, hc, ihx, Fold.pick]
  | ternaryFalse _ hc _ ihc ihy => simp [Leaf.fold, Expr.fold, ihc, hc, ihy, Fold.pick]

end Leaf

/-- Folding an expression gives a value exactly when the expression is a constant of that value:
    every node folding reads is a literal wrapper, a cast, a unary `-`, `~` or `!`, a conditional
    (its condition and the branch picked) or a non-assigning arithmetic, bitwise, comparison,
    logical or concatenation node, and every operand it reads is a literal. -/
theorem Expr.fold_eq_some_iff_constant (e : Expr) (v : Value) :
    e.fold = some v ↔ Leaf.Constant (.expr e) v :=
  ⟨Leaf.constant_of_fold (.expr e) v, Leaf.fold_of_constant⟩

/-- A call of two literals, `(1)(2)`, reaches the integer folder, which has no value for it. -/
example :
    let one : Token :=
      { kind := .integer, text := "1", start := 0, stop := 1, line := 1, intValue := 1 }
    (Expr.node .call [.integer one, .integer one]).fold = none := rfl

end ZScript
