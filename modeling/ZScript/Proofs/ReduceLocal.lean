import ZScript.Proofs.ReduceSound

/-!
# The passes act locally

A pass below the conditional only ever looks at an operator and its two neighbours. So when an
operator `t` that the pass does not fold stands between two parts of the list, the pass works on
each part on its own: `pass_split` says

`pass j (X ++ .op t :: Y) = pass j X ++ .op t :: pass j Y`

whenever `Apart j X t Y`: the binary passes need that `t` is not of their family or that an
operand is missing on one side, the postfix pass that `t` is no increment or that no operand
precedes it, the prefix passes that `t` is not theirs or that an operand precedes it.

Each pass gets one-step lemmas (`binaryPass_op`, `postfixPass_fold`, ...), a frame lemma (items
already passed over that end in an operator are never touched again) and a split lemma; the
left-to-right passes are split by induction on the list to the left of `t`, the right-to-left
ones by induction on the reversed list to its right.
-/

namespace ZScript

namespace Grammar

/-- The list starts with an operand. -/
def StartsOperand (xs : List Item) : Prop := ∃ l, xs.head? = some (.operand l)

/-- The list ends with an operand. -/
def EndsOperand (xs : List Item) : Prop := ∃ l, xs.getLast? = some (.operand l)

/-- The token is a binary operator of `family`. -/
def InFamily (family : List Operator) (t : Token) : Prop :=
  ∃ op, Operator.ofToken t = some op ∧ op ∈ family

@[simp] theorem not_startsOperand_nil : ¬StartsOperand [] := by
  simp [StartsOperand]

@[simp] theorem startsOperand_cons (x : Item) (xs : List Item) :
    StartsOperand (x :: xs) ↔ ∃ l, x = .operand l := by
  simp [StartsOperand]

@[simp] theorem not_endsOperand_nil : ¬EndsOperand [] := by
  simp [EndsOperand]

@[simp] theorem endsOperand_reverse (xs : List Item) :
    EndsOperand xs.reverse ↔ StartsOperand xs := by
  simp [EndsOperand, StartsOperand]

@[simp] theorem startsOperand_reverse (xs : List Item) :
    StartsOperand xs.reverse ↔ EndsOperand xs := by
  simp [EndsOperand, StartsOperand]

@[simp] theorem endsOperand_append_cons (xs ys : List Item) (y : Item) :
    EndsOperand (xs ++ y :: ys) ↔ EndsOperand (y :: ys) := by
  simp [EndsOperand, List.getLast?_append]

theorem operandFirst_eq_true {todo : List Item} :
    Reduce.operandFirst todo = true ↔ StartsOperand todo := by
  cases todo with
  | nil => simp [Reduce.operandFirst]
  | cons x xs => cases x <;> simp [Reduce.operandFirst]

/-! ## Binary passes -/

section Binary

variable (F : List Operator)

theorem not_inFamily_of_some {t : Token} {op : Operator} (hop : Operator.ofToken t = some op)
    (h : ¬F.contains op = true) : ¬InFamily F t := by
  rintro ⟨op', hop', hmem⟩
  rw [hop] at hop'
  cases hop'
  exact h (List.contains_iff_mem.2 hmem)

theorem not_inFamily_of_none {t : Token} (hop : Operator.ofToken t = none) : ¬InFamily F t := by
  rintro ⟨op', hop', -⟩
  rw [hop] at hop'
  cases hop'

theorem binaryPass_operand (D tail : List Item) (l : Leaf) :
    Reduce.binaryPass F D (.operand l :: tail) = Reduce.binaryPass F (.operand l :: D) tail :=
  Reduce.binaryPass.eq_3 _ _ _ _ (by intro _ _ _ _ _ _ h; cases h)

theorem binaryPass_merge {D rest : List Item} {l r : Leaf} {t : Token} {op : Operator}
    (hop : Operator.ofToken t = some op) (hmem : op ∈ F) :
    Reduce.binaryPass F (.operand l :: D) (.op t :: .operand r :: rest) =
      Reduce.binaryPass F (.operand (Reduce.binary op false l r [t]) :: D) rest := by
  rw [Reduce.binaryPass.eq_2, hop]
  simp [hmem]

/-- An operator is passed over unless it has an operand on each side and is of the family. -/
theorem binaryPass_op {D tail : List Item} {t : Token}
    (h : ¬(StartsOperand D ∧ InFamily F t ∧ StartsOperand tail)) :
    Reduce.binaryPass F D (.op t :: tail) = Reduce.binaryPass F (.op t :: D) tail := by
  match D, tail with
  | .operand l :: D', .operand r :: rest =>
    rw [Reduce.binaryPass.eq_2]
    split
    · next op hop =>
      have hnot : ¬op ∈ F := fun hmem => h ⟨⟨l, rfl⟩, ⟨op, hop, hmem⟩, ⟨r, rfl⟩⟩
      simp [hnot]
    · rfl
  | [], _ => exact Reduce.binaryPass.eq_3 _ _ _ _ (by intro _ _ _ _ _ h; cases h)
  | .op _ :: _, _ => exact Reduce.binaryPass.eq_3 _ _ _ _ (by intro _ _ _ _ _ h; cases h)
  | .operand _ :: _, [] => exact Reduce.binaryPass.eq_3 _ _ _ _ (by intro _ _ _ _ _ _ _ h; cases h)
  | .operand _ :: _, .op _ :: _ =>
    exact Reduce.binaryPass.eq_3 _ _ _ _ (by intro _ _ _ _ _ _ _ h; cases h)

/-- Items passed over that end in an operator are never looked at again. -/
theorem binaryPass_frame (D D₀ Y : List Item) (h₀ : ¬StartsOperand D₀) :
    Reduce.binaryPass F (D ++ D₀) Y = D₀.reverse ++ Reduce.binaryPass F D Y := by
  fun_induction Reduce.binaryPass F D Y with
  | case1 D => rw [Reduce.binaryPass.eq_1, List.reverse_append]
  | case2 l D' t r rest op hop hmem ih =>
    rw [List.cons_append, binaryPass_merge F hop (List.contains_iff_mem.1 hmem)]
    exact ih
  | case3 l D' t r rest op hop hmem ih =>
    rw [List.cons_append, binaryPass_op F (fun h => not_inFamily_of_some F hop hmem h.2.1)]
    exact ih
  | case4 l D' t r rest hop ih =>
    rw [List.cons_append, binaryPass_op F (fun h => not_inFamily_of_none F hop h.2.1)]
    exact ih
  | case5 D x tail hne ih =>
    rw [Reduce.binaryPass.eq_3 _ _ _ _ ?_]
    · exact ih
    · -- the frame starts with an operator, so no fold reaches into it
      intro l D'' t r rest hD hx ht
      cases D with
      | nil => exact h₀ ⟨l, by rw [List.nil_append] at hD; rw [hD]; rfl⟩
      | cons d D₁ =>
        obtain ⟨rfl, -⟩ := List.cons_eq_cons.1 hD
        exact hne l D₁ t r rest rfl hx ht

/-- A binary pass works separately on the two sides of an operator that it does not fold. -/
theorem binaryPass_split (D X Y : List Item) (t : Token) :
    ¬(EndsOperand (Reduce.binaryPass F D X) ∧ InFamily F t ∧ StartsOperand Y) →
      Reduce.binaryPass F D (X ++ .op t :: Y) =
        Reduce.binaryPass F D X ++ .op t :: Reduce.binaryPass F [] Y := by
  fun_induction Reduce.binaryPass F D X with
  | case1 D =>
    intro h
    rw [List.nil_append, binaryPass_op F (by simpa using h)]
    simpa using binaryPass_frame F [] (.op t :: D) Y (by simp)
  | case2 l D' u r rest op hop hmem ih =>
    intro h
    simp only [List.cons_append]
    rw [binaryPass_merge F hop (List.contains_iff_mem.1 hmem)]
    exact ih h
  | case3 l D' u r rest op hop hmem ih =>
    intro h
    simp only [List.cons_append]
    rw [binaryPass_op F (fun h => not_inFamily_of_some F hop hmem h.2.1)]
    exact ih h
  | case4 l D' u r rest hop ih =>
    intro h
    simp only [List.cons_append]
    rw [binaryPass_op F (fun h => not_inFamily_of_none F hop h.2.1)]
    exact ih h
  | case5 D x tail hne ih =>
    intro h
    rw [List.cons_append, Reduce.binaryPass.eq_3 _ _ _ _ ?_]
    · exact ih h
    · -- what follows `x` is `tail`'s head, or `t` itself when `tail` is empty
      intro l D' u r rest hD hx ht
      cases tail with
      | nil => cases ht
      | cons y ys =>
        obtain ⟨rfl, -⟩ := List.cons_eq_cons.1 ht
        exact hne l D' u r ys hD hx rfl

end Binary

/-! ## The postfix pass -/

theorem postfixPass_operand (D tail : List Item) (l : Leaf) :
    Reduce.postfixPass D (.operand l :: tail) = Reduce.postfixPass (.operand l :: D) tail :=
  Reduce.postfixPass.eq_3 _ _ _ (by intro _ _ _ _ h; cases h)

theorem postfixPass_fold {D tail : List Item} {l : Leaf} {t : Token} {op : Operator}
    (hop : Reduce.postfixOf t = some op) :
    Reduce.postfixPass (.operand l :: D) (.op t :: tail) =
      Reduce.postfixPass (.operand (Reduce.unary op l t) :: D) tail := by
  rw [Reduce.postfixPass.eq_2, hop]

/-- An operator is passed over unless it is an increment or decrement after an operand. -/
theorem postfixPass_op {D tail : List Item} {t : Token}
    (h : ¬(StartsOperand D ∧ (Reduce.postfixOf t).isSome)) :
    Reduce.postfixPass D (.op t :: tail) = Reduce.postfixPass (.op t :: D) tail := by
  match D with
  | .operand l :: D' =>
    rw [Reduce.postfixPass.eq_2]
    split
    · next op hop => exact absurd ⟨⟨l, rfl⟩, by simp [hop]⟩ h
    · rfl
  | [] => exact Reduce.postfixPass.eq_3 _ _ _ (by intro _ _ _ h; cases h)
  | .op _ :: _ => exact Reduce.postfixPass.eq_3 _ _ _ (by intro _ _ _ h; cases h)

/-- The postfix pass reads its input from left to right without looking ahead. -/
theorem postfixPass_append (D X Y : List Item) :
    Reduce.postfixPass D (X ++ Y) =
      Reduce.postfixPass (Reduce.postfixPass D X).reverse Y := by
  fun_induction Reduce.postfixPass D X with
  | case1 D => simp
  | case2 tail l D' t op hop ih =>
    rw [List.cons_append, postfixPass_fold hop]
    exact ih
  | case3 tail l D' t hop ih =>
    rw [List.cons_append, postfixPass_op (by simp [hop])]
    exact ih
  | case4 D x tail hne ih =>
    rw [List.cons_append, Reduce.postfixPass.eq_3 _ _ _ hne]
    exact ih

theorem postfixPass_frame (D D₀ Y : List Item) (h₀ : ¬StartsOperand D₀) :
    Reduce.postfixPass (D ++ D₀) Y = D₀.reverse ++ Reduce.postfixPass D Y := by
  fun_induction Reduce.postfixPass D Y with
  | case1 D => rw [Reduce.postfixPass.eq_1, List.reverse_append]
  | case2 tail l D' t op hop ih =>
    rw [List.cons_append, postfixPass_fold hop]
    exact ih
  | case3 tail l D' t hop ih =>
    rw [List.cons_append, postfixPass_op (by simp [hop])]
    exact ih
  | case4 D x tail hne ih =>
    rw [Reduce.postfixPass.eq_3 _ _ _ ?_]
    · exact ih
    · intro l D'' t hD hx
      cases D with
      | nil => exact h₀ ⟨l, by rw [List.nil_append] at hD; rw [hD]; rfl⟩
      | cons d D₁ =>
        obtain ⟨rfl, -⟩ := List.cons_eq_cons.1 hD
        exact hne l D₁ t rfl hx

theorem postfixPass_split (X Y : List Item) (t : Token)
    (h : ¬(EndsOperand (Reduce.postfixPass [] X) ∧ (Reduce.postfixOf t).isSome)) :
    Reduce.postfixPass [] (X ++ .op t :: Y) =
      Reduce.postfixPass [] X ++ .op t :: Reduce.postfixPass [] Y := by
  rw [postfixPass_append, postfixPass_op (by simpa using h)]
  simpa using postfixPass_frame [] (.op t :: (Reduce.postfixPass [] X).reverse) Y (by simp)

/-! ## The prefix passes -/

section Prefix

variable (pick : Token → Option Operator)

theorem prefixPass_operand (todo D : List Item) (l : Leaf) :
    Reduce.prefixPass pick (.operand l :: todo) D = Reduce.prefixPass pick todo (.operand l :: D) :=
  Reduce.prefixPass.eq_3 _ _ _ _ (by intro _ _ _ h; cases h)

theorem prefixPass_fold {todo D : List Item} {r : Leaf} {t : Token} {op : Operator}
    (hop : pick t = some op) (hn : ¬StartsOperand todo) :
    Reduce.prefixPass pick (.op t :: todo) (.operand r :: D) =
      Reduce.prefixPass pick todo (.operand (Reduce.unary op r t) :: D) := by
  rw [Reduce.prefixPass.eq_2, hop]
  simp [operandFirst_eq_true, hn]

/-- A prefix operator is passed over unless it is picked, has an operand on its right and none
    on its left. -/
theorem prefixPass_op {todo D : List Item} {t : Token}
    (h : ¬((pick t).isSome ∧ StartsOperand D ∧ ¬StartsOperand todo)) :
    Reduce.prefixPass pick (.op t :: todo) D = Reduce.prefixPass pick todo (.op t :: D) := by
  match D with
  | .operand r :: D' =>
    rw [Reduce.prefixPass.eq_2]
    cases hop : pick t with
    | none => rfl
    | some op =>
      -- a picked operator with an operand on its right is kept only beside a left operand
      have hfirst : StartsOperand todo := by
        by_cases hn : StartsOperand todo
        · exact hn
        · exact absurd ⟨by simp [hop], ⟨r, rfl⟩, hn⟩ h
      simp [operandFirst_eq_true, hfirst]
  | [] => exact Reduce.prefixPass.eq_3 _ _ _ _ (by intro _ _ _ _ h; cases h)
  | .op _ :: _ => exact Reduce.prefixPass.eq_3 _ _ _ _ (by intro _ _ _ _ h; cases h)

theorem prefixPass_frame (Z D D₀ : List Item) (h₀ : ¬StartsOperand D₀) :
    Reduce.prefixPass pick Z (D ++ D₀) = Reduce.prefixPass pick Z D ++ D₀ := by
  fun_induction Reduce.prefixPass pick Z D with
  | case1 D => rfl
  | case2 todo t r D' op hop hfirst ih =>
    rw [List.cons_append, prefixPass_op pick (fun h => h.2.2 (operandFirst_eq_true.1 hfirst))]
    exact ih
  | case3 todo t r D' op hop hfirst ih =>
    rw [List.cons_append, prefixPass_fold pick hop (by simpa [operandFirst_eq_true] using hfirst)]
    exact ih
  | case4 todo t r D' hop ih =>
    rw [List.cons_append, prefixPass_op pick (by simp [hop])]
    exact ih
  | case5 x todo D hne ih =>
    rw [Reduce.prefixPass.eq_3 _ _ _ _ ?_]
    · exact ih
    · intro t r D'' hx hD
      cases D with
      | nil => exact h₀ ⟨r, by rw [List.nil_append] at hD; rw [hD]; rfl⟩
      | cons d D₁ =>
        obtain ⟨rfl, -⟩ := List.cons_eq_cons.1 hD
        exact hne t r D₁ hx rfl

/-- The right-to-left passes look one item ahead, to the left; when that item is an operator
    the part read first can be run on its own. -/
theorem prefixPass_append (T Z D : List Item) (hZ : ¬StartsOperand Z) :
    Reduce.prefixPass pick (T ++ Z) D = Reduce.prefixPass pick Z (Reduce.prefixPass pick T D) := by
  fun_induction Reduce.prefixPass pick T D with
  | case1 D => rfl
  | case2 todo t r D' op hop hfirst ih =>
    have : StartsOperand (todo ++ Z) := by
      obtain ⟨l, hl⟩ := operandFirst_eq_true.1 hfirst
      cases todo with
      | nil => cases hl
      | cons y ys => exact ⟨l, by simpa using hl⟩
    rw [List.cons_append, prefixPass_op pick (by simp [this])]
    exact ih
  | case3 todo t r D' op hop hfirst ih =>
    have : ¬StartsOperand (todo ++ Z) := by
      have hn := mt operandFirst_eq_true.2 hfirst
      cases todo with
      | nil => simpa using hZ
      | cons y ys => simpa using hn
    rw [List.cons_append, prefixPass_fold pick hop this]
    exact ih
  | case4 todo t r D' hop ih =>
    rw [List.cons_append, prefixPass_op pick (by simp [hop])]
    exact ih
  | case5 x todo D hne ih =>
    rw [List.cons_append, Reduce.prefixPass.eq_3 _ _ _ _ hne]
    exact ih

/-- A prefix pass works separately on the two sides of an operator that it does not fold; `TY`
    is the reversed right side, read first, and `TX` the reversed left side. -/
theorem prefixPass_split (TY TX D : List Item) (t : Token)
    (h : ¬((pick t).isSome ∧ StartsOperand (Reduce.prefixPass pick TY D) ∧ ¬StartsOperand TX)) :
    Reduce.prefixPass pick (TY ++ .op t :: TX) D =
      Reduce.prefixPass pick TX [] ++ .op t :: Reduce.prefixPass pick TY D := by
  rw [prefixPass_append pick TY (.op t :: TX) D (by simp), prefixPass_op pick h]
  simpa using prefixPass_frame pick TX [] (.op t :: Reduce.prefixPass pick TY D) (by simp)

end Prefix

/-! ## Every pass below the conditional -/

/-- Pass `j` keeps the parts `X` and `Y` apart at the operator `t` between them. -/
def Apart : Nat → List Item → Token → List Item → Prop
  | 0, X, t, Y => ¬(EndsOperand (pass 0 X) ∧ InFamily products t ∧ StartsOperand Y)
  | 1, X, t, _ => ¬(EndsOperand (pass 1 X) ∧ (Reduce.postfixOf t).isSome)
  | 2, X, t, Y => ¬((Reduce.incrementOf t).isSome ∧ StartsOperand (pass 2 Y) ∧ ¬EndsOperand X)
  | 3, X, t, Y => ¬((Reduce.unaryOf t).isSome ∧ StartsOperand (pass 3 Y) ∧ ¬EndsOperand X)
  | n + 4, X, t, Y =>
    ¬(EndsOperand (pass (n + 4) X) ∧ InFamily (Reduce.families.getD n []) t ∧ StartsOperand Y)

theorem pass_split {j : Nat} {X Y : List Item} {t : Token} (h : Apart j X t Y) :
    pass j (X ++ .op t :: Y) = pass j X ++ .op t :: pass j Y := by
  match j, h with
  | 0, h => exact binaryPass_split products [] X Y t h
  | 1, h => exact postfixPass_split X Y t h
  | 2, h =>
    show Reduce.prefixPass _ (X ++ .op t :: Y).reverse [] =
      Reduce.prefixPass _ X.reverse [] ++ .op t :: Reduce.prefixPass _ Y.reverse []
    rw [List.reverse_append, List.reverse_cons, List.append_assoc, List.singleton_append]
    exact prefixPass_split _ Y.reverse X.reverse [] t (by simpa [Apart, pass] using h)
  | 3, h =>
    show Reduce.prefixPass _ (X ++ .op t :: Y).reverse [] =
      Reduce.prefixPass _ X.reverse [] ++ .op t :: Reduce.prefixPass _ Y.reverse []
    rw [List.reverse_append, List.reverse_cons, List.append_assoc, List.singleton_append]
    exact prefixPass_split _ Y.reverse X.reverse [] t (by simpa [Apart, pass] using h)
  | n + 4, h => exact binaryPass_split _ [] X Y t h

end Grammar

end ZScript
