import ZScript.Proofs.ReduceLocal

/-!
# Reduction finds every derivation

The converse of `reduce_sound`: when the item list derives an operand `l` in the precedence
grammar, `Item.reduce` returns `l` as an expression (`reduce_complete`), so that `Item.reduce`
succeeds exactly on the lists the grammar derives (`reduce_eq_ok_iff_expression`), and a list
derives at most one operand.

The proof follows the passes. After the first `j` passes the list derives from the layers `j`
and up over single operands (`passes_stack`). Pass `j` folds every form of layer `j` into its
operand (`pass_primary`), and it leaves the structure of the higher layers as it is
(`pass_stack`): an operator of a higher layer keeps the pass from reaching across it, in the
sense of `Apart`, because the pass does not fold that operator at all (`Inert`), or, for the
unary minus pass and a binary `-`, because an operand stands on its left. The conditional and
the assignment passes are then run on each form in context (`conditional_run`,
`assignment_run`, `assignPass_run`).
-/

namespace ZScript

namespace Grammar

open Reduce

/-! ## Operator tokens by kind -/

theorem postfixOf_kind {t : Token} {op : Operator} (h : postfixOf t = some op) :
    t.kind = .increment ∨ t.kind = .decrement := by
  unfold postfixOf at h
  split at h <;> simp_all

theorem incrementOf_kind {t : Token} {op : Operator} (h : incrementOf t = some op) :
    t.kind = .increment ∨ t.kind = .decrement := by
  unfold incrementOf at h
  split at h <;> simp_all

theorem unaryOf_kind {t : Token} {op : Operator} (h : unaryOf t = some op) :
    t.kind = .negate ∨ t.kind = .logicalNot ∨ t.kind = .subtract := by
  unfold unaryOf at h
  split at h <;> simp_all

theorem ofToken_eq_none_of_increment {t : Token}
    (hk : t.kind = .increment ∨ t.kind = .decrement) : Operator.ofToken t = none := by
  rcases hk with hk | hk <;> simp [Operator.ofToken, hk]

theorem postfixOf_eq_none_of_ofToken {t : Token} {op : Operator}
    (hop : Operator.ofToken t = some op) : postfixOf t = none := by
  cases hp : postfixOf t with
  | none => rfl
  | some _ => rw [ofToken_eq_none_of_increment (postfixOf_kind hp)] at hop; cases hop

theorem incrementOf_eq_none_of_ofToken {t : Token} {op : Operator}
    (hop : Operator.ofToken t = some op) : incrementOf t = none := by
  cases hp : incrementOf t with
  | none => rfl
  | some _ => rw [ofToken_eq_none_of_increment (incrementOf_kind hp)] at hop; cases hop

theorem kind_ne_questionmark_of_ofToken {t : Token} {op : Operator}
    (hop : Operator.ofToken t = some op) : t.kind ≠ .questionmark := by
  intro hk
  simp [Operator.ofToken, hk] at hop

theorem kind_of_ofToken_assign {t : Token} (hop : Operator.ofToken t = some .assign) :
    t.kind = .assign := by
  unfold Operator.ofToken at hop
  split at hop <;> (try split at hop) <;> (try split at hop) <;> simp_all

/-! ## The families of binary operators -/

theorem lt_of_mem_families {op : Operator} {n : Nat} (h : op ∈ families.getD n []) : n < 9 := by
  by_cases hn : n < 9
  · exact hn
  · have hnone : families[n]? = none := List.getElem?_eq_none (by simp [families]; omega)
    simp [hnone] at h

/-- No operator is in two families. -/
theorem families_disjoint {op : Operator} {i k : Nat} (hi : op ∈ families.getD i [])
    (hk : op ∈ families.getD k []) : i = k := by
  have hdisj : ∀ i k : Fin 9, i ≠ k → ∀ op ∈ families.getD i [], op ∉ families.getD k [] := by
    decide
  by_cases hik : i = k
  · exact hik
  · exact absurd hk (hdisj ⟨i, lt_of_mem_families hi⟩ ⟨k, lt_of_mem_families hk⟩
      (Fin.ne_of_val_ne hik) op hi)

theorem not_mem_products_of_mem_families {op : Operator} {n : Nat}
    (h : op ∈ families.getD n []) : op ∉ products := by
  have hprod : ∀ i : Fin 9, ∀ op ∈ families.getD i [], op ∉ products := by decide
  exact hprod ⟨n, lt_of_mem_families h⟩ op h

theorem assign_not_mem_families (n : Nat) : Operator.assign ∉ families.getD n [] := by
  intro h
  have hassign : ∀ i : Fin 9, Operator.assign ∉ families.getD i [] := by decide
  exact hassign ⟨n, lt_of_mem_families h⟩ h

theorem not_mem_products_of_takesAssign {op : Operator} (h : op.takesAssign = true) :
    op ∉ products := by
  intro hmem
  simp only [products, List.mem_cons, List.mem_nil_iff, or_false] at hmem
  rcases hmem with rfl | rfl <;> simp [Operator.takesAssign] at h

/-! ## Which passes leave which operators alone -/

/-- Pass `j` folds no operator written with the token `t`, wherever it stands. -/
def Inert : Nat → Token → Prop
  | 0, t => ¬InFamily products t
  | 1, t => postfixOf t = none
  | 2, t => incrementOf t = none
  | 3, t => unaryOf t = none
  | n + 4, t => ¬InFamily (families.getD n []) t

theorem apart_of_inert {j : Nat} {X Y : List Item} {t : Token} (h : Inert j t) :
    Apart j X t Y := by
  match j, h with
  | 0, h => exact fun h' => h h'.2.1
  | 1, h => simp [Apart, show postfixOf t = none from h]
  | 2, h => simp [Apart, show incrementOf t = none from h]
  | 3, h => simp [Apart, show unaryOf t = none from h]
  | n + 4, h => exact fun h' => h h'.2.1

/-- The `?` and `:` of a conditional and the `=` of an assignment are folded by no pass below
    the conditional. -/
theorem inert_of_kind {t : Token}
    (hk : t.kind = .questionmark ∨ t.kind = .colon ∨ t.kind = .assign) (j : Nat) :
    Inert j t := by
  have hfam : ∀ F : List Operator, Operator.assign ∉ F → ¬InFamily F t := by
    rintro F hF ⟨op, hop, hmem⟩
    rcases hk with hk | hk | hk <;> simp [Operator.ofToken, hk] at hop
    subst hop
    exact hF hmem
  match j with
  | 0 => exact hfam products (by simp [products])
  | 1 => show postfixOf t = none; rcases hk with hk | hk | hk <;> simp [postfixOf, hk]
  | 2 => show incrementOf t = none; rcases hk with hk | hk | hk <;> simp [incrementOf, hk]
  | 3 => show unaryOf t = none; rcases hk with hk | hk | hk <;> simp [unaryOf, hk]
  | n + 4 => exact hfam _ (assign_not_mem_families n)

/-- A binary operator other than the products is folded by none of the first three passes. -/
theorem inert_of_ofToken {t : Token} {op : Operator} (hop : Operator.ofToken t = some op)
    (hprod : op ∉ products) {j : Nat} (hj : j < 3) : Inert j t := by
  match j, hj with
  | 0, _ =>
    rintro ⟨op', hop', hmem⟩
    rw [hop] at hop'
    cases hop'
    exact hprod hmem
  | 1, _ => exact postfixOf_eq_none_of_ofToken hop
  | 2, _ => exact incrementOf_eq_none_of_ofToken hop

/-- A binary operator is folded by no pass of another family. -/
theorem inert_family_of_ofToken {t : Token} {op : Operator} {n k : Nat}
    (hop : Operator.ofToken t = some op) (hmem : op ∈ families.getD k []) (hnk : n ≠ k) :
    Inert (n + 4) t := by
  rintro ⟨op', hop', hmem'⟩
  rw [hop] at hop'
  cases hop'
  exact hnk (families_disjoint hmem' hmem)

theorem inert_of_unaryOf {t : Token} {op : Operator} (h : unaryOf t = some op) {j : Nat}
    (hj : j < 3) : Inert j t := by
  have hk := unaryOf_kind h
  match j, hj with
  | 0, _ =>
    rintro ⟨op', hop', hmem⟩
    rcases hk with hk | hk | hk <;> simp [Operator.ofToken, hk] at hop'
    subst hop'
    simp [products] at hmem
  | 1, _ => show postfixOf t = none; rcases hk with hk | hk | hk <;> simp [postfixOf, hk]
  | 2, _ => show incrementOf t = none; rcases hk with hk | hk | hk <;> simp [incrementOf, hk]

theorem inert_zero_of_increment {t : Token} (hk : t.kind = .increment ∨ t.kind = .decrement) :
    Inert 0 t := by
  rintro ⟨op, hop, -⟩
  rw [ofToken_eq_none_of_increment hk] at hop
  cases hop

@[simp] theorem pass_nil (j : Nat) : pass j [] = [] := by
  match j with
  | 0 => simp [pass, Reduce.binaryPass.eq_1]
  | 1 => rfl
  | 2 => rfl
  | 3 => rfl
  | n + 4 => simp [pass, Reduce.binaryPass.eq_1]

theorem apart_one_nil {Y : List Item} {t : Token} : Apart 1 [] t Y := by
  simp [Apart]

theorem apart_three {X Y : List Item} {t : Token} (h : EndsOperand X) : Apart 3 X t Y :=
  fun h' => h'.2.2 h

theorem apart_family {n : Nat} {X Y : List Item} {t : Token} (h : ¬StartsOperand Y) :
    Apart (n + 4) X t Y :=
  fun h' => h h'.2.2

/-- A binary operator of family `n` separates the parts of a chain for every pass below its
    own; the unary minus pass needs the operand on the left. -/
theorem apart_binary {j n : Nat} {X Y : List Item} {t : Token} {op : Operator}
    (hop : Operator.ofToken t = some op) (hmem : op ∈ families.getD n []) (hj : j < n + 4)
    (hX : j = 3 → EndsOperand X) : Apart j X t Y := by
  match j, hj with
  | 0, _ | 1, _ | 2, _ =>
    exact apart_of_inert (inert_of_ofToken hop (not_mem_products_of_mem_families hmem) (by omega))
  | 3, _ => exact apart_three (hX rfl)
  | i + 4, _ => exact apart_of_inert (inert_family_of_ofToken hop hmem (by omega))

/-- The operator of a compound assignment separates its left side from the `=` after it. -/
theorem apart_compound {j : Nat} {X rs : List Item} {t eq : Token} {op : Operator}
    (hop : Operator.ofToken t = some op) (htakes : op.takesAssign = true)
    (hX : j = 3 → EndsOperand X) : Apart j X t (.op eq :: rs) := by
  match j with
  | 0 | 1 | 2 =>
    exact apart_of_inert (inert_of_ofToken hop (not_mem_products_of_takesAssign htakes) (by omega))
  | 3 => exact apart_three (hX rfl)
  | i + 4 => exact apart_family (by simp)

theorem pass_cons {j : Nat} {Y : List Item} {t : Token} (h : Apart j [] t Y) :
    pass j (.op t :: Y) = .op t :: pass j Y := by
  simpa using pass_split h

theorem pass_append_op {j : Nat} {X : List Item} {t : Token} (h : Apart j X t []) :
    pass j (X ++ [.op t]) = pass j X ++ [.op t] := by
  simpa using pass_split h

/-! ## Forms above the postfix layer end with an operand -/

theorem endsOperand_append (xs : List Item) {ys : List Item} (h : EndsOperand ys) :
    EndsOperand (xs ++ ys) := by
  obtain ⟨l, hl⟩ := h
  exact ⟨l, by rw [List.getLast?_append, hl]; rfl⟩

section Ends

variable {R : List Item → Leaf → Prop}

theorem LeftChain.endsOperand {F : List Operator} (hR : ∀ {s l}, R s l → EndsOperand s)
    {s : List Item} {l : Leaf} (h : LeftChain F R s l) : EndsOperand s := by
  cases h with
  | lower h => exact hR h
  | step _ _ _ hr => exact endsOperand_append _ (endsOperand_append [_] (hR hr))

theorem Prefixed.endsOperand {pick : Token → Option Operator}
    (hR : ∀ {s l}, R s l → EndsOperand s) {s : List Item} {l : Leaf}
    (h : Prefixed pick R s l) : EndsOperand s := by
  induction h with
  | lower h => exact hR h
  | step _ _ ih => exact endsOperand_append [_] ih

theorem Conditional.endsOperand (hR : ∀ {s l}, R s l → EndsOperand s) {s : List Item}
    {l : Leaf} (h : Conditional R s l) : EndsOperand s := by
  induction h with
  | lower h => exact hR h
  | step _ _ _ _ _ _ ihb =>
    exact endsOperand_append _ (endsOperand_append [_] ihb)

theorem Assignment.endsOperand (hR : ∀ {s l}, R s l → EndsOperand s) {s : List Item}
    {l : Leaf} (h : Assignment R s l) : EndsOperand s := by
  induction h with
  | lower h => exact hR h
  | assign _ _ _ ih => exact endsOperand_append _ (endsOperand_append [_] ih)
  | compound _ _ _ _ _ ih =>
    exact endsOperand_append _ (endsOperand_append [_] (endsOperand_append [_] ih))

theorem layer_endsOperand {k : Nat} (hk : k ≠ 1) (hR : ∀ {s l}, R s l → EndsOperand s)
    {s : List Item} {l : Leaf} (h : layer k R s l) : EndsOperand s := by
  match k, hk, h with
  | 0, _, h => exact LeftChain.endsOperand hR h
  | 1, hk, _ => exact absurd rfl hk
  | 2, _, h => exact Prefixed.endsOperand hR h
  | 3, _, h => exact Prefixed.endsOperand hR h
  | n + 4, _, h =>
    rcases Nat.lt_trichotomy n 9 with hn | rfl | hn
    · rw [layer_family hn] at h
      exact LeftChain.endsOperand hR h
    · exact Conditional.endsOperand hR h
    · rw [layer_assignment hn] at h
      exact Assignment.endsOperand hR h

end Ends

/-- From the increments up, every form ends with an operand. -/
theorem stack_endsOperand {j : Nat} (hj : 2 ≤ j) (m : Nat) {s : List Item} {l : Leaf}
    (h : stack Primary j m s l) : EndsOperand s := by
  induction m generalizing s l with
  | zero => cases h; exact ⟨_, rfl⟩
  | succ m ih => exact layer_endsOperand (by omega) ih h

/-! ## A pass maps the forms of a higher layer to forms of the same layer -/

section Map

variable {P Q : List Item → Leaf → Prop} (f : List Item → List Item)

theorem LeftChain.map {F : List Operator} (hlow : ∀ {s l}, P s l → Q (f s) l)
    (hsplit : ∀ {s rs l r t op}, LeftChain F P s l → Operator.ofToken t = some op → op ∈ F →
      P rs r → f (s ++ .op t :: rs) = f s ++ .op t :: f rs)
    {xs : List Item} {l : Leaf} (h : LeftChain F P xs l) : LeftChain F Q (f xs) l := by
  induction h with
  | lower h => exact .lower (hlow h)
  | step hs hop hmem hr ih =>
    rw [hsplit hs hop hmem hr]
    exact .step ih hop hmem (hlow hr)

theorem Postfixed.map (hlow : ∀ {s l}, P s l → Q (f s) l)
    (hsplit : ∀ {s t op}, postfixOf t = some op → f (s ++ [.op t]) = f s ++ [.op t])
    {xs : List Item} {l : Leaf} (h : Postfixed P xs l) : Postfixed Q (f xs) l := by
  induction h with
  | lower h => exact .lower (hlow h)
  | step _ hop ih =>
    rw [hsplit hop]
    exact .step ih hop

theorem Prefixed.map {pick : Token → Option Operator} (hlow : ∀ {s l}, P s l → Q (f s) l)
    (hsplit : ∀ {s t op}, pick t = some op → f (.op t :: s) = .op t :: f s)
    {xs : List Item} {l : Leaf} (h : Prefixed pick P xs l) : Prefixed pick Q (f xs) l := by
  induction h with
  | lower h => exact .lower (hlow h)
  | step hop _ ih =>
    rw [hsplit hop]
    exact .step hop ih

theorem Conditional.map (hlow : ∀ {s l}, P s l → Q (f s) l)
    (hsplit : ∀ {X Y t}, t.kind = .questionmark ∨ t.kind = .colon →
      f (X ++ .op t :: Y) = f X ++ .op t :: f Y)
    {xs : List Item} {l : Leaf} (h : Conditional P xs l) : Conditional Q (f xs) l := by
  induction h with
  | lower h => exact .lower (hlow h)
  | step hc hq _ hcolon _ iha ihb =>
    rw [hsplit (.inr hcolon), hsplit (.inl hq)]
    exact .step (hlow hc) hq iha hcolon ihb

theorem Assignment.map (hlow : ∀ {s l}, P s l → Q (f s) l)
    (hassign : ∀ {X Y t}, t.kind = .assign → f (X ++ .op t :: Y) = f X ++ .op t :: f Y)
    (hcompound : ∀ {s rs l t op eq}, P s l → Operator.ofToken t = some op →
      op.takesAssign = true → eq.kind = .assign →
      f (s ++ .op t :: .op eq :: rs) = f s ++ .op t :: .op eq :: f rs)
    {xs : List Item} {l : Leaf} (h : Assignment P xs l) : Assignment Q (f xs) l := by
  induction h with
  | lower h => exact .lower (hlow h)
  | assign hs hop _ ih =>
    rw [hassign (kind_of_ofToken_assign hop)]
    exact .assign (hlow hs) hop ih
  | compound hs hop htakes heq _ ih =>
    rw [hcompound hs hop htakes heq]
    exact .compound (hlow hs) hop htakes heq ih

end Map

/-- Pass `j` keeps every layer above its own: given that it maps the forms `P` of the layers
    between to the forms `Q`, it maps the forms of layer `k` over `P` to those over `Q`. -/
theorem layer_map {j k : Nat} (hj : j < 13) (hjk : j < k) {P Q : List Item → Leaf → Prop}
    (hlow : ∀ {s l}, P s l → Q (pass j s) l) (hends : j = 3 → ∀ {s l}, P s l → EndsOperand s)
    {xs : List Item} {l : Leaf} (h : layer k P xs l) : layer k Q (pass j xs) l := by
  match k, hjk, h with
  | 0, hjk, _ => exact absurd hjk (Nat.not_lt_zero j)
  | 1, _, h =>
    -- only the products are folded below the increments, and an increment is no product
    obtain rfl : j = 0 := by omega
    exact Postfixed.map (pass 0) hlow
      (fun hp => pass_append_op (apart_of_inert (inert_zero_of_increment (postfixOf_kind hp)))) h
  | 2, _, h =>
    refine Prefixed.map (pass j) hlow (fun hp => pass_cons ?_) h
    -- a prefix increment has nothing on its left within its own form
    obtain rfl | rfl : j = 0 ∨ j = 1 := by omega
    · exact apart_of_inert (inert_zero_of_increment (incrementOf_kind hp))
    · exact apart_one_nil
  | 3, _, h =>
    exact Prefixed.map (pass j) hlow
      (fun hp => pass_cons (apart_of_inert (inert_of_unaryOf hp (by omega)))) h
  | n + 4, _, h =>
    rcases Nat.lt_trichotomy n 9 with hn | rfl | hn
    · rw [layer_family hn] at h ⊢
      exact LeftChain.map (pass j) hlow (fun hs hop hmem _ => pass_split (apart_binary hop hmem
        (by omega) (fun h3 => LeftChain.endsOperand (hends h3) hs))) h
    · exact Conditional.map (pass j) hlow
        (fun hk => pass_split (apart_of_inert (inert_of_kind (Or.imp_right Or.inl hk) j))) h
    · rw [layer_assignment hn] at h ⊢
      refine Assignment.map (pass j) hlow
        (fun hk => pass_split (apart_of_inert (inert_of_kind (.inr (.inr hk)) j))) ?_ h
      intro s rs l t op eq hs hop htakes heq
      rw [pass_split (apart_compound hop htakes (fun h3 => hends h3 hs)),
        pass_cons (apart_of_inert (inert_of_kind (.inr (.inr heq)) j))]

/-! ## Each pass folds the forms of its own layer -/

theorem leftChain_run {F : List Operator} {s : List Item} {l : Leaf}
    (h : LeftChain F Primary s l) (D Y : List Item) :
    binaryPass F D (s ++ Y) = binaryPass F (.operand l :: D) Y := by
  induction h generalizing D Y with
  | lower h =>
    cases h
    exact binaryPass_operand F D Y _
  | step _ hop hmem hr ih =>
    cases hr
    simp only [List.append_assoc, List.cons_append, List.nil_append]
    rw [ih, binaryPass_merge F hop hmem]

theorem postfixed_run {s : List Item} {l : Leaf} (h : Postfixed Primary s l) (D Y : List Item) :
    postfixPass D (s ++ Y) = postfixPass (.operand l :: D) Y := by
  induction h generalizing D Y with
  | lower h =>
    cases h
    exact postfixPass_operand D Y _
  | step _ hop ih =>
    simp only [List.append_assoc, List.singleton_append]
    rw [ih, postfixPass_fold hop]

/-- A prefixed form, read from the right, folds into its operand whatever lies on its left, as
    long as no operand stands right before it. -/
theorem prefixed_run {pick : Token → Option Operator} {s : List Item} {l : Leaf}
    (h : Prefixed pick Primary s l) (Z D : List Item) (hZ : ¬StartsOperand Z) :
    prefixPass pick (s.reverse ++ Z) D = prefixPass pick Z (.operand l :: D) := by
  induction h generalizing Z D with
  | lower h =>
    cases h
    exact prefixPass_operand pick Z D _
  | step hop _ ih =>
    simp only [List.reverse_cons, List.append_assoc, List.singleton_append]
    rw [ih (.op _ :: Z) D (by simp), prefixPass_fold pick hop hZ]

theorem pass_primary {j : Nat} (hj : j < 13) {xs : List Item} {l : Leaf}
    (h : layer j Primary xs l) : pass j xs = [.operand l] := by
  match j, hj, h with
  | 0, _, h => simpa [pass, Reduce.binaryPass.eq_1] using leftChain_run h [] []
  | 1, _, h => simpa [pass, Reduce.postfixPass] using postfixed_run h [] []
  | 2, _, h => simpa [pass, Reduce.prefixPass] using prefixed_run h [] [] (by simp)
  | 3, _, h => simpa [pass, Reduce.prefixPass] using prefixed_run h [] [] (by simp)
  | n + 4, _, h =>
    rw [layer_family (by omega)] at h
    simpa [pass, Reduce.binaryPass.eq_1] using leftChain_run h [] []

/-- Pass `j` turns a list of the layers from `j` up into one of the layers above `j`. -/
theorem pass_stack {j : Nat} (hj : j < 13) (m : Nat) {xs : List Item} {l : Leaf}
    (h : stack Primary j (m + 1) xs l) : stack Primary (j + 1) m (pass j xs) l := by
  rw [stack_succ_bottom] at h
  induction m generalizing xs l with
  | zero =>
    show Primary _ l
    rw [pass_primary hj h]
    exact .operand l
  | succ m ih =>
    refine layer_map hj (by omega) (fun hs => ih hs) (fun h3 s l hs => ?_) h
    exact stack_endsOperand (show 2 ≤ j by omega) (m + 1) (by rw [stack_succ_bottom]; exact hs)

theorem passes_stack {items : List Item} {l : Leaf} (h : Expression items l) {j : Nat}
    (hj : j ≤ 13) : stack Primary j (15 - j) (passes j items) l := by
  induction j with
  | zero => exact h
  | succ j ih =>
    have hstep := ih (by omega)
    rw [show 15 - j = 14 - j + 1 by omega] at hstep
    rw [show 15 - (j + 1) = 14 - j by omega]
    exact pass_stack (by omega) (14 - j) hstep

/-! ## The conditional and the assignment passes -/

theorem ternaryPass_op {q : Token} (hq : q.kind ≠ .questionmark) (todo D : List Item) :
    ternaryPass (.op q :: todo) D = ternaryPass todo (.op q :: D) := by
  rw [ternaryPass.eq_def]
  simp [hq]

theorem ternaryPass_fold {q colon : Token} (hq : q.kind = .questionmark)
    (hcolon : colon.kind = .colon) (todo D : List Item) (c a b : Leaf) :
    ternaryPass (.op q :: .operand c :: todo) (.operand a :: .op colon :: .operand b :: D) =
      ternaryPass todo (.operand (cond q colon c a b) :: D) := by
  rw [ternaryPass.eq_2]
  simp [hq, hcolon]
  rfl

/-- A conditional, read from the right, folds into its operand whatever lies on its left. -/
theorem conditional_run {s : List Item} {l : Leaf} (h : Conditional Primary s l)
    (Z D : List Item) : ternaryPass (s.reverse ++ Z) D = ternaryPass Z (.operand l :: D) := by
  induction h generalizing Z D with
  | lower h =>
    cases h
    exact ternaryPass.eq_4 D Z _
  | step hc hq _ hcolon _ iha ihb =>
    cases hc
    -- the else branch is read first, then the then branch, then `?` with its condition
    simp only [List.reverse_append, List.reverse_cons, List.nil_append, List.append_assoc,
      List.cons_append]
    rw [ihb, ternaryPass_op (by simp [hcolon]), iha, ternaryPass_fold hq hcolon]

/-- Above the conditionals, the conditional pass leaves an assignment over single operands. -/
theorem assignment_run {s : List Item} {l : Leaf} (h : Assignment (Conditional Primary) s l)
    (Z D : List Item) :
    ∃ ys, Assignment Primary ys l ∧ ternaryPass (s.reverse ++ Z) D = ternaryPass Z (ys ++ D) := by
  induction h generalizing Z D with
  | lower h => exact ⟨[.operand _], .lower (.operand _), conditional_run h Z D⟩
  | @assign s rs l r t hs hop _ ih =>
    obtain ⟨ys, hys, hrun⟩ := ih (.op t :: (s.reverse ++ Z)) D
    refine ⟨.operand l :: .op t :: ys, .assign (.operand l) hop hys, ?_⟩
    simp only [List.reverse_append, List.reverse_cons, List.append_assoc, List.cons_append,
      List.nil_append]
    rw [hrun, ternaryPass_op (kind_ne_questionmark_of_ofToken hop), conditional_run hs]
  | @compound s rs l r t eq op hs hop htakes heq _ ih =>
    obtain ⟨ys, hys, hrun⟩ := ih (.op eq :: .op t :: (s.reverse ++ Z)) D
    refine ⟨.operand l :: .op t :: .op eq :: ys, .compound (.operand l) hop htakes heq hys, ?_⟩
    simp only [List.reverse_append, List.reverse_cons, List.append_assoc, List.cons_append,
      List.nil_append]
    rw [hrun, ternaryPass_op (by simp [heq]), ternaryPass_op (kind_ne_questionmark_of_ofToken hop),
      conditional_run hs]

theorem assignPass_operand (todo D : List Item) (l : Leaf) :
    assignPass (.operand l :: todo) D = assignPass todo (.operand l :: D) :=
  assignPass.eq_3 _ _ _ (by intro _ _ _ h; cases h)

theorem assignPass_assign {t : Token} (hop : Operator.ofToken t = some .assign) (l r : Leaf)
    (todo D : List Item) :
    assignPass (.op t :: .operand l :: todo) (.operand r :: D) =
      assignPass todo (.operand (binary .assign false l r [t]) :: D) := by
  rw [assignPass.eq_2]
  simp [hop, assignRight]

theorem assignPass_compound {t eq : Token} {op : Operator} (hop : Operator.ofToken t = some op)
    (htakes : op.takesAssign = true) (heq : eq.kind = .assign) (l r : Leaf) (todo D : List Item) :
    assignPass (.op t :: .operand l :: todo) (.op eq :: .operand r :: D) =
      assignPass todo (.operand (binary op true l r [t, eq]) :: D) := by
  rw [assignPass.eq_2]
  simp [hop, assignRight, htakes, heq]

/-- An assignment over single operands, read from the right, folds into its operand. -/
theorem assignPass_run {s : List Item} {l : Leaf} (h : Assignment Primary s l) (Z D : List Item) :
    assignPass (s.reverse ++ Z) D = assignPass Z (.operand l :: D) := by
  induction h generalizing Z D with
  | lower h =>
    cases h
    exact assignPass_operand Z D _
  | assign hs hop _ ih =>
    cases hs
    simp only [List.reverse_cons, List.nil_append, List.append_assoc, List.cons_append]
    rw [ih, assignPass_assign hop]
  | compound hs hop htakes heq _ ih =>
    cases hs
    simp only [List.reverse_cons, List.nil_append, List.append_assoc, List.cons_append]
    -- the `=` is passed over first, then the operator finds it at the front of the right side
    rw [ih, assignPass.eq_3 _ _ _ (by intro _ _ _ _ h; cases h),
      assignPass_compound hop htakes heq]

/-! ## Completeness -/

/-- Every list that the grammar derives is reduced to its operand. -/
theorem reduce_complete {items : List Item} {l : Leaf} (h : Expression items l) (line : Nat) :
    Item.reduce items line = .ok l.toExpr := by
  -- after the thirteen passes below the conditional, assignments over conditionals remain
  have hstack : Assignment (Conditional Primary) (passes 13 items) l :=
    passes_stack h (Nat.le_refl 13)
  obtain ⟨ys, hys, hrun⟩ := assignment_run hstack [] []
  have hternary : ternaryPass (passes 13 items).reverse [] = .ok ys := by
    simpa [ternaryPass.eq_1] using hrun
  have hassign : assignPass ys.reverse [] = [.operand l] := by
    simpa [assignPass.eq_1] using assignPass_run hys [] []
  exact (reduce_eq_ok_iff items line _).2 ⟨ys, l, hternary, hassign, rfl⟩

/-- `Item.reduce` succeeds exactly on the item lists that the precedence grammar derives, and
    returns the derived tree. -/
theorem reduce_eq_ok_iff_expression (items : List Item) (line : Nat) (e : Expr) :
    Item.reduce items line = .ok e ↔ ∃ l, Expression items l ∧ e = l.toExpr := by
  constructor
  · exact reduce_sound
  · rintro ⟨l, h, rfl⟩
    exact reduce_complete h line

/-- The precedence grammar is unambiguous: a list derives at most one tree. -/
theorem expression_unique {items : List Item} {l l' : Leaf} (h : Expression items l)
    (h' : Expression items l') : l.toExpr = l'.toExpr := by
  have hl := reduce_complete h 0
  rw [reduce_complete h' 0] at hl
  exact (Except.ok.inj hl).symm

end Grammar

/-! ## Reading an expression -/

namespace ExprParser

theorem parseExpr_succ (fuel : Nat) (stop : List TokenKind) (c : Cursor) :
    parseExpr (fuel + 1) stop c = (collect fuel stop true [] c).bind
      fun r => (Item.reduce r.1 r.2.lastLine).map (·, r.2) := by
  simp only [parseExpr, bind, StateT.bind, get, getThe, MonadStateOf.get, StateT.get, lift, pure]
  cases collect fuel stop true [] c <;> rfl

theorem expression_eq (stop : List TokenKind) (c : Cursor) :
    expression stop c = parseExpr (8 * c.rest.length + 7 + 1) stop c := by
  simp only [expression, bind, StateT.bind, get, getThe, MonadStateOf.get, StateT.get, budget]
  rfl

/-- Reading an expression collects the flat list of operands and operators up to the stop set,
    and then succeeds exactly when the precedence grammar derives that list, with the derived
    tree; the cursor is left where collecting stopped. -/
theorem expression_eq_ok_iff_derives (stop : List TokenKind) (c c' : Cursor) (e : Expr) :
    expression stop c = .ok (e, c') ↔
      ∃ items, collect (8 * c.rest.length + 7) stop true [] c = .ok (items, c') ∧
        ∃ l, Grammar.Expression items l ∧ e = l.toExpr := by
  rw [expression_eq, parseExpr_succ]
  cases hc : collect (8 * c.rest.length + 7) stop true [] c with
  | error err => simp [Except.bind]
  | ok r =>
    obtain ⟨items, c₁⟩ := r
    simp only [Except.bind, Except.ok.injEq, Prod.mk.injEq]
    constructor
    · intro h
      cases hr : Item.reduce items c₁.lastLine with
      | error err => simp [hr, Except.map] at h
      | ok e' =>
        simp only [hr, Except.map, Except.ok.injEq, Prod.mk.injEq] at h
        obtain ⟨rfl, rfl⟩ := h
        exact ⟨items, ⟨rfl, rfl⟩, (Grammar.reduce_eq_ok_iff_expression items _ _).1 hr⟩
    · rintro ⟨_, ⟨rfl, rfl⟩, hder⟩
      rw [(Grammar.reduce_eq_ok_iff_expression items _ e).2 hder]
      rfl

end ExprParser

end ZScript
