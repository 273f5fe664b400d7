import ZScript.Proofs.Grammar

/-!
# What the passes build is derived

Each reduction pass replaces stretches of the flat list by single operands. `Covers R s xs` says
that the partly reduced list `xs` stands for the flat list `s`: every operand of `xs` derives,
by `R`, its own stretch of `s`, and every operator stands for itself. A list covers itself under
`Primary`, and a single operand covers `s` exactly when it derives `s`.

Every pass turns a cover under the forms of the layers below it into a cover under the forms of
its own layer (`pass_covers`, `ternaryPass_covers`, `assignPass_covers`), whatever the list.
Hence whenever `Item.reduce` succeeds its tree is derived by the grammar (`reduce_sound`).

A left-to-right pass keeps the items it has passed over in reverse (`done`), a right-to-left pass
keeps the reversed rest (`todo`); the covers are stated on the lists in reading order.
-/

namespace ZScript

namespace Grammar

/-- `Covers R s xs`: the partly reduced list `xs` stands for the flat list `s`, each operand of
    `xs` deriving (by `R`) its own stretch of `s` and each operator standing for itself. -/
inductive Covers (R : List Item → Leaf → Prop) : List Item → List Item → Prop
  | nil : Covers R [] []
  | op {s xs : List Item} (t : Token) : Covers R s xs → Covers R (.op t :: s) (.op t :: xs)
  | operand {a s xs : List Item} {l : Leaf} :
      R a l → Covers R s xs → Covers R (a ++ s) (.operand l :: xs)

namespace Covers

variable {R R' : List Item → Leaf → Prop}

theorem append {s s' xs xs' : List Item} (h : Covers R s xs) (h' : Covers R s' xs') :
    Covers R (s ++ s') (xs ++ xs') := by
  induction h with
  | nil => exact h'
  | op t _ ih => exact .op t ih
  | operand hl _ ih =>
    rw [List.append_assoc]
    exact .operand hl ih

/-- A cover of a concatenation splits the flat list at the matching place. -/
theorem append_inv {s xs ys : List Item} (h : Covers R s (xs ++ ys)) :
    ∃ a b, s = a ++ b ∧ Covers R a xs ∧ Covers R b ys := by
  induction xs generalizing s with
  | nil => exact ⟨[], s, rfl, .nil, h⟩
  | cons x xs ih =>
    cases h with
    | op t h' =>
      obtain ⟨a, b, rfl, ha, hb⟩ := ih h'
      exact ⟨.op t :: a, b, rfl, .op t ha, hb⟩
    | operand hl h' =>
      obtain ⟨a, b, rfl, ha, hb⟩ := ih h'
      exact ⟨_ ++ a, b, (List.append_assoc _ _ _).symm, .operand hl ha, hb⟩

theorem mono (hR : ∀ s l, R s l → R' s l) {s xs : List Item} (h : Covers R s xs) :
    Covers R' s xs := by
  induction h with
  | nil => exact .nil
  | op t _ ih => exact .op t ih
  | operand hl _ ih => exact .operand (hR _ _ hl) ih

/-- Before any pass, the flat list covers itself. -/
theorem primary (xs : List Item) : Covers Primary xs xs := by
  induction xs with
  | nil => exact .nil
  | cons x xs ih =>
    cases x with
    | operand l => exact .operand (a := [.operand l]) (.operand l) ih
    | op t => exact .op t ih

theorem nil_inv {s : List Item} (h : Covers R s []) : s = [] := by
  cases h
  rfl

theorem op_inv {s xs : List Item} {t : Token} (h : Covers R s (.op t :: xs)) :
    ∃ b, s = .op t :: b ∧ Covers R b xs := by
  cases h with
  | op _ h' => exact ⟨_, rfl, h'⟩

theorem operand_inv {s xs : List Item} {l : Leaf} (h : Covers R s (.operand l :: xs)) :
    ∃ a b, s = a ++ b ∧ R a l ∧ Covers R b xs := by
  cases h with
  | operand hl h' => exact ⟨_, _, rfl, hl, h'⟩

/-- A single operand covers exactly what it derives. -/
theorem singleton_iff {s : List Item} {l : Leaf} : Covers R s [.operand l] ↔ R s l := by
  constructor
  · intro h
    obtain ⟨a, b, rfl, hl, hb⟩ := operand_inv h
    rw [nil_inv hb, List.append_nil]
    exact hl
  · intro h
    simpa using Covers.operand h .nil

/-- Moving the next item of a left-to-right pass onto the items passed over. -/
theorem shift {a b : List Item} {done tail : List Item} {x : Item}
    (hR : ∀ s l, R s l → R' s l) (hd : Covers R' a done.reverse) (ht : Covers R b (x :: tail)) :
    ∃ a' b', a ++ b = a' ++ b' ∧ Covers R' a' (x :: done).reverse ∧ Covers R b' tail := by
  cases ht with
  | op t h' =>
    refine ⟨a ++ [.op t], _, by simp, ?_, h'⟩
    simpa using hd.append (.op t .nil)
  | operand hl h' =>
    refine ⟨a ++ _, _, (List.append_assoc _ _ _).symm, ?_, h'⟩
    simpa using hd.append (singleton_iff.2 (hR _ _ hl))

/-- Moving the next item of a right-to-left pass onto the items passed over. -/
theorem shift_left {a b : List Item} {done todo : List Item} {x : Item}
    (hR : ∀ s l, R s l → R' s l) (ht : Covers R b (x :: todo).reverse) (hd : Covers R' a done) :
    ∃ a' b', b ++ a = b' ++ a' ∧ Covers R b' todo.reverse ∧ Covers R' a' (x :: done) := by
  rw [List.reverse_cons] at ht
  obtain ⟨b₁, b₂, rfl, h₁, h₂⟩ := append_inv ht
  refine ⟨b₂ ++ a, b₁, List.append_assoc _ _ _, h₁, ?_⟩
  cases x with
  | op t =>
    obtain ⟨b', rfl, hb'⟩ := op_inv h₂
    rw [nil_inv hb']
    exact .op t hd
  | operand l =>
    exact .operand (hR _ _ (singleton_iff.1 h₂)) hd

end Covers

/-! ## Left-to-right passes -/

variable {R : List Item → Leaf → Prop}

theorem binaryPass_covers (F : List Operator) (done todo : List Item) {a b : List Item}
    (hd : Covers (LeftChain F R) a done.reverse) (ht : Covers R b todo) :
    Covers (LeftChain F R) (a ++ b) (Reduce.binaryPass F done todo) := by
  fun_induction Reduce.binaryPass F done todo generalizing a b with
  | case1 done =>
    rw [Covers.nil_inv ht, List.append_nil]
    exact hd
  | case2 l done' t r rest op hop hmem ih =>
    -- `l t r` becomes one operand; its stretch is `l`'s, then `t`, then `r`'s
    rw [List.reverse_cons] at hd
    obtain ⟨a₁, a₂, rfl, h₁, h₂⟩ := Covers.append_inv hd
    obtain ⟨b', rfl, hb'⟩ := Covers.op_inv ht
    obtain ⟨br, b'', rfl, hr, hb''⟩ := Covers.operand_inv hb'
    have hchain : LeftChain F R (a₂ ++ .op t :: br) (Reduce.binary op false l r [t]) :=
      .step (Covers.singleton_iff.1 h₂) hop (List.contains_iff_mem.1 hmem) hr
    have := ih (a := a₁ ++ (a₂ ++ .op t :: br)) (b := b'')
      (by simpa using h₁.append (Covers.singleton_iff.2 hchain)) hb''
    simpa using this
  | case3 l done' t r rest _ _ _ ih | case4 l done' t r rest _ ih =>
    obtain ⟨b', rfl, hb'⟩ := Covers.op_inv ht
    have := ih (a := a ++ [.op t]) (b := b')
      (by simpa using hd.append (.op t .nil)) hb'
    simpa using this
  | case5 done x tail _ ih =>
    obtain ⟨a', b', he, ha', hb'⟩ := Covers.shift (fun _ _ h => .lower h) hd ht
    rw [he]
    exact ih ha' hb'

theorem postfixPass_covers (done todo : List Item) {a b : List Item}
    (hd : Covers (Postfixed R) a done.reverse) (ht : Covers R b todo) :
    Covers (Postfixed R) (a ++ b) (Reduce.postfixPass done todo) := by
  fun_induction Reduce.postfixPass done todo generalizing a b with
  | case1 done =>
    rw [Covers.nil_inv ht, List.append_nil]
    exact hd
  | case2 tail l done' t op hop ih =>
    rw [List.reverse_cons] at hd
    obtain ⟨a₁, a₂, rfl, h₁, h₂⟩ := Covers.append_inv hd
    obtain ⟨b', rfl, hb'⟩ := Covers.op_inv ht
    have hpost : Postfixed R (a₂ ++ [.op t]) (Reduce.unary op l t) :=
      .step (Covers.singleton_iff.1 h₂) hop
    have := ih (a := a₁ ++ (a₂ ++ [.op t])) (b := b')
      (by simpa using h₁.append (Covers.singleton_iff.2 hpost)) hb'
    simpa using this
  | case3 tail l done' t _ ih | case4 done x tail _ ih =>
    obtain ⟨a', b', he, ha', hb'⟩ := Covers.shift (fun _ _ h => .lower h) hd ht
    rw [he]
    exact ih ha' hb'

/-! ## Right-to-left passes -/

theorem prefixPass_covers (pick : Token → Option Operator) (todo done : List Item)
    {a b : List Item} (ht : Covers R b todo.reverse) (hd : Covers (Prefixed pick R) a done) :
    Covers (Prefixed pick R) (b ++ a) (Reduce.prefixPass pick todo done) := by
  fun_induction Reduce.prefixPass pick todo done generalizing a b with
  | case1 done =>
    rw [Covers.nil_inv ht, List.nil_append]
    exact hd
  | case3 todo t r done' op hop _ ih =>
    -- `t r` becomes one operand; its stretch is `t`, then `r`'s
    rw [List.reverse_cons] at ht
    obtain ⟨b₁, b₂, rfl, h₁, h₂⟩ := Covers.append_inv ht
    obtain ⟨b', rfl, hb'⟩ := Covers.op_inv h₂
    rw [Covers.nil_inv hb'] at *
    obtain ⟨ar, a', rfl, hr, ha'⟩ := Covers.operand_inv hd
    have := ih (a := (.op t :: ar) ++ a') (b := b₁) h₁ (.operand (.step hop hr) ha')
    simpa using this
  | case2 todo t r done' _ _ _ ih | case4 todo t r done' _ ih | case5 x todo done _ ih =>
    obtain ⟨a', b', he, hb', ha'⟩ := Covers.shift_left (fun _ _ h => .lower h) ht hd
    rw [he]
    exact ih hb' ha'

theorem ternaryPass_covers (todo done : List Item) {a b out : List Item}
    (h : Reduce.ternaryPass todo done = .ok out) (ht : Covers R b todo.reverse)
    (hd : Covers (Conditional R) a done) : Covers (Conditional R) (b ++ a) out := by
  fun_induction Reduce.ternaryPass todo done generalizing a b with
  | case1 done =>
    cases h
    rw [Covers.nil_inv ht, List.nil_append]
    exact hd
  | case2 q hq c todo' la colon lb done' hcolon ih =>
    -- `c ? a : b` becomes one operand; its stretch runs from `c`'s to `b`'s
    simp only [List.reverse_cons, List.append_assoc, List.singleton_append] at ht
    obtain ⟨b₁, b₂, rfl, h₁, h₂⟩ := Covers.append_inv ht
    obtain ⟨bc, b₃, rfl, hc, h₃⟩ := Covers.operand_inv h₂
    obtain ⟨b₄, rfl, h₄⟩ := Covers.op_inv h₃
    rw [Covers.nil_inv h₄] at *
    obtain ⟨aa, a₁, rfl, ha, h₅⟩ := Covers.operand_inv hd
    obtain ⟨a₂, rfl, h₆⟩ := Covers.op_inv h₅
    obtain ⟨ab, ad, rfl, hb, h₇⟩ := Covers.operand_inv h₆
    have hcond : Conditional R (bc ++ .op q :: aa ++ .op colon :: ab) (cond q colon c la lb) :=
      .step hc (beq_iff_eq.1 hq) ha (beq_iff_eq.1 hcolon) hb
    have := ih h (a := (bc ++ .op q :: aa ++ .op colon :: ab) ++ ad) (b := b₁) h₁
      (.operand hcond h₇)
    simpa using this
  | case3 | case4 => cases h
  | case5 todo done q _ ih | case6 todo done l ih =>
    obtain ⟨a', b', he, hb', ha'⟩ := Covers.shift_left (fun _ _ h => .lower h) ht hd
    rw [he]
    exact ih h hb' ha'

/-- What `assignRight` finds to the right of an assignment operator: the operand alone after
    `=`, or the `=` of a compound assignment and then the operand. -/
theorem assignRight_eq_some {op : Operator} {done rest : List Item} {eqs : List Token}
    {compound : Bool} {r : Leaf}
    (h : Reduce.assignRight op done = some (eqs, compound, r, rest)) :
    (op = .assign ∧ eqs = [] ∧ compound = false ∧ done = .operand r :: rest) ∨
      (∃ eq, op.takesAssign = true ∧ eq.kind = .assign ∧ eqs = [eq] ∧ compound = true ∧
        done = .op eq :: .operand r :: rest) := by
  unfold Reduce.assignRight at h
  split at h
  · next eq r' rest' =>
    split at h
    · next hc =>
      simp only [Bool.and_eq_true, beq_iff_eq] at hc
      simp only [Option.some.injEq, Prod.mk.injEq] at h
      obtain ⟨rfl, rfl, rfl, rfl⟩ := h
      exact .inr ⟨eq, hc.1, hc.2, rfl, rfl, rfl⟩
    · cases h
  · next r' rest' =>
    split at h
    · next hc =>
      simp only [Option.some.injEq, Prod.mk.injEq] at h
      obtain ⟨rfl, rfl, rfl, rfl⟩ := h
      exact .inl ⟨beq_iff_eq.1 hc, rfl, rfl, rfl⟩
    · cases h
  · cases h

theorem assignPass_covers (todo done : List Item) {a b : List Item}
    (ht : Covers R b todo.reverse) (hd : Covers (Assignment R) a done) :
    Covers (Assignment R) (b ++ a) (Reduce.assignPass todo done) := by
  fun_induction Reduce.assignPass todo done generalizing a b with
  | case1 done =>
    rw [Covers.nil_inv ht, List.nil_append]
    exact hd
  | case2 t l todo' done op eqs compound r rest hfound ih =>
    obtain ⟨op', hop', hmap⟩ := Option.bind_eq_some_iff.1 hfound
    obtain ⟨found, hright, hpair⟩ := Option.map_eq_some_iff.1 hmap
    simp only [Prod.mk.injEq] at hpair
    obtain ⟨rfl, rfl⟩ := hpair
    -- the left operand `l` and the operator `t` end the rest still to read
    simp only [List.reverse_cons, List.append_assoc, List.singleton_append] at ht
    obtain ⟨b₁, b₂, rfl, h₁, h₂⟩ := Covers.append_inv ht
    obtain ⟨bl, b₃, rfl, hl, h₃⟩ := Covers.operand_inv h₂
    obtain ⟨b₄, rfl, h₄⟩ := Covers.op_inv h₃
    rw [Covers.nil_inv h₄] at *
    rcases assignRight_eq_some hright with ⟨rfl, rfl, rfl, rfl⟩ | ⟨eq, hta, heq, rfl, rfl, rfl⟩
    · obtain ⟨ar, a', rfl, hr, ha'⟩ := Covers.operand_inv hd
      have := ih (a := (bl ++ .op t :: ar) ++ a') (b := b₁) h₁ (.operand (.assign hl hop' hr) ha')
      simpa using this
    · obtain ⟨a₁, rfl, h₅⟩ := Covers.op_inv hd
      obtain ⟨ar, a', rfl, hr, ha'⟩ := Covers.operand_inv h₅
      have := ih (a := (bl ++ .op t :: .op eq :: ar) ++ a') (b := b₁) h₁
        (.operand (.compound hl hop' hta heq hr) ha')
      simpa using this
  | case3 t l todo' done _ ih =>
    have ht' : Covers R b (Item.op t :: Item.operand l :: todo').reverse := ht
    obtain ⟨a', b', he, hb', ha'⟩ := Covers.shift_left (fun _ _ h => .lower h) ht' hd
    rw [he]
    exact ih hb' ha'
  | case4 x todo done _ ih =>
    obtain ⟨a', b', he, hb', ha'⟩ := Covers.shift_left (fun _ _ h => .lower h) ht hd
    rw [he]
    exact ih hb' ha'

/-! ## The whole reduction -/

/-- Each pass below the conditional folds its layer over the forms of the layers below. -/
theorem pass_covers {n : Nat} (hn : n < 13) {s xs : List Item} (h : Covers R s xs) :
    Covers (layer n R) s (pass n xs) := by
  match n, hn with
  | 0, _ =>
    show Covers (LeftChain products R) s (Reduce.binaryPass products [] xs)
    simpa using binaryPass_covers (R := R) products [] xs .nil h
  | 1, _ =>
    show Covers (Postfixed R) s (Reduce.postfixPass [] xs)
    simpa using postfixPass_covers (R := R) [] xs .nil h
  | 2, _ =>
    show Covers (Prefixed Reduce.incrementOf R) s (Reduce.prefixPass _ xs.reverse [])
    simpa using prefixPass_covers (R := R) _ xs.reverse [] (by simpa using h) .nil
  | 3, _ =>
    show Covers (Prefixed Reduce.unaryOf R) s (Reduce.prefixPass _ xs.reverse [])
    simpa using prefixPass_covers (R := R) _ xs.reverse [] (by simpa using h) .nil
  | n + 4, hn =>
    rw [layer_family (by omega)]
    show Covers _ s (Reduce.binaryPass _ [] xs)
    simpa using binaryPass_covers (R := R) (Reduce.families.getD n []) [] xs .nil h

theorem passes_covers (items : List Item) {n : Nat} (hn : n ≤ 13) :
    Covers (stack Primary 0 n) items (passes n items) := by
  induction n with
  | zero => exact Covers.primary items
  | succ n ih =>
    have h := pass_covers (n := n) (R := stack Primary 0 n) (by omega) (ih (by omega))
    simpa [stack, passes] using h

/-- Whenever reduction succeeds, its tree is derived by the grammar. -/
theorem reduce_sound {items : List Item} {line : Nat} {e : Expr}
    (h : Item.reduce items line = .ok e) : ∃ l, Expression items l ∧ e = l.toExpr := by
  obtain ⟨ys, l, hys, hl, rfl⟩ := (reduce_eq_ok_iff items line e).1 h
  have h13 := passes_covers items (Nat.le_refl 13)
  have h14 : Covers (stack Primary 0 14) items ys := by
    have := ternaryPass_covers (R := stack Primary 0 13) _ [] hys (by simpa using h13) .nil
    simpa [stack, layer_thirteen] using this
  have h15 : Covers (stack Primary 0 15) items [.operand l] := by
    have := assignPass_covers (R := stack Primary 0 14) ys.reverse [] (by simpa using h14) .nil
    rw [hl] at this
    simpa [stack, layer_fourteen] using this
  exact ⟨l, Covers.singleton_iff.1 h15, rfl⟩

end Grammar

end ZScript
