import Mathlib
import ZScript.Expr.Fold

/-!
# Integer constant folding is exact 32-bit arithmetic

The integer fragment of the expressions is built from integer and boolean literals, the unary
`-`, `~` and `!`, the arithmetic, shift, bitwise, comparison and logical binary operators (not
assigning), and the conditional. Its meaning is given here in the integers, independently of the
32-bit operations the folding uses: a value is a 32-bit integer or a truth value, a truth value
reads as `0` or `1` where an integer is needed (`IntFold.reading`), and every integer result is
the exact integer result taken modulo `2^32` and read as signed (`wrap`). Division
truncates toward zero, the remainder takes the dividend's sign, both give `0` for a zero divisor,
shift counts are taken modulo 32, `>>` is the floor of a division by a power of two and `>>>`
divides the unsigned reading.

`IntFold.Denotes` is that meaning as a relation between operands and values; only the branch a
conditional takes has to lie in the fragment. `Expr.fold_integer_fragment` says that folding an
expression of the fragment gives exactly its meaning.
-/

namespace ZScript

namespace IntFold

/-- `x` modulo `2^32`, read as a signed 32-bit integer. -/
def wrap (x : Int) : Int32 := Int32.ofInt x

/-- The unsigned reading of `x`: its residue modulo `2^32`. -/
def unsigned (x : Int) : Nat := (x % 2 ^ 32).toNat

/-- A shift count: `y` modulo 32. -/
def shiftCount (y : Int) : Nat := (y % 32).toNat

/-- The integer a value is read as where one is needed: a truth value reads as `0` or `1`. -/
def reading : Int32 ⊕ Bool → Int
  | .inl i => i.toInt
  | .inr b => if b then 1 else 0

/-- A value as folding reports it. -/
def toValue : Int32 ⊕ Bool → Value
  | .inl i => .int i
  | .inr b => .bool b

/-- The meaning of a binary operator of the fragment on the integer readings of its operands;
    nothing for the other operators. -/
def binary : Operator → Int → Int → Option (Int32 ⊕ Bool)
  | .add, x, y => some (.inl (wrap (x + y)))
  | .sub, x, y => some (.inl (wrap (x - y)))
  | .mul, x, y => some (.inl (wrap (x * y)))
  | .div, x, y => some (.inl (if y = 0 then 0 else wrap (x.tdiv y)))
  | .modulo, x, y => some (.inl (if y = 0 then 0 else wrap (x.tmod y)))
  | .bitShl, x, y => some (.inl (wrap (x * 2 ^ shiftCount y)))
  | .bitShr, x, y => some (.inl (wrap (x / 2 ^ shiftCount y)))
  | .bitShrUnsigned, x, y => some (.inl (wrap (unsigned x / 2 ^ shiftCount y : Nat)))
  | .bitAnd, x, y => some (.inl (wrap (unsigned x &&& unsigned y : Nat)))
  | .bitOr, x, y => some (.inl (wrap (unsigned x ||| unsigned y : Nat)))
  | .xor, x, y => some (.inl (wrap (unsigned x ^^^ unsigned y : Nat)))
  | .cmpLT, x, y => some (.inr (decide (x < y)))
  | .cmpGT, x, y => some (.inr (decide (y < x)))
  | .cmpLTEQ, x, y => some (.inr (decide (x ≤ y)))
  | .cmpGTEQ, x, y => some (.inr (decide (y ≤ x)))
  | .cmpEq, x, y | .cmpSomewhatEq, x, y => some (.inr (decide (x = y)))
  | .cmpNotEq, x, y => some (.inr (decide (x ≠ y)))
  | .cmpSpaceship, x, y => some (.inl (if x < y then -1 else if y < x then 1 else 0))
  | .logicalAnd, x, y => some (.inr (decide (x ≠ 0 ∧ y ≠ 0)))
  | .logicalOr, x, y => some (.inr (decide (x ≠ 0 ∨ y ≠ 0)))
  | _, _, _ => none

/-- `Denotes l v`: the operand `l` lies in the integer fragment and means `v`. A node is in the
    fragment when its operator is, it has the operands its operator reads, and so are those
    operands; of a conditional, only the branch its condition picks. -/
inductive Denotes : Leaf → Int32 ⊕ Bool → Prop
  | integer (t : Token) : Denotes (.integer t) (.inl (wrap t.intValue))
  | boolean (t : Token) : Denotes (.boolean t) (.inr (t.isKeyword "true"))
  | literal {l : Leaf} {v : Int32 ⊕ Bool} {a : Bool} {ls : List Leaf} {os ss : List Token}
      {ty : Option Ty} :
      Denotes l v → Denotes (.expr ⟨.literal, a, l :: ls, os, ss, ty⟩) v
  | minus {l : Leaf} {v : Int32 ⊕ Bool} {a : Bool} {ls : List Leaf} {os ss : List Token}
      {ty : Option Ty} :
      Denotes l v →
        Denotes (.expr ⟨.unaryMinus, a, l :: ls, os, ss, ty⟩) (.inl (wrap (-reading v)))
  | complement {l : Leaf} {v : Int32 ⊕ Bool} {a : Bool} {ls : List Leaf} {os ss : List Token}
      {ty : Option Ty} :
      Denotes l v →
        Denotes (.expr ⟨.unaryNeg, a, l :: ls, os, ss, ty⟩) (.inl (wrap (-reading v - 1)))
  | not {l : Leaf} {v : Int32 ⊕ Bool} {a : Bool} {ls : List Leaf} {os ss : List Token}
      {ty : Option Ty} :
      Denotes l v → Denotes (.expr ⟨.unaryNot, a, l :: ls, os, ss, ty⟩) (.inr (reading v = 0))
  | binary {op : Operator} {l r : Leaf} {u v w : Int32 ⊕ Bool} {os ss : List Token}
      {ty : Option Ty} :
      Denotes l u → Denotes r v → binary op (reading u) (reading v) = some w →
        Denotes (.expr ⟨op, false, [l, r], os, ss, ty⟩) w
  | ternaryTrue {c x y : Leaf} {u v : Int32 ⊕ Bool} {a : Bool} {ls : List Leaf}
      {os ss : List Token} {ty : Option Ty} :
      Denotes c u → reading u ≠ 0 → Denotes x v →
        Denotes (.expr ⟨.ternary, a, c :: x :: y :: ls, os, ss, ty⟩) v
  | ternaryFalse {c x y : Leaf} {u v : Int32 ⊕ Bool} {a : Bool} {ls : List Leaf}
      {os ss : List Token} {ty : Option Ty} :
      Denotes c u → reading u = 0 → Denotes y v →
        Denotes (.expr ⟨.ternary, a, c :: x :: y :: ls, os, ss, ty⟩) v

/-! ### The 32-bit operations are the exact ones, wrapped -/

/-- The signed value of a 32-bit integer modulo 32 is its bit pattern modulo 32. -/
theorem toNat_toInt_emod_32 (b : Int32) : (b.toInt % 32).toNat = b.toBitVec.toNat % 32 := by
  have h := BitVec.toInt_eq_toNat_bmod b.toBitVec
  have hlt := b.toBitVec.isLt
  rw [Int32.toInt_toBitVec, Int.bmod_def] at h
  split at h <;> omega

/-- The unsigned reading of a 32-bit integer is its bit pattern. -/
theorem unsigned_toInt (a : Int32) : unsigned a.toInt = a.toBitVec.toNat := by
  have h := BitVec.toInt_eq_toNat_bmod a.toBitVec
  have hlt := a.toBitVec.isLt
  rw [Int32.toInt_toBitVec, Int.bmod_def] at h
  unfold unsigned
  split at h <;> omega

/-- The shift amount of a 32-bit shift, the signed remainder by 32, is the count modulo 32. -/
theorem toNat_smod_32 (b : Int32) : (b.toBitVec.smod 32).toNat = shiftCount b.toInt := by
  have h1 : (b.toBitVec.smod 32).toInt = b.toInt % 32 := by
    rw [BitVec.toInt_smod, Int32.toInt_toBitVec, show (32 : BitVec 32).toInt = 32 from rfl]
    exact Int.fmod_eq_emod_of_nonneg _ (by decide)
  have h := BitVec.toInt_eq_toNat_bmod (b.toBitVec.smod 32)
  have hlt := (b.toBitVec.smod 32).isLt
  have hcount := toNat_toInt_emod_32 b
  unfold shiftCount
  rw [h1, Int.bmod_def] at h
  split at h <;> omega

/-- Wrapping the bit pattern gives the integer back. -/
theorem wrap_toNat (x : Int32) : wrap (x.toBitVec.toNat : Int) = x := by
  apply Int32.toBitVec_inj.1
  rw [wrap, Int32.toBitVec_ofInt, BitVec.ofInt_natCast, BitVec.ofNat_toNat,
    BitVec.setWidth_eq]

theorem wrap_toInt (x : Int32) : wrap x.toInt = x := Int32.ofInt_toInt x

theorem add_eq_wrap (a b : Int32) : a + b = wrap (a.toInt + b.toInt) := by
  simp [wrap]

theorem sub_eq_wrap (a b : Int32) : a - b = wrap (a.toInt - b.toInt) := by
  simp [wrap]

theorem mul_eq_wrap (a b : Int32) : a * b = wrap (a.toInt * b.toInt) := by
  simp [wrap]

theorem neg_eq_wrap (a : Int32) : -a = wrap (-a.toInt) := by
  simp [wrap]

/-- Division truncates toward zero and wraps, so `MIN / -1 = MIN`. -/
theorem div_eq_wrap (a b : Int32) : a / b = wrap (a.toInt.tdiv b.toInt) := by
  rw [wrap, eq_comm, Int32.ofInt_eq_iff_bmod_eq_toInt, Int32.toInt_div]

/-- The remainder takes the dividend's sign. -/
theorem mod_eq_wrap (a b : Int32) : a % b = wrap (a.toInt.tmod b.toInt) := by
  rw [← Int32.toInt_mod, wrap_toInt]

/-- The complement is `-a - 1`. -/
theorem not_eq_wrap (a : Int32) : ~~~a = wrap (-a.toInt - 1) := by
  rw [wrap, eq_comm, Int32.ofInt_eq_iff_bmod_eq_toInt, Int32.toInt_not]

/-- A left shift multiplies by a power of two, the count taken modulo 32, and wraps. -/
theorem shiftLeft_eq_wrap (a b : Int32) :
    a <<< b = wrap (a.toInt * 2 ^ shiftCount b.toInt) := by
  apply Int32.toBitVec_inj.1
  rw [wrap, Int32.toBitVec_ofInt, Int32.toBitVec_shiftLeft]
  apply BitVec.eq_of_toInt_eq
  rw [BitVec.toInt_ofInt, BitVec.shiftLeft_eq', BitVec.toInt_shiftLeft, ← Int32.toInt_toBitVec,
    BitVec.toInt_eq_toNat_bmod, Int.bmod_mul_bmod, Nat.shiftLeft_eq, toNat_smod_32]
  push_cast
  rfl

/-- An arithmetic right shift is the floor of a division by a power of two. -/
theorem shiftRight_eq_wrap (a b : Int32) :
    a >>> b = wrap (a.toInt / 2 ^ shiftCount b.toInt) := by
  have h : a.toInt / 2 ^ shiftCount b.toInt = (a >>> b).toInt := by
    rw [← Int32.toInt_toBitVec (a >>> b), Int32.toBitVec_shiftRight, BitVec.sshiftRight',
      BitVec.toInt_sshiftRight, Int.shiftRight_eq_div_pow, toNat_smod_32, Int32.toInt_toBitVec]
    push_cast
    rfl
  rw [h, wrap_toInt]

/-- A logical right shift divides the unsigned reading by a power of two. -/
theorem ushiftRight_eq_wrap (a b : Int32) :
    (a.toUInt32 >>> (b.toUInt32 % 32)).toInt32 =
      wrap (unsigned a.toInt / 2 ^ shiftCount b.toInt : Nat) := by
  rw [unsigned_toInt, shiftCount, toNat_toInt_emod_32]
  have h : (a.toBitVec.toNat / 2 ^ (b.toBitVec.toNat % 32) : Nat) =
      ((a.toUInt32 >>> (b.toUInt32 % 32)).toInt32).toBitVec.toNat := by
    simp [Nat.shiftRight_eq_div_pow]
  rw [h, wrap_toNat]

theorem and_eq_wrap (a b : Int32) :
    a &&& b = wrap (unsigned a.toInt &&& unsigned b.toInt : Nat) := by
  rw [unsigned_toInt, unsigned_toInt, ← BitVec.toNat_and, ← Int32.toBitVec_and, wrap_toNat]

theorem or_eq_wrap (a b : Int32) :
    a ||| b = wrap (unsigned a.toInt ||| unsigned b.toInt : Nat) := by
  rw [unsigned_toInt, unsigned_toInt, ← BitVec.toNat_or, ← Int32.toBitVec_or, wrap_toNat]

theorem xor_eq_wrap (a b : Int32) :
    a ^^^ b = wrap (unsigned a.toInt ^^^ unsigned b.toInt : Nat) := by
  rw [unsigned_toInt, unsigned_toInt, ← BitVec.toNat_xor, ← Int32.toBitVec_xor, wrap_toNat]

/-- Equality of 32-bit integers is equality of their values. -/
theorem beq_eq_decide (a b : Int32) : (a == b) = decide (a.toInt = b.toInt) := by
  rw [Bool.eq_iff_iff, beq_iff_eq, decide_eq_true_iff, Int32.toInt_inj]

theorem bne_eq_decide (a b : Int32) : (a != b) = !decide (a.toInt = b.toInt) := by
  rw [bne, beq_eq_decide]

theorem bne_zero_eq_decide (a : Int32) : (a != 0) = !decide (a.toInt = 0) := by
  rw [bne_eq_decide, Int32.toInt_zero]

/-- Every binary operator folds two 32-bit integers to the meaning of the operator on their
    values. -/
theorem ints_eq (op : Operator) (a b : Int32) :
    Fold.ints op a b = (binary op a.toInt b.toInt).map toValue := by
  cases op <;>
    simp [Fold.ints, binary, toValue, add_eq_wrap, sub_eq_wrap, mul_eq_wrap, div_eq_wrap,
      mod_eq_wrap, shiftLeft_eq_wrap, shiftRight_eq_wrap, ushiftRight_eq_wrap, and_eq_wrap,
      or_eq_wrap, xor_eq_wrap, Fold.spaceship, Int32.lt_iff_toInt_lt, Int32.le_iff_toInt_le,
      beq_eq_decide, bne_eq_decide]

/-- A value's reading is a 32-bit integer. -/
theorem toInt_wrap_reading (v : Int32 ⊕ Bool) : (wrap (reading v)).toInt = reading v := by
  cases v with
  | inl i => simp [reading, wrap]
  | inr b => cases b <;> rfl

theorem truthy_toValue (v : Int32 ⊕ Bool) :
    (toValue v).truthy? = some (decide (reading v ≠ 0)) := by
  cases v with
  | inl i =>
    simp only [toValue, Value.truthy?, reading, bne_zero_eq_decide]
    by_cases h : i.toInt = 0 <;> simp [h]
  | inr b => cases b <;> rfl

theorem minus_toValue (v : Int32 ⊕ Bool) :
    Fold.unary .unaryMinus (toValue v) = some (toValue (.inl (wrap (-reading v)))) := by
  cases v with
  | inl i => simp [Fold.unary, toValue, Value.asInt?, reading, neg_eq_wrap]
  | inr b => cases b <;> rfl

theorem complement_toValue (v : Int32 ⊕ Bool) :
    Fold.unary .unaryNeg (toValue v) = some (toValue (.inl (wrap (-reading v - 1)))) := by
  cases v with
  | inl i => simp [Fold.unary, toValue, Value.asInt?, reading, not_eq_wrap]
  | inr b => cases b <;> rfl

theorem not_toValue (v : Int32 ⊕ Bool) :
    Fold.unary .unaryNot (toValue v) = some (toValue (.inr (reading v = 0))) := by
  cases v with
  | inl i =>
    simp only [Fold.unary, toValue, Value.truthy?, reading, bne_zero_eq_decide, Option.map_some,
      Bool.not_not]
    congr
  | inr b => cases b <;> rfl

/-- Two values of the fragment fold under a binary operator by their integer readings. -/
theorem binary_toValue (op : Operator) (u v : Int32 ⊕ Bool) :
    Fold.binary op (toValue u) (toValue v) = (binary op (reading u) (reading v)).map toValue := by
  have h : Fold.binary op (toValue u) (toValue v) =
      Fold.ints op (wrap (reading u)) (wrap (reading v)) := by
    rcases u with i | b <;> rcases v with j | c <;>
      simp only [Fold.binary, toValue, Value.asInt?, reading, wrap, Int32.ofInt_toInt] <;>
      (try cases b) <;> (try cases c) <;> rfl
  rw [h, ints_eq, toInt_wrap_reading, toInt_wrap_reading]

end IntFold

open IntFold in
/-- Folding an expression of the integer fragment gives exactly its meaning in 32-bit
    two's-complement arithmetic. -/
theorem Expr.fold_integer_fragment {e : Expr} {v : Int32 ⊕ Bool} (h : Denotes (.expr e) v) :
    e.fold = some (toValue v) := by
  suffices ∀ l v, Denotes l v → l.fold = some (toValue v) from this _ _ h
  intro l v h
  induction h with
  | integer t => rfl
  | boolean t => rfl
  | literal _ ih => simp [Leaf.fold, Expr.fold, ih]
  | minus _ ih => simp [Leaf.fold, Expr.fold, ih, minus_toValue]
  | complement _ ih => simp [Leaf.fold, Expr.fold, ih, complement_toValue]
  | not _ ih => simp [Leaf.fold, Expr.fold, ih, not_toValue]
  | @binary op l r u v w os ss ty _ _ hop ihl ihr =>
    -- the operators of the fragment are none of the forms that fold apart from the pairs
    have hfold : Expr.fold ⟨op, false, [l, r], os, ss, ty⟩ =
        (l.fold).bind fun a => (r.fold).bind fun b => Fold.binary op a b := by
      cases op <;> simp_all [binary, Expr.fold]
    simp [Leaf.fold, hfold, ihl, ihr, binary_toValue, hop]
  | ternaryTrue _ hc _ ihc ihx =>
    simp [Leaf.fold, Expr.fold, ihc, truthy_toValue, hc, ihx, Fold.pick]
  | ternaryFalse _ hc _ ihc ihy =>
    simp [Leaf.fold, Expr.fold, ihc, truthy_toValue, hc, ihy, Fold.pick]

open IntFold in
/-- `2147483648 / -1` folds to the least 32-bit integer: the literal wraps to `-2^31`, and so does
    the quotient `2^31`. -/
theorem Expr.fold_integer_fragment_min_div :
    let big : Token :=
      { kind := .integer, text := "2147483648", start := 0, stop := 10, line := 1,
        intValue := 2147483648 }
    let one : Token :=
      { kind := .integer, text := "1", start := 14, stop := 15, line := 1, intValue := 1 }
    let e : Expr := ⟨.div, false,
      [.integer big, .expr ⟨.unaryMinus, false, [.integer one], [], [], none⟩], [], [], none⟩
    Denotes (.expr e) (.inl (wrap (-2 ^ 31))) ∧ e.fold = some (.int (wrap (-2 ^ 31))) := by
  intro big one e
  have h : Denotes (.expr e) (.inl (wrap (-2 ^ 31))) :=
    .binary (.integer _) (.minus (.integer _)) (by decide)
  exact ⟨h, Expr.fold_integer_fragment h⟩

end ZScript
