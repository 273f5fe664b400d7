/-!
# Doubles as exact dyadic numbers

A `Float` is read through its bit pattern as one of three shapes: not a number, an infinity,
or a finite value `m * 2^e`. Every conversion the library needs is computed on that view with
exact `Nat` arithmetic and rounded once, so none of them depends on a runtime's conversions:

* `ofRatio neg num den` is the double nearest to `num / den` (ties to even), or an infinity
  past the largest finite double;
* `saturate lo hi f` is the integer part of `f` clamped to `[lo, hi]`, with not-a-number at `0`;
* `fmod a b` is the remainder of truncated division, which is always exact.
-/

namespace ZScript.Binary64

/-- What a double stands for: `finite neg m e` is `±m * 2^e`. -/
inductive Shape where
  | nan
  | inf (neg : Bool)
  | finite (neg : Bool) (m : Nat) (e : Int)
  deriving DecidableEq, Repr

/-- The shape of a double, read off its sign bit, its 11 exponent bits and its 52 fraction bits. -/
def shape (f : Float) : Shape :=
  let b := f.toBits.toNat
  let neg := decide (Nat.pow 2 63 ≤ b)
  let biased : Nat := (b / Nat.pow 2 52) % Nat.pow 2 11
  let frac : Nat := b % Nat.pow 2 52
  if biased = 2047 then
    if frac = 0 then .inf neg else .nan
  else if biased = 0 then .finite neg frac (-1074)
  else .finite neg (frac + Nat.pow 2 52) ((biased : Int) - 1075)

/-- The bit pattern with the given sign, biased exponent and fraction. -/
def pack (neg : Bool) (biased frac : Nat) : UInt64 :=
  UInt64.ofNat ((if neg then Nat.pow 2 63 else 0) + biased * Nat.pow 2 52 + frac)

/-- The canonical not-a-number. -/
def nan : Float := Float.ofBits 0x7ff8000000000000

/-- Positive infinity. -/
def inf : Float := Float.ofBits 0x7ff0000000000000

/-- Whether `num / den ≥ 2^k`, decided on natural numbers. -/
def atLeastPow (num den : Nat) (k : Int) : Bool :=
  if 0 ≤ k then decide (den * Nat.pow 2 k.toNat ≤ num) else decide (den ≤ num * Nat.pow 2 (-k).toNat)

/-- `⌊num / (den * 2^q)⌋`, the remainder of that division, and the divisor, all scaled to be whole. -/
def scaled (num den : Nat) (q : Int) : Nat × Nat × Nat :=
  if 0 ≤ q then
    let d := den * Nat.pow 2 q.toNat
    (num / d, num % d, d)
  else
    let n := num * Nat.pow 2 (-q).toNat
    (n / den, n % den, den)

/-- Round a whole quotient `m` with remainder `rem` out of `d` to the nearest integer, ties to even. -/
def roundHalfEven (m rem d : Nat) : Nat :=
  if d < 2 * rem ∨ (2 * rem = d ∧ m % 2 = 1) then m + 1 else m

/-- Bits of the double nearest to `num / den`, ties to even, with the sign `neg`.
    The exponent is fixed first (`2^k ≤ num/den < 2^(k+1)`), so that the quotient by `2^q` has
    53 bits, or fewer for subnormal results; one rounding then gives the significand. -/
def roundBits (neg : Bool) (num den : Nat) : UInt64 :=
  if num = 0 ∨ den = 0 then pack neg 0 0
  else
    let k0 : Int := (num.log2 : Int) - den.log2
    let k := if atLeastPow num den k0 then k0 else k0 - 1
    let q := max (k - 52) (-1074)
    let (m, rem, d) := scaled num den q
    let m := roundHalfEven m rem d
    let (m, q) := if m = Nat.pow 2 53 then (Nat.pow 2 52, q + 1) else (m, q)
    if m < Nat.pow 2 52 then pack neg 0 m
    else
      let biased := q + 1075
      if 2047 ≤ biased then pack neg 2047 0 else pack neg biased.toNat (m - Nat.pow 2 52)

/-- The value of the double nearest to `num / den` (ties to even), as a fraction
    `(numerator, denominator)`; past the largest double the value is not capped. The rounding is
    the one of `roundBits`. -/
def nearestRatio (num den : Nat) : Nat × Nat :=
  if num = 0 ∨ den = 0 then (0, 1)
  else
    let k0 : Int := (num.log2 : Int) - den.log2
    let k := if atLeastPow num den k0 then k0 else k0 - 1
    let q := max (k - 52) (-1074)
    let (m, rem, d) := scaled num den q
    let m := roundHalfEven m rem d
    if 0 ≤ q then (m * Nat.pow 2 q.toNat, 1) else (m, Nat.pow 2 (-q).toNat)

/-- The value of the double nearest to `√(num / den)` (ties to even), as a fraction
    `(numerator, denominator)`. The exponent is fixed first: with `2^e ≤ num/den < 2^(e+1)`, the
    root scaled by `2^-q`, `q = ⌊(e - 104) / 2⌋`, lies in `[2^52, 2^53)`, so the integer root of
    the scaled radicand is the 53-bit significand rounded down. It is rounded up when the root
    exceeds it by more than a half, which compares `4 * radicand` with `(2m + 1)^2`. -/
def nearestSqrt (num den : Nat) : Nat × Nat :=
  if num = 0 ∨ den = 0 then (0, 1)
  else
    let k0 : Int := (num.log2 : Int) - den.log2
    let e := if atLeastPow num den k0 then k0 else k0 - 1
    let q := max ((e - 104) / 2) (-1074)
    let (yn, yd) :=
      if 0 ≤ q then (num, den * Nat.pow 4 q.toNat) else (num * Nat.pow 4 (-q).toNat, den)
    let m := Nat.sqrt (yn / yd)
    let s := (2 * m + 1) * (2 * m + 1) * yd
    let m := if s < 4 * yn ∨ (s = 4 * yn ∧ m % 2 = 1) then m + 1 else m
    if 0 ≤ q then (m * Nat.pow 2 q.toNat, 1) else (m, Nat.pow 2 (-q).toNat)

/-- The double nearest to `num / den` (ties to even), negated when `neg`. -/
def ofRatio (neg : Bool) (num den : Nat) : Float := Float.ofBits (roundBits neg num den)

/-- The double nearest to an integer. -/
def ofInt (i : Int) : Float := ofRatio (decide (i < 0)) i.natAbs 1

/-- The integer part of `m * 2^e`, rounded toward zero. -/
def truncMul (m : Nat) (e : Int) : Nat :=
  if 0 ≤ e then m * Nat.pow 2 e.toNat else m / Nat.pow 2 (-e).toNat

/-- The integer part of `f` clamped to `[lo, hi]`; infinities go to the nearer bound and
    not-a-number to `0`. -/
def saturate (lo hi : Int) (f : Float) : Int :=
  match shape f with
  | .nan => 0
  | .inf neg => if neg then lo else hi
  | .finite neg m e =>
    let t : Int := truncMul m e
    max lo (min hi (if neg then -t else t))

/-- The double `±m * 2^e`, which is exact whenever it is representable. -/
def ofDyadic (neg : Bool) (m : Nat) (e : Int) : Float :=
  if 0 ≤ e then ofRatio neg (m * Nat.pow 2 e.toNat) 1 else ofRatio neg m (Nat.pow 2 (-e).toNat)

/-- The remainder of `a` by `b` after truncated division: it has the sign of `a` and is smaller
    than `b` in magnitude. Both operands are brought to the smaller exponent, where the remainder is
    a remainder of whole numbers; it is exact, so nothing is rounded. -/
def fmod (a b : Float) : Float :=
  match shape a, shape b with
  | .finite na ma ea, .finite _ mb eb =>
    if mb = 0 then nan
    else
      let e := min ea eb
      let ia := ma * Nat.pow 2 (ea - e).toNat
      let ib := mb * Nat.pow 2 (eb - e).toNat
      ofDyadic na (ia % ib) e
  | .finite .., .inf _ => a
  | _, _ => nan

end ZScript.Binary64
