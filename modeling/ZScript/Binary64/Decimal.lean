import ZScript.Binary64.Basic

/-!
# Decimal text of doubles

Reading: `ofDecimal digits exp` is the double nearest to `digits * 10^exp`, computed exactly and
rounded once, so decimal literals read as their correctly rounded value.

Writing: `shortest` finds, for a positive finite double, the decimal with the fewest significant
digits that reads back to it; of the (at most two) candidates of that length, the nearer one is
kept and an exact tie goes to the larger. `render` writes such a value positionally, never with an
exponent: `1e21` is `1000000000000000000000`, `1.5e-7` is `0.00000015`, `-0.0` is `-0`.
-/

namespace ZScript.Binary64

/-- Number of decimal digits of `n` (one for zero). -/
def digitCount (n : Nat) : Nat := (Nat.toDigits 10 n).length

/-- The double nearest to `digits * 10^exp`. Values below `10^-330` are zero and values of
    `10^310` and more are infinite, far beyond either end of the double range. -/
def ofDecimal (digits : Nat) (exp : Int) : Float :=
  if digits = 0 then ofRatio false 0 1
  else
    let top := exp + digitCount digits
    if top < -330 then ofRatio false 0 1
    else if 311 < top then inf
    else if 0 ≤ exp then ofRatio false (digits * Nat.pow 10 exp.toNat) 1
    else ofRatio false digits (Nat.pow 10 (-exp).toNat)

/-- `a * 2^i` compared with `b * 10^j`, on whole numbers. -/
def cmpScaled (a : Nat) (i : Int) (b : Nat) (j : Int) : Ordering :=
  compare (a * Nat.pow 2 (max i 0).toNat * Nat.pow 10 (max (-j) 0).toNat)
    (b * Nat.pow 10 (max j 0).toNat * Nat.pow 2 (max (-i) 0).toNat)

/-- `⌊m * 2^e / 10^k⌋`. -/
def floorScaled (m : Nat) (e k : Int) : Nat :=
  (m * Nat.pow 2 (max e 0).toNat * Nat.pow 10 (max (-k) 0).toNat) / (Nat.pow 2 (max (-e) 0).toNat * Nat.pow 10 (max k 0).toNat)

/-- Move `guess` to `⌊log₁₀ (m * 2^e)⌋`, one step at a time, for at most `fuel` steps each way. -/
def fixLog10 (m : Nat) (e : Int) : Nat → Int → Int
  | 0, guess => guess
  | fuel + 1, guess =>
    if cmpScaled m e 1 guess = .lt then fixLog10 m e fuel (guess - 1)
    else if cmpScaled m e 1 (guess + 1) != .lt then fixLog10 m e fuel (guess + 1)
    else guess

/-- `⌊log₁₀ (m * 2^e)⌋` for `m > 0`, from the binary exponent and a correction of a few steps. -/
def log10Floor (m : Nat) (e : Int) : Int :=
  fixLog10 m e 8 ((((m.log2 : Int) + e) * 30103) / 100000)

/-- The interval of reals that read back as the double `m * 2^e` (`m > 0`), in units of `2^(e-2)`:
    its two ends and whether they belong to it. Its lower half is narrower at a power of two,
    where the next double down is closer. -/
structure Interval where
  low : Nat
  high : Nat
  closed : Bool

/-- The rounding interval of the positive double `m * 2^e`. -/
def interval (m : Nat) (e : Int) : Interval :=
  let narrow := m = Nat.pow 2 52 ∧ -1074 < e
  { low := if narrow then 4 * m - 1 else 4 * m - 2, high := 4 * m + 2, closed := m % 2 = 0 }

/-- Whether `d * 10^k` lies in the rounding interval `iv` of a double of exponent `e`. -/
def Interval.holds (iv : Interval) (e : Int) (d : Nat) (k : Int) : Bool :=
  let above := match cmpScaled iv.low (e - 2) d k with
    | .lt => true
    | .eq => iv.closed
    | .gt => false
  let below := match cmpScaled iv.high (e - 2) d k with
    | .gt => true
    | .eq => iv.closed
    | .lt => false
  above && below

/-- The candidate with `n` significant digits for `m * 2^e`, whose decimal exponent is `lg`:
    the nearer of the two neighbours on the grid `10^k` that lies in the interval. -/
def candidate (m : Nat) (e lg : Int) (n : Nat) : Option (Nat × Int) :=
  let k := lg + 1 - n
  let iv := interval m e
  let down := floorScaled m e k
  let up := down + 1
  match iv.holds e down k, iv.holds e up k with
  | true, true =>
    if cmpScaled (8 * m) (e - 2) (down + up) k = .lt then some (down, k) else some (up, k)
  | true, false => some (down, k)
  | false, true => some (up, k)
  | false, false => none

/-- Drop the trailing zeros of `d`, raising the exponent `k` to match. -/
def trimZeros : Nat → Nat → Int → Nat × Int
  | 0, d, k => (d, k)
  | fuel + 1, d, k => if d ≠ 0 ∧ d % 10 = 0 then trimZeros fuel (d / 10) (k + 1) else (d, k)

/-- The shortest decimal `d * 10^k` that reads back as the positive double `m * 2^e`, trying
    1 to 17 significant digits; 17 always suffice for a double. -/
def shortest (m : Nat) (e : Int) : Nat × Int :=
  let lg := log10Floor m e
  let found := (List.range 17).findSome? fun i => candidate m e lg (i + 1)
  let (d, k) := found.getD (floorScaled m e (lg - 16), lg - 16)
  trimZeros (digitCount d) d k

/-- `n` zeros. -/
def zeros (n : Nat) : String := String.ofList (List.replicate n '0')

/-- `d * 10^k` written positionally with no exponent and no trailing fraction zeros. -/
def positional (d : Nat) (k : Int) : String :=
  let s := toString d
  let p := (s.length : Int) + k
  if p ≤ 0 then "0." ++ zeros (-p).toNat ++ s
  else if p < s.length then
    String.ofList (s.toList.take p.toNat) ++ "." ++ String.ofList (s.toList.drop p.toNat)
  else s ++ zeros (p.toNat - s.length)

/-- A double written with the fewest digits that read back, positionally: `NaN`, `inf`, `-inf`,
    `0`, `-0`, `2.5`, `0.1`, `1000000000000000000000`. -/
def render (f : Float) : String :=
  match shape f with
  | .nan => "NaN"
  | .inf neg => if neg then "-inf" else "inf"
  | .finite neg m e =>
    let sign := if neg then "-" else ""
    if m = 0 then sign ++ "0"
    else
      let (d, k) := shortest m e
      sign ++ positional d k

end ZScript.Binary64
