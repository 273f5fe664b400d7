import Mathlib.Data.List.Induction
import Mathlib.Data.Nat.Digits.Defs
import Mathlib.Tactic.Ring
import ZScript.Token.Lexer

/-!
# Spellings of number literals

What a number literal may look like and what it denotes, said apart from the scanner:

* an integer is `0x` or `0X` and hex digits, denoting their base-16 value; or a run of digits,
  read in base 8 when it has two digits or more, starts with `0` and has no `8` or `9`, and in
  base 10 otherwise (`IntegerSpelling`, which gives each text at most one value);
* a float is digits, an optional `.` and digits, and an optional exponent: `e` or `E`, an
  optional sign and digits; it has a `.` or an exponent, and a digit before or after the `.`
  (`FloatSpelling`). It denotes `mantissa * 10 ^ scale`.

No text is both (`FloatSpelling.Valid.not_integer`). A literal is whole before the text that
follows it when no longer literal starts with it, but one that takes the first `.` of a `..`
(`Whole`). `digitsValue` reads digits as the number they write (`digitsValue_eq_writtenIn`) and
`decimalParts` reads a float as its mantissa and scale (`decimalParts_chars`).
-/

namespace ZScript

open Lexer

/-- The number the digits `ds` write in base `b`, the last digit the least significant. -/
def writtenIn (b : Nat) (ds : List Char) : Nat := Nat.ofDigits b (ds.map digitValue).reverse

@[simp]
theorem writtenIn_nil (b : Nat) : writtenIn b [] = 0 := rfl

theorem writtenIn_append (b : Nat) (xs ys : List Char) :
    writtenIn b (xs ++ ys) = writtenIn b xs * b ^ ys.length + writtenIn b ys := by
  simp only [writtenIn, List.map_append, List.reverse_append, Nat.ofDigits_append,
    List.length_reverse, List.length_map]
  ring

theorem writtenIn_append_singleton (b : Nat) (ds : List Char) (d : Char) :
    writtenIn b (ds ++ [d]) = writtenIn b ds * b + digitValue d := by
  rw [writtenIn_append]
  simp [writtenIn]

/-- A leading zero adds nothing. -/
theorem writtenIn_zero_cons (b : Nat) (ds : List Char) :
    writtenIn b ('0' :: ds) = writtenIn b ds := by
  have h := writtenIn_append b ['0'] ds
  simp only [List.singleton_append] at h
  rw [h, show writtenIn b ['0'] = 0 from rfl, Nat.zero_mul, Nat.zero_add]

/-- Reading digits onto `a` shifts `a` past them. -/
theorem foldl_digitValue (b a : Nat) (ds : List Char) :
    ds.foldl (fun acc c => acc * b + digitValue c) a = a * b ^ ds.length + writtenIn b ds := by
  induction ds using List.reverseRecOn with
  | nil => simp
  | append_singleton ds d ih =>
    rw [List.foldl_append, ih, writtenIn_append_singleton]
    simp only [List.foldl_cons, List.foldl_nil, List.length_append, List.length_singleton]
    ring

theorem digitsValue_eq_writtenIn (b : Nat) (ds : List Char) :
    digitsValue b ds = writtenIn b ds := by
  simpa [digitsValue] using foldl_digitValue b 0 ds

/-- `0x1f` is `31` and `017` is `15`. -/
example : writtenIn 16 ['1', 'f'] = 31 ∧ writtenIn 8 ['0', '1', '7'] = 15 := by decide

/-! ## Integers -/

/-- A run of two digits or more that starts with `0` and has no `8` or `9`: read in base 8. -/
def LooksOctal (ds : List Char) : Prop :=
  ds.head? = some '0' ∧ 1 < ds.length ∧ ∀ d ∈ ds, d < '8'

instance (ds : List Char) : Decidable (LooksOctal ds) := inferInstanceAs (Decidable (_ ∧ _ ∧ _))

/-- An integer literal and the number it denotes. -/
inductive IntegerSpelling : List Char → Nat → Prop where
  /-- `0x` or `0X` and hex digits, in base 16. -/
  | hex {x : Char} {ds : List Char} (hx : x = 'x' ∨ x = 'X') (hne : ds ≠ [])
      (hds : ∀ d ∈ ds, isHexDigit d = true) : IntegerSpelling ('0' :: x :: ds) (writtenIn 16 ds)
  /-- A run of digits that looks octal, in base 8. -/
  | octal {ds : List Char} (hds : ∀ d ∈ ds, d.isDigit = true) (ho : LooksOctal ds) :
      IntegerSpelling ds (writtenIn 8 ds)
  /-- Any other run of digits, in base 10. -/
  | decimal {ds : List Char} (hne : ds ≠ []) (hds : ∀ d ∈ ds, d.isDigit = true)
      (ho : ¬LooksOctal ds) : IntegerSpelling ds (writtenIn 10 ds)

theorem x_not_digit {x : Char} (hx : x = 'x' ∨ x = 'X') : x.isDigit = false := by
  rcases hx with rfl | rfl <;> decide

/-- An integer text has one value. -/
theorem IntegerSpelling.unique {w : List Char} {v v' : Nat} (h : IntegerSpelling w v)
    (h' : IntegerSpelling w v') : v = v' := by
  cases h with
  | hex hx =>
    -- the `x` is no digit, so the text is no run of digits
    cases h' with
    | hex => rfl
    | octal hds => simp [x_not_digit hx] at hds
    | decimal _ hds => simp [x_not_digit hx] at hds
  | octal hds ho =>
    cases h' with
    | hex hx => simp [x_not_digit hx] at hds
    | octal => rfl
    | decimal _ _ hno => exact absurd ho hno
  | decimal _ hds hno =>
    cases h' with
    | hex hx => simp [x_not_digit hx] at hds
    | octal _ ho => exact absurd ho hno
    | decimal => rfl

/-- An integer text starts with a digit. -/
theorem IntegerSpelling.head_isDigit {w : List Char} {v : Nat} (h : IntegerSpelling w v) :
    ∃ d ds, w = d :: ds ∧ d.isDigit = true := by
  cases h with
  | hex => exact ⟨'0', _, rfl, rfl⟩
  | octal hds ho =>
    obtain ⟨d, ds, rfl⟩ : ∃ d ds, w = d :: ds := by
      cases w with
      | nil => simp [LooksOctal] at ho
      | cons d ds => exact ⟨d, ds, rfl⟩
    exact ⟨d, ds, rfl, hds d (by simp)⟩
  | decimal hne hds =>
    obtain ⟨d, ds, rfl⟩ := List.exists_cons_of_ne_nil hne
    exact ⟨d, ds, rfl, hds d (by simp)⟩

/-! ## Floats -/

/-- The exponent of a float literal: a letter, an optional sign and digits. -/
structure ExponentSpelling where
  letter : Char
  sign : Option Char
  digits : List Char

namespace ExponentSpelling

def chars (x : ExponentSpelling) : List Char := x.letter :: (x.sign.toList ++ x.digits)

@[simp]
theorem chars_mk (c : Char) (sign : Option Char) (ds : List Char) :
    (⟨c, sign, ds⟩ : ExponentSpelling).chars = c :: (sign.toList ++ ds) := rfl

/-- The letter is `e` or `E`, the sign `+` or `-`, and at least one digit follows. -/
structure Valid (x : ExponentSpelling) : Prop where
  letter : x.letter = 'e' ∨ x.letter = 'E'
  sign : ∀ s ∈ x.sign, s = '+' ∨ s = '-'
  digits_ne_nil : x.digits ≠ []
  digits : ∀ d ∈ x.digits, d.isDigit = true

/-- The power of ten the exponent stands for. -/
def value (x : ExponentSpelling) : Int :=
  if x.sign = some '-' then -(writtenIn 10 x.digits : Int) else writtenIn 10 x.digits

end ExponentSpelling

/-- A float literal: the digits before the point, those after it when there is one, and the
    exponent when there is one. -/
structure FloatSpelling where
  whole : List Char
  fraction : Option (List Char)
  exponent : Option ExponentSpelling

namespace FloatSpelling

/-- The point and the digits after it. -/
def pointChars (sp : FloatSpelling) : List Char := (sp.fraction.map ('.' :: ·)).getD []

def exponentChars (sp : FloatSpelling) : List Char :=
  (sp.exponent.map ExponentSpelling.chars).getD []

def chars (sp : FloatSpelling) : List Char := sp.whole ++ sp.pointChars ++ sp.exponentChars

@[simp]
theorem chars_mk (w : List Char) (fr : Option (List Char)) (ex : Option ExponentSpelling) :
    (⟨w, fr, ex⟩ : FloatSpelling).chars =
      w ++ (fr.map ('.' :: ·)).getD [] ++ (ex.map ExponentSpelling.chars).getD [] := rfl

structure Valid (sp : FloatSpelling) : Prop where
  whole : ∀ d ∈ sp.whole, d.isDigit = true
  fraction : ∀ f ∈ sp.fraction, ∀ d ∈ f, d.isDigit = true
  exponent : ∀ x ∈ sp.exponent, x.Valid
  /-- A point or an exponent makes it a float. -/
  marked : sp.fraction.isSome ∨ sp.exponent.isSome
  /-- A digit stands before or after the point. -/
  digit : sp.whole ≠ [] ∨ ∃ f ∈ sp.fraction, f ≠ []

/-- All the digits, before and after the point. -/
def mantissa (sp : FloatSpelling) : Nat := writtenIn 10 (sp.whole ++ sp.fraction.getD [])

/-- The power of ten the mantissa is scaled by. -/
def scale (sp : FloatSpelling) : Int :=
  (sp.exponent.map ExponentSpelling.value).getD 0 - (sp.fraction.getD []).length

/-- The characters a float is written with. -/
def IsFloatChar (c : Char) : Prop :=
  c.isDigit = true ∨ c = '.' ∨ c = 'e' ∨ c = 'E' ∨ c = '+' ∨ c = '-'

theorem Valid.isFloatChar {sp : FloatSpelling} (h : sp.Valid) :
    ∀ c ∈ sp.chars, IsFloatChar c := by
  intro c hc
  simp only [chars, pointChars, exponentChars, List.mem_append] at hc
  rcases hc with (hc | hc) | hc
  · exact .inl (h.whole c hc)
  · cases hf : sp.fraction with
    | none => simp [hf] at hc
    | some f =>
      simp only [hf, Option.map_some, Option.getD_some, List.mem_cons] at hc
      rcases hc with rfl | hc
      · exact .inr (.inl rfl)
      · exact .inl (h.fraction f hf c hc)
  · cases hx : sp.exponent with
    | none => simp [hx] at hc
    | some x =>
      have hv := h.exponent x hx
      simp only [hx, Option.map_some, Option.getD_some, ExponentSpelling.chars, List.mem_cons,
        List.mem_append] at hc
      rcases hc with rfl | hc | hc
      · rcases hv.letter with hl | hl <;> simp [IsFloatChar, hl]
      · rcases hv.sign c (by simpa using hc) with hs | hs <;> simp [IsFloatChar, hs]
      · exact .inl (hv.digits c hc)

/-- A float has a point or an exponent letter, which no digit is. -/
theorem Valid.exists_mark {sp : FloatSpelling} (h : sp.Valid) :
    ∃ c ∈ sp.chars, c.isDigit = false := by
  rcases h.marked with hf | hx
  · obtain ⟨f, hf⟩ := Option.isSome_iff_exists.1 hf
    exact ⟨'.', by simp [chars, pointChars, hf], rfl⟩
  · obtain ⟨x, hx⟩ := Option.isSome_iff_exists.1 hx
    refine ⟨x.letter, by simp [chars, exponentChars, ExponentSpelling.chars, hx], ?_⟩
    rcases (h.exponent x hx).letter with hl | hl <;> rw [hl] <;> rfl

/-- No text is both a float and an integer. -/
theorem Valid.not_integer {sp : FloatSpelling} (h : sp.Valid) (v : Nat) :
    ¬IntegerSpelling sp.chars v := by
  intro hint
  generalize hw : sp.chars = w at hint
  cases hint with
  | @hex x _ hx =>
    -- the `x` of a hex literal is no float character
    have hfl := h.isFloatChar x (by rw [hw]; simp)
    rcases hx with rfl | rfl <;> simp [IsFloatChar] at hfl
  | octal hds =>
    obtain ⟨c, hc, hd⟩ := h.exists_mark
    rw [hw] at hc
    simp [hds c hc] at hd
  | decimal _ hds =>
    obtain ⟨c, hc, hd⟩ := h.exists_mark
    rw [hw] at hc
    simp [hds c hc] at hd

/-- The digits before the point are the longest run of digits a float starts with. -/
theorem Valid.takeWhile_chars {sp : FloatSpelling} (h : sp.Valid) :
    sp.chars.takeWhile Char.isDigit = sp.whole := by
  -- after the whole digits comes a point, an exponent letter or nothing
  have htail : (sp.pointChars ++ sp.exponentChars).takeWhile Char.isDigit = [] := by
    cases hf : sp.fraction with
    | some f => simp [pointChars, hf]
    | none =>
      cases hx : sp.exponent with
      | none => simp [pointChars, exponentChars, hf, hx]
      | some x =>
        have hl := (h.exponent x hx).letter
        simp only [pointChars, exponentChars, hf, hx, Option.map_none, Option.getD_none,
          Option.map_some, Option.getD_some, List.nil_append, ExponentSpelling.chars]
        rcases hl with hl | hl <;> simp [hl]
  rw [chars, List.append_assoc, List.takeWhile_append_of_pos h.whole, htail, List.append_nil]

/-- A float that starts with the digits `w` and then no digit has `w` as its whole digits. -/
theorem Valid.eq_whole_of_append {sp : FloatSpelling} (h : sp.Valid) {w p : List Char}
    (hw : ∀ d ∈ w, d.isDigit = true) (hp : ∀ c ∈ p.head?, c.isDigit = false)
    (he : w ++ p = sp.chars) : sp.whole = w ∧ p = sp.pointChars ++ sp.exponentChars := by
  have hrun : (w ++ p).takeWhile Char.isDigit = w := by
    rw [List.takeWhile_append_of_pos hw]
    cases p with
    | nil => simp
    | cons c p => simp [hp c rfl]
  have hwhole : sp.whole = w := by rw [← h.takeWhile_chars, ← he, hrun]
  refine ⟨hwhole, ?_⟩
  rw [chars, List.append_assoc, hwhole] at he
  exact List.append_cancel_left he

end FloatSpelling

/-- A number literal: an integer or a float. -/
def NumberLiteral (w : List Char) : Prop :=
  (∃ v, IntegerSpelling w v) ∨ ∃ sp : FloatSpelling, sp.Valid ∧ w = sp.chars

/-- The literal `w` is whole before the text `r`: no longer literal starts with it, except one
    that takes the first `.` of a `..`. -/
def Whole (w r : List Char) : Prop :=
  ∀ p, p ≠ [] → p <+: r → NumberLiteral (w ++ p) → p = ['.'] ∧ r.take 2 = ['.', '.']

/-! ## Reading a float -/

namespace Lexer

/-- Reading digits adds them to the exponent once in it, to the digits otherwise, and counts
    them when after the point. -/
theorem foldl_step_digits (st : FloatReading) (ds : List Char)
    (hds : ∀ d ∈ ds, d.isDigit = true) :
    ds.foldl FloatReading.step st =
      if st.inExponent then { st with exponent := st.exponent * 10 ^ ds.length + writtenIn 10 ds }
      else if st.inFraction then
        { st with digits := st.digits * 10 ^ ds.length + writtenIn 10 ds,
                  fraction := st.fraction + ds.length }
      else { st with digits := st.digits * 10 ^ ds.length + writtenIn 10 ds } := by
  induction ds using List.reverseRecOn with
  | nil => split_ifs <;> simp
  | append_singleton ds d ih =>
    have hd : d.isDigit = true := hds d (by simp)
    rw [List.foldl_append, ih (fun c hc => hds c (by simp [hc])), writtenIn_append_singleton]
    simp only [List.foldl_cons, List.foldl_nil, List.length_append, List.length_singleton]
    -- one more digit shifts what was read one place
    have hshift : ∀ a, (a * 10 ^ ds.length + writtenIn 10 ds) * 10 + digitValue d =
        a * (10 ^ ds.length * 10) + (writtenIn 10 ds * 10 + digitValue d) := fun a => by ring
    split_ifs with hx hf
    · simp [FloatReading.step, hx, hd, pow_succ, hshift]
    · simp [FloatReading.step, hx, hf, hd, pow_succ, hshift, Nat.add_assoc]
    · simp [FloatReading.step, hx, hf, hd, pow_succ, hshift]

/-- Reading an exponent: its letter enters it, a `-` makes it negative, its digits are its
    value. -/
theorem foldl_step_exponent (st : FloatReading) (x : ExponentSpelling) (hx : x.Valid)
    (hneg : st.negExponent = false) (hexp : st.exponent = 0) :
    x.chars.foldl FloatReading.step st =
      { st with inExponent := true, negExponent := decide (x.sign = some '-'),
                exponent := writtenIn 10 x.digits } := by
  have hletter : FloatReading.step st x.letter = { st with inExponent := true } := by
    rcases hx.letter with hl | hl <;> simp [FloatReading.step, hl]
  rw [ExponentSpelling.chars, List.foldl_cons, hletter, List.foldl_append]
  have hsign : x.sign.toList.foldl FloatReading.step { st with inExponent := true } =
      { st with inExponent := true, negExponent := decide (x.sign = some '-') } := by
    cases hs : x.sign with
    | none => simp [hneg]
    | some s =>
      rcases hx.sign s hs with rfl | rfl <;> simp [FloatReading.step, hneg]
  rw [hsign, foldl_step_digits _ _ hx.digits]
  simp [hexp]

/-- A float reads as its mantissa and scale. -/
theorem decimalParts_chars {sp : FloatSpelling} (h : sp.Valid) :
    decimalParts sp.chars = (sp.mantissa, sp.scale) := by
  -- the whole digits, then the point and the fraction, then the exponent
  have hwhole : sp.whole.foldl FloatReading.step {} = { digits := writtenIn 10 sp.whole } := by
    rw [foldl_step_digits _ _ h.whole]
    simp
  have hpoint : sp.pointChars.foldl FloatReading.step { digits := writtenIn 10 sp.whole } =
      { digits := sp.mantissa, fraction := (sp.fraction.getD []).length,
        inFraction := sp.fraction.isSome } := by
    cases hf : sp.fraction with
    | none => simp [FloatSpelling.pointChars, FloatSpelling.mantissa, hf]
    | some f =>
      simp only [FloatSpelling.pointChars, hf, Option.map_some, Option.getD_some, List.foldl_cons]
      rw [show FloatReading.step { digits := writtenIn 10 sp.whole } '.' =
          { digits := writtenIn 10 sp.whole, inFraction := true } by
        simp [FloatReading.step]]
      rw [foldl_step_digits _ _ (h.fraction f hf)]
      simp [FloatSpelling.mantissa, hf, writtenIn_append]
  simp only [decimalParts, FloatSpelling.chars, List.foldl_append, hwhole, hpoint]
  cases hx : sp.exponent with
  | none => simp [FloatSpelling.exponentChars, FloatSpelling.scale, hx]
  | some x =>
    simp only [FloatSpelling.exponentChars, hx, Option.map_some, Option.getD_some]
    rw [foldl_step_exponent _ x (h.exponent x hx) rfl rfl]
    simp only [FloatSpelling.scale, hx, Option.map_some, Option.getD_some,
      ExponentSpelling.value, Prod.mk.injEq, true_and]
    split_ifs <;> simp_all

/-- `2E-1` reads as `2 * 10 ^ -1`. -/
example : decimalParts ['2', 'E', '-', '1'] = (2, -1) := by decide

end Lexer

end ZScript
