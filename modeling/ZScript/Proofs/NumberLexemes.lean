import ZScript.Proofs.NumberSpellings

/-!
# Number lexemes

The scanner of number literals reads what `NumberSpellings` describes. After the start
(`numberStart`), `numberBody` is in one of four phases: the digits of a hex literal, the digits
of a decimal integer (where a `.` or an exponent turns it into a float), the digits after a
point, and the digits of an exponent. One lemma per phase says what `numberBody` reads from
there, each by induction along the function, and `number_scan` puts them together: a number
lexeme is a float spelling, or a hex or decimal integer after which the scanner had to stop
(`NumberScan`).

Stopping there makes an integer literal whole: no longer literal starts with it in the text
(`NumberScan.whole`), except by taking the first `.` of a `..`, which the scanner leaves to the
operator. The value formula of the token reads the integer as its spelling says
(`NumberScan.integerSpelling`).
-/

namespace ZScript

namespace Lexer

/-- The text starts like the `x` and first digit of a hex literal. -/
def HexStart (r : List Char) : Prop :=
  ∃ x h r', r = x :: h :: r' ∧ (x = 'x' ∨ x = 'X') ∧ isHexDigit h = true

/-- The text starts with what an exponent needs after its letter: a digit, or a sign and a
    digit. -/
def ExponentFollows (r : List Char) : Prop :=
  (∃ d ∈ r.head?, d.isDigit = true) ∨
    ∃ s d r', r = s :: d :: r' ∧ (s = '+' ∨ s = '-') ∧ d.isDigit = true

/-- What stops the scanner after the digits of a decimal integer: no digit, no `.` unless a
    second one follows, and no exponent. -/
def DecimalStop : List Char → Prop
  | [] => True
  | c :: r => c.isDigit = false ∧ (c = '.' → r.head? = some '.') ∧
      (c = 'e' ∨ c = 'E' → ¬ExponentFollows r)

/-- What the scanner made of a number lexeme `w` with final state `st`, before the text `r`. -/
inductive NumberScan : Numeral → List Char → List Char → Prop where
  | float {st : Numeral} {r : List Char} (sp : FloatSpelling) (hf : st.float = true)
      (hv : sp.Valid) : NumberScan st sp.chars r
  | hex {st : Numeral} {x : Char} {ds r : List Char} (hf : st.float = false)
      (hh : st.hex = true) (hx : x = 'x' ∨ x = 'X') (hne : ds ≠ [])
      (hds : ∀ d ∈ ds, isHexDigit d = true) (hstop : ∀ d ∈ r.head?, isHexDigit d = false) :
      NumberScan st ('0' :: x :: ds) r
  | decimal {st : Numeral} {w r : List Char} (hf : st.float = false) (hh : st.hex = false)
      (hne : w ≠ []) (hds : ∀ d ∈ w, d.isDigit = true)
      (hoctal : (st.octal && decide (1 < w.length)) = decide (LooksOctal w))
      (hstop : DecimalStop r) (hzero : w = ['0'] → ¬HexStart r) : NumberScan st w r

theorem isHexDigit_of_isDigit {c : Char} (h : c.isDigit = true) : isHexDigit c = true := by
  simp [isHexDigit, h]

/-- The digits an exponent takes after its letter and sign. -/
theorem exponent_valid {c : Char} {sign : Option Char} {r : List Char} (hc : c = 'e' ∨ c = 'E')
    (hs : ∀ s ∈ sign, s = '+' ∨ s = '-') (hr : ∃ d ∈ r.head?, d.isDigit = true) :
    ExponentSpelling.Valid ⟨c, sign, r.takeWhile Char.isDigit⟩ where
  letter := hc
  sign := hs
  digits_ne_nil := by
    obtain ⟨d, hd, hdig⟩ := hr
    cases r with
    | nil => simp at hd
    | cons e r =>
      simp only [List.head?_cons, Option.mem_def, Option.some.injEq] at hd
      subst hd
      simp [hdig]
  digits d hd := List.all_eq_true.1 List.all_takeWhile d hd

/-- The exponent branch of the scanner is taken on `e` or `E`. -/
theorem letter_of_exponent {st : Numeral} {c : Char}
    (h : (!st.hex && !st.exponent && (c == 'e' || c == 'E')) = true) : c = 'e' ∨ c = 'E' := by
  simp only [Bool.and_eq_true, Bool.or_eq_true, beq_iff_eq] at h
  exact h.2

/-- A sign is taken into an exponent only before a digit. -/
theorem sign_of_exponent {d : Char} {r : List Char}
    (h : ((d == '+' || d == '-') && (r.head?.map Char.isDigit).getD false) = true) :
    (d = '+' ∨ d = '-') ∧ ∃ e ∈ r.head?, e.isDigit = true := by
  simp only [Bool.and_eq_true, Bool.or_eq_true, beq_iff_eq] at h
  refine ⟨h.1, ?_⟩
  cases r with
  | nil => simp at h
  | cons e r => exact ⟨e, rfl, by simpa using h.2⟩

/-! ## The phases of the scanner -/

/-- A digit is read into the literal, updating whether it can still be octal. -/
theorem numberBody_digit {st : Numeral} {c : Char} {cs : List Char} (hc : c.isDigit = true) :
    numberBody st (c :: cs) =
      (c :: (numberBody { st with octal := st.octal && decide (c < '8') } cs).1,
        (numberBody { st with octal := st.octal && decide (c < '8') } cs).2) := by
  rw [numberBody, if_pos hc]

/-- The digits of an exponent: a run of digits, and the literal stays a float. -/
theorem numberBody_exponentDigits (st : Numeral) (cs : List Char) :
    st.exponent = true → st.hex = false → st.dotAllowed = false → st.float = true →
      (numberBody st cs).1 = cs.takeWhile Char.isDigit ∧ (numberBody st cs).2.2.float = true := by
  fun_induction numberBody st cs with
  | case1 st => intro _ _ _ hf; exact ⟨rfl, hf⟩
  | case2 st c cs hc t r s hrec ih =>
    intro hx hh hd hf
    obtain ⟨ht, hs⟩ := ih hx hh hd hf
    simp only [hrec] at ht hs
    simp [ht, hs, hc]
  | case3 st c cs _ hhex => intro _ hh; simp [hh] at hhex
  | case4 st c _ _ hexp | case5 st c _ _ hexp | case6 st c _ _ hexp | case7 st c _ _ hexp =>
    intro hx; simp [hx] at hexp
  | case8 st c cs _ _ _ hdot => intro _ _ hd; simp [hd] at hdot
  | case9 st c cs hc => intro _ _ _ hf; simp [hc, hf]

/-- What the exponent branch reads after the letter `c` and the sign: a valid exponent, and the
    literal is a float. -/
theorem exponent_read {st : Numeral} {c : Char} (sign : Option Char) {r t r' : List Char}
    {s : Numeral} (hh : st.hex = false) (hc : c = 'e' ∨ c = 'E')
    (hs : ∀ x ∈ sign, x = '+' ∨ x = '-') (hr : ∃ d ∈ r.head?, d.isDigit = true)
    (hrec : numberBody { st with exponent := true, float := true, dotAllowed := false } r =
      (t, r', s)) :
    s.float = true ∧ ExponentSpelling.Valid ⟨c, sign, t⟩ := by
  obtain ⟨ht, hfl⟩ :=
    numberBody_exponentDigits { st with exponent := true, float := true, dotAllowed := false } r
      rfl hh rfl rfl
  simp only [hrec] at ht hfl
  exact ⟨hfl, ht ▸ exponent_valid hc hs hr⟩

/-- The digits of a hex literal: a run of hex digits, and the literal stays a hex integer. -/
theorem numberBody_hexDigits (st : Numeral) (cs : List Char) :
    st.hex = true → st.dotAllowed = false → st.float = false →
      (numberBody st cs).1 = cs.takeWhile isHexDigit ∧
        (numberBody st cs).2.1 = cs.dropWhile isHexDigit ∧
        (numberBody st cs).2.2.float = false ∧ (numberBody st cs).2.2.hex = true := by
  fun_induction numberBody st cs with
  | case1 st => intro hh _ hf; exact ⟨rfl, rfl, hf, hh⟩
  | case2 st c cs hc t r s hrec ih =>
    intro hh hd hf
    obtain ⟨ht, hr, hs, hsh⟩ := ih hh hd hf
    simp only [hrec] at ht hr hs hsh
    simp [ht, hr, hs, hsh, isHexDigit_of_isDigit hc]
  | case3 st c cs _ hhex t r s hrec ih =>
    intro hh hd hf
    obtain ⟨ht, hr, hs, hsh⟩ := ih hh hd hf
    simp only [hrec] at ht hr hs hsh
    have hc : isHexDigit c = true := by simpa [hh] using hhex
    simp [ht, hr, hs, hsh, hc]
  | case4 st c _ _ hexp | case5 st c _ _ hexp | case6 st c _ _ hexp | case7 st c _ _ hexp =>
    intro hh; simp [hh] at hexp
  | case8 st c cs _ _ _ hdot => intro _ hd; simp [hd] at hdot
  | case9 st c cs _ hhex => intro hh _ hf; simp_all

/-- After a point: digits, then an exponent or nothing more; with the digits `w` before the
    point and `f` after it read so far, a float. -/
theorem numberBody_fraction (w : List Char) (hw : ∀ d ∈ w, d.isDigit = true) (st : Numeral)
    (cs : List Char) :
    st.hex = false → st.exponent = false → st.dotAllowed = false → st.float = true →
      ∀ f : List Char, (∀ d ∈ f, d.isDigit = true) → (w ≠ [] ∨ f ≠ []) →
        (numberBody st cs).2.2.float = true ∧
          ∃ sp : FloatSpelling, sp.Valid ∧
            w ++ '.' :: (f ++ (numberBody st cs).1) = sp.chars := by
  -- where the scanner stops, the float ends after the digits read
  have hstop : ∀ f : List Char, (∀ d ∈ f, d.isDigit = true) → (w ≠ [] ∨ f ≠ []) →
      ∃ sp : FloatSpelling, sp.Valid ∧ w ++ '.' :: (f ++ []) = sp.chars := fun f hf hne =>
    ⟨⟨w, some f, none⟩, ⟨hw, by simpa using hf, by simp, by simp, by simpa using hne⟩,
      by simp⟩
  fun_induction numberBody st cs with
  | case1 st => intro _ _ _ hfl f hf hne; exact ⟨hfl, hstop f hf hne⟩
  | case2 st c cs hc t r s hrec ih =>
    intro hh hx hd hfl f hf hne
    obtain ⟨hs, sp, hsp, hchars⟩ :=
      ih hh hx hd hfl (f ++ [c]) (List.forall_mem_append.2 ⟨hf, by simpa using hc⟩) (by simp)
    simp only [hrec] at hs hchars
    exact ⟨hs, sp, hsp, by simpa using hchars⟩
  | case3 st c cs _ hhex => intro hh; simp [hh] at hhex
  | case4 st c _ _ hexp st' d r hdig t r' s hrec =>
    intro hh _ _ hfl f hf hne
    obtain ⟨hs, hx⟩ :=
      exponent_read none hh (letter_of_exponent hexp) (by simp) ⟨d, rfl, hdig⟩ hrec
    exact ⟨hs, ⟨w, some f, some ⟨c, none, t⟩⟩,
      ⟨hw, by simpa using hf, by simpa using hx, by simp, by simpa using hne⟩, by simp⟩
  | case5 st c _ _ hexp st' d r _ hsign t r' s hrec =>
    intro hh _ _ hfl f hf hne
    obtain ⟨hpm, hr⟩ := sign_of_exponent hsign
    obtain ⟨hs, hx⟩ :=
      exponent_read (some d) hh (letter_of_exponent hexp) (by simpa using hpm) hr hrec
    exact ⟨hs, ⟨w, some f, some ⟨c, some d, t⟩⟩,
      ⟨hw, by simpa using hf, by simpa using hx, by simp, by simpa using hne⟩, by simp⟩
  | case6 st | case7 st | case9 st =>
    intro _ _ _ hfl f hf hne; exact ⟨hfl, hstop f hf hne⟩
  | case8 st c cs _ _ _ hdot => intro _ _ hd; simp [hd] at hdot

/-- The digits of a decimal integer `w ++ ...`: either the scanner stops after digits, with the
    octal flag kept while all are below `8`, or a point or an exponent makes it a float. -/
theorem numberBody_integer (st : Numeral) (cs : List Char) :
    st.hex = false → st.exponent = false → st.dotAllowed = true → st.float = false →
      ∀ w : List Char, w ≠ [] → (∀ d ∈ w, d.isDigit = true) →
        ((numberBody st cs).2.2.float = false ∧ (numberBody st cs).2.2.hex = false ∧
          (∀ d ∈ (numberBody st cs).1, d.isDigit = true) ∧
          (numberBody st cs).2.2.octal =
            (st.octal && (numberBody st cs).1.all fun d => decide (d < '8')) ∧
          DecimalStop (numberBody st cs).2.1) ∨
        ((numberBody st cs).2.2.float = true ∧
          ∃ sp : FloatSpelling, sp.Valid ∧ w ++ (numberBody st cs).1 = sp.chars) := by
  fun_induction numberBody st cs with
  | case1 st => intro hh _ _ hfl _ _ _; exact .inl ⟨hfl, hh, by simp, by simp, trivial⟩
  | case2 st c cs hc t r s hrec ih =>
    intro hh hx hd hfl w hne hw
    rcases ih hh hx hd hfl (w ++ [c]) (by simp)
        (List.forall_mem_append.2 ⟨hw, by simpa using hc⟩) with
      ⟨hs, hsh, hdigits, hoct, hstop⟩ | ⟨hs, sp, hsp, hchars⟩
    · simp only [hrec] at hs hsh hdigits hoct hstop
      refine .inl ⟨hs, hsh, by simpa [hc] using hdigits, ?_, hstop⟩
      rw [hoct]
      simp [Bool.and_assoc]
    · simp only [hrec] at hs hchars
      exact .inr ⟨hs, sp, hsp, by simpa using hchars⟩
  | case3 st c cs _ hhex => intro hh; simp [hh] at hhex
  | case4 st c _ _ hexp st' d r hdig t r' s hrec =>
    intro hh _ _ _ w hne hw
    obtain ⟨hs, hx⟩ :=
      exponent_read none hh (letter_of_exponent hexp) (by simp) ⟨d, rfl, hdig⟩ hrec
    exact .inr ⟨hs, ⟨w, none, some ⟨c, none, t⟩⟩,
      ⟨hw, by simp, by simpa using hx, by simp, .inl hne⟩, by simp⟩
  | case5 st c _ _ hexp st' d r _ hsign t r' s hrec =>
    intro hh _ _ _ w hne hw
    obtain ⟨hpm, hr⟩ := sign_of_exponent hsign
    obtain ⟨hs, hx⟩ :=
      exponent_read (some d) hh (letter_of_exponent hexp) (by simpa using hpm) hr hrec
    exact .inr ⟨hs, ⟨w, none, some ⟨c, some d, t⟩⟩,
      ⟨hw, by simp, by simpa using hx, by simp, .inl hne⟩, by simp⟩
  | case6 st c hc _ hexp d r hdig hsign =>
    -- an `e` with no digit after it ends the integer
    intro hh _ _ hfl _ _ _
    refine .inl ⟨hfl, hh, by simp, by simp, ?_⟩
    have hletter := letter_of_exponent hexp
    simp only [DecimalStop]
    refine ⟨by simpa using hc, fun hdot => ?_, ?_⟩
    · rcases hletter with rfl | rfl <;> exact absurd hdot (by decide)
    rintro - (⟨e, he, hedig⟩ | ⟨s, e, r', hr, hpm, hedig⟩)
    · simp only [List.head?_cons, Option.mem_def, Option.some.injEq] at he
      exact hdig (he ▸ hedig)
    · cases hr
      simp [hpm, hedig] at hsign
  | case7 st c hc _ hexp =>
    intro hh _ _ hfl _ _ _
    refine .inl ⟨hfl, hh, by simp, by simp, ?_⟩
    simp only [DecimalStop]
    refine ⟨by simpa using hc, fun hdot => ?_, ?_⟩
    · rcases letter_of_exponent hexp with rfl | rfl <;> exact absurd hdot (by decide)
    · rintro - (⟨e, he, -⟩ | ⟨s, e, r', hr, -⟩) <;> simp_all
  | case8 st c cs _ _ _ hdot t r s hrec =>
    intro hh hx _ _ w hne hw
    obtain ⟨hs, sp, hsp, hchars⟩ :=
      numberBody_fraction w hw { st with dotAllowed := false, float := true } cs hh hx rfl rfl []
        (by simp) (.inl hne)
    simp only [hrec] at hs hchars
    have hc : c = '.' := by
      simp only [Bool.and_eq_true, beq_iff_eq] at hdot
      exact hdot.1.1
    subst hc
    exact .inr ⟨hs, sp, hsp, by simpa using hchars⟩
  | case9 st c cs hc _ hexp hdot =>
    -- the scanner stops at a character that extends no decimal integer
    intro hh hx hd hfl _ _ _
    refine .inl ⟨hfl, hh, by simp, by simp, ?_⟩
    simp only [DecimalStop]
    refine ⟨by simpa using hc, ?_, ?_⟩
    · intro hc'
      subst hc'
      simpa [hd] using hdot
    · intro hletter
      simp [hh, hx, hletter] at hexp

/-- A point and a digit start the fraction of a float with no digits before the point. -/
theorem numberBody_afterPoint (st : Numeral) {d : Char} (ds : List Char) (hd : d.isDigit = true)
    (hh : st.hex = false) (hx : st.exponent = false) (hdot : st.dotAllowed = false)
    (hf : st.float = true) :
    (numberBody st (d :: ds)).2.2.float = true ∧
      ∃ sp : FloatSpelling, sp.Valid ∧ '.' :: (numberBody st (d :: ds)).1 = sp.chars := by
  rw [numberBody_digit hd]
  obtain ⟨hfl, sp, hsp, hchars⟩ :=
    numberBody_fraction [] (by simp) { st with octal := st.octal && decide (d < '8') } ds hh hx
      hdot hf [d] (by simpa using hd) (.inr (by simp))
  exact ⟨hfl, sp, hsp, by simpa using hchars⟩

/-! ## A number lexeme -/

/-- How a number literal starts: a point before a digit; `0x` or `0X` before a hex digit; or a
    digit, which starts an octal literal when it is `0` and no hex digits follow. -/
theorem numberStart_cases {c : Char} {cs pre body : List Char} {st : Numeral}
    (h : numberStart c cs = some (pre, st, body)) :
    (c = '.' ∧ pre = [] ∧ st = { float := true, dotAllowed := false } ∧ body = cs ∧
        ∃ d ∈ cs.head?, d.isDigit = true) ∨
      (c = '0' ∧ st = { hex := true, dotAllowed := false } ∧ ∃ x, (x = 'x' ∨ x = 'X') ∧
        pre = [x] ∧ cs = x :: body ∧ ∃ d ∈ body.head?, isHexDigit d = true) ∨
      (c.isDigit = true ∧ pre = [] ∧ st = { octal := c == '0' } ∧ body = cs ∧
        (c = '0' → ¬HexStart cs)) := by
  unfold numberStart at h
  split at h
  · next hdot =>
    split at h
    · next hdig =>
      cases h
      refine .inl ⟨by simpa using hdot, rfl, rfl, rfl, ?_⟩
      cases cs with
      | nil => simp at hdig
      | cons d ds => exact ⟨d, rfl, by simpa using hdig⟩
    · cases h
  · split at h
    · cases h
    · next hdig =>
      have hc : c.isDigit = true := by simpa using hdig
      split at h
      · next x h' r =>
        split at h
        · next hhex =>
          cases h
          simp only [Bool.and_eq_true, Bool.or_eq_true, beq_iff_eq] at hhex
          exact .inr (.inl ⟨hhex.1.1, rfl, x, hhex.1.2, rfl, rfl, h', rfl, hhex.2⟩)
        · next hhex =>
          cases h
          refine .inr (.inr ⟨hc, rfl, rfl, rfl, ?_⟩)
          rintro rfl ⟨y, e, r', hcs, hy, he⟩
          cases hcs
          simp [hy, he] at hhex
      · next hshort =>
        cases h
        refine .inr (.inr ⟨hc, rfl, rfl, rfl, ?_⟩)
        rintro - ⟨y, e, r', rfl, -⟩
        exact hshort y e r' rfl

/-- The octal flag of a digit run, kept while its digits are below `8`, marks with its length
    exactly the runs that look octal. -/
theorem octal_flag (c : Char) (t : List Char) :
    ((c == '0') && (t.all fun d => decide (d < '8')) && decide (1 < (c :: t).length)) =
      decide (LooksOctal (c :: t)) := by
  by_cases hc : c = '0'
  · subst hc
    have h08 : '0' < '8' := by decide
    simp [LooksOctal, h08, List.all_eq, Bool.and_comm]
  · simp [LooksOctal, hc]

/-- A number lexeme is an integer lexeme, and the scanner read a float, or a hex or decimal
    integer after which it had to stop. -/
theorem number_scan {c : Char} {cs : List Char} {l : Lexeme} {r : List Char}
    (h : number c cs = some (l, r)) :
    l.kind = .integer ∧ ∃ st, l.numeral = some st ∧ NumberScan st l.chars r := by
  unfold number at h
  split at h
  · cases h
  · next pre st body hs =>
    obtain ⟨rfl, rfl⟩ := Prod.mk.inj (Option.some.inj h)
    refine ⟨rfl, _, rfl, ?_⟩
    rcases numberStart_cases hs with
      ⟨rfl, rfl, rfl, rfl, d, hd, hdig⟩ | ⟨rfl, rfl, x, hx, rfl, hcs, e, he, hhex⟩ |
        ⟨hc, rfl, rfl, hbody, hzero⟩
    · -- a point and a digit: the fraction of a float with no whole digits
      cases body with
      | nil => simp at hd
      | cons d' ds =>
        simp only [List.head?_cons, Option.mem_def, Option.some.injEq] at hd
        subst hd
        obtain ⟨hfl, sp, hsp, hchars⟩ :=
          numberBody_afterPoint { float := true, dotAllowed := false } ds hdig rfl rfl rfl rfl
        rw [List.nil_append, hchars]
        exact .float sp hfl hsp
    · -- `0x` and hex digits
      obtain ⟨ht, hr, hfl, hh⟩ :=
        numberBody_hexDigits { hex := true, dotAllowed := false } body rfl rfl rfl
      rw [ht, hr, List.singleton_append]
      have hne : body.takeWhile isHexDigit ≠ [] := by
        cases body with
        | nil => simp at he
        | cons b bs =>
          simp only [List.head?_cons, Option.mem_def, Option.some.injEq] at he
          subst he
          simp [hhex]
      have hstop : ∀ d ∈ (body.dropWhile isHexDigit).head?, isHexDigit d = false := by
        intro d hd
        have h' := List.head?_dropWhile_not isHexDigit body
        rw [Option.mem_def] at hd
        rw [hd] at h'
        exact h'
      exact .hex hfl hh hx hne (fun d hd => List.all_eq_true.1 List.all_takeWhile d hd) hstop
    · -- a digit: a decimal integer, or the whole digits of a float
      subst hbody
      rcases numberBody_integer { octal := c == '0' } body rfl rfl rfl rfl [c] (by simp)
          (by simpa using hc) with
        ⟨hfl, hh, hdigits, hoct, hstop⟩ | ⟨hfl, sp, hsp, hchars⟩
      · rw [List.nil_append]
        refine .decimal hfl hh (by simp) ?_ ?_ hstop ?_
        · simpa [hc] using hdigits
        · rw [hoct]
          exact octal_flag c _
        · intro hw
          simp only [List.cons.injEq] at hw
          obtain ⟨rfl, ht⟩ := hw
          have happ := numberBody_append { octal := '0' == '0' } body
          rw [ht, List.nil_append] at happ
          rw [happ]
          exact hzero rfl
      · rw [List.nil_append, ← List.singleton_append, hchars]
        exact .float sp hfl hsp

/-! ## Integers are whole and read as spelled -/

/-- What an exponent has after its letter lets the scanner take the letter. -/
theorem exponentFollows_of_valid {x : ExponentSpelling} (hx : x.Valid) (q : List Char) :
    ExponentFollows (x.sign.toList ++ x.digits ++ q) := by
  obtain ⟨d, ds, hds⟩ := List.exists_cons_of_ne_nil hx.digits_ne_nil
  have hd : d.isDigit = true := hx.digits d (by simp [hds])
  cases hs : x.sign with
  | none => exact .inl ⟨d, by simp [hds], hd⟩
  | some s => exact .inr ⟨s, d, ds ++ q, by simp [hds], hx.sign s hs, hd⟩

/-- A hex literal is whole: no longer literal starts with it. -/
theorem whole_hex {x : Char} {ds r : List Char} (hx : x = 'x' ∨ x = 'X')
    (hstop : ∀ d ∈ r.head?, isHexDigit d = false) : Whole ('0' :: x :: ds) r := by
  rintro p hp ⟨q, rfl⟩ hlit
  obtain ⟨c, p', rfl⟩ := List.exists_cons_of_ne_nil hp
  have hc : isHexDigit c = false := hstop c rfl
  exfalso
  rcases hlit with ⟨v, hint⟩ | ⟨sp, hsp, hchars⟩
  · generalize hu : '0' :: x :: ds ++ c :: p' = u at hint
    cases hint with
    | hex _ _ hds =>
      -- the hex digits would go on with `c`
      simp only [List.cons_append, List.cons.injEq] at hu
      have hcd := hds c (by rw [← hu.2.2]; simp)
      simp [hc] at hcd
    | octal hds =>
      have hxd := hds x (by rw [← hu]; simp)
      simp [x_not_digit hx] at hxd
    | decimal _ hds =>
      have hxd := hds x (by rw [← hu]; simp)
      simp [x_not_digit hx] at hxd
  · -- a float has no `x`
    have hfl := hsp.isFloatChar x (by rw [← hchars]; simp)
    rcases hx with rfl | rfl <;> simp [FloatSpelling.IsFloatChar] at hfl

/-- Digits followed by a character that is no digit are no start of a longer integer text,
    unless the digits are a lone `0` and a hex literal follows it. -/
theorem not_integer_extension {w p' q : List Char} {c : Char} (hne : w ≠ [])
    (hds : ∀ d ∈ w, d.isDigit = true) (hc : c.isDigit = false)
    (hzero : w = ['0'] → ¬HexStart (c :: (p' ++ q))) (v : Nat) :
    ¬IntegerSpelling (w ++ c :: p') v := by
  intro hint
  generalize hu : w ++ c :: p' = u at hint
  cases hint with
  | @hex x ds hx hne' hds' =>
    -- only a lone `0` stands before an `x`, and then the scanner would have read hex digits
    obtain ⟨w0, w', rfl⟩ := List.exists_cons_of_ne_nil hne
    cases w' with
    | nil =>
      simp only [List.cons_append, List.nil_append, List.cons.injEq] at hu
      obtain ⟨rfl, rfl, rfl⟩ := hu
      obtain ⟨d, ds', rfl⟩ := List.exists_cons_of_ne_nil hne'
      exact hzero rfl ⟨c, d, ds' ++ q, by simp, hx, hds' d (by simp)⟩
    | cons w1 w'' =>
      simp only [List.cons_append, List.cons.injEq] at hu
      have hw1 := hds w1 (by simp)
      rw [hu.2.1, x_not_digit hx] at hw1
      cases hw1
  | octal hds' =>
    have hcd := hds' c (by rw [← hu]; simp)
    simp [hc] at hcd
  | decimal _ hds' =>
    have hcd := hds' c (by rw [← hu]; simp)
    simp [hc] at hcd

/-- A float that starts with the digits where the scanner stopped is those digits and a point,
    and a second point follows. -/
theorem float_extension {w p' q : List Char} {c : Char} {sp : FloatSpelling} (hsp : sp.Valid)
    (hds : ∀ d ∈ w, d.isDigit = true) (hstop : DecimalStop (c :: (p' ++ q)))
    (hchars : w ++ c :: p' = sp.chars) : c = '.' ∧ p' = [] ∧ q.head? = some '.' := by
  simp only [DecimalStop] at hstop
  obtain ⟨hc, hdot, hexp⟩ := hstop
  obtain ⟨-, hrest⟩ := hsp.eq_whole_of_append hds (by simpa using hc) hchars
  cases hf : sp.fraction with
  | some f =>
    simp only [FloatSpelling.pointChars, hf, Option.map_some, Option.getD_some,
      List.cons_append, List.cons.injEq] at hrest
    obtain ⟨rfl, rfl⟩ := hrest
    have hnext := hdot rfl
    -- nothing of the float follows its point: a digit or an exponent letter would stand there
    have hempty : f ++ sp.exponentChars = [] := by
      cases f with
      | cons e f =>
        have he : e.isDigit = true := hsp.fraction _ hf e (by simp)
        simp only [List.cons_append, List.head?_cons, Option.some.injEq] at hnext
        rw [hnext] at he
        cases he
      | nil =>
        cases hx : sp.exponent with
        | none => simp [FloatSpelling.exponentChars, hx]
        | some x =>
          have hl := (hsp.exponent x hx).letter
          simp only [FloatSpelling.exponentChars, hx, Option.map_some, Option.getD_some,
            ExponentSpelling.chars, List.nil_append, List.cons_append, List.head?_cons,
            Option.some.injEq] at hnext
          rcases hl with hl | hl <;> rw [hl] at hnext <;> cases hnext
    rw [hempty, List.nil_append] at hnext
    exact ⟨rfl, hempty, hnext⟩
  | none =>
    -- no point: an exponent, which the scanner would have taken
    exfalso
    cases hx : sp.exponent with
    | none =>
      have hm := hsp.marked
      simp [hf, hx] at hm
    | some x =>
      have hxv := hsp.exponent x hx
      simp only [FloatSpelling.pointChars, FloatSpelling.exponentChars, hf, hx,
        Option.map_none, Option.getD_none, Option.map_some, Option.getD_some, List.nil_append,
        ExponentSpelling.chars, List.cons.injEq] at hrest
      obtain ⟨rfl, rfl⟩ := hrest
      exact hexp hxv.letter (by simpa using exponentFollows_of_valid hxv q)

/-- A decimal integer after which the scanner stopped is whole, but for a `.` that starts
    `..`. -/
theorem whole_decimal {w r : List Char} (hne : w ≠ []) (hds : ∀ d ∈ w, d.isDigit = true)
    (hstop : DecimalStop r) (hzero : w = ['0'] → ¬HexStart r) : Whole w r := by
  rintro p hp ⟨q, rfl⟩ hlit
  obtain ⟨c, p', rfl⟩ := List.exists_cons_of_ne_nil hp
  rw [List.cons_append] at hstop hzero ⊢
  rcases hlit with ⟨v, hint⟩ | ⟨sp, hsp, hchars⟩
  · have hc : c.isDigit = false := by
      simp only [DecimalStop] at hstop
      exact hstop.1
    exact absurd hint (not_integer_extension hne hds hc hzero v)
  · obtain ⟨rfl, rfl, hq⟩ := float_extension hsp hds hstop hchars
    obtain ⟨q', rfl⟩ : ∃ q', q = '.' :: q' := by
      cases q with
      | nil => simp at hq
      | cons e q' =>
        simp only [List.head?_cons, Option.some.injEq] at hq
        exact ⟨q', by rw [hq]⟩
    simp

/-- An integer the scanner read is whole. -/
theorem NumberScan.whole {st : Numeral} {w r : List Char} (h : NumberScan st w r)
    (hf : st.float = false) : Whole w r := by
  cases h with
  | float _ hf' => rw [hf'] at hf; cases hf
  | hex _ _ hx _ _ hstop => exact whole_hex hx hstop
  | decimal _ _ hne hds _ hstop hzero => exact whole_decimal hne hds hstop hzero

/-- The value the token of an integer lexeme is given is the value of its spelling. -/
theorem NumberScan.integerSpelling {st : Numeral} {w r : List Char} (h : NumberScan st w r)
    (hf : st.float = false) :
    IntegerSpelling w
      (if st.hex then digitsValue 16 (w.drop 2)
        else if st.octal && 1 < w.length then digitsValue 8 (w.drop 1)
        else digitsValue 10 w) := by
  cases h with
  | float _ hf' => rw [hf'] at hf; cases hf
  | hex _ hh hx hne hds =>
    rw [if_pos hh, digitsValue_eq_writtenIn]
    exact .hex hx hne hds
  | decimal _ hh hne hds hoct =>
    rw [if_neg (by simp [hh])]
    split
    · next ho =>
      -- an octal run starts with its `0`, which adds nothing
      have hlo : LooksOctal w := by simpa [hoct] using ho
      obtain ⟨c, t, rfl⟩ := List.exists_cons_of_ne_nil hne
      have hc : c = '0' := by simpa using hlo.1
      subst hc
      rw [List.drop_one, List.tail_cons, digitsValue_eq_writtenIn, ← writtenIn_zero_cons]
      exact .octal hds hlo
    · next ho =>
      rw [digitsValue_eq_writtenIn]
      exact .decimal hne hds (by simpa [hoct] using ho)

/-! ## Number lexemes among the others -/

/-- The digits are the ten characters from code `48`. -/
theorem eq_ofNat_of_isDigit {c : Char} (h : c.isDigit = true) :
    ∃ n < 10, c = Char.ofNat (48 + n) := by
  simp only [Char.isDigit, Bool.and_eq_true, decide_eq_true_eq] at h
  have h0 : 48 ≤ c.toNat := h.1
  have h9 : c.toNat ≤ 57 := h.2
  refine ⟨c.toNat - 48, by omega, ?_⟩
  rw [show 48 + (c.toNat - 48) = c.toNat by omega, Char.ofNat_toNat]

theorem isWhiteSpace_of_isDigit {c : Char} (h : c.isDigit = true) :
    Text.isWhiteSpace c = false := by
  obtain ⟨n, hn, rfl⟩ := eq_ofNat_of_isDigit h
  have hdigits : ∀ n < 10, Text.isWhiteSpace (Char.ofNat (48 + n)) = false := by decide
  exact hdigits n hn

theorem isIdentStart_of_isDigit {c : Char} (h : c.isDigit = true) : isIdentStart c = false := by
  obtain ⟨n, hn, rfl⟩ := eq_ofNat_of_isDigit h
  have hdigits : ∀ n < 10, isIdentStart (Char.ofNat (48 + n)) = false := by decide
  exact hdigits n hn

/-- A number literal starts with a point or a digit. -/
theorem numberStart_head {c : Char} {cs : List Char} {x : List Char × Numeral × List Char}
    (h : numberStart c cs = some x) : c = '.' ∨ c.isDigit = true := by
  unfold numberStart at h
  split at h
  · next hdot => exact .inl (by simpa using hdot)
  · split at h
    · cases h
    · next hdig => exact .inr (by simpa using hdig)

/-- Where a number literal starts, it is the lexeme cut there. -/
theorem cut_of_number {c : Char} {cs : List Char} {l : Lexeme} {r : List Char}
    (h : number c cs = some (l, r)) : cut c cs = (l, r) := by
  have hc : c = '.' ∨ c.isDigit = true := by
    unfold number at h
    split at h
    · cases h
    · next hs => exact numberStart_head hs
  -- a point or a digit is neither white space nor the start of an identifier
  have hws : (c != '\n' && Text.isWhiteSpace c) = false := by
    rcases hc with rfl | hc
    · decide
    · simp [isWhiteSpace_of_isDigit hc]
  have hid : isIdentStart c = false := by
    rcases hc with rfl | hc
    · decide
    · exact isIdentStart_of_isDigit hc
  rw [cut, if_neg (by simp [hws]), if_neg (by simp [hid]), h]

/-- A digit always starts a number literal. -/
theorem number_isSome_of_isDigit {c : Char} (cs : List Char) (h : c.isDigit = true) :
    (number c cs).isSome := by
  have hs : (numberStart c cs).isSome := by
    unfold numberStart
    have hdot : (c == '.') = false := by
      rcases Bool.eq_false_or_eq_true (c == '.') with hd | hd
      · rw [beq_iff_eq] at hd
        subst hd
        cases h
      · exact hd
    simp only [hdot, h, Bool.false_eq_true, if_false, Bool.not_true]
    split <;> (try split) <;> rfl
  unfold number
  split
  · next hn => rw [hn] at hs; cases hs
  · rfl

/-- A lexeme with a numeral is the number literal that starts there. -/
theorem number_of_cut_numeral {c : Char} {cs : List Char} {st : Numeral}
    (h : (cut c cs).1.numeral = some st) : number c cs = some ((cut c cs).1, (cut c cs).2) := by
  cases hn : number c cs with
  | some lr =>
    obtain ⟨l, r⟩ := lr
    rw [cut_of_number hn]
  | none =>
    -- every other rule makes a lexeme with no numeral
    exfalso
    unfold cut at h
    split at h
    · cases h
    split at h
    · cases h
    rw [hn] at h
    split at h
    · next heq => cases heq
    split at h
    · split at h
      cases h
    split at h
    · cases h
    split at h
    · split at h
      cases h
    split at h
    · cases h
    · cases h

end Lexer

end ZScript
