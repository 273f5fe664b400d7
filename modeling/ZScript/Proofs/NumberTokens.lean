import ZScript.Proofs.NumberLexemes
import ZScript.Proofs.LexTiles

/-!
# The values of number tokens

Every token of a source text reads the number literal it may be (`Token.NumberRead`):

* an integer token is an integer spelling whose value fits in 64 signed bits, and carries that
  value as its integer and the nearest double as its double;
* a double token is a float spelling, carries the double nearest to the spelling's decimal
  value, and that double's integer part, saturated to 64 signed bits;
* a token whose text is an integer spelling is an integer token when its value fits and an
  invalid one when it does not, and the literal is whole: the text after it cannot make it a
  longer literal.

The lexer's loop hands each lexeme to `tokenOf` with the input the lexeme leaves
(`tokensFrom_lexemes_split`), so it is enough to see this of one lexeme (`cut_numberRead`).
-/

namespace ZScript

/-- What a token says about the number literal it may be, with the text `rest` after it. -/
structure Token.NumberRead (t : Token) (rest : List Char) : Prop where
  integer : t.kind = .integer → ∃ v, IntegerSpelling t.text.toList v ∧
    (v : Int) ≤ Lexer.int64Max ∧ t.intValue = v ∧ t.floatValue = Binary64.ofInt v
  double : t.kind = .double → ∃ sp : FloatSpelling, sp.Valid ∧ t.text.toList = sp.chars ∧
    t.floatValue = Binary64.ofDecimal sp.mantissa sp.scale ∧
    t.intValue = Binary64.saturate (-Int.ofNat (Nat.pow 2 63)) Lexer.int64Max t.floatValue
  whole : ∀ v, IntegerSpelling t.text.toList v →
    t.kind = (if (v : Int) ≤ Lexer.int64Max then .integer else .invalid) ∧
    Whole t.text.toList rest

namespace Lexer

/-- Every token of the list reads its number, before the texts of the tokens after it. -/
def NumbersRead (ts : List Token) : Prop :=
  ∀ pre t post, ts = pre ++ t :: post → t.NumberRead (post.map fun u => u.text.toList).flatten

/-! ## Tokens of number lexemes -/

/-- A float lexeme makes a double token: the double nearest to the value of its spelling, and
    that double's integer part. -/
theorem tokenOf_float {l : Lexeme} {st : Numeral} (hn : l.numeral = some st)
    (hf : st.float = true) {sp : FloatSpelling} (hsp : sp.Valid) (hchars : l.chars = sp.chars)
    (start line : Nat) :
    (tokenOf l start line).kind = .double ∧
      (tokenOf l start line).floatValue = Binary64.ofDecimal sp.mantissa sp.scale ∧
      (tokenOf l start line).intValue =
        Binary64.saturate (-Int.ofNat (Nat.pow 2 63)) int64Max
          (tokenOf l start line).floatValue := by
  simp [tokenOf, hn, hf, hchars, decimalParts_chars hsp]

/-- An integer lexeme of value `v` makes an integer token when `v` fits in 64 signed bits, with
    `v` and its nearest double, and an invalid token otherwise. -/
theorem tokenOf_integer {l : Lexeme} {st : Numeral} (hk : l.kind = .integer)
    (hn : l.numeral = some st) (hf : st.float = false) {v : Nat}
    (hv : (if st.hex then digitsValue 16 (l.chars.drop 2)
        else if st.octal && 1 < l.chars.length then digitsValue 8 (l.chars.drop 1)
        else digitsValue 10 l.chars) = v) (start line : Nat) :
    (tokenOf l start line).kind = (if (v : Int) ≤ int64Max then .integer else .invalid) ∧
      ((v : Int) ≤ int64Max → (tokenOf l start line).intValue = v ∧
        (tokenOf l start line).floatValue = Binary64.ofInt v) := by
  simp only [tokenOf, hn, hf, Bool.false_eq_true, if_false, hv]
  split_ifs with hfit <;> simp [hk, hfit]

/-- A lexeme without a numeral makes neither an integer nor a double token. -/
theorem tokenOf_plain {l : Lexeme} (hl : l.Sound) (hn : l.numeral = none) (start line : Nat) :
    (tokenOf l start line).kind ≠ .integer ∧ (tokenOf l start line).kind ≠ .double := by
  have hk : (tokenOf l start line).kind = l.kind := by simp [tokenOf, hn]
  rw [hk]
  exact hl.plain hn

theorem NumberScan.float_spelling {st : Numeral} {w r : List Char} (h : NumberScan st w r)
    (hf : st.float = true) : ∃ sp : FloatSpelling, sp.Valid ∧ w = sp.chars := by
  cases h with
  | float sp _ hv => exact ⟨sp, hv, rfl⟩
  | hex hf' => rw [hf'] at hf; cases hf
  | decimal hf' => rw [hf'] at hf; cases hf

/-- The lexeme cut where a number literal starts is that literal. -/
theorem cut_scan {c : Char} {cs : List Char} {st : Numeral}
    (h : (cut c cs).1.numeral = some st) :
    (cut c cs).1.kind = .integer ∧ NumberScan st (cut c cs).1.chars (cut c cs).2 := by
  obtain ⟨hk, st', hst', hscan⟩ := number_scan (number_of_cut_numeral h)
  rw [h, Option.some.injEq] at hst'
  subst hst'
  exact ⟨hk, hscan⟩

/-- The token of a lexeme is of one of three sorts: it is no number and its text no integer; it
    is the double of a float spelling; or its text is a whole integer spelling, and it is an
    integer or an invalid token as the value fits in 64 signed bits or not. -/
theorem cut_token_cases {c : Char} {cs : List Char} {l : Lexeme} {r : List Char}
    (h : cut c cs = (l, r)) (start line : Nat) :
    ((tokenOf l start line).kind ≠ .integer ∧ (tokenOf l start line).kind ≠ .double ∧
        ∀ v, ¬IntegerSpelling l.chars v) ∨
      (∃ sp : FloatSpelling, sp.Valid ∧ l.chars = sp.chars ∧
        (tokenOf l start line).kind = .double ∧
        (tokenOf l start line).floatValue = Binary64.ofDecimal sp.mantissa sp.scale ∧
        (tokenOf l start line).intValue =
          Binary64.saturate (-Int.ofNat (Nat.pow 2 63)) int64Max
            (tokenOf l start line).floatValue) ∨
      (∃ v, IntegerSpelling l.chars v ∧ Whole l.chars r ∧
        (tokenOf l start line).kind = (if (v : Int) ≤ int64Max then .integer else .invalid) ∧
        ((v : Int) ≤ int64Max → (tokenOf l start line).intValue = v ∧
          (tokenOf l start line).floatValue = Binary64.ofInt v)) := by
  cases hn : l.numeral with
  | none =>
    have hsound : l.Sound := by simpa [h] using cut_sound c cs
    obtain ⟨hni, hnd⟩ := tokenOf_plain hsound hn start line
    refine .inl ⟨hni, hnd, fun v hv => ?_⟩
    -- an integer text starts with a digit, and a number literal is cut at a digit
    obtain ⟨d, ds, hw, hd⟩ := hv.head_isDigit
    have hdc : d = c := by
      have happ := cut_append c cs
      rw [h, hw, List.cons_append, List.cons.injEq] at happ
      exact happ.1
    subst hdc
    obtain ⟨⟨l', r'⟩, hlr⟩ := Option.isSome_iff_exists.1 (number_isSome_of_isDigit cs hd)
    have hcut := cut_of_number hlr
    rw [h, Prod.mk.injEq] at hcut
    obtain ⟨rfl, rfl⟩ := hcut
    obtain ⟨-, st, hst, -⟩ := number_scan hlr
    rw [hn] at hst
    cases hst
  | some st =>
    have hcs : (cut c cs).1.numeral = some st := by rw [h]; exact hn
    obtain ⟨hk, hscan⟩ := cut_scan hcs
    rw [h] at hk hscan
    cases hf : st.float with
    | true =>
      obtain ⟨sp, hsp, hchars⟩ := hscan.float_spelling hf
      exact .inr (.inl ⟨sp, hsp, hchars, tokenOf_float hn hf hsp hchars start line⟩)
    | false =>
      exact .inr (.inr ⟨_, hscan.integerSpelling hf, hscan.whole hf,
        tokenOf_integer hk hn hf rfl start line⟩)

/-- The token of every lexeme reads its number, before the input the lexeme leaves. -/
theorem cut_numberRead (c : Char) (cs : List Char) (start line : Nat) :
    (tokenOf (cut c cs).1 start line).NumberRead (cut c cs).2 := by
  have htext : (tokenOf (cut c cs).1 start line).text.toList = (cut c cs).1.chars := by
    rw [(tokenOf_span _ start line).1, String.toList_ofList]
  rcases cut_token_cases (l := (cut c cs).1) (r := (cut c cs).2) rfl start line with
    ⟨hni, hnd, hnot⟩ | ⟨sp, hsp, hchars, hk, hfv, hiv⟩ | ⟨v, hv, hwhole, hk, hvals⟩
  · exact ⟨fun h => absurd h hni, fun h => absurd h hnd,
      fun v hv => absurd (htext ▸ hv) (hnot v)⟩
  · refine ⟨fun h => (by rw [hk] at h; cases h),
      fun _ => ⟨sp, hsp, htext.trans hchars, hfv, hiv⟩,
      fun v hv => absurd (hchars ▸ htext ▸ hv) (hsp.not_integer v)⟩
  · -- the token is an integer token exactly when the value fits
    have hfit : (tokenOf (cut c cs).1 start line).kind = .integer → (v : Int) ≤ int64Max := by
      intro hint
      by_contra hbig
      rw [hk, if_neg hbig] at hint
      cases hint
    refine ⟨fun h => ⟨v, htext ▸ hv, hfit h, hvals (hfit h)⟩, fun h => ?_,
      fun v' hv' => ?_⟩
    · rw [hk] at h
      split_ifs at h
    · rw [htext] at hv' ⊢
      rw [hv'.unique hv]
      exact ⟨hk, hwhole⟩

/-! ## Tokens of a text -/

theorem texts_tokensFrom (start line : Nat) (ls : List Lexeme) :
    (tokensFrom start line ls).map (fun t => t.text.toList) = ls.map Lexeme.chars := by
  induction ls generalizing start line with
  | nil => rfl
  | cons l ls ih => simp [tokensFrom_cons, ih, (tokenOf_span l start line).1]

/-- Each token of the loop is the token of a lexeme cut off what the loop had left, and the
    tokens after it spell what that lexeme leaves. -/
theorem tokensFrom_lexemes_split (cs : List Char) :
    ∀ (start line : Nat) (pre post : List Token) (t : Token),
      tokensFrom start line (lexemes cs) = pre ++ t :: post →
      ∃ c cs' start' line', t = tokenOf (cut c cs').1 start' line' ∧
        (post.map fun u => u.text.toList).flatten = (cut c cs').2 := by
  fun_induction lexemes cs with
  | case1 => intro _ _ pre _ _ h; simp [tokensFrom] at h
  | case2 c cs ih =>
    intro start line pre post t h
    rw [tokensFrom_cons] at h
    cases pre with
    | nil =>
      -- the first token is that of the first lexeme
      obtain ⟨rfl, rfl⟩ := List.cons.inj h
      refine ⟨c, cs, start, line, rfl, ?_⟩
      rw [texts_tokensFrom, flatten_lexemes]
    | cons p pre =>
      exact ih _ _ pre post t (List.cons.inj h).2

end Lexer

/-- The number tokens of every text read their literals: integers and doubles carry the values
    their spellings denote, and an integer literal is one whole token, invalid when its value
    does not fit in 64 signed bits. -/
theorem Token.lex_numbersRead (s : String) : Lexer.NumbersRead (Token.lex s) := by
  intro pre t post h
  obtain ⟨c, cs, start, line, rfl, hrest⟩ :=
    Lexer.tokensFrom_lexemes_split s.toList 0 1 pre post t h
  rw [hrest]
  exact Lexer.cut_numberRead c cs start line

end ZScript
