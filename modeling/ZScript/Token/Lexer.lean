import ZScript.Token.Basic
import ZScript.Text.WhiteSpace
import ZScript.Binary64.Decimal

/-!
# The lexer

`Token.lex` splits source text into tokens without losing a character: concatenating the texts of
the tokens gives the input back. At each position the first rule that applies wins:

1. a run of white space (a newline excluded: it is a token of its own);
2. an identifier `[A-Za-z_][A-Za-z0-9_]*`;
3. a number literal;
4. a string `"…"` or name `'…'` literal, a line comment `//…` or a block comment `/*…*/`;
5. the longest fixed punctuation;
6. a single invalid character.

Each rule is a scanner that cuts a non-empty prefix off the input (`cut`); `cut_append` says the
prefix and the rest put together are the input, and the token loop recurses on the rest.

Number literals: a leading `0x` with a hex digit makes a hex integer, a leading `0` an octal one
while only digits below 8 follow; a `.` not followed by another `.`, or an exponent `e`/`E` with
digits, makes a float. A float denotes the double nearest to its decimal value; an integer that
does not fit in 64 signed bits makes the whole literal an invalid token.
-/

namespace ZScript

/-- What a number literal's scan found out about it. -/
structure Numeral where
  float : Bool := false
  hex : Bool := false
  octal : Bool := false
  exponent : Bool := false
  dotAllowed : Bool := true
  deriving Inhabited

/-- A lexeme cut off the front of the input. -/
structure Lexeme where
  kind : TokenKind
  chars : List Char
  valid : Bool := true
  numeral : Option Numeral := none

namespace Lexer

/-- An ASCII letter or `_`: what an identifier starts with. -/
def isIdentStart (c : Char) : Bool := c.isAlpha || c == '_'

/-- An ASCII letter, digit or `_`: what an identifier continues with. -/
def isIdentChar (c : Char) : Bool := c.isAlphanum || c == '_'

/-- An ASCII hexadecimal digit. -/
def isHexDigit (c : Char) : Bool := c.isDigit || ('a' ≤ c && c ≤ 'f') || ('A' ≤ c && c ≤ 'F')

/-- The digits and marks of a number literal after its start, and what they make of it. -/
def numberBody (st : Numeral) : List Char → List Char × List Char × Numeral
  | [] => ([], [], st)
  | c :: cs =>
    if c.isDigit then
      let (t, r, s) := numberBody { st with octal := st.octal && c < '8' } cs
      (c :: t, r, s)
    else if st.hex && isHexDigit c then
      let (t, r, s) := numberBody st cs
      (c :: t, r, s)
    else if !st.hex && !st.exponent && (c == 'e' || c == 'E') then
      let st' := { st with exponent := true, float := true, dotAllowed := false }
      match cs with
      | d :: r =>
        if d.isDigit then
          let (t, r', s) := numberBody st' (d :: r)
          (c :: t, r', s)
        else if (d == '+' || d == '-') && (r.head?.map Char.isDigit).getD false then
          let (t, r', s) := numberBody st' r
          (c :: d :: t, r', s)
        else ([], c :: d :: r, st)
      | [] => ([], [c], st)
    else if c == '.' && st.dotAllowed && cs.head? != some '.' then
      let (t, r, s) := numberBody { st with dotAllowed := false, float := true } cs
      (c :: t, r, s)
    else ([], c :: cs, st)

/-- How a number literal starting with `c` begins: the characters after `c` that belong to its
    start (`x` of a hex prefix), its state, and the input left for `numberBody`. -/
def numberStart (c : Char) (cs : List Char) : Option (List Char × Numeral × List Char) :=
  if c == '.' then
    if (cs.head?.map Char.isDigit).getD false then some ([], { float := true, dotAllowed := false }, cs)
    else none
  else if !c.isDigit then none
  else
    match cs with
    | x :: h :: r =>
      if c == '0' && (x == 'x' || x == 'X') && isHexDigit h then
        some ([x], { hex := true, dotAllowed := false }, h :: r)
      else some ([], { octal := c == '0' }, cs)
    | _ => some ([], { octal := c == '0' }, cs)

/-- A number literal at the front of `c :: cs`, if one starts there. -/
def number (c : Char) (cs : List Char) : Option (Lexeme × List Char) :=
  match numberStart c cs with
  | none => none
  | some (pre, st, body) =>
    let (t, r, st') := numberBody st body
    some ({ kind := .integer, chars := c :: (pre ++ t), numeral := some st' }, r)

/-- The rest of a quoted literal after its opening quote `q`: a backslash protects the next
    character, and the literal ends after the closing quote or at the end of the input. -/
def quotedBody (q : Char) : List Char → List Char × List Char × Bool
  | [] => ([], [], false)
  | c :: cs =>
    if c == '\\' then
      match cs with
      | [] => ([c], [], false)
      | d :: r =>
        let (t, rest, ok) := quotedBody q r
        (c :: d :: t, rest, ok)
    else if c == q then ([c], cs, true)
    else
      let (t, rest, ok) := quotedBody q cs
      (c :: t, rest, ok)

/-- The rest of a block comment after `/*`: up to and including `*/`, or to the end. -/
def blockBody : List Char → List Char × List Char
  | [] => ([], [])
  | '*' :: '/' :: r => (['*', '/'], r)
  | c :: cs =>
    let (t, r) := blockBody cs
    (c :: t, r)

/-- The first punctuation literal that starts the input, with its kind. -/
def punctuationAt (cs : List Char) : Option (List Char × TokenKind) :=
  (TokenKind.punctuation.find? fun (lit, _) => lit.toList.isPrefixOf cs).map
    fun (lit, k) => (lit.toList, k)

/-- Cut one lexeme off the front of `c :: cs`; the first rule that applies wins. -/
def cut (c : Char) (cs : List Char) : Lexeme × List Char :=
  if c != '\n' && Text.isWhiteSpace c then
    let p := fun d => d != '\n' && Text.isWhiteSpace d
    ({ kind := .whitespace, chars := c :: cs.takeWhile p }, cs.dropWhile p)
  else if isIdentStart c then
    ({ kind := .identifier, chars := c :: cs.takeWhile isIdentChar }, cs.dropWhile isIdentChar)
  else match number c cs with
  | some result => result
  | none =>
    if c == '"' || c == '\'' then
      let (t, r, ok) := quotedBody c cs
      ({ kind := if c == '"' then .string else .name, chars := c :: t, valid := ok }, r)
    else if c == '/' && cs.head? == some '/' then
      ({ kind := .lineComment, chars := c :: cs.takeWhile (· != '\n') }, cs.dropWhile (· != '\n'))
    else if c == '/' && cs.head? == some '*' then
      let (t, r) := blockBody (cs.drop 1)
      ({ kind := .blockComment, chars := c :: '*' :: t }, r)
    else match punctuationAt (c :: cs) with
    | some (lit, k) => ({ kind := k, chars := lit }, (c :: cs).drop lit.length)
    | none => ({ kind := .invalid, chars := [c] }, cs)

/-! ## Nothing is lost -/

theorem numberBody_append (st : Numeral) (cs : List Char) :
    (numberBody st cs).1 ++ (numberBody st cs).2.1 = cs := by
  fun_induction numberBody st cs <;> simp_all

theorem quotedBody_append (q : Char) (cs : List Char) :
    (quotedBody q cs).1 ++ (quotedBody q cs).2.1 = cs := by
  fun_induction quotedBody q cs <;> simp_all

theorem blockBody_append (cs : List Char) : (blockBody cs).1 ++ (blockBody cs).2 = cs := by
  fun_induction blockBody cs <;> simp_all

theorem numberStart_append {c : Char} {cs pre body : List Char} {st : Numeral}
    (h : numberStart c cs = some (pre, st, body)) : pre ++ body = cs := by
  unfold numberStart at h
  split at h
  · split at h
    · cases h; rfl
    · cases h
  · split at h
    · cases h
    · split at h
      · split at h
        · cases h; rfl
        · cases h; rfl
      · cases h; rfl

theorem number_append {c : Char} {cs : List Char} {l : Lexeme} {r : List Char}
    (h : number c cs = some (l, r)) : l.chars ++ r = c :: cs := by
  unfold number at h
  split at h
  · cases h
  · next pre st body hs =>
    obtain ⟨hl, hr⟩ := Prod.mk.inj (Option.some.inj h)
    rw [← hl, ← hr]
    simp only [List.cons_append, List.append_assoc, numberBody_append, numberStart_append hs]

/-- Every punctuation literal has at least one character. -/
theorem punctuation_ne_nil : ∀ p ∈ TokenKind.punctuation, p.1.toList ≠ [] := by decide

theorem punctuationAt_spec {cs lit : List Char} {k : TokenKind}
    (h : punctuationAt cs = some (lit, k)) : lit ≠ [] ∧ lit ++ cs.drop lit.length = cs := by
  unfold punctuationAt at h
  obtain ⟨⟨s, k'⟩, hf, he⟩ := Option.map_eq_some_iff.1 h
  cases he
  have hmem := List.mem_of_find?_eq_some hf
  have hpre := List.find?_some hf
  refine ⟨punctuation_ne_nil _ hmem, ?_⟩
  obtain ⟨t, ht⟩ := List.isPrefixOf_iff_prefix.1 hpre
  subst ht
  simp

/-- A lexeme and the rest of the input put together give the input back. -/
theorem cut_append (c : Char) (cs : List Char) : (cut c cs).1.chars ++ (cut c cs).2 = c :: cs := by
  unfold cut
  split
  · simp [List.takeWhile_append_dropWhile]
  split
  · simp [List.takeWhile_append_dropWhile]
  split
  · next h => exact number_append h
  split
  · simp [quotedBody_append]
  split
  · simp [List.takeWhile_append_dropWhile]
  split
  · next h =>
    obtain ⟨d, ds, rfl⟩ : ∃ d ds, cs = d :: ds := by
      cases cs with
      | nil => simp at h
      | cons d ds => exact ⟨d, ds, rfl⟩
    simp at h
    simp [h.2, blockBody_append]
  split
  · next h => exact (punctuationAt_spec h).2
  · rfl

/-- A lexeme is never empty, so the rest is shorter than the input. -/
theorem cut_rest_length (c : Char) (cs : List Char) : (cut c cs).2.length < (c :: cs).length := by
  have h := congrArg List.length (cut_append c cs)
  have hne : (cut c cs).1.chars ≠ [] := by
    unfold cut
    split
    · simp
    split
    · simp
    split
    · next h =>
      unfold number at h
      split at h
      · cases h
      · obtain ⟨hl, _⟩ := Prod.mk.inj (Option.some.inj h)
        rw [← hl]
        simp
    split
    · simp
    split
    · simp
    split
    · simp
    split
    · next h => exact (punctuationAt_spec h).1
    · simp
  simp only [List.length_append] at h
  have : 0 < (cut c cs).1.chars.length := List.length_pos_iff.2 hne
  omega

/-- The lexemes of the input, in order. -/
def lexemes : List Char → List Lexeme
  | [] => []
  | c :: cs => (cut c cs).1 :: lexemes (cut c cs).2
termination_by cs => cs.length
decreasing_by exact cut_rest_length c cs

/-- The lexemes' characters put together give the input back. -/
theorem flatten_lexemes (cs : List Char) : ((lexemes cs).map Lexeme.chars).flatten = cs := by
  fun_induction lexemes cs with
  | case1 => rfl
  | case2 c cs ih => simp [ih, cut_append]

/-! ## Values of number literals -/

/-- The value of a digit in base 16 (also right for bases 8 and 10). -/
def digitValue (c : Char) : Nat :=
  if c.isDigit then c.toNat - '0'.toNat
  else if 'a' ≤ c && c ≤ 'f' then c.toNat - 'a'.toNat + 10
  else c.toNat - 'A'.toNat + 10

/-- The number written by `cs` in base `b`. -/
def digitsValue (b : Nat) (cs : List Char) : Nat := cs.foldl (fun acc c => acc * b + digitValue c) 0

/-- Where a float literal's reading stands: significand so far, digits after the point, and the
    exponent with its sign. -/
structure FloatReading where
  digits : Nat := 0
  fraction : Nat := 0
  inFraction : Bool := false
  inExponent : Bool := false
  negExponent : Bool := false
  exponent : Nat := 0

/-- Read one character of a float literal. -/
def FloatReading.step (st : FloatReading) (c : Char) : FloatReading :=
  if c.isDigit then
    if st.inExponent then { st with exponent := st.exponent * 10 + digitValue c }
    else if st.inFraction then
      { st with digits := st.digits * 10 + digitValue c, fraction := st.fraction + 1 }
    else { st with digits := st.digits * 10 + digitValue c }
  else if c == '.' then { st with inFraction := true }
  else if c == 'e' || c == 'E' then { st with inExponent := true }
  else if c == '-' then { st with negExponent := true }
  else st

/-- A float literal as `digits * 10^exp`. -/
def decimalParts (cs : List Char) : Nat × Int :=
  let st := cs.foldl FloatReading.step {}
  (st.digits, (if st.negExponent then -(st.exponent : Int) else st.exponent) - st.fraction)

/-- The largest 64-bit signed integer. -/
def int64Max : Int := Int.ofNat (Nat.pow 2 63) - 1

/-- The token of a lexeme that starts at byte `start` on line `line`. A float literal denotes
    the nearest double and its integer part; an integer literal too large for 64 signed bits
    makes the token invalid. -/
def tokenOf (l : Lexeme) (start line : Nat) : Token :=
  let base : Token :=
    { kind := l.kind, text := String.ofList l.chars, start,
      stop := start + l.chars.foldl (fun n c => n + c.utf8Size) 0, line, valid := l.valid }
  match l.numeral with
  | none => base
  | some n =>
    if n.float then
      let (m, e) := decimalParts l.chars
      let f := Binary64.ofDecimal m e
      { base with kind := .double, floatValue := f,
                  intValue := Binary64.saturate (-Int.ofNat (Nat.pow 2 63)) int64Max f }
    else
      let v : Nat :=
        if n.hex then digitsValue 16 (l.chars.drop 2)
        else if n.octal && 1 < l.chars.length then digitsValue 8 (l.chars.drop 1)
        else digitsValue 10 l.chars
      if (v : Int) ≤ int64Max then
        { base with intValue := v, floatValue := Binary64.ofInt v }
      else { base with kind := .invalid }

/-- Tokens of the lexemes, the first starting at byte `start` on line `line`. -/
def tokensFrom (start line : Nat) : List Lexeme → List Token
  | [] => []
  | l :: ls =>
    let t := tokenOf l start line
    t :: tokensFrom t.stop (line + l.chars.count '\n') ls

end Lexer

/-- The tokens of a source text, trivia included. -/
def Token.lex (s : String) : List Token := Lexer.tokensFrom 0 1 (Lexer.lexemes s.toList)

end ZScript
