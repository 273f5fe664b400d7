import ZScript.Token.Lexer
import Mathlib.Data.String.Basic

/-!
# The lexer tiles its input

`Token.lex s` cuts the text `s` into tokens that tile it: the first starts at byte `0`, each
ends where the next starts, the last ends at the byte length of `s`, none is empty, and each
token's text is the slice of `s` between its byte offsets, on the line that its start is on.
A newline token is exactly `"\n"`, and the tokens of white space, identifiers, numbers, line
comments and punctuation never hold a line break. `Tiles` collects these facts and
`lex_tiles` proves them for every text.

The proof has two halves. Each lexeme that `cut` takes is `Sound`: its kind tells what its
characters may be (`cut_sound`). And the token loop `tokensFrom` places each lexeme `l` that
follows the characters `pre` at byte `String.utf8Len pre` on line `1 + pre.count '\n'`
(`tokensFrom_pieces`), so that the slice between a token's offsets is its lexeme.
-/

namespace ZScript

/-- The kinds whose tokens never span a line break: white space, identifiers, numbers, line
    comments and punctuation other than the newline. -/
def TokenKind.staysOnLine (k : TokenKind) : Bool :=
  k == .whitespace || k == .identifier || k == .integer || k == .double || k == .lineComment ||
    (k != .newline && TokenKind.punctuation.any (·.2 == k))

/-- What a lexeme's kind tells about its characters. -/
structure Lexeme.Sound (l : Lexeme) : Prop where
  newline : l.kind = .newline → l.chars = ['\n']
  numeral : l.numeral.isSome → l.kind = .integer
  plain : l.numeral = none → l.kind ≠ .integer ∧ l.kind ≠ .double
  onLine : l.kind.staysOnLine = true → '\n' ∉ l.chars

namespace Lexer

/-! ## Every lexeme is sound -/

/-- A lexeme of a kind that says nothing about line breaks. -/
theorem sound_of_kind {k : TokenKind} {cs : List Char} {v : Bool}
    (hk : k ≠ .newline ∧ k ≠ .integer ∧ k ≠ .double ∧ k.staysOnLine = false) :
    Lexeme.Sound { kind := k, chars := cs, valid := v } where
  newline h := absurd h hk.1
  numeral h := by simp at h
  plain _ := ⟨hk.2.1, hk.2.2.1⟩
  onLine h := by simp [hk.2.2.2] at h

/-- A lexeme without a line break, of a kind other than the newline and the numbers. -/
theorem sound_of_noNewline {k : TokenKind} {cs : List Char}
    (hk : k ≠ .newline ∧ k ≠ .integer ∧ k ≠ .double) (hcs : '\n' ∉ cs) :
    Lexeme.Sound { kind := k, chars := cs } where
  newline h := absurd h hk.1
  numeral h := by simp at h
  plain _ := hk.2
  onLine _ := hcs

theorem not_mem_takeWhile {p : Char → Bool} (hp : p '\n' = false) (cs : List Char) :
    '\n' ∉ cs.takeWhile p := by
  intro hmem
  have hall := List.all_takeWhile (p := p) (l := cs)
  rw [List.all_eq_true] at hall
  rw [hall _ hmem] at hp
  cases hp

theorem numberBody_noNewline (st : Numeral) (cs : List Char) : '\n' ∉ (numberBody st cs).1 := by
  fun_induction numberBody st cs <;> simp_all +decide
  -- left: the character taken, a digit, a hex digit, an exponent mark or its sign, is no break
  all_goals (try refine ⟨?_, ?_⟩) <;> rintro rfl <;> simp_all +decide

/-- A number literal starts with a digit or a dot, and a hex prefix adds an `x`. -/
theorem numberStart_noNewline {c : Char} {cs pre body : List Char} {st : Numeral}
    (h : numberStart c cs = some (pre, st, body)) : '\n' ∉ c :: pre := by
  unfold numberStart at h
  split at h
  · next hdot =>
    split at h
    · cases h
      simp only [beq_iff_eq] at hdot
      simp [hdot]
    · cases h
  · split at h
    · cases h
    · next hdigit =>
      have hc : c ≠ '\n' := by
        rintro rfl
        exact absurd hdigit (by decide)
      split at h
      · split at h
        · next hx =>
          cases h
          simp only [Bool.and_eq_true, Bool.or_eq_true, beq_iff_eq] at hx
          rcases hx.1.2 with rfl | rfl <;> simp [Ne.symm hc]
        · cases h
          simp [Ne.symm hc]
      · cases h
        simp [Ne.symm hc]

theorem number_sound {c : Char} {cs : List Char} {l : Lexeme} {r : List Char}
    (h : number c cs = some (l, r)) : l.Sound := by
  unfold number at h
  split at h
  · cases h
  · next pre st body hs =>
    obtain ⟨rfl, -⟩ := Prod.mk.inj (Option.some.inj h)
    have hchars : '\n' ∉ c :: (pre ++ (numberBody st body).1) := by
      have hstart := numberStart_noNewline hs
      simp only [List.mem_cons, List.mem_append, not_or] at hstart ⊢
      exact ⟨hstart.1, hstart.2, numberBody_noNewline st body⟩
    exact { newline := by simp, numeral := fun _ => rfl, plain := by simp,
            onLine := fun _ => hchars }

theorem punctuationAt_mem {cs lit : List Char} {k : TokenKind}
    (h : punctuationAt cs = some (lit, k)) :
    ∃ p ∈ TokenKind.punctuation, p.1.toList = lit ∧ p.2 = k := by
  unfold punctuationAt at h
  obtain ⟨⟨s, k'⟩, hf, he⟩ := Option.map_eq_some_iff.1 h
  cases he
  exact ⟨_, List.mem_of_find?_eq_some hf, rfl, rfl⟩

/-- The punctuation table: only the newline holds a line break, and no entry is a number. -/
theorem punctuation_table : ∀ p ∈ TokenKind.punctuation,
    ('\n' ∈ p.1.toList → p.2 = .newline) ∧ (p.2 = .newline → p.1.toList = ['\n']) ∧
      p.2 ≠ .integer ∧ p.2 ≠ .double := by
  decide

theorem punctuation_sound {cs lit : List Char} {k : TokenKind}
    (h : punctuationAt cs = some (lit, k)) : Lexeme.Sound { kind := k, chars := lit } := by
  obtain ⟨p, hp, rfl, rfl⟩ := punctuationAt_mem h
  obtain ⟨hbreak, hnewline, hint, hdouble⟩ := punctuation_table p hp
  refine { newline := hnewline, numeral := by simp, plain := fun _ => ⟨hint, hdouble⟩,
           onLine := ?_ }
  -- a literal with a line break is the newline, which is not a kind that stays on its line
  intro hk hmem
  rw [hbreak hmem] at hk
  simp [TokenKind.staysOnLine] at hk

/-- Each rule of `cut` takes a sound lexeme. -/
theorem cut_sound (c : Char) (cs : List Char) : (cut c cs).1.Sound := by
  unfold cut
  split
  · next hws =>
    -- white space stops before a line break
    refine sound_of_noNewline (by decide) ?_
    simp only [Bool.and_eq_true, bne_iff_ne, ne_eq] at hws
    simp only [List.mem_cons, not_or]
    exact ⟨fun h => hws.1 h.symm, not_mem_takeWhile (by simp) cs⟩
  split
  · next hid =>
    refine sound_of_noNewline (by decide) ?_
    simp only [List.mem_cons, not_or]
    refine ⟨fun h => ?_, not_mem_takeWhile (by decide) cs⟩
    rw [← h] at hid
    exact absurd hid (by decide)
  split
  · next h => exact number_sound h
  split
  · split
    exact sound_of_kind (by split <;> decide)
  split
  · -- a line comment stops before the line break
    next hcom =>
    refine sound_of_noNewline (by decide) ?_
    simp only [Bool.and_eq_true, beq_iff_eq] at hcom
    simp only [List.mem_cons, not_or]
    exact ⟨fun h => by rw [← h] at hcom; exact absurd hcom.1 (by decide),
      not_mem_takeWhile (by simp) cs⟩
  split
  · exact sound_of_kind (by decide)
  split
  · next h => exact punctuation_sound h
  · exact sound_of_kind (by decide)

theorem lexemes_sound (cs : List Char) : ∀ l ∈ lexemes cs, l.Sound := by
  fun_induction lexemes cs with
  | case1 => simp
  | case2 c cs ih =>
    intro l hl
    rcases List.mem_cons.1 hl with rfl | hl
    · exact cut_sound c cs
    · exact ih l hl

theorem cut_chars_ne_nil (c : Char) (cs : List Char) : (cut c cs).1.chars ≠ [] := by
  intro hnil
  have happ := cut_append c cs
  have hlen := cut_rest_length c cs
  rw [hnil, List.nil_append] at happ
  rw [happ] at hlen
  exact Nat.lt_irrefl _ hlen

theorem lexemes_chars_ne_nil (cs : List Char) : ∀ l ∈ lexemes cs, l.chars ≠ [] := by
  fun_induction lexemes cs with
  | case1 => simp
  | case2 c cs ih =>
    intro l hl
    rcases List.mem_cons.1 hl with rfl | hl
    · exact cut_chars_ne_nil c cs
    · exact ih l hl

theorem lexemes_eq_nil_iff (cs : List Char) : lexemes cs = [] ↔ cs = [] := by
  cases cs with
  | nil => simp [lexemes]
  | cons c cs => simp [lexemes]

/-! ## Where the tokens lie -/

theorem foldl_utf8Size (cs : List Char) (n : Nat) :
    cs.foldl (fun n c => n + c.utf8Size) n = n + String.utf8Len cs := by
  induction cs generalizing n with
  | nil => rfl
  | cons c cs ih =>
    rw [List.foldl_cons, ih, String.utf8Len_cons]
    omega

/-- Reading a number's value changes a token's kind and values, never where it lies. -/
theorem tokenOf_span (l : Lexeme) (start line : Nat) :
    (tokenOf l start line).text = String.ofList l.chars ∧ (tokenOf l start line).start = start ∧
      (tokenOf l start line).stop = start + String.utf8Len l.chars ∧
      (tokenOf l start line).line = line := by
  unfold tokenOf
  split
  · simp [foldl_utf8Size]
  · split
    · simp [foldl_utf8Size]
    · dsimp only
      split_ifs <;> simp [foldl_utf8Size]

/-- A token has its lexeme's kind, unless the lexeme is an integer literal that turned out to
    be a double or too large. -/
theorem tokenOf_kind {l : Lexeme} (hl : l.Sound) (start line : Nat) :
    (tokenOf l start line).kind = l.kind ∨
      l.kind = .integer ∧ ((tokenOf l start line).kind = .double ∨
        (tokenOf l start line).kind = .invalid) := by
  unfold tokenOf
  cases hn : l.numeral with
  | none => exact .inl rfl
  | some n =>
    -- a float becomes a double, an integer too large an invalid token
    have hint : l.kind = .integer := hl.numeral (by simp [hn])
    dsimp only
    split_ifs <;> simp [hint]

theorem tokenOf_newline {l : Lexeme} (hl : l.Sound) (start line : Nat)
    (hk : (tokenOf l start line).kind = .newline) : (tokenOf l start line).text = "\n" := by
  rcases tokenOf_kind hl start line with hkind | ⟨-, hnum | hnum⟩
  · rw [(tokenOf_span l start line).1, hl.newline (hkind ▸ hk)]
  all_goals rw [hnum] at hk; cases hk

theorem tokenOf_onLine {l : Lexeme} (hl : l.Sound) (start line : Nat)
    (hk : (tokenOf l start line).kind.staysOnLine = true) :
    '\n' ∉ (tokenOf l start line).text.toList := by
  rw [(tokenOf_span l start line).1, String.toList_ofList]
  rcases tokenOf_kind hl start line with hkind | ⟨hint, -⟩
  · exact hl.onLine (hkind ▸ hk)
  · -- a number literal is an integer lexeme, whatever its token became
    exact hl.onLine (by rw [hint]; rfl)

theorem tokensFrom_cons (start line : Nat) (l : Lexeme) (ls : List Lexeme) :
    tokensFrom start line (l :: ls) =
      tokenOf l start line ::
        tokensFrom (start + String.utf8Len l.chars) (line + l.chars.count '\n') ls := by
  rw [tokensFrom, (tokenOf_span l start line).2.2.1]

theorem tokensFrom_eq_nil_iff (start line : Nat) (ls : List Lexeme) :
    tokensFrom start line ls = [] ↔ ls = [] := by
  cases ls <;> simp [tokensFrom]

/-- Each token is the token of one of the lexemes, placed after the characters `P` before it:
    at byte `String.utf8Len P`, on line `1 + P.count '\n'`. The loop starts after `pre`. -/
theorem tokensFrom_pieces (pre : List Char) (ls : List Lexeme) :
    ∀ t ∈ tokensFrom (String.utf8Len pre) (1 + pre.count '\n') ls,
      ∃ l ∈ ls, ∃ P Q : List Char,
        pre ++ (ls.map Lexeme.chars).flatten = P ++ l.chars ++ Q ∧
          t = tokenOf l (String.utf8Len P) (1 + P.count '\n') := by
  induction ls generalizing pre with
  | nil => simp [tokensFrom]
  | cons l ls ih =>
    intro t ht
    rw [tokensFrom_cons, List.mem_cons] at ht
    rcases ht with rfl | ht
    · exact ⟨l, List.mem_cons_self, pre, (ls.map Lexeme.chars).flatten, by simp, rfl⟩
    · -- the rest of the loop starts after `pre` and this lexeme
      have hline : 1 + pre.count '\n' + l.chars.count '\n' = 1 + (pre ++ l.chars).count '\n' := by
        rw [List.count_append]
        omega
      rw [hline, ← String.utf8Len_append] at ht
      obtain ⟨l', hl', P, Q, hsplit, rfl⟩ := ih (pre ++ l.chars) t ht
      exact ⟨l', List.mem_cons_of_mem l hl', P, Q, by simpa using hsplit, rfl⟩

theorem tokensFrom_head (start line : Nat) (ls : List Lexeme) :
    ∀ t ∈ (tokensFrom start line ls).head?, t.start = start := by
  cases ls with
  | nil => simp [tokensFrom]
  | cons l ls => simp [tokensFrom_cons, (tokenOf_span l start line).2.1]

/-- Each token ends where the next begins. -/
theorem tokensFrom_chain (start line : Nat) (ls : List Lexeme) :
    (tokensFrom start line ls).IsChain fun t u => t.stop = u.start := by
  induction ls generalizing start line with
  | nil => simp [tokensFrom]
  | cons l ls ih =>
    have htail := ih (start + String.utf8Len l.chars) (line + l.chars.count '\n')
    cases ls with
    | nil => simp [tokensFrom]
    | cons l' ls' =>
      rw [tokensFrom_cons, tokensFrom_cons, List.isChain_cons_cons]
      rw [tokensFrom_cons] at htail
      exact ⟨by rw [(tokenOf_span l start line).2.2.1, (tokenOf_span l' _ _).2.1], htail⟩

theorem tokensFrom_last (start line : Nat) (ls : List Lexeme) :
    ∀ t ∈ (tokensFrom start line ls).getLast?,
      t.stop = start + String.utf8Len (ls.map Lexeme.chars).flatten := by
  induction ls generalizing start line with
  | nil => simp [tokensFrom]
  | cons l ls ih =>
    intro t ht
    cases ls with
    | nil =>
      simp only [tokensFrom, List.getLast?_singleton, Option.mem_def, Option.some.injEq] at ht
      subst ht
      simp [(tokenOf_span l start line).2.2.1]
    | cons l' ls' =>
      rw [tokensFrom_cons, tokensFrom_cons, List.getLast?_cons_cons, ← tokensFrom_cons] at ht
      rw [ih _ _ t ht]
      simp only [List.map_cons, List.flatten_cons, String.utf8Len_append]
      omega

/-- The slice of a text between the byte lengths of `P` and `P ++ m`, when the text reads
    `P ++ m ++ Q`, is `m`. -/
theorem extract_of_toList {s : String} {P m Q : List Char} (h : s.toList = P ++ m ++ Q) :
    String.Pos.Raw.extract s ⟨String.utf8Len P⟩ ⟨String.utf8Len P + String.utf8Len m⟩ =
      String.ofList m := by
  rw [← String.ofList_toList (s := s), h]
  exact String.extract_of_valid P m Q

end Lexer

/-- Tokens that tile the text `s`: they start at byte `0`, each ends where the next starts,
    the last ends at the byte length of `s`, none is empty, each one's text is the slice of `s`
    between its offsets and its line is one more than the line breaks before it. A newline
    token is a line break, and the tokens of the kinds that stay on a line hold none. -/
structure Lexer.Tiles (s : String) (ts : List Token) : Prop where
  nil_iff : ts = [] ↔ s = ""
  head_start : ∀ t ∈ ts.head?, t.start = 0
  chain : ts.IsChain fun t u => t.stop = u.start
  last_stop : ∀ t ∈ ts.getLast?, t.stop = s.utf8ByteSize
  start_lt_stop : ∀ t ∈ ts, t.start < t.stop
  text_eq : ∀ t ∈ ts, t.text = String.Pos.Raw.extract s ⟨t.start⟩ ⟨t.stop⟩
  line_eq : ∀ t ∈ ts, t.line = 1 + (String.Pos.Raw.extract s 0 ⟨t.start⟩).toList.count '\n'
  newline : ∀ t ∈ ts, t.kind = .newline → t.text = "\n"
  stays_on_line : ∀ t ∈ ts, t.kind.staysOnLine = true → '\n' ∉ t.text.toList

namespace Lexer

/-- Each token of a text is the token of one of its lexemes, placed after the characters
    before it. -/
theorem lex_pieces {s : String} {t : Token} (ht : t ∈ Token.lex s) :
    ∃ l ∈ lexemes s.toList, ∃ P Q : List Char, s.toList = P ++ l.chars ++ Q ∧
      t = tokenOf l (String.utf8Len P) (1 + P.count '\n') := by
  obtain ⟨l, hl, P, Q, hsplit, rfl⟩ := tokensFrom_pieces [] (lexemes s.toList) t ht
  rw [List.nil_append, flatten_lexemes] at hsplit
  exact ⟨l, hl, P, Q, hsplit, rfl⟩

end Lexer

open Lexer in
/-- The tokens of every text tile it. -/
theorem Token.lex_tiles (s : String) : Lexer.Tiles s (Token.lex s) where
  nil_iff := by
    rw [Token.lex, tokensFrom_eq_nil_iff, lexemes_eq_nil_iff, String.toList_eq_nil_iff]
  head_start := tokensFrom_head 0 1 _
  chain := tokensFrom_chain 0 1 _
  last_stop t ht := by
    rw [tokensFrom_last 0 1 _ t ht, flatten_lexemes, ← String.utf8ByteSize_ofList,
      String.ofList_toList, Nat.zero_add]
  start_lt_stop t ht := by
    obtain ⟨l, hl, P, Q, -, rfl⟩ := lex_pieces ht
    obtain ⟨-, hstart, hstop, -⟩ := tokenOf_span l (String.utf8Len P) (1 + P.count '\n')
    have hne : String.utf8Len l.chars ≠ 0 := by
      rw [Ne, String.utf8Len_eq_zero]
      exact lexemes_chars_ne_nil _ l hl
    omega
  text_eq t ht := by
    obtain ⟨l, -, P, Q, hsplit, rfl⟩ := lex_pieces ht
    obtain ⟨htext, hstart, hstop, -⟩ := tokenOf_span l (String.utf8Len P) (1 + P.count '\n')
    rw [htext, hstart, hstop, extract_of_toList hsplit]
  line_eq t ht := by
    obtain ⟨l, -, P, Q, hsplit, rfl⟩ := lex_pieces ht
    obtain ⟨-, hstart, -, hline⟩ := tokenOf_span l (String.utf8Len P) (1 + P.count '\n')
    -- the text before the token is `P`: the slice from the start to its byte length
    have hbefore : String.Pos.Raw.extract s 0 ⟨String.utf8Len P⟩ = String.ofList P := by
      have h := extract_of_toList (P := []) (m := P) (Q := l.chars ++ Q) (by simpa using hsplit)
      simpa using h
    rw [hline, hstart, hbefore, String.toList_ofList]
  newline t ht hk := by
    obtain ⟨l, hl, P, Q, -, rfl⟩ := lex_pieces ht
    exact tokenOf_newline (lexemes_sound _ l hl) _ _ hk
  stays_on_line t ht hk := by
    obtain ⟨l, hl, P, Q, -, rfl⟩ := lex_pieces ht
    exact tokenOf_onLine (lexemes_sound _ l hl) _ _ hk

end ZScript
