import ZScript.Proofs.LexTiles
import ZScript.Analysis.Basic
import Mathlib.Data.List.Chain

/-!
# The line of a byte offset

Diagnostics that the third and last phases report at a semantic token take their line from the
token's byte offset (`Analysis.lineAt`): the line of the first token that ends after the offset,
else of the last token, else line 1.

The lexer's tokens lie side by side, each ending where the next begins, the first at byte `0` and
the last at the end of the text, and none is empty. So their ends strictly increase and the first
token ending after an offset inside the text is the one that holds it
(`Analysis.lineAt_token`): an offset inside the text is held by exactly one token and gets that
token's line, one past the end gets the line of the last token, and the empty text has line 1.

The token facts are taken from the token loop directly (`Lexer.tokensFrom_head`,
`Lexer.tokensFrom_chain`, `Lexer.tokensFrom_last`, `Lexer.lex_pieces`). On a list of tokens
that lie side by side, each token ends no later than any later token starts
(`Token.Adjacent.pairwise`); the three cases follow from that.
-/

namespace ZScript

namespace Token

/-- Tokens that lie side by side: each ends where the next begins, and none is empty. -/
structure Adjacent (ts : List Token) : Prop where
  chain : ts.IsChain fun t u => t.stop = u.start
  start_lt_stop : ∀ t ∈ ts, t.start < t.stop

/-- `t` comes wholly before `u`: it starts before `u` and ends no later than `u` starts. -/
def Before (t u : Token) : Prop := t.start < u.start ∧ t.stop ≤ u.start

namespace Adjacent

variable {ts : List Token}

theorem tail (h : Adjacent (t :: ts)) : Adjacent ts :=
  ⟨h.chain.tail, fun u hu => h.start_lt_stop u (List.mem_cons_of_mem t hu)⟩

/-- Of adjacent tokens, each comes wholly before every later one. -/
theorem pairwise (h : Adjacent ts) : ts.Pairwise Before := by
  induction ts with
  | nil => exact .nil
  | cons t ts ih =>
    refine List.pairwise_cons.2 ⟨fun k hk => ?_, ih h.tail⟩
    -- `t` ends where the next token begins, and that one is `k` or comes before it
    cases ts with
    | nil => cases hk
    | cons u us =>
      have hnext : t.stop = u.start := (List.isChain_cons_cons.1 h.chain).1
      have ht := h.start_lt_stop t List.mem_cons_self
      rcases List.mem_cons.1 hk with rfl | hk
      · exact ⟨by omega, by omega⟩
      · have hu : u.start < k.start := (List.rel_of_pairwise_cons (ih h.tail) hk).1
        exact ⟨by omega, by omega⟩

/-- The first token that ends after an offset is the token that holds it. -/
theorem find?_holding (h : Adjacent ts) {o : Nat} {k : Token} (hk : k ∈ ts) (hstart : k.start ≤ o)
    (hstop : o < k.stop) : ts.find? (fun t => decide (o < t.stop)) = some k := by
  induction ts with
  | nil => cases hk
  | cons t ts ih =>
    rcases List.mem_cons.1 hk with rfl | hk
    · simp [hstop]
    · -- `t` comes before `k`, so it ends at or before the offset
      have hbefore : Before t k := List.rel_of_pairwise_cons h.pairwise hk
      have hnot : ¬ o < t.stop := by
        have := hbefore.2
        omega
      rw [List.find?_cons_of_neg (by simpa using hnot)]
      exact ih h.tail hk

/-- Tokens that begin at or before an offset and end after it hold a token that holds it. -/
theorem exists_holding (h : Adjacent ts) {o : Nat} {t₀ t₁ : Token} (hhead : ts.head? = some t₀)
    (hlast : ts.getLast? = some t₁) (hstart : t₀.start ≤ o) (hstop : o < t₁.stop) :
    ∃ k ∈ ts, k.start ≤ o ∧ o < k.stop := by
  induction ts generalizing t₀ with
  | nil => cases hhead
  | cons t ts ih =>
    obtain rfl : t = t₀ := Option.some.inj hhead
    by_cases ht : o < t.stop
    · exact ⟨t, List.mem_cons_self, hstart, ht⟩
    · -- the offset lies past the first token: the next one begins where it ends
      cases ts with
      | nil =>
        rw [List.getLast?_singleton, Option.some.injEq] at hlast
        exact absurd (hlast ▸ hstop) ht
      | cons u us =>
        have hnext : t.stop = u.start := (List.isChain_cons_cons.1 h.chain).1
        rw [List.getLast?_cons_cons] at hlast
        obtain ⟨k, hk, hks⟩ := ih h.tail rfl hlast (by omega)
        exact ⟨k, List.mem_cons_of_mem t hk, hks⟩

/-- No token ends after the last one. -/
theorem stop_le_last (h : Adjacent ts) {t₁ : Token} (hlast : ts.getLast? = some t₁) :
    ∀ k ∈ ts, k.stop ≤ t₁.stop := by
  intro k hk
  obtain ⟨init, rfl⟩ : ∃ init, ts = init ++ [t₁] := by
    rw [List.getLast?_eq_some_iff] at hlast
    exact hlast
  rcases List.mem_append.1 hk with hk | hk
  · -- an earlier token ends before the last one starts
    have hbefore := (List.pairwise_append.1 h.pairwise).2.2 k hk t₁ (List.mem_singleton_self t₁)
    have := h.start_lt_stop t₁ (List.mem_append_right init (List.mem_singleton_self t₁))
    have := hbefore.2
    omega
  · rw [List.mem_singleton.1 hk]

end Adjacent

end Token

namespace Lexer

/-- A token of a text is never empty. -/
theorem start_lt_stop_of_mem_lex {s : String} {t : Token} (ht : t ∈ Token.lex s) :
    t.start < t.stop := by
  obtain ⟨l, hl, P, Q, -, rfl⟩ := lex_pieces ht
  obtain ⟨-, hstart, hstop, -⟩ := tokenOf_span l (String.utf8Len P) (1 + P.count '\n')
  have hne : String.utf8Len l.chars ≠ 0 := by
    rw [Ne, String.utf8Len_eq_zero]
    exact lexemes_chars_ne_nil _ l hl
  omega

/-- The tokens of a text lie side by side. -/
theorem adjacent_lex (s : String) : Token.Adjacent (Token.lex s) :=
  ⟨tokensFrom_chain 0 1 _, fun _ => start_lt_stop_of_mem_lex⟩

theorem lex_eq_nil_iff (s : String) : Token.lex s = [] ↔ s = "" := by
  rw [Token.lex, tokensFrom_eq_nil_iff, lexemes_eq_nil_iff, String.toList_eq_nil_iff]

/-- The last token of a text ends at the end of the text. -/
theorem stop_of_getLast?_lex {s : String} {t : Token} (ht : (Token.lex s).getLast? = some t) :
    t.stop = s.utf8ByteSize := by
  rw [tokensFrom_last 0 1 _ t ht, flatten_lexemes, ← String.utf8ByteSize_ofList,
    String.ofList_toList, Nat.zero_add]

/-- A text that is not empty has a first token, which starts at byte `0`. -/
theorem exists_head_lex {s : String} (hs : s ≠ "") :
    ∃ t, (Token.lex s).head? = some t ∧ t.start = 0 := by
  have hne : Token.lex s ≠ [] := by rw [Ne, lex_eq_nil_iff]; exact hs
  obtain ⟨t, ht⟩ := Option.ne_none_iff_exists'.1 (mt List.head?_eq_none_iff.1 hne)
  exact ⟨t, ht, tokensFrom_head 0 1 _ t ht⟩

/-- A text that is not empty has a last token, which ends at the end of the text. -/
theorem exists_last_lex {s : String} (hs : s ≠ "") :
    ∃ t, (Token.lex s).getLast? = some t ∧ t.stop = s.utf8ByteSize := by
  have hne : Token.lex s ≠ [] := by rw [Ne, lex_eq_nil_iff]; exact hs
  obtain ⟨t, ht⟩ := Option.ne_none_iff_exists'.1 (mt List.getLast?_eq_none_iff.1 hne)
  exact ⟨t, ht, stop_of_getLast?_lex ht⟩

end Lexer

namespace Analysis

/-- The line of an offset is the line of the token that holds it, one past the end of the text
    the line of the last token, and line 1 in an empty text. The token under an offset inside
    the text exists and is the only one holding it. -/
theorem lineAt_token {a : Analysis} {s : String} (h : a.tokens = Token.lex s) (o : Nat) :
    (o < s.utf8ByteSize → ∃ k ∈ a.tokens, k.start ≤ o ∧ o < k.stop) ∧
      (∀ k ∈ a.tokens, k.start ≤ o → o < k.stop → a.lineAt o = k.line) ∧
      (s ≠ "" → s.utf8ByteSize ≤ o → ∃ k, a.tokens.getLast? = some k ∧ a.lineAt o = k.line) ∧
      (s = "" → a.lineAt o = 1) := by
  have hadj := Lexer.adjacent_lex s
  rw [← h] at hadj
  refine ⟨fun ho => ?_, fun k hk hstart hstop => ?_, fun hs ho => ?_, fun hs => ?_⟩
  · -- the text is not empty, so it has a first and a last token, spanning it
    have hs : s ≠ "" := by
      rintro rfl
      simp at ho
    obtain ⟨t₀, h₀, hstart⟩ := Lexer.exists_head_lex hs
    obtain ⟨t₁, h₁, hstop⟩ := Lexer.exists_last_lex hs
    rw [← h] at h₀ h₁
    exact hadj.exists_holding h₀ h₁ (by omega) (by omega)
  · rw [lineAt, hadj.find?_holding hk hstart hstop]
  · -- no token ends after the end of the text
    obtain ⟨t₁, h₁, hstop⟩ := Lexer.exists_last_lex hs
    rw [← h] at h₁
    have hnone : a.tokens.find? (fun t => decide (o < t.stop)) = none := by
      rw [List.find?_eq_none]
      intro k hk
      have := hadj.stop_le_last h₁ k hk
      simp only [decide_eq_true_eq]
      omega
    exact ⟨t₁, h₁, by rw [lineAt, hnone, h₁]; rfl⟩
  · rw [lineAt, h, (Lexer.lex_eq_nil_iff s).2 hs]
    rfl

end Analysis

/-- The analysis of the text `"a\nbc"` before anything is read. -/
def Analysis.twoLines : Analysis := { file := 0, tokens := Token.lex "a\nbc" }

/-- In `"a\nbc"`, byte `2` (the `b`) is held by the token `bc` on line 2. -/
theorem Analysis.lineAt_token_twoLines :
    Analysis.twoLines.tokens = Token.lex "a\nbc" ∧
      ((2 < "a\nbc".utf8ByteSize → ∃ k ∈ Analysis.twoLines.tokens, k.start ≤ 2 ∧ 2 < k.stop) ∧
        (∀ k ∈ Analysis.twoLines.tokens, k.start ≤ 2 → 2 < k.stop → Analysis.twoLines.lineAt 2 = k.line) ∧
        ("a\nbc" ≠ "" → "a\nbc".utf8ByteSize ≤ 2 →
          ∃ k, Analysis.twoLines.tokens.getLast? = some k ∧ Analysis.twoLines.lineAt 2 = k.line) ∧
        ("a\nbc" = "" → Analysis.twoLines.lineAt 2 = 1)) :=
  ⟨rfl, Analysis.lineAt_token rfl 2⟩

end ZScript
