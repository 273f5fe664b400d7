import Mathlib
import ZScript.Proofs.LexTiles

/-!
# The content of a token

`Token.content` is the text of a literal or a comment without its delimiters. It does not look
for the delimiters: a string or name literal loses its first character, and its last one too
when the literal is `valid`; a line comment loses two characters; a block comment loses two, and
two more when its text ends with `*/`. This is right only because of how the lexer ends these
tokens, and `Token.lex_delimited` shows that it is right for every token of every text
(`Token.Delimited`):

* a string or name literal starts with its quote, and ends with it exactly when it is `valid`,
  that is when the lexer found the closing quote: a backslash protects the character after it,
  so a quote it protects never ends the literal;
* a comment starts with `//` or `/*`;
* the lexer ends a block comment at the first `*/` after its opener, or at the end of the input,
  so the text after the opener holds `*/` only at its end (`Token.closesComment`): an opener such
  as `/*/` ends in `*/` without being closed, and keeps its last `/`.

The delimiters are characters of one byte, so the offsets where the content starts and ends are
character boundaries of the text.

The proof follows the lexer: each rule of `cut` takes a lexeme with these delimiters
(`Lexer.cut_delimits`), and a token has its lexeme's characters, kind and validity
(`Lexer.lex_pieces`).
-/

namespace ZScript

/-- Whether a block comment's text holds `*/` after its opening `/*`: the lexer ends a block
    comment at the first `*/` after the opener when there is one. -/
def Token.closesComment (t : Token) : Prop := ['*', '/'] <:+: t.text.toList.drop 2

instance (t : Token) : Decidable t.closesComment :=
  inferInstanceAs (Decidable (['*', '/'] <:+: t.text.toList.drop 2))

/-- The delimiters that `Token.content` strips are those of the token: a literal's quotes, the
    closing one only when the literal is `valid`, a comment's opener, and a block comment's `*/`
    only when it closes the comment; the content is cut from the text at character boundaries. -/
structure Token.Delimited (t : Token) : Prop where
  string : t.kind = .string → t.text = "\"" ++ t.content ++ (if t.valid then "\"" else "")
  name : t.kind = .name → t.text = "'" ++ t.content ++ (if t.valid then "'" else "")
  lineComment : t.kind = .lineComment → t.text = "//" ++ t.content
  blockComment : t.kind = .blockComment →
    t.text = "/*" ++ t.content ++ (if t.closesComment then "*/" else "")
  other : t.kind ≠ .string → t.kind ≠ .name → t.kind ≠ .lineComment → t.kind ≠ .blockComment →
    t.content = t.text
  /-- The content of a literal starts after the first byte and, when the literal is valid, ends
      before the last one, both at character boundaries. -/
  quoteBoundaries : t.kind = .string ∨ t.kind = .name →
    (⟨1⟩ : String.Pos.Raw).IsValid t.text ∧
      (t.valid = true → (⟨t.text.utf8ByteSize - 1⟩ : String.Pos.Raw).IsValid t.text)
  /-- The content of a comment starts after the second byte, at a character boundary. -/
  commentBoundary : t.kind = .lineComment ∨ t.kind = .blockComment →
    (⟨2⟩ : String.Pos.Raw).IsValid t.text

namespace Lexer

/-! ## The lexemes -/

/-- A literal quoted by `q`: the quote, the characters inside, and the quote again when the
    literal is terminated. -/
def QuotedBy (q : Char) (valid : Bool) (cs : List Char) : Prop :=
  cs = q :: Token.literalInner valid cs ++ (if valid then [q] else [])

/-- A block comment: `/*`, the body, and `*/` when the text after the opener holds one. -/
def BlockDelimited (cs : List Char) : Prop :=
  cs = '/' :: '*' :: Token.blockInner cs ++ (if ['*', '/'] <:+: cs.drop 2 then ['*', '/'] else [])

end Lexer

/-- What a lexeme's kind tells about its delimiters. -/
structure Lexeme.Delimits (l : Lexeme) : Prop where
  string : l.kind = .string → Lexer.QuotedBy '"' l.valid l.chars
  name : l.kind = .name → Lexer.QuotedBy '\'' l.valid l.chars
  lineComment : l.kind = .lineComment → ∃ body, l.chars = '/' :: '/' :: body
  blockComment : l.kind = .blockComment → Lexer.BlockDelimited l.chars

namespace Lexer

/-- A lexeme of a kind that is no literal and no comment. -/
theorem delimits_of_kind {l : Lexeme} (hk : l.kind ≠ .string ∧ l.kind ≠ .name ∧
    l.kind ≠ .lineComment ∧ l.kind ≠ .blockComment) : l.Delimits :=
  ⟨fun h => absurd h hk.1, fun h => absurd h hk.2.1, fun h => absurd h hk.2.2.1,
    fun h => absurd h hk.2.2.2⟩

/-- A literal ends with its quote when the lexer found it. -/
theorem quotedBody_closed (q : Char) (cs : List Char) (h : (quotedBody q cs).2.2 = true) :
    ∃ body, (quotedBody q cs).1 = body ++ [q] := by
  fun_induction quotedBody q cs with
  | case1 => cases h
  | case2 c _ => cases h
  | case3 c _ d cs t rest ok hrec ih =>
    rw [hrec] at ih
    obtain ⟨body, hbody⟩ := ih h
    exact ⟨c :: d :: body, by simp only at hbody ⊢; rw [hbody]; rfl⟩
  | case4 c cs _ hq => exact ⟨[], by simp [beq_iff_eq.1 hq]⟩
  | case5 c cs _ _ t rest ok hrec ih =>
    rw [hrec] at ih
    obtain ⟨body, hbody⟩ := ih h
    exact ⟨c :: body, by simp only at hbody ⊢; rw [hbody]; rfl⟩

theorem quotedBy_quotedBody (q : Char) (cs : List Char) :
    QuotedBy q (quotedBody q cs).2.2 (q :: (quotedBody q cs).1) := by
  unfold QuotedBy Token.literalInner
  cases hok : (quotedBody q cs).2.2 with
  | false => simp
  | true =>
    obtain ⟨body, hbody⟩ := quotedBody_closed q cs hok
    simp [hbody]

/-- The body of a block comment is cut at the first `*/`, or holds none. -/
theorem blockBody_closed_or (cs : List Char) :
    (∃ body, (blockBody cs).1 = body ++ ['*', '/']) ∨ ¬ ['*', '/'] <:+: (blockBody cs).1 := by
  fun_induction blockBody cs with
  | case1 => exact .inr (by simp)
  | case2 r => exact .inl ⟨[], rfl⟩
  | case3 c cs hnot t r hrec ih =>
    rw [hrec] at ih
    simp only at ih ⊢
    rcases ih with ⟨body, hbody⟩ | hnone
    · exact .inl ⟨c :: body, by rw [hbody]; rfl⟩
    · refine .inr fun hin => ?_
      rcases List.infix_cons_iff.1 hin with ⟨u, hu⟩ | hin
      · -- `*/` would start at `c`, and then the input `cs` would start with `/`
        have hcs : t ++ r = cs := by
          have := blockBody_append cs
          rwa [hrec] at this
        cases t with
        | nil => simp at hu
        | cons d u' =>
          simp only [List.cons_append, List.nil_append, List.cons.injEq] at hu
          exact hnot (u' ++ r) hu.1.symm (by rw [← hcs, ← hu.2.1]; rfl)
      · exact hnone hin

theorem blockDelimited_blockBody (cs : List Char) :
    BlockDelimited ('/' :: '*' :: (blockBody cs).1) := by
  unfold BlockDelimited Token.blockInner
  rcases blockBody_closed_or cs with ⟨body, hbody⟩ | hnone
  · simp [hbody, (List.suffix_append body ['*', '/']).isInfix]
  · have hsuffix : ¬ ((blockBody cs).1.length ≥ 2 &&
        (blockBody cs).1.drop ((blockBody cs).1.length - 2) == ['*', '/']) = true := by
      intro h
      simp only [Bool.and_eq_true, decide_eq_true_eq, beq_iff_eq] at h
      exact hnone (h.2 ▸ (List.drop_suffix _ _).isInfix)
    simp [hsuffix, hnone]

/-- No punctuation is a literal or a comment. -/
theorem punctuation_plain : ∀ p ∈ TokenKind.punctuation, p.2 ≠ .string ∧ p.2 ≠ .name ∧
    p.2 ≠ .lineComment ∧ p.2 ≠ .blockComment := by
  decide

/-- A number literal is an integer lexeme. -/
theorem number_kind {c : Char} {cs : List Char} {p : Lexeme × List Char} (h : number c cs = some p) :
    p.1.kind = .integer := by
  unfold number at h
  split at h
  · cases h
  · rw [← Option.some.inj h]

/-- Each rule of `cut` takes a lexeme with the delimiters of its kind. -/
theorem cut_delimits (c : Char) (cs : List Char) : (cut c cs).1.Delimits := by
  unfold cut
  split
  · exact delimits_of_kind (by simp)
  split
  · exact delimits_of_kind (by simp)
  split
  · next h => exact delimits_of_kind (by simp [number_kind h])
  split
  · next hq =>
    -- the opening character is the quote that the body is read against
    have hlit := quotedBy_quotedBody c cs
    generalize quotedBody c cs = res at hlit ⊢
    obtain ⟨t, r, ok⟩ := res
    simp only [Bool.or_eq_true, beq_iff_eq] at hq
    rcases hq with rfl | rfl
    · exact ⟨fun _ => hlit, fun hk => (by simp at hk), fun hk => (by simp at hk),
        fun hk => (by simp at hk)⟩
    · exact ⟨fun hk => (by simp at hk), fun _ => hlit, fun hk => (by simp at hk),
        fun hk => (by simp at hk)⟩
  split
  · next hcom =>
    simp only [Bool.and_eq_true, beq_iff_eq] at hcom
    obtain ⟨rfl, hhead⟩ := hcom
    obtain ⟨rest, rfl⟩ : ∃ rest, cs = '/' :: rest := by
      cases cs with
      | nil => simp at hhead
      | cons d rest =>
        simp only [List.head?_cons, Option.some.injEq] at hhead
        exact ⟨rest, by rw [hhead]⟩
    refine ⟨fun hk => (by simp at hk), fun hk => (by simp at hk), fun _ => ?_,
      fun hk => (by simp at hk)⟩
    exact ⟨List.takeWhile (fun x => x != '\n') rest, by simp⟩
  split
  · next hcom =>
    simp only [Bool.and_eq_true, beq_iff_eq] at hcom
    obtain ⟨rfl, -⟩ := hcom
    exact ⟨fun hk => (by simp at hk), fun hk => (by simp at hk), fun hk => (by simp at hk),
      fun _ => blockDelimited_blockBody _⟩
  split
  · next h =>
    obtain ⟨p, hp, -, rfl⟩ := punctuationAt_mem h
    exact delimits_of_kind (punctuation_plain p hp)
  · exact delimits_of_kind (by simp)

theorem lexemes_delimits (cs : List Char) : ∀ l ∈ lexemes cs, l.Delimits := by
  fun_induction lexemes cs with
  | case1 => simp
  | case2 c cs ih =>
    intro l hl
    rcases List.mem_cons.1 hl with rfl | hl
    · exact cut_delimits c cs
    · exact ih l hl

/-! ## The tokens -/

theorem tokenOf_valid (l : Lexeme) (start line : Nat) : (tokenOf l start line).valid = l.valid := by
  unfold tokenOf
  split
  · rfl
  · dsimp only
    split_ifs <;> rfl

/-- A token of a literal or comment kind has its lexeme's kind. -/
theorem tokenOf_kind_eq {l : Lexeme} (hl : l.Sound) (start line : Nat)
    (hk : (tokenOf l start line).kind = .string ∨ (tokenOf l start line).kind = .name ∨
      (tokenOf l start line).kind = .lineComment ∨ (tokenOf l start line).kind = .blockComment) :
    (tokenOf l start line).kind = l.kind := by
  rcases tokenOf_kind hl start line with h | ⟨-, h | h⟩
  · exact h
  all_goals rw [h] at hk; simp at hk

/-- Offset `n` is a character boundary of a text that starts with a string of `n` bytes. -/
theorem isValid_of_append {u : String} (p rest : String) {n : Nat} (hp : p.utf8ByteSize = n)
    (h : u = p ++ rest) : (⟨n⟩ : String.Pos.Raw).IsValid u :=
  String.Pos.Raw.isValid_iff_exists_append.2 ⟨p, rest, h, by rw [← hp]; rfl⟩

/-- The law of one quote `q` of one byte, for a token whose text is quoted by `q`. -/
theorem quoted_token {t : Token} {q : Char} (hq : q.utf8Size = 1)
    (h : QuotedBy q t.valid t.text.toList)
    (hc : t.content = String.ofList (Token.literalInner t.valid t.text.toList)) :
    t.text = String.singleton q ++ t.content ++ (if t.valid then String.singleton q else "") ∧
      (⟨1⟩ : String.Pos.Raw).IsValid t.text ∧
      (t.valid = true → (⟨t.text.utf8ByteSize - 1⟩ : String.Pos.Raw).IsValid t.text) := by
  have htext : t.text = String.singleton q ++ t.content ++ (if t.valid then String.singleton q else "") := by
    refine String.toList_injective ?_
    rw [hc]
    conv_lhs => rw [h]
    by_cases hv : t.valid <;> simp [hv]
  refine ⟨htext, isValid_of_append (String.singleton q) _ (by rw [String.utf8ByteSize_singleton, hq])
    (by rw [htext, String.append_assoc]), fun hv => ?_⟩
  -- a valid literal ends with its quote, one byte before the end
  rw [hv, if_pos rfl] at htext
  refine isValid_of_append _ (String.singleton q) ?_ htext
  rw [htext]
  simp only [String.utf8ByteSize_append, String.utf8ByteSize_singleton, hq]
  omega

end Lexer

open Lexer in
/-- Every token of every text carries the delimiters that `Token.content` strips. -/
theorem Token.lex_delimited (s : String) : (Token.lex s).Forall Token.Delimited := by
  refine List.forall_iff_forall_mem.2 fun t ht => ?_
  obtain ⟨l, hl, P, Q, -, rfl⟩ := lex_pieces ht
  have hsound := lexemes_sound _ l hl
  have hdelim := lexemes_delimits _ l hl
  obtain ⟨htext, -, -, -⟩ := tokenOf_span l (String.utf8Len P) (1 + P.count '\n')
  set t := tokenOf l (String.utf8Len P) (1 + P.count '\n')
  have hchars : t.text.toList = l.chars := by rw [htext, String.toList_ofList]
  have hvalid : t.valid = l.valid := tokenOf_valid l _ _
  have hkind := tokenOf_kind_eq hsound (String.utf8Len P) (1 + P.count '\n')
  -- the quoted kinds share one law, with their own quote
  have hstring : t.kind = .string → _ := fun hk =>
    quoted_token (q := '"') rfl (by rw [hchars, hvalid]; exact hdelim.string (hkind (.inl hk) ▸ hk))
      (by simp [Token.content, hk])
  have hname : t.kind = .name → _ := fun hk =>
    quoted_token (q := '\'') rfl (by rw [hchars, hvalid]; exact hdelim.name (hkind (.inr (.inl hk)) ▸ hk))
      (by simp [Token.content, hk])
  have hline : t.kind = .lineComment → t.text = "//" ++ t.content := by
    intro hk
    obtain ⟨body, hbody⟩ := hdelim.lineComment (hkind (.inr (.inr (.inl hk))) ▸ hk)
    refine String.toList_injective ?_
    simp [Token.content, hk, hchars, hbody]
  have hblock : t.kind = .blockComment →
      t.text = "/*" ++ t.content ++ (if t.closesComment then "*/" else "") := by
    intro hk
    have hb := hdelim.blockComment (hkind (.inr (.inr (.inr hk))) ▸ hk)
    rw [← hchars] at hb
    refine String.toList_injective ?_
    unfold Token.closesComment
    conv_lhs => rw [hb]
    simp only [Token.content, hk]
    by_cases hc : ['*', '/'] <:+: t.text.toList.drop 2 <;> simp [hc]
  refine ⟨fun hk => (hstring hk).1, fun hk => (hname hk).1, hline, hblock,
    fun h₁ h₂ h₃ h₄ => ?_, fun hk => ?_, fun hk => ?_⟩
  · unfold Token.content
    split <;> simp_all
  · rcases hk with hk | hk
    · exact (hstring hk).2
    · exact (hname hk).2
  · -- both openers are two bytes
    rcases hk with hk | hk
    · exact isValid_of_append "//" t.content rfl (hline hk)
    · exact isValid_of_append "/*" _ rfl (by rw [hblock hk, String.append_assoc])

end ZScript
