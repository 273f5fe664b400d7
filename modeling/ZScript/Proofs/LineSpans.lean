import Mathlib
import ZScript.Editor.Panes
import ZScript.Proofs.CursorMoves

/-!
# The spans of a source line

The source pane shows a line as a list of spans (`Pane.highlight`): it walks the line's
characters with their byte offsets, keeps a run of characters of one class, and closes the run
when the class changes and around the character under the cursor, which gets a reversed span
of its own; a cursor at the end of the line is a reversed blank.

The spans are described here by the pieces they show (`Pane.Piece`): the character under the
cursor, or a run of characters. `Pane.Cuts` says what the pieces of a line are: together they
are its characters in order, the cursor's piece is at the cursor, a run is not empty, its
characters all have its class (read at their first byte) and none is under the cursor, and no
two runs side by side have the same class.

The walk keeps one invariant (`runs_cuts`): the closed pieces cut what has been read, the open
run has one class and no cursor, and the last closed piece is a run only when the open run is
of another class. Hence `highlight_pieces`: a line's spans are its pieces, then the blank when
the cursor is at the line's end, so that no span is empty and the spans' texts are the line.
-/

namespace ZScript

namespace Pane

/-- A piece of a line as the source pane shows it: the character under the cursor, or a run of
    characters with their byte offsets. -/
inductive Piece where
  | cursor (pos : Nat) (c : Char)
  | run (kind : Option SemanticKind) (chars : List (Nat × Char))

namespace Piece

/-- The characters a piece shows, with their offsets. -/
def chars : Piece → List (Nat × Char)
  | cursor pos c => [(pos, c)]
  | run _ cs => cs

/-- The class of a run; nothing for the cursor. -/
def runKind? : Piece → Option (Option SemanticKind)
  | cursor _ _ => none
  | run k _ => some k

/-- The span that shows a piece: the cursor's character reversed in its class's style, a run's
    characters in its class's style. -/
def span (kinds : Array (Option SemanticKind)) : Piece → Span
  | cursor pos c =>
    { content := c.toString, style := (Theme.styleFor (kindAt kinds pos)).withAttr .reversed }
  | run k cs => { content := String.ofList (cs.map Prod.snd), style := Theme.styleFor k }

/-- What a piece says of its characters: the cursor's piece is at the cursor; a run has
    characters, all of its class and none under the cursor. -/
def Fits (kinds : Array (Option SemanticKind)) (at? : Option Nat) : Piece → Prop
  | cursor pos _ => at? = some pos
  | run k cs => cs ≠ [] ∧ ∀ x ∈ cs, kindAt kinds x.1 = k ∧ at? ≠ some x.1

/-- Two pieces side by side are not two runs of one class. -/
def Apart (p q : Piece) : Prop := ∀ k, p.runKind? = some k → q.runKind? ≠ some k

/-- The span of a piece shows its characters. -/
theorem toList_span_content (kinds : Array (Option SemanticKind)) (p : Piece) :
    (p.span kinds).content.toList = p.chars.map Prod.snd := by
  cases p with
  | cursor pos c => simp [span, chars]
  | run k cs => simp [span, chars]

theorem span_content_ne_empty {kinds : Array (Option SemanticKind)} {at? : Option Nat} {p : Piece}
    (h : p.Fits kinds at?) : (p.span kinds).content ≠ "" := by
  intro hempty
  have hchars := toList_span_content kinds p
  rw [hempty, String.toList_empty, eq_comm, List.map_eq_nil_iff] at hchars
  cases p with
  | cursor pos c => simp [chars] at hchars
  | run k cs => exact h.1 hchars

end Piece

/-- `ps` cut the characters `cs` of a line into the pieces the source pane shows. -/
structure Cuts (kinds : Array (Option SemanticKind)) (at? : Option Nat) (cs : List (Nat × Char))
    (ps : List Piece) : Prop where
  chars : ps.flatMap Piece.chars = cs
  fits : ∀ p ∈ ps, p.Fits kinds at?
  apart : ps.IsChain Piece.Apart

namespace Cuts

variable {kinds : Array (Option SemanticKind)} {at? : Option Nat}

theorem nil : Cuts kinds at? [] [] := ⟨rfl, by simp, .nil⟩

/-- Closing one more piece after the pieces of `cs`. -/
theorem snoc {cs : List (Nat × Char)} {ps : List Piece} (h : Cuts kinds at? cs ps) {p : Piece}
    (hp : p.Fits kinds at?) (hapart : ∀ q ∈ ps.getLast?, q.Apart p) :
    Cuts kinds at? (cs ++ p.chars) (ps ++ [p]) := by
  refine ⟨by rw [List.flatMap_append, h.chars, List.flatMap_singleton], ?_, ?_⟩
  · intro q hq
    rcases List.mem_append.1 hq with hq | hq
    · exact h.fits q hq
    · rw [List.mem_singleton.1 hq]
      exact hp
  · exact h.apart.append (.singleton p) fun q hq r hr => by
      rw [List.head?_cons, Option.mem_some_iff] at hr
      exact hr ▸ hapart q hq

/-- The character under the cursor, when it is one of the line's, is a piece of its own. -/
theorem cursor_mem {cs : List (Nat × Char)} {ps : List Piece} (h : Cuts kinds at? cs ps)
    {pos : Nat} {c : Char} (hmem : (pos, c) ∈ cs) (hat : at? = some pos) :
    Piece.cursor pos c ∈ ps := by
  rw [← h.chars, List.mem_flatMap] at hmem
  obtain ⟨p, hp, hin⟩ := hmem
  cases p with
  | cursor pos' c' =>
    simp only [Piece.chars, List.mem_singleton, Prod.mk.injEq] at hin
    obtain ⟨rfl, rfl⟩ := hin
    exact hp
  | run k xs => exact absurd hat ((h.fits _ hp).2 _ hin).2

end Cuts

/-- Closing the open run: nothing when it is empty. -/
theorem flush_run (kinds : Array (Option SemanticKind)) (k : Option SemanticKind)
    (open' : List (Nat × Char)) (hne : open' ≠ []) (acc : List Span) :
    flush (open'.map Prod.snd).reverse k acc = (Piece.run k open').span kinds :: acc := by
  have hrun : (open'.map Prod.snd).reverse.isEmpty = false := by simpa using hne
  simp only [flush, hrun, Bool.false_eq_true, if_false, List.reverse_reverse, Piece.span]

/-- Closing the open run of class `kind` after the closed pieces `ps` of `done`: the pieces
    closed then cut what has been read, and end, if with a run, with one of class `kind`. -/
theorem flush_cuts {kinds : Array (Option SemanticKind)} {at? : Option Nat}
    {done open' : List (Nat × Char)} {kind : Option SemanticKind} {ps : List Piece}
    (hcuts : Cuts kinds at? done ps)
    (hopen : ∀ x ∈ open', kindAt kinds x.1 = kind ∧ at? ≠ some x.1)
    (hlast : ∀ k ys, ps.getLast? = some (.run k ys) → open' ≠ [] ∧ k ≠ kind) :
    ∃ qs, Cuts kinds at? (done ++ open') qs ∧
      flush (open'.map Prod.snd).reverse kind (ps.map (Piece.span kinds)).reverse =
        (qs.map (Piece.span kinds)).reverse ∧
      ∀ k ys, qs.getLast? = some (.run k ys) → k = kind := by
  by_cases hne : open' = []
  · -- nothing to close: the last piece is no run
    subst hne
    refine ⟨ps, by simpa using hcuts, by simp [flush], fun k ys hk => ?_⟩
    exact absurd rfl (hlast k ys hk).1
  · have hsnoc : Cuts kinds at? (done ++ open') (ps ++ [.run kind open']) := by
      refine hcuts.snoc (p := .run kind open') ⟨hne, hopen⟩ fun q hq k hk => ?_
      cases q with
      | cursor pos c => cases hk
      | run k' ys =>
        simp only [Piece.runKind?, Option.some.injEq] at hk ⊢
        subst hk
        exact fun h => (hlast k' ys hq).2 (Option.some.inj h).symm
    refine ⟨ps ++ [.run kind open'], hsnoc, ?_, fun k ys hk => ?_⟩
    · rw [flush_run kinds kind open' hne, List.map_append, List.reverse_append]
      rfl
    · simp only [List.getLast?_append, List.getLast?_singleton, Option.some_or,
        Option.some.injEq, Piece.run.injEq] at hk
      exact hk.1.symm

/-- The walk over a line's characters `xs`, after `done` has been read into the closed pieces
    `ps` and the open run `open'` of class `kind`, shows pieces that cut all of it. -/
theorem runs_cuts (kinds : Array (Option SemanticKind)) (at? : Option Nat) :
    ∀ (xs done open' : List (Nat × Char)) (kind : Option SemanticKind) (ps : List Piece),
      Cuts kinds at? done ps →
      (∀ x ∈ open', kindAt kinds x.1 = kind ∧ at? ≠ some x.1) →
      (∀ k ys, ps.getLast? = some (.run k ys) → open' ≠ [] ∧ k ≠ kind) →
      ∃ qs, Cuts kinds at? (done ++ open' ++ xs) qs ∧
        runs kinds at? xs (open'.map Prod.snd).reverse kind (ps.map (Piece.span kinds)).reverse =
          qs.map (Piece.span kinds) := by
  intro xs
  induction xs with
  | nil =>
    intro done open' kind ps hcuts hopen hlast
    obtain ⟨qs, hqs, hflush, -⟩ := flush_cuts hcuts hopen hlast
    refine ⟨qs, by simpa using hqs, ?_⟩
    rw [runs, hflush, List.reverse_reverse]
  | cons x xs ih =>
    intro done open' kind ps hcuts hopen hlast
    obtain ⟨pos, c⟩ := x
    obtain ⟨qs, hqs, hflush, hend⟩ := flush_cuts hcuts hopen hlast
    rw [runs]
    dsimp only
    split
    · -- the cursor's character closes the run and is a piece of its own
      next hat =>
      have hat : at? = some pos := by simpa using hat
      have hcur := hqs.snoc (p := .cursor pos c) hat fun q _ k _ => by simp [Piece.runKind?]
      obtain ⟨rs, hrs, hruns⟩ := ih _ [] (kindAt kinds (pos + c.utf8Size)) _ hcur (by simp)
        (by simp)
      refine ⟨rs, by simpa [Piece.chars] using hrs, ?_⟩
      rw [← hruns, hflush]
      simp [Piece.span]
    · split
      · -- a change of class closes the run and opens one with the character
        next hat hk =>
        have hat : at? ≠ some pos := by simpa using hat
        have hk : kindAt kinds pos ≠ kind := by simpa using hk
        obtain ⟨rs, hrs, hruns⟩ := ih (done ++ open') [(pos, c)] (kindAt kinds pos) qs hqs
          (by simpa using hat) fun k ys hlast' => ⟨by simp, (hend k ys hlast') ▸ hk.symm⟩
        refine ⟨rs, by simpa using hrs, ?_⟩
        rw [← hruns, ← hflush]
        rfl
      · -- the same class: the run grows
        next hat hk =>
        have hat : at? ≠ some pos := by simpa using hat
        have hk : kindAt kinds pos = kind := by simpa using hk
        have hopen' :
            ∀ y ∈ open' ++ [(pos, c)], kindAt kinds y.1 = kind ∧ at? ≠ some y.1 := by
          intro y hy
          rcases List.mem_append.1 hy with hy | hy
          · exact hopen y hy
          · rw [List.mem_singleton.1 hy]
            exact ⟨hk, hat⟩
        obtain ⟨rs, hrs, hruns⟩ := ih done (open' ++ [(pos, c)]) kind ps hcuts hopen'
          fun k ys hlast' => ⟨by simp, (hlast k ys hlast').2⟩
        refine ⟨rs, by simpa using hrs, ?_⟩
        rw [← hruns]
        simp

/-- The characters the pane lists for the bytes `[start, stop)` of `text = A ++ M ++ B`, where
    `M` lies between them, are those of `M`, each at its offset. -/
theorem filter_positions_line {text : String} {A M B : List Char}
    (htext : text.toList = A ++ M ++ B) :
    (Cursor.positions text).filter (fun x => decide (String.utf8Len A ≤ x.1) &&
        decide (x.1 < String.utf8Len A + String.utf8Len M)) =
      Cursor.placed (String.utf8Len A) M := by
  have hbefore : ∀ x ∈ Cursor.placed 0 A, x.1 < String.utf8Len A := fun x hx => by
    simpa using (Cursor.lt_of_mem_placed hx).2
  have hafter : ∀ x ∈ Cursor.placed (String.utf8Len A + String.utf8Len M) B,
      String.utf8Len A + String.utf8Len M ≤ x.1 := fun x hx => (Cursor.lt_of_mem_placed hx).1
  rw [Cursor.positions_eq, htext, Cursor.placed_append, Cursor.placed_append, zero_add,
    String.utf8Len_append, zero_add, List.filter_append, List.filter_append,
    List.filter_eq_nil_iff.2, List.filter_eq_self.2, List.filter_eq_nil_iff.2, List.nil_append,
    List.append_nil]
  · intro x hx
    have := hafter x hx
    simp only [Bool.and_eq_true, decide_eq_true_eq, not_and, not_lt]
    omega
  · intro x hx
    have := Cursor.lt_of_mem_placed hx
    simp only [Bool.and_eq_true, decide_eq_true_eq]
    omega
  · intro x hx
    have := hbefore x hx
    simp only [Bool.and_eq_true, decide_eq_true_eq, not_and, not_lt]
    omega

/-- The spans the source pane shows for a line `M` of a text `A ++ M ++ B`, whatever the classes
    of the bytes and wherever the cursor: their texts put together are the line, followed by
    one blank exactly when the cursor is at the line's end; none is empty; and they are the
    spans of pieces that cut the line, the character under the cursor on its own and every
    other span a run of characters of one class, in that class's style, no two runs side by
    side of one class. -/
theorem highlight_pieces {text : String} {A M B : List Char} (htext : text.toList = A ++ M ++ B)
    (kinds : Array (Option SemanticKind)) (at? : Option Nat) :
    let start := String.utf8Len A
    let stop := start + String.utf8Len M
    let spans := highlight kinds start stop
      ((Cursor.positions text).filter fun x => decide (start ≤ x.1) && decide (x.1 < stop)) at?
    String.join (spans.map Span.content) =
        String.ofList M ++ (if at? = some stop then " " else "") ∧
      (∀ s ∈ spans, s.content ≠ "") ∧
      ∃ ps, Cuts kinds at? (Cursor.placed start M) ps ∧
        (∀ pos c, (pos, c) ∈ Cursor.placed start M → at? = some pos →
          Piece.cursor pos c ∈ ps) ∧
        spans = ps.map (Piece.span kinds) ++
          if at? = some stop then [{ content := " ", style := ({} : Style).withAttr .reversed }]
          else [] := by
  intro start stop spans
  obtain ⟨ps, hcuts, hruns⟩ := runs_cuts kinds at? (Cursor.placed start M) [] []
    (kindAt kinds start) [] Cuts.nil (by simp) (by simp)
  have hline : (Cursor.positions text).filter (fun x => decide (start ≤ x.1) &&
      decide (x.1 < stop)) = Cursor.placed start M := filter_positions_line htext
  have hspans : spans = ps.map (Piece.span kinds) ++
      if at? = some stop then [{ content := " ", style := ({} : Style).withAttr .reversed }]
      else [] := by
    simp only [spans, highlight, hline, beq_iff_eq]
    rw [← hruns]
    rfl
  have hcuts' : Cuts kinds at? (Cursor.placed start M) ps := by simpa using hcuts
  -- the blank at the end of the line is the one span that is no piece
  have hblank :
      (if at? = some stop then [{ content := " ", style := ({} : Style).withAttr .reversed }]
        else ([] : List Span)).map Span.content = if at? = some stop then [" "] else [] := by
    split <;> rfl
  refine ⟨?_, ?_, ps, hcuts', fun pos c hmem hat => hcuts'.cursor_mem hmem hat, hspans⟩
  · apply String.toList_injective
    have hpieces : ((ps.map (Piece.span kinds)).map Span.content).flatMap String.toList = M := by
      simp only [List.map_map, List.flatMap_map, Function.comp_def, Piece.toList_span_content,
        ← List.map_flatMap, hcuts'.chars, Cursor.map_snd_placed]
    rw [hspans, List.map_append, String.toList_join, List.flatMap_append, hpieces, hblank,
      String.toList_append, String.toList_ofList]
    split <;> simp
  · intro s hs
    rw [hspans, List.mem_append, List.mem_map] at hs
    rcases hs with ⟨p, hp, rfl⟩ | hs
    · exact Piece.span_content_ne_empty (hcuts'.fits p hp)
    · split at hs
      · rw [List.mem_singleton.1 hs]
        decide
      · cases hs

/-- The line `class Foo` painted as a keyword and a type name, with the cursor on its first
    `o`. -/
theorem highlight_pieces_classFoo :
    let text := "class Foo"
    let kinds := classify 9 #[{ start := 0, stop := 5, kind := .keyword },
      { start := 6, stop := 9, kind := .typeName }]
    text.toList = [] ++ text.toList ++ [] ∧
      let start := String.utf8Len ([] : List Char)
      let stop := start + String.utf8Len text.toList
      let spans := highlight kinds start stop
        ((Cursor.positions text).filter fun x => decide (start ≤ x.1) && decide (x.1 < stop))
        (some 7)
      String.join (spans.map Span.content) =
          String.ofList text.toList ++ (if some 7 = some stop then " " else "") ∧
        (∀ s ∈ spans, s.content ≠ "") ∧
        ∃ ps, Cuts kinds (some 7) (Cursor.placed start text.toList) ps ∧
          (∀ pos c, (pos, c) ∈ Cursor.placed start text.toList → some 7 = some pos →
            Piece.cursor pos c ∈ ps) ∧
          spans = ps.map (Piece.span kinds) ++
            if some 7 = some stop then
              [{ content := " ", style := ({} : Style).withAttr .reversed }]
            else [] := by
  intro text kinds
  have htext : text.toList = [] ++ text.toList ++ [] := by simp
  exact ⟨htext, highlight_pieces htext kinds (some 7)⟩

/-- The cursor on the first `o` of `class Foo` splits the type name around it. -/
example :
    let kinds := classify 9 #[{ start := 0, stop := 5, kind := .keyword },
      { start := 6, stop := 9, kind := .typeName }]
    (highlight kinds 0 9 (Cursor.positions "class Foo") (some 7)).map Span.content =
      ["class", " ", "F", "o", "o"] := by decide

end Pane

end ZScript
