import ZScript.Proofs.LineColumns

/-!
# Moving the cursor and editing at it

The editor's cursor is a byte offset into the text, and every key moves it through one of a few
functions: the previous and the next boundary between characters, a line and column turned back
into an offset, moving up or down. Each of them lands on a boundary between characters
(`isValid_prevBoundary`, `isValid_nextBoundary`, `isValid_offsetAt`, `isValid_moveVertical`),
the only offsets at which a text can be cut. Editing cuts the text at two boundaries and puts
new text between (`toList_replace`); next to a character the two boundary functions step over
exactly that character (`prevBoundary_append_cons`, `nextBoundary_append_cons`).

A boundary is the length in bytes of some first characters of the text
(`isValid_iff_exists_append`).
-/

namespace ZScript

namespace Cursor

/-! ## Boundaries -/

theorem isValid_iff_exists_append {text : String} {o : Nat} :
    (String.Pos.Raw.mk o).IsValid text ↔
      ∃ A B, text.toList = A ++ B ∧ o = String.utf8Len A := by
  rw [String.Pos.Raw.isValid_iff_exists_take_toList]
  constructor
  · rintro ⟨i, hi⟩
    refine ⟨_, _, (List.take_append_drop i _).symm, ?_⟩
    rw [← String.utf8ByteSize_ofList]
    exact hi
  · rintro ⟨A, B, hAB, rfl⟩
    refine ⟨A.length, ?_⟩
    rw [hAB, List.take_left, String.utf8ByteSize_ofList]

theorem exists_of_mem_placed {pos : Nat} {cs : List Char} {x : Nat × Char}
    (h : x ∈ placed pos cs) :
    ∃ A B, cs = A ++ x.2 :: B ∧ x.1 = pos + String.utf8Len A := by
  induction cs generalizing pos with
  | nil => simp [placed] at h
  | cons c cs ih =>
    simp only [placed, List.mem_cons] at h
    rcases h with rfl | h
    · exact ⟨[], cs, rfl, rfl⟩
    · obtain ⟨A, B, rfl, hx⟩ := ih h
      refine ⟨c :: A, B, rfl, ?_⟩
      rw [hx, String.utf8Len_cons]
      omega

theorem map_snd_placed (pos : Nat) (cs : List Char) : (placed pos cs).map (·.2) = cs := by
  induction cs generalizing pos with
  | nil => rfl
  | cons c cs ih => rw [placed, List.map_cons, ih]


/-! ## Cutting the text at a boundary -/

/-- The characters before a boundary. -/
theorem filter_lt_placed (pos : Nat) (A B : List Char) :
    (placed pos (A ++ B)).filter (fun x => decide (x.1 < pos + String.utf8Len A)) =
      placed pos A := by
  rw [placed_append, List.filter_append, List.filter_eq_self.2, List.filter_eq_nil_iff.2,
    List.append_nil]
  · intro x hx
    have := lt_of_mem_placed hx
    simp only [decide_eq_true_eq, not_lt]
    omega
  · intro x hx
    have := lt_of_mem_placed hx
    simp only [decide_eq_true_eq]
    omega

/-- The characters after a boundary. -/
theorem filter_ge_placed (pos : Nat) (A B : List Char) :
    (placed pos (A ++ B)).filter (fun x => decide (pos + String.utf8Len A ≤ x.1)) =
      placed (pos + String.utf8Len A) B := by
  rw [placed_append, List.filter_append, List.filter_eq_nil_iff.2, List.filter_eq_self.2,
    List.nil_append]
  · intro x hx
    have := lt_of_mem_placed hx
    simp only [decide_eq_true_eq]
    omega
  · intro x hx
    have := lt_of_mem_placed hx
    simp only [decide_eq_true_eq, not_le]
    omega

theorem utf8ByteSize_eq_utf8Len (text : String) :
    text.utf8ByteSize = String.utf8Len text.toList := by
  rw [← String.utf8ByteSize_ofList, String.ofList_toList]

theorem utf8Len_le_size {text : String} {A B : List Char} (h : text.toList = A ++ B) :
    String.utf8Len A ≤ text.utf8ByteSize := by
  rw [utf8ByteSize_eq_utf8Len, h, String.utf8Len_append]
  omega

/-- Replacing the bytes between two boundaries. -/
theorem toList_replace {text : String} {A B A' B' : List Char} (h : text.toList = A ++ B)
    (h' : text.toList = A' ++ B') (insert : String) :
    (replace text (String.utf8Len A) (String.utf8Len A') insert).toList =
      A ++ insert.toList ++ B' := by
  have hlt := filter_lt_placed 0 A B
  have hge := filter_ge_placed 0 A' B'
  rw [zero_add, ← h, ← positions_eq] at hlt
  rw [zero_add, ← h', ← positions_eq] at hge
  rw [replace, hlt, hge, String.toList_append, String.toList_append, String.toList_ofList,
    String.toList_ofList, map_snd_placed, map_snd_placed]


/-! ## Every move lands on a boundary -/

theorem isValid_zero (text : String) : (String.Pos.Raw.mk 0).IsValid text :=
  String.Pos.Raw.isValid_zero

theorem isValid_size (text : String) : (String.Pos.Raw.mk text.utf8ByteSize).IsValid text :=
  String.Pos.Raw.isValid_rawEndPos

theorem isValid_of_mem_positions {text : String} {x : Nat × Char} (hx : x ∈ positions text) :
    (String.Pos.Raw.mk x.1).IsValid text := by
  rw [positions_eq] at hx
  obtain ⟨A, B, hAB, hx⟩ := exists_of_mem_placed hx
  rw [hx, zero_add]
  exact isValid_iff_exists_append.2 ⟨A, x.2 :: B, hAB, rfl⟩

/-- Left of the character after `A` is the end of `A`. -/
theorem prevBoundary_append_cons {text : String} {A B : List Char} {c : Char}
    (h : text.toList = A ++ c :: B) :
    prevBoundary text (String.utf8Len A + c.utf8Size) = String.utf8Len A := by
  have hsplit : text.toList = (A ++ [c]) ++ B := by rw [h, List.append_assoc, List.singleton_append]
  have hlen : String.utf8Len (A ++ [c]) = String.utf8Len A + c.utf8Size := by simp
  have hmin :
      min (String.utf8Len A + c.utf8Size) text.utf8ByteSize = String.utf8Len A + c.utf8Size :=
    Nat.min_eq_left (hlen ▸ utf8Len_le_size hsplit)
  have hbefore := filter_lt_placed 0 (A ++ [c]) B
  rw [zero_add, hlen, ← hsplit, ← positions_eq] at hbefore
  rw [prevBoundary]
  dsimp only
  rw [hmin, hbefore, placed_append]
  simp [placed]

/-- Right of a boundary before a character `c` is the boundary after it. -/
theorem nextBoundary_append_cons {text : String} {A B : List Char} {c : Char}
    (h : text.toList = A ++ c :: B) :
    nextBoundary text (String.utf8Len A) = String.utf8Len A + c.utf8Size := by
  have hmin : min (String.utf8Len A) text.utf8ByteSize = String.utf8Len A :=
    Nat.min_eq_left (utf8Len_le_size h)
  have hbefore : ∀ x ∈ placed 0 A, ¬ decide (String.utf8Len A ≤ x.1) = true := fun x hx => by
    have := lt_of_mem_placed hx
    simp only [decide_eq_true_eq, not_le]
    omega
  rw [nextBoundary]
  dsimp only
  rw [hmin, positions_eq, h, placed_append, List.find?_append, List.find?_eq_none.2 hbefore,
    Option.none_or, zero_add, placed, List.find?_cons_of_pos (by simp)]

/-- Left of the cursor is a boundary at or before it. -/
theorem isValid_prevBoundary (text : String) (o : Nat) :
    (String.Pos.Raw.mk (prevBoundary text o)).IsValid text ∧ prevBoundary text o ≤ o := by
  rw [prevBoundary]
  dsimp only
  cases hlast :
      ((positions text).filter fun x => decide (x.1 < min o text.utf8ByteSize)).getLast? with
  | none => exact ⟨isValid_zero text, Nat.zero_le o⟩
  | some x =>
    have hx := List.mem_of_getLast? hlast
    rw [List.mem_filter, decide_eq_true_eq] at hx
    refine ⟨isValid_of_mem_positions hx.1, ?_⟩
    simp only [Option.map_some, Option.getD_some]
    omega

/-- Right of a boundary is a boundary, after it unless the cursor is at the end. -/
theorem isValid_nextBoundary {text : String} {o : Nat} (ho : (String.Pos.Raw.mk o).IsValid text) :
    (String.Pos.Raw.mk (nextBoundary text o)).IsValid text ∧
      nextBoundary text o ≤ text.utf8ByteSize ∧
      (o < text.utf8ByteSize → o < nextBoundary text o) := by
  obtain ⟨A, B, hAB, rfl⟩ := isValid_iff_exists_append.1 ho
  cases B with
  | nil =>
    have hsize : String.utf8Len A = text.utf8ByteSize := by
      rw [utf8ByteSize_eq_utf8Len, hAB, List.append_nil]
    have hnone : ∀ x ∈ positions text,
        ¬ decide (min (String.utf8Len A) text.utf8ByteSize ≤ x.1) = true :=
      fun x hx => by
        rw [positions_eq, hAB, List.append_nil] at hx
        have := lt_of_mem_placed hx
        simp only [decide_eq_true_eq, not_le]
        omega
    rw [nextBoundary]
    dsimp only
    rw [List.find?_eq_none.2 hnone]
    exact ⟨isValid_size text, le_rfl, fun h => absurd h (by omega)⟩
  | cons c B =>
    rw [nextBoundary_append_cons hAB]
    have hsplit : text.toList = (A ++ [c]) ++ B := by
      rw [hAB, List.append_assoc, List.singleton_append]
    have hlen : String.utf8Len (A ++ [c]) = String.utf8Len A + c.utf8Size := by simp
    refine ⟨isValid_iff_exists_append.2 ⟨_, _, hsplit, hlen.symm⟩,
      hlen ▸ utf8Len_le_size hsplit, fun _ => ?_⟩
    have := c.utf8Size_pos
    omega

/-- Every offset of a line and column is a boundary. -/
theorem isValid_offsetAt (text : String) (l c : Nat) :
    (String.Pos.Raw.mk (offsetAt text l c)).IsValid text := by
  by_cases hl : l < text.toList.count '\n' + 1
  · obtain ⟨P, M, Q, hs, rfl, -⟩ := exists_lineSplit text.toList hl
    rw [hs.offsetAt_eq]
    refine isValid_iff_exists_append.2 ⟨P ++ M.take c, M.drop c ++ Q, ?_, by simp⟩
    rw [hs.eq, List.append_assoc, List.append_assoc, ← List.append_assoc (M.take c),
      List.take_append_drop]
  · rw [offsetAt_of_le text c (by omega)]
    exact isValid_size text

/-- Moving up or down lands on a boundary. -/
theorem isValid_moveVertical (text : String) (o : Nat) (down : Bool) :
    (String.Pos.Raw.mk (moveVertical text o down)).IsValid text := by
  rw [moveVertical]
  dsimp only
  split
  · split
    · exact isValid_zero text
    · exact isValid_offsetAt text _ _
  · split
    · exact isValid_size text
    · exact isValid_offsetAt text _ _

end Cursor

end ZScript
