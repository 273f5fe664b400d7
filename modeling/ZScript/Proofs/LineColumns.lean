import Mathlib
import ZScript.Editor.Cursor

/-!
# Lines and columns

The editor converts between byte offsets and (line, column) pairs: `Cursor.lineCol` finds the
line by the offsets where lines start and counts the characters before the offset on it;
`Cursor.offsetAt` goes back, stopping at the end of a line that is too short, or at the end of
the text past its last line. The two are inverse where it matters (`Cursor.lineCol_roundTrip`):
every boundary between characters comes back to itself, and a line and column come back as the
line and the column cut at the line's end.

The proofs read the text's characters as `P ++ M ++ Q` around one whole line `M`
(`Cursor.LineSplit`): offsets in `M` are columns of line `P.count '\n'`, and the conversions on
such a split are computed once (`LineSplit.lineCol_eq`, `LineSplit.offsetAt_eq`). Every boundary
and every line has such a split.
-/

namespace ZScript

namespace Cursor

/-- The characters `cs` with the byte offset of each, the first at `pos`. -/
def placed : Nat → List Char → List (Nat × Char)
  | _, [] => []
  | pos, c :: cs => (pos, c) :: placed (pos + c.utf8Size) cs

/-- The offsets just after each line feed of `cs`, placed from `pos`. -/
def breaks (pos : Nat) (cs : List Char) : List Nat :=
  (placed pos cs).filterMap fun (p, c) => if c == '\n' then some (p + 1) else none

/-! ## The characters with their offsets -/

theorem placed_append (pos : Nat) (A B : List Char) :
    placed pos (A ++ B) = placed pos A ++ placed (pos + String.utf8Len A) B := by
  induction A generalizing pos with
  | nil => simp [placed]
  | cons c A ih =>
    simp only [List.cons_append, placed, ih, String.utf8Len_cons, List.cons_append]
    congr 3
    omega

/-- The loop of `positions`, from any accumulator. -/
theorem foldl_positions (cs : List Char) (acc : List (Nat × Char)) (pos : Nat) :
    cs.foldl (fun (acc, pos) c => ((pos, c) :: acc, pos + c.utf8Size)) (acc, pos) =
      ((placed pos cs).reverse ++ acc, pos + String.utf8Len cs) := by
  induction cs generalizing acc pos with
  | nil => simp [placed]
  | cons c cs ih =>
    rw [List.foldl_cons, ih]
    simp only [placed, List.reverse_cons, List.append_assoc, List.singleton_append,
      String.utf8Len_cons, Prod.mk.injEq, true_and]
    omega

theorem positions_eq (text : String) : positions text = placed 0 text.toList := by
  rw [positions, foldl_positions]
  simp

theorem lineStarts_eq (text : String) : lineStarts text = 0 :: breaks 0 text.toList := by
  rw [lineStarts, positions_eq, breaks]

/-- Every character placed from `pos` starts inside `[pos, pos + utf8Len cs)`. -/
theorem lt_of_mem_placed {pos : Nat} {cs : List Char} {x : Nat × Char} (h : x ∈ placed pos cs) :
    pos ≤ x.1 ∧ x.1 < pos + String.utf8Len cs := by
  induction cs generalizing pos with
  | nil => simp [placed] at h
  | cons c cs ih =>
    simp only [placed, List.mem_cons] at h
    have hc := c.utf8Size_pos
    rcases h with rfl | h
    · simp only [String.utf8Len_cons]; omega
    · have := ih h
      simp only [String.utf8Len_cons]; omega

theorem getElem?_placed (pos : Nat) (cs : List Char) (i : Nat) :
    (placed pos cs)[i]? = cs[i]?.map fun c => (pos + String.utf8Len (cs.take i), c) := by
  induction cs generalizing pos i with
  | nil => simp [placed]
  | cons c cs ih =>
    cases i with
    | zero => simp [placed]
    | succ i =>
      simp only [placed, List.getElem?_cons_succ, ih, List.take_succ_cons, String.utf8Len_cons]
      congr 1
      funext d
      congr 1
      omega

theorem snd_mem_of_mem_placed {pos : Nat} {cs : List Char} {x : Nat × Char}
    (h : x ∈ placed pos cs) : x.2 ∈ cs := by
  induction cs generalizing pos with
  | nil => simp [placed] at h
  | cons c cs ih =>
    simp only [placed, List.mem_cons] at h
    rcases h with rfl | h
    · exact List.mem_cons_self
    · exact List.mem_cons_of_mem c (ih h)

theorem length_placed (pos : Nat) (cs : List Char) : (placed pos cs).length = cs.length := by
  induction cs generalizing pos with
  | nil => rfl
  | cons c cs ih => simp [placed, ih]

theorem breaks_append (pos : Nat) (A B : List Char) :
    breaks pos (A ++ B) = breaks pos A ++ breaks (pos + String.utf8Len A) B := by
  rw [breaks, placed_append, List.filterMap_append, breaks, breaks]

theorem lt_of_mem_breaks {pos x : Nat} {cs : List Char} (h : x ∈ breaks pos cs) :
    pos < x ∧ x ≤ pos + String.utf8Len cs := by
  rw [breaks, List.mem_filterMap] at h
  obtain ⟨⟨p, c⟩, hmem, hx⟩ := h
  have hp := lt_of_mem_placed hmem
  dsimp only at hx hp
  split at hx
  · rw [Option.some.injEq] at hx
    omega
  · cases hx

theorem length_breaks (pos : Nat) (cs : List Char) : (breaks pos cs).length = cs.count '\n' := by
  induction cs generalizing pos with
  | nil => rfl
  | cons c cs ih =>
    rw [← List.singleton_append, breaks_append, List.length_append, ih, List.count_append]
    by_cases hc : c = '\n' <;> simp [breaks, placed, hc]

/-! ## One whole line -/

/-- The characters `L` read as `P ++ M ++ Q` around a whole line `M`: `P` is empty or ends with
    a line feed, `M` holds none, and `Q` is empty or starts with one. -/
structure LineSplit (L P M Q : List Char) : Prop where
  eq : L = P ++ M ++ Q
  before : P = [] ∨ P.getLast? = some '\n'
  inside : '\n' ∉ M
  after : Q = [] ∨ Q.head? = some '\n'

/-- The last offset after a line feed of characters that end a line is their length. -/
theorem getLast?_breaks {P : List Char} (h : P = [] ∨ P.getLast? = some '\n') :
    (0 :: breaks 0 P).getLast? = some (String.utf8Len P) := by
  rcases h with rfl | h
  · rfl
  · obtain ⟨P', rfl⟩ := List.getLast?_eq_some_iff.1 h
    rw [breaks_append, List.getLast?_cons, List.getLast?_append]
    simp [breaks, placed, String.utf8Len_append]
    rfl

namespace LineSplit

variable {text : String} {P M Q : List Char} (h : LineSplit text.toList P M Q)
include h

theorem breaks_eq :
    breaks 0 text.toList = breaks 0 P ++ breaks (String.utf8Len P + String.utf8Len M) Q := by
  have hM : breaks (String.utf8Len P) M = [] := by
    rw [← List.length_eq_zero_iff, length_breaks, List.count_eq_zero]
    exact h.inside
  rw [h.eq, breaks_append, breaks_append, zero_add, hM, List.append_nil, String.utf8Len_append,
    zero_add]

theorem size_eq : text.utf8ByteSize = String.utf8Len P + String.utf8Len M + String.utf8Len Q := by
  have hsize := String.utf8ByteSize_ofList text.toList
  rw [String.ofList_toList] at hsize
  rw [hsize, h.eq, String.utf8Len_append, String.utf8Len_append]

/-- Line `P.count '\n'` starts after `P`. -/
theorem getElem?_lineStarts : (lineStarts text)[P.count '\n']? = some (String.utf8Len P) := by
  have hlen : (0 :: breaks 0 P).length = P.count '\n' + 1 := by
    rw [List.length_cons, length_breaks]
  rw [lineStarts_eq, h.breaks_eq, ← List.cons_append, List.getElem?_append_left (by omega),
    ← getLast?_breaks h.before, List.getLast?_eq_getElem?, hlen, Nat.add_sub_cancel]

/-- From the start of line `P.count '\n'` to its end, the lines that start at or before an
    offset are the first `P.count '\n' + 1`. -/
theorem length_filter_lineStarts {o : Nat} (hlo : String.utf8Len P ≤ o)
    (hhi : o ≤ String.utf8Len P + String.utf8Len M) :
    ((lineStarts text).filter (· ≤ o)).length = P.count '\n' + 1 := by
  rw [lineStarts_eq, h.breaks_eq, ← List.cons_append, List.filter_append, List.filter_eq_self.2,
    List.filter_eq_nil_iff.2, List.append_nil, List.length_cons, length_breaks]
  · intro x hx
    have := lt_of_mem_breaks hx
    simp only [decide_eq_true_eq]
    omega
  · intro x hx
    simp only [List.mem_cons, decide_eq_true_eq] at hx ⊢
    rcases hx with rfl | hx
    · omega
    · have := lt_of_mem_breaks hx
      omega

/-- No character of the line is a line feed. -/
theorem ne_of_mem_placed {pos : Nat} {x : Nat × Char} (hx : x ∈ placed pos M) : x.2 ≠ '\n' :=
  fun hnl => h.inside (hnl ▸ snd_mem_of_mem_placed hx)

/-- The offset of column `c` of the line, and its line and column. -/
theorem lineCol_eq (c : Nat) :
    lineCol text (String.utf8Len P + String.utf8Len (M.take c)) =
      (P.count '\n', min c M.length) := by
  have htake : String.utf8Len (M.take c) ≤ String.utf8Len M :=
    String.utf8Len_le_of_sublist (List.take_sublist c M)
  have hsplit : text.toList = P ++ M.take c ++ (M.drop c ++ Q) := by
    rw [h.eq, List.append_assoc, List.append_assoc, ← List.append_assoc (M.take c),
      List.take_append_drop]
  have hmin : min (String.utf8Len P + String.utf8Len (M.take c)) text.utf8ByteSize =
      String.utf8Len P + String.utf8Len (M.take c) := by
    rw [h.size_eq]; omega
  have hline := h.length_filter_lineStarts (o := String.utf8Len P + String.utf8Len (M.take c))
    (Nat.le_add_right _ _) (by omega)
  -- the characters before the line, those of its first `c` columns, and the rest
  let o := String.utf8Len P + String.utf8Len (M.take c)
  let inside : Nat × Char → Bool := fun x =>
    decide (String.utf8Len P ≤ x.1) && decide (x.1 < o)
  have hbefore : (placed 0 P).filter inside = [] := List.filter_eq_nil_iff.2 fun x hx => by
    have := lt_of_mem_placed hx
    simp only [inside, Bool.and_eq_true, decide_eq_true_eq, not_and, not_lt]
    omega
  have hcolumns : (placed (String.utf8Len P) (M.take c)).filter inside =
      placed (String.utf8Len P) (M.take c) := List.filter_eq_self.2 fun x hx => by
    have := lt_of_mem_placed hx
    simp only [inside, o, Bool.and_eq_true, decide_eq_true_eq]
    omega
  have hafter : (placed o (M.drop c ++ Q)).filter inside = [] :=
    List.filter_eq_nil_iff.2 fun x hx => by
    have := lt_of_mem_placed hx
    simp only [inside, Bool.and_eq_true, decide_eq_true_eq, not_and, not_lt]
    omega
  rw [lineCol]
  dsimp only
  rw [hmin, hline, Nat.add_sub_cancel, List.getD_eq_getElem?_getD, h.getElem?_lineStarts,
    Option.getD_some, positions_eq, hsplit, placed_append, placed_append, zero_add,
    String.utf8Len_append]
  change (_, (List.filter inside _).length) = _
  rw [List.filter_append, List.filter_append, zero_add, hbefore, hcolumns, hafter, List.nil_append,
    List.append_nil, length_placed, List.length_take]


/-- The characters from the start of the line on. -/
theorem filter_positions :
    (positions text).filter (fun x => decide (String.utf8Len P ≤ x.1)) =
      placed (String.utf8Len P) (M ++ Q) := by
  have hbefore : (placed 0 P).filter (fun x => decide (String.utf8Len P ≤ x.1)) = [] :=
    List.filter_eq_nil_iff.2 fun x hx => by
      have := lt_of_mem_placed hx
      simp only [decide_eq_true_eq, not_le]
      omega
  have hfrom :
      (placed (String.utf8Len P) (M ++ Q)).filter (fun x => decide (String.utf8Len P ≤ x.1)) =
      placed (String.utf8Len P) (M ++ Q) :=
    List.filter_eq_self.2 fun x hx => by
      have := lt_of_mem_placed hx
      simp only [decide_eq_true_eq]
      omega
  rw [positions_eq, h.eq, List.append_assoc, placed_append, zero_add, List.filter_append, hbefore,
    hfrom, List.nil_append]

/-- The characters of the line, up to the line feed that ends it. -/
theorem takeWhile_placed :
    (placed (String.utf8Len P) (M ++ Q)).takeWhile (fun x => x.2 != '\n') =
      placed (String.utf8Len P) M := by
  have hM : ∀ x ∈ placed (String.utf8Len P) M, (x.2 != '\n') = true := fun x hx =>
    bne_iff_ne.2 (h.ne_of_mem_placed hx)
  rw [placed_append, List.takeWhile_append_of_pos hM]
  rcases h.after with rfl | hQ
  · simp [placed]
  · obtain ⟨R, rfl⟩ := List.head?_eq_some_iff.1 hQ
    simp [placed]


theorem offsetAt_eq (c : Nat) :
    offsetAt text (P.count '\n') c = String.utf8Len P + String.utf8Len (M.take c) := by
  rw [offsetAt, h.getElem?_lineStarts]
  dsimp only
  rw [h.filter_positions, h.takeWhile_placed, getElem?_placed]
  cases hc : M[c]? with
  | some ch => rfl
  | none =>
    -- past the line's last column: the line ends at its line feed or at the end of the text
    have hlen : M.length ≤ c := List.getElem?_eq_none_iff.1 hc
    have hM : ∀ x ∈ placed (String.utf8Len P) M, ¬(x.2 == '\n') = true := fun x hx => by
      simpa using h.ne_of_mem_placed hx
    rw [Option.map_none, List.take_of_length_le hlen, placed_append, List.find?_append,
      List.find?_eq_none.2 hM, Option.none_or]
    rcases h.after with rfl | hQ
    · rw [h.size_eq]
      rfl
    · obtain ⟨R, rfl⟩ := List.head?_eq_some_iff.1 hQ
      rfl

end LineSplit

/-! ## Every boundary and every line lies on a split -/

/-- Characters split after their last line feed. -/
theorem exists_lastLine (A : List Char) :
    ∃ P M, A = P ++ M ∧ (P = [] ∨ P.getLast? = some '\n') ∧ '\n' ∉ M := by
  induction A with
  | nil => exact ⟨[], [], rfl, .inl rfl, List.not_mem_nil⟩
  | cons a A ih =>
    obtain ⟨P, M, rfl, hP, hM⟩ := ih
    rcases hP with rfl | hP
    · by_cases ha : a = '\n'
      · exact ⟨[a], M, rfl, .inr (by rw [ha]; rfl), hM⟩
      · refine ⟨[], a :: M, rfl, .inl rfl, ?_⟩
        rw [List.mem_cons, not_or]
        exact ⟨Ne.symm ha, hM⟩
    · refine ⟨a :: P, M, rfl, .inr ?_, hM⟩
      rw [List.getLast?_cons, hP]
      rfl

/-- Characters split before their first line feed. -/
theorem exists_lineEnd (B : List Char) :
    ∃ M Q, B = M ++ Q ∧ '\n' ∉ M ∧ (Q = [] ∨ Q.head? = some '\n') := by
  induction B with
  | nil => exact ⟨[], [], rfl, List.not_mem_nil, .inl rfl⟩
  | cons b B ih =>
    by_cases hb : b = '\n'
    · exact ⟨[], b :: B, rfl, List.not_mem_nil, .inr (by rw [hb]; rfl)⟩
    · obtain ⟨M, Q, rfl, hM, hQ⟩ := ih
      refine ⟨b :: M, Q, rfl, ?_, hQ⟩
      rw [List.mem_cons, not_or]
      exact ⟨Ne.symm hb, hM⟩

/-- A boundary between characters of a text is a column of one of its lines. -/
theorem exists_lineSplit_of_isValid {text : String} {o : Nat}
    (ho : (String.Pos.Raw.mk o).IsValid text) :
    ∃ P M Q c, LineSplit text.toList P M Q ∧ c ≤ M.length ∧
      o = String.utf8Len P + String.utf8Len (M.take c) := by
  obtain ⟨i, hi⟩ := String.Pos.Raw.isValid_iff_exists_take_toList.1 ho
  obtain ⟨P, M₁, hA, hP, hM₁⟩ := exists_lastLine (text.toList.take i)
  obtain ⟨M₂, Q, hB, hM₂, hQ⟩ := exists_lineEnd (text.toList.drop i)
  refine ⟨P, M₁ ++ M₂, Q, M₁.length, ⟨?_, hP, ?_, hQ⟩, by simp, ?_⟩
  · rw [← List.take_append_drop i text.toList, hA, hB, List.append_assoc, List.append_assoc,
      List.append_assoc]
  · rw [List.mem_append, not_or]
    exact ⟨hM₁, hM₂⟩
  · rw [List.take_left, ← String.utf8Len_append, ← hA, ← String.utf8ByteSize_ofList]
    exact hi

/-- Every line of a text lies between line feeds, and is the text's line of its index. -/
theorem exists_lineSplit (L : List Char) {l : Nat} (hl : l < L.count '\n' + 1) :
    ∃ P M Q, LineSplit L P M Q ∧ P.count '\n' = l ∧ (L.splitOn '\n').getD l [] = M := by
  induction l generalizing L with
  | zero =>
    obtain ⟨M, Q, rfl, hM, hQ⟩ := exists_lineEnd L
    refine ⟨[], M, Q, ⟨rfl, .inl rfl, hM, hQ⟩, rfl, ?_⟩
    rcases hQ with rfl | hQ
    · rw [List.append_nil, List.splitOn_eq_singleton hM]
      rfl
    · obtain ⟨R, rfl⟩ := List.head?_eq_some_iff.1 hQ
      rw [List.splitOn_append_cons_self_of_not_mem hM]
      rfl
  | succ l ih =>
    obtain ⟨M₀, Q₀, rfl, hM₀, hQ₀⟩ := exists_lineEnd L
    -- the first line feed ends the first line; line `l + 1` is line `l` of what follows it
    obtain ⟨R, rfl⟩ : ∃ R, Q₀ = '\n' :: R := by
      rcases hQ₀ with rfl | hQ₀
      · rw [List.append_nil, List.count_eq_zero.2 hM₀] at hl
        omega
      · exact List.head?_eq_some_iff.1 hQ₀
    have hcount : (M₀ ++ '\n' :: R).count '\n' = R.count '\n' + 1 := by
      rw [List.count_append, List.count_eq_zero.2 hM₀, List.count_cons_self, zero_add]
    obtain ⟨P, M, Q, hs, hP, hM⟩ := ih R (by omega)
    refine ⟨M₀ ++ '\n' :: P, M, Q, ⟨?_, ?_, hs.inside, hs.after⟩, ?_, ?_⟩
    · rw [hs.eq]
      simp
    · right
      rcases hs.before with rfl | hb
      · simp
      · rw [List.getLast?_append, List.getLast?_cons, hb]
        rfl
    · rw [List.count_append, List.count_eq_zero.2 hM₀, List.count_cons_self, hP]
      omega
    · rw [List.splitOn_append_cons_self_of_not_mem hM₀]
      exact hM

/-! ## The round trip -/

theorem length_lineStarts (text : String) :
    (lineStarts text).length = text.toList.count '\n' + 1 := by
  rw [lineStarts_eq, List.length_cons, length_breaks]

/-- Back from a line and column to the offset: every boundary between characters. -/
theorem offsetAt_lineCol {text : String} {o : Nat} (ho : (String.Pos.Raw.mk o).IsValid text) :
    offsetAt text (lineCol text o).1 (lineCol text o).2 = o := by
  obtain ⟨P, M, Q, c, hs, hc, rfl⟩ := exists_lineSplit_of_isValid ho
  rw [hs.lineCol_eq, Nat.min_eq_left hc, hs.offsetAt_eq]

/-- The line and column of the offset of column `c` of a line `l`: the column is cut at the
    line's end. -/
theorem lineCol_offsetAt (text : String) {l : Nat} (c : Nat) (hl : l < text.toList.count '\n' + 1) :
    lineCol text (offsetAt text l c) =
      (l, min c ((text.toList.splitOn '\n').getD l []).length) := by
  obtain ⟨P, M, Q, hs, rfl, hM⟩ := exists_lineSplit text.toList hl
  rw [hM, hs.offsetAt_eq, hs.lineCol_eq]

/-- Past the last line the offset is the end of the text. -/
theorem offsetAt_of_le (text : String) {l : Nat} (c : Nat) (hl : text.toList.count '\n' + 1 ≤ l) :
    offsetAt text l c = text.utf8ByteSize := by
  rw [offsetAt, List.getElem?_eq_none (by rw [length_lineStarts]; exact hl)]


/-- Line/column conversion round-trips: a boundary between characters comes back to itself, a
    line and column come back with the column cut at the line's end, and past the last line the
    offset is the end of the text. -/
theorem lineCol_roundTrip (text : String) :
    (∀ o, (String.Pos.Raw.mk o).IsValid text →
      offsetAt text (lineCol text o).1 (lineCol text o).2 = o) ∧
    (∀ l c, l < text.toList.count '\n' + 1 →
      lineCol text (offsetAt text l c) =
        (l, min c ((text.toList.splitOn '\n').getD l []).length)) ∧
    (∀ l c, text.toList.count '\n' + 1 ≤ l → offsetAt text l c = text.utf8ByteSize) :=
  ⟨fun _ ho => offsetAt_lineCol ho, fun _ c hl => lineCol_offsetAt text c hl,
    fun _ c hl => offsetAt_of_le text c hl⟩

end Cursor

end ZScript
