import Mathlib.Data.Option.Basic
import ZScript.Editor.Panes

/-!
# The source pane paints what the tooltip names

The source pane colours every byte of the open text from the document's semantic tokens: it
starts from no class at all and paints the tokens in order, each over its range cut at the end
of the text, so that a later token wins (`Pane.classify`). The tooltip names the last token
whose range covers the cursor (`SemanticToken.at?`). The two agree on every byte of the text,
whatever the ranges are: overlapping, empty, inverted or past the end
(`Pane.getElem?_classify`).

The proof follows the two loops of `classify`: painting one token sets exactly the bytes it
covers (`getElem?_paint`), and painting a list of tokens leaves at each byte the class of the
last one that covers it, if any (`getElem?_foldl_paint`).
-/

namespace ZScript

namespace Pane

variable {α : Type}

/-- Setting the entries `f i` for `i < n` keeps the size. -/
theorem size_foldl_set_range (kinds : Array α) (f : Nat → Nat) (n : Nat) (v : α) :
    ((List.range n).foldl (fun kinds i => kinds.set! (f i) v) kinds).size = kinds.size := by
  induction n with
  | zero => rfl
  | succ n ih =>
    rw [List.range_succ, List.foldl_append, List.foldl_cons, List.foldl_nil,
      Array.set!_eq_setIfInBounds, Array.size_setIfInBounds, ih]

/-- Setting the `n` entries from `start` changes exactly those of them inside the array. -/
theorem getElem?_foldl_set_range (kinds : Array α) (start n o : Nat) (v : α) :
    ((List.range n).foldl (fun kinds i => kinds.set! (start + i) v) kinds)[o]? =
      if start ≤ o ∧ o < start + n then kinds[o]?.map fun _ => v else kinds[o]? := by
  induction n with
  | zero => simp
  | succ n ih =>
    rw [List.range_succ, List.foldl_append, List.foldl_cons, List.foldl_nil,
      Array.set!_eq_setIfInBounds, Array.getElem?_setIfInBounds, ih, size_foldl_set_range]
    by_cases ho : start + n = o
    · subst ho
      by_cases hlt : start + n < kinds.size <;> simp [hlt]
    · have hrange : (start ≤ o ∧ o < start + (n + 1)) ↔ (start ≤ o ∧ o < start + n) := by
        omega
      simp only [ho, if_false, hrange]

/-- Painting one token over the classes of a text of `size` bytes: a byte of the text takes the
    token's kind exactly when the token covers it, the cut at the end of the text and an
    inverted range notwithstanding. -/
theorem getElem?_paint (size : Nat) (kinds : Array (Option SemanticKind)) (t : SemanticToken)
    {o : Nat} (hsize : kinds.size = size) (ho : o < size) :
    ((List.range (min t.stop size - t.start)).foldl
      (fun kinds i => kinds.set! (t.start + i) (some t.kind)) kinds)[o]? =
      if t.covers o then some (some t.kind) else kinds[o]? := by
  have hcovers : (t.start ≤ o ∧ o < t.start + (min t.stop size - t.start)) ↔ t.covers o := by
    simp only [SemanticToken.covers, Bool.and_eq_true, decide_eq_true_eq]
    omega
  simp only [getElem?_foldl_set_range, hcovers]
  split
  · simp [Array.getElem?_eq_getElem (hsize ▸ ho : o < kinds.size)]
  · rfl

/-- Painting tokens in order leaves at a byte of the text the kind of the last token that
    covers it, and what was there when none does. -/
theorem getElem?_foldl_paint (size : Nat) (ts : List SemanticToken)
    (kinds : Array (Option SemanticKind)) {o : Nat} (hsize : kinds.size = size) (ho : o < size) :
    (ts.foldl (fun kinds t => (List.range (min t.stop size - t.start)).foldl
      (fun kinds i => kinds.set! (t.start + i) (some t.kind)) kinds) kinds)[o]? =
      ((ts.reverse.find? (·.covers o)).map fun t => some t.kind).or kinds[o]? := by
  induction ts generalizing kinds with
  | nil => rfl
  | cons t ts ih =>
    rw [List.foldl_cons, ih _ (by rw [size_foldl_set_range, hsize]),
      getElem?_paint size kinds t hsize ho, List.reverse_cons, List.find?_append, Option.map_or,
      Option.or_assoc]
    congr 1
    by_cases h : t.covers o <;> simp [h]

/-- The classes have one entry per byte of the text. -/
theorem size_classify (size : Nat) (tokens : Array SemanticToken) :
    (classify size tokens).size = size := by
  rw [classify, ← Array.foldl_toList]
  suffices ∀ (ts : List SemanticToken) (kinds : Array (Option SemanticKind)),
      (ts.foldl (fun kinds t => (List.range (min t.stop size - t.start)).foldl
        (fun kinds i => kinds.set! (t.start + i) (some t.kind)) kinds) kinds).size = kinds.size by
    rw [this, Array.size_replicate]
  intro ts
  induction ts with
  | nil => intro kinds; rfl
  | cons t ts ih => intro kinds; rw [List.foldl_cons, ih, size_foldl_set_range]

/-- The source pane's class of a byte of the text is the kind of the token the tooltip names
    there; past the end of the text there is no class. -/
theorem getElem?_classify (size : Nat) (tokens : Array SemanticToken) (o : Nat) :
    (classify size tokens)[o]? =
      if o < size then some ((SemanticToken.at? tokens o).map (·.kind)) else none := by
  split
  · next ho =>
    rw [classify, ← Array.foldl_toList, getElem?_foldl_paint size _ _ Array.size_replicate ho,
      Array.getElem?_replicate, if_pos ho, SemanticToken.at?]
    cases tokens.toList.reverse.find? (·.covers o) <;> rfl
  · next ho =>
    rw [Array.getElem?_eq_none (by rw [size_classify]; omega)]

end Pane

end ZScript
