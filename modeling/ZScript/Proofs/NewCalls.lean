import ZScript.Proofs.TagOnly

/-!
# What tagging a `new` call paints

A call `new("T", …)` names the class `T` with its first argument, a string or name literal.
Tagging such a call paints the call's operator and structural tokens, the keyword `new` and the
class literal, and nothing more (`Tagging.expr_newClass_paints`): the further arguments are not
tagged at all, so no token of theirs gets a semantic token and none gets a type, and when the
literal stands in brackets, as in `new(("T"))`, its brackets stay unpainted too.

The proof reads the ranges a step paints (`Step.Paints`): each primitive paints what it emits,
and painting composes along `bind` and `for` loops.
-/

namespace ZScript

/-- The bytes a token spans. -/
def Token.range (t : Token) : Nat × Nat := (t.start, t.stop)

/-- The bytes a semantic token covers. -/
def SemanticToken.range (s : SemanticToken) : Nat × Nat := (s.start, s.stop)

/-- A step that adds semantic tokens with the ranges `rs`, in this order, after those the file
    has, and removes none. -/
def Step.Paints {α : Type} (x : Step α) (rs : List (Nat × Nat)) : Prop :=
  ∀ u w, ∃ ss : Array SemanticToken, (x u w).2.file.semantic = w.file.semantic ++ ss ∧
    ss.toList.map SemanticToken.range = rs

namespace Step.Paints

variable {α β : Type}

/-- A step that keeps the semantic tokens paints nothing. -/
theorem of_semantic {x : Step α} (h : ∀ u w, (x u w).2.file.semantic = w.file.semantic) :
    Paints x [] :=
  fun u w => ⟨#[], by rw [h u w, Array.append_empty], rfl⟩

theorem pure (a : α) : Paints (Pure.pure a : Step α) [] := of_semantic fun _ _ => rfl

theorem bind {x : Step α} {f : α → Step β} {rs rs' rs'' : List (Nat × Nat)} (hx : Paints x rs)
    (hf : ∀ a, Paints (f a) rs') (h : rs ++ rs' = rs'') : Paints (x >>= f) rs'' := by
  intro u w
  obtain ⟨ss, hss, hrs⟩ := hx u w
  obtain ⟨ss', hss', hrs'⟩ := hf (x u w).1 u (x u w).2
  refine ⟨ss ++ ss', ?_, by rw [Array.toList_append, List.map_append, hrs, hrs', h]⟩
  show ((f (x u w).1) u (x u w).2).2.file.semantic = _
  rw [hss', hss, Array.append_assoc]

/-- A loop that paints `g t` for each element `t`, in turn. -/
theorem forIn_yield {γ : Type} (xs : List γ) {f : γ → Step PUnit} {g : γ → List (Nat × Nat)}
    (hf : ∀ t, Paints (f t) (g t)) :
    Paints (forIn xs PUnit.unit fun t _ => do f t; Pure.pure (ForInStep.yield PUnit.unit))
      (xs.flatMap g) := by
  induction xs with
  | nil => exact pure PUnit.unit
  | cons t ts ih =>
    rw [List.forIn_cons, List.flatMap_cons]
    simp only [bind_assoc, pure_bind]
    exact bind (hf t) (fun _ => ih) rfl

end Step.Paints

theorem Step.paints_view : Step.Paints Step.view [] := Step.Paints.of_semantic fun _ _ => rfl

theorem Step.paints_emit (t : Token) (kind : SemanticKind) :
    Step.Paints (Step.emit t kind) [t.range] := by
  intro u w
  rw [Step.emit, Step.emitToken_run]
  exact ⟨#[.ofToken t kind], rfl, rfl⟩

theorem Step.paints_emitRef (t : Token) (kind : SemanticKind) (ref : Option Target)
    (name : String) : Step.Paints (Step.emitRef t kind ref name) [t.range] := by
  intro u w
  rw [Step.emitRef, Step.emitToken_run]
  exact ⟨#[.ofToken t kind ref (some name)], rfl, rfl⟩

theorem Step.paints_warn (message : String) (line : Nat) : Step.Paints (Step.warn message line) [] :=
  Step.Paints.of_semantic fun u w => by rw [Step.warn_run]

open Step.Paints in
/-- The literal of `new("T")` is painted as the class it names, or as unresolved. -/
theorem Tagging.paints_newClass (t : Token) (scope : Scope) :
    Step.Paints (Tagging.newClass t scope) [t.range] := by
  unfold Tagging.newClass
  refine bind Step.paints_view (fun v => ?_) (List.nil_append _)
  dsimp only
  split
  · exact bind (Step.paints_emitRef _ _ _ _) (fun _ => pure _) rfl
  · exact bind (Step.paints_emitRef _ _ _ _)
      (fun _ => bind (Step.paints_warn _ _) (fun _ => pure _) rfl) rfl

open Step.Paints in
/-- Tagging `new("T", …)` paints the call's operator and structural tokens, the keyword `new` and
    the class literal, in this order, and nothing else: the further arguments stay unpainted. -/
theorem Tagging.expr_newClass_paints (scope : Scope) (assign : Bool) (t name : Token)
    (rest : List Leaf) (operators special : List Token) (ty : Option Ty)
    (hnew : t.isKeyword "new" = true) (hname : Tagging.newClassName rest = some name) :
    Step.Paints (Tagging.expr scope ⟨.call, assign, .ident t :: rest, operators, special, ty⟩)
      (operators.map Token.range ++ special.map Token.range ++ [t.range, name.range]) := by
  rw [Tagging.expr]
  refine bind (forIn_yield operators fun t => Step.paints_emit t .operator)
    (fun _ => (?_ : Step.Paints _ (special.map Token.range ++ [t.range, name.range])))
    (by simp [← List.map_eq_flatMap])
  refine bind (forIn_yield special fun t => Step.paints_emit t _)
    (fun _ => (?_ : Step.Paints _ [t.range, name.range])) (by simp [← List.map_eq_flatMap])
  refine bind ?_ (fun _ => pure _) (List.append_nil _)
  -- `new` is a keyword and the literal names the class; `rest` is not read again
  rw [Tagging.operands]
  simp only [if_pos hnew, hname]
  exact bind (Step.paints_emit t .keyword)
    (fun _ => bind (Tagging.paints_newClass name scope) (fun _ => pure _) rfl) rfl

/-- `new("T", 1)`: the brackets and the comma, the keyword and the literal `"T"` are painted, and
    the argument `1`, at bytes 9 to 10, is not. -/
theorem expr_newClass_paints_number :
    ({ kind := .identifier, text := "new", start := 0, stop := 3, line := 1 } : Token).isKeyword
      "new" = true ∧
    Tagging.newClassName
      [.expr (Expr.node .literal
          [.string { kind := .string, text := "\"T\"", start := 4, stop := 7, line := 1 }]),
        .expr (Expr.node .literal
          [.integer { kind := .integer, text := "1", start := 9, stop := 10, line := 1 }])] =
      some { kind := .string, text := "\"T\"", start := 4, stop := 7, line := 1 } ∧
    Step.Paints (Tagging.expr {}
      ⟨.call, false,
        [.ident { kind := .identifier, text := "new", start := 0, stop := 3, line := 1 },
          .expr (Expr.node .literal
            [.string { kind := .string, text := "\"T\"", start := 4, stop := 7, line := 1 }]),
          .expr (Expr.node .literal
            [.integer { kind := .integer, text := "1", start := 9, stop := 10, line := 1 }])],
        [],
        [{ kind := .openParen, text := "(", start := 3, stop := 4, line := 1 },
          { kind := .comma, text := ",", start := 7, stop := 8, line := 1 },
          { kind := .closeParen, text := ")", start := 10, stop := 11, line := 1 }],
        none⟩)
      [(3, 4), (7, 8), (10, 11), (0, 3), (4, 7)] :=
  have hnew : ({ kind := .identifier, text := "new", start := 0, stop := 3, line := 1 } : Token).isKeyword
      "new" = true := by simp [Token.isKeyword]
  ⟨hnew, rfl, Tagging.expr_newClass_paints {} false _
    { kind := .string, text := "\"T\"", start := 4, stop := 7, line := 1 } _ [] _ none hnew rfl⟩

end ZScript
