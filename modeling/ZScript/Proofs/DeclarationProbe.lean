import ZScript.Proofs.ReaderRuns
import ZScript.Proofs.TagOnly

/-!
# The declaration probe

A statement of a method body is read as a declaration when the tokens past an optional `const`
read as a type followed by a name and one of `=`, `;`, `,`, `[`. `Bodies.declaration` finds out by
reading the type, which tags the type's names; when the tokens do not go on as a declaration it
puts the cursor back and rolls the file back to the mark it took first.

Reading a type only adds semantic tokens (`Parse.tags_compoundType`), so rolling back to the mark
undoes exactly what the probe did. The main statement, `Bodies.declaration_eq_none_iff`, says that
the probe answers `none` exactly when the type cannot be read or is not followed by a declarator,
and that it then leaves the cursor, the tree, the semantic tokens and the diagnostics as they
were.
-/

namespace ZScript

namespace Cursor

/-- Whether the tokens at the cursor go on as the declarators of a declaration: a name, then
    `=`, `;`, `,` or `[`. -/
def startsDeclarator (c : Cursor) : Bool :=
  c.check .identifier && (c.peekAt? 1).any fun t =>
    [TokenKind.assign, .semicolon, .comma, .openSquare].contains t.kind

/-- The cursor past a `const` keyword, when one is next. -/
def pastConst (c : Cursor) : Cursor := ((c.acceptKeyword? "const").map (·.2)).getD c

end Cursor

/-- Truncating a tree at its own size keeps it. -/
theorem Tree.truncate_size (t : Tree) : t.truncate t.size = t := by
  unfold Tree.truncate
  rw [if_pos (Nat.le_max_left _ _)]

/-- Rolling back to the mark of an analysis that the work only extends gives that analysis's
    tree, semantic tokens and diagnostics back. -/
theorem Analysis.Extends.rollback {a : Analysis} {w : Work} (h : a.Extends w.file) (u : Universe) :
    (Step.rollback ⟨a.tree.size, a.semantic.size, a.diagnostics.size⟩ u w).2.file.tree = a.tree ∧
      (Step.rollback ⟨a.tree.size, a.semantic.size, a.diagnostics.size⟩ u w).2.file.semantic =
        a.semantic ∧
      (Step.rollback ⟨a.tree.size, a.semantic.size, a.diagnostics.size⟩ u w).2.file.diagnostics =
        a.diagnostics := by
  obtain ⟨-, ht, ⟨ss, hs⟩, ⟨ds, hd, -⟩⟩ := h
  rw [Step.rollback_run]
  refine ⟨?_, ?_, ?_⟩
  · dsimp only
    rw [ht, Tree.truncate_size]
  · simp [hs]
  · simp [hd]

namespace Parse.Triple

/-- Every run ends somewhere: the triple that asks nothing. -/
theorem trivial {α : Type} (x : Parse α) : Triple (fun _ => True) x (fun _ _ => True) fun _ => True :=
  fun _ _ _ _ => (outcome_same (I := fun _ => True)).2 True.intro

end Parse.Triple

namespace Bodies

open Step Parse

variable (parent owner : Nat) (inBlock : Bool)

/-- A reader whose every answer is `some` never answers `none`. -/
theorem ne_none_of_triple {α : Type} {x : Parse (Option α)}
    (h : Triple (fun _ => True) x (fun r _ => r.isSome) fun _ => True) (c : Cursor) (u : Universe)
    (w : Work) (c' : Cursor) : ((x c).run u w).1 ≠ .ok (none, c') := by
  intro hx
  have := h c u w True.intro
  rw [hx] at this
  exact absurd this (by simp [Outcome])

/-- The two answers of the probe. When it reads no type followed by a declarator, the declaration
    reader answers `none` at the cursor it started from, in the work the probe left rolled back to
    the mark; when it reads one, the reader never answers `none`. -/
theorem declaration_answer (c : Cursor) (u : Universe) (w : Work) :
    ((∀ ty c', ((compoundType (some owner) c.pastConst).run u w).1 = .ok (ty, c') →
        c'.startsDeclarator = false) →
      (declaration parent owner inBlock c).run u w = (.ok (none, c),
        (rollback ⟨w.file.tree.size, w.file.semantic.size, w.file.diagnostics.size⟩ u
          ((compoundType (some owner) c.pastConst).run u w).2).2)) ∧
    ∀ ty c', ((compoundType (some owner) c.pastConst).run u w).1 = .ok (ty, c') →
      c'.startsDeclarator = true → ∀ c'', ((declaration parent owner inBlock c).run u w).1 ≠ .ok (none, c'') := by
  unfold declaration
  rw [bind_run_eq, get_run]
  dsimp only
  rw [bind_run_eq, lift_run, Step.mark_run]
  dsimp only
  rw [bind_run_eq, acceptKeyword_run]
  dsimp only
  rw [bind_run_eq, attempt_run, show ((c.acceptKeyword? "const").map (·.2)).getD c = c.pastConst
    from rfl]
  generalize (c.acceptKeyword? "const").map (·.1) = const
  generalize (compoundType (some owner) c.pastConst).run u w = r
  -- the rollback branch: the cursor goes back to the start, the work to the mark
  have rolled : ∀ (c₁ : Cursor) (w' : Work), ((do
        set c
        liftM (rollback ⟨w.file.tree.size, w.file.semantic.size, w.file.diagnostics.size⟩)
        pure none : Parse (Option (List Nat))) c₁).run u w' =
      (.ok (none, c), (rollback ⟨w.file.tree.size, w.file.semantic.size,
        w.file.diagnostics.size⟩ u w').2) := fun c₁ w' => rfl
  rcases r with ⟨e | ⟨ty, c'⟩, w'⟩
  · refine ⟨fun _ => ?_, fun _ _ h => by cases h⟩
    dsimp only
    rw [bind_run_eq, check_run]
    dsimp only
    rw [bind_run_eq, peekAt_run]
    exact rolled _ _
  · dsimp only
    rw [bind_run_eq, check_run]
    dsimp only
    rw [bind_run_eq, peekAt_run]
    dsimp only
    cases hs : c'.startsDeclarator
    · refine ⟨fun _ => ?_, fun _ _ h h' _ => ?_⟩
      · simp only [Cursor.startsDeclarator] at hs
        simp only [hs]
        exact rolled _ _
      · cases h
        rw [hs] at h'
        cases h'
    · refine ⟨fun h => absurd (h ty c' rfl) (by simp [hs]), fun _ _ _ _ => ?_⟩
      simp only [Cursor.startsDeclarator] at hs
      simp only [hs]
      -- the declarators follow, and the reader answers what they declared
      have tail : Triple (fun _ => True) (do
          let scope ← liftM (scopeAt parent owner)
          let declared ← declarators parent owner ty const.isSome scope (← fuel)
            (← expectIdent "variable name") []
          if inBlock then
            semicolon "declaration"
            pure (some declared)
          else pure (some declared) : Parse (Option (List Nat)))
          (fun r _ => r.isSome) fun _ => True := by
        refine Triple.bind (Triple.trivial _) fun _ => Triple.bind (Triple.trivial _) fun _ => ?_
        refine Triple.bind (Triple.trivial _) fun _ => Triple.bind (Triple.trivial _) fun _ => ?_
        exact Triple.ite (fun _ => Triple.bind (Triple.trivial _) fun _ => Triple.pure fun _ _ => rfl)
          fun _ => Triple.pure fun _ _ => rfl
      refine ne_none_of_triple ?_ _ _ _
      split
      · exact Triple.bind (Triple.trivial _) fun _ => tail
      · exact tail

/-- The declaration probe is atomic. Past an optional `const` it answers `none` exactly when no
    type can be read there, or the type read is not followed by a name and one of `=`, `;`, `,`,
    `[`; and it then leaves the cursor, the tree, the semantic tokens and the diagnostics as they
    were. -/
theorem declaration_eq_none_iff (c : Cursor) (u : Universe) (w : Work) :
    ((∃ c', ((declaration parent owner inBlock c).run u w).1 = .ok (none, c')) ↔
      ∀ ty c', ((compoundType (some owner) c.pastConst).run u w).1 = .ok (ty, c') →
        c'.startsDeclarator = false) ∧
    ∀ c', ((declaration parent owner inBlock c).run u w).1 = .ok (none, c') →
      c' = c ∧ ((declaration parent owner inBlock c).run u w).2.file.tree = w.file.tree ∧
        ((declaration parent owner inBlock c).run u w).2.file.semantic = w.file.semantic ∧
        ((declaration parent owner inBlock c).run u w).2.file.diagnostics = w.file.diagnostics := by
  obtain ⟨hnone, hsome⟩ := declaration_answer parent owner inBlock c u w
  by_cases hp : ∀ ty c', ((compoundType (some owner) c.pastConst).run u w).1 = .ok (ty, c') →
      c'.startsDeclarator = false
  · -- reading a type only tags, so rolling back to the mark restores the work
    have hrb := (Parse.tags_compoundType (some owner) c.pastConst u w).rollback u
    rw [hnone hp]
    exact ⟨⟨fun _ => hp, fun _ => ⟨c, rfl⟩⟩,
      fun c' h => ⟨(Prod.mk.inj (Except.ok.inj h)).2.symm, hrb⟩⟩
  · push Not at hp
    obtain ⟨ty, c', hp, hs⟩ := hp
    have hs : c'.startsDeclarator = true := by simpa using hs
    exact ⟨⟨fun ⟨c'', h⟩ => absurd h (hsome ty c' hp hs c''),
      fun h => absurd (h ty c' hp) (by simp [hs])⟩, fun c'' h => absurd h (hsome ty c' hp hs c'')⟩

end Bodies

end ZScript
