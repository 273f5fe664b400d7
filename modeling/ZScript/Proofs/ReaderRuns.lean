import ZScript.Proofs.StepLogic

/-!
# Runs of readers

A reader run from a cursor, a universe and a work ends with an outcome and a work. The triples of
`StepLogic` say what holds of every run; the equations here say what one run is, for the results
that compare a run with a given answer: a bind runs its first reader and, when that succeeds, the
rest from the cursor it leaves (`Parse.bind_run_eq`), and each primitive reader of the cursor
answers from the cursor alone, leaving the work as it was.

`Bodies.attempt_run` is the run of a reader whose failure is caught: a failure answers `none` at
the cursor the attempt started from, and keeps the work the failed reader left.
-/

namespace ZScript

namespace Parse

variable {α β : Type} (c : Cursor) (u : Universe) (w : Work)

theorem bind_run_eq (x : Parse α) (f : α → Parse β) :
    ((x >>= f) c).run u w = match (x c).run u w with
      | (.ok p, w') => ((f p.1) p.2).run u w'
      | (.error e, w') => (.error e, w') := by
  rw [run_bind, Step.bind_run]
  generalize (x c).run u w = r
  rcases r with ⟨_ | ⟨a, c'⟩, w'⟩ <;> rfl

theorem get_run : ((MonadState.get : Parse Cursor) c).run u w = (.ok (c, c), w) := rfl

theorem lift_run (x : Step α) :
    ((monadLift x : Parse α) c).run u w = (.ok ((x u w).1, c), (x u w).2) := rfl

theorem check_run (k : TokenKind) : ((check k) c).run u w = (.ok (c.check k, c), w) := rfl

theorem peekAt_run (n : Nat) : ((peekAt n) c).run u w = (.ok (c.peekAt? n, c), w) := rfl

theorem acceptKeyword_run (word : String) :
    ((acceptKeyword word) c).run u w =
      (.ok ((c.acceptKeyword? word).map (·.1), ((c.acceptKeyword? word).map (·.2)).getD c), w) := by
  unfold acceptKeyword
  rw [bind_run_eq, get_run]
  dsimp only
  cases c.acceptKeyword? word <;> rfl

theorem accept_run (kinds : List TokenKind) :
    ((accept kinds) c).run u w =
      (.ok ((c.accept? kinds).map (·.1), ((c.accept? kinds).map (·.2)).getD c), w) := by
  unfold accept
  rw [bind_run_eq, get_run]
  dsimp only
  cases c.accept? kinds <;> rfl

end Parse

namespace Bodies

/-- A caught failure answers `none` from the cursor the attempt started at, in the work the
    failed reader left. -/
theorem attempt_run {α : Type} (x : Parse α) (c : Cursor) (u : Universe) (w : Work) :
    ((attempt x c).run u w) = match (x c).run u w with
      | (.ok (a, c'), w') => (.ok (some a, c'), w')
      | (.error _, w') => (.ok (none, c), w') := by
  unfold attempt
  rw [Parse.run_tryCatch]
  simp only [ExceptT.tryCatch, Functor.map, StateT.map, ExceptT.run, ExceptT.mk, bind,
    ReaderT.bind, StateT.bind, ExceptT.bind, ExceptT.bindCont]
  generalize x c u w = r
  rcases r with ⟨_ | ⟨a, c'⟩, w'⟩ <;> rfl

end Bodies

end ZScript
