import ZScript.Proofs.SkeletonComplete

/-!
# The grammar the first phase accepts

The first analysis phase reads the significant tokens of a text as an optional `version` line
followed by top-level items (`Skeleton.Root`). It fails exactly when those tokens do not derive
from the grammar, and when they do, the root of its tree lists the includes, classes, structs,
enums and constants of the derivation, in source order (`Analysis.skeleton_accepts_root`).

Both directions come from the item loop: whatever it reads to the end is a derivation
(`Declarations.items_sound`), and every derivation is read to its end in a tree that lists its
items and a file that has not failed (`Declarations.root_complete`). What the phase does after
the loop only records the error, if any, tags and logs.
-/

namespace ZScript

open Parse Skeleton

/-- Reading the items of a file from a fresh tree decides its tokens: a run that ends has read a
    derivation, and lists the items of every derivation; a run that stops at an error has read
    tokens that derive nothing. -/
theorem Declarations.items_decide (u : Universe) (ts : List Token) (w : Work)
    (hw : Declarations.Listed [] w) :
    Outcome (fun _ w' => (∃ is, Root ts is) ∧ ∀ is, Root ts is → Declarations.Listed is w')
      (fun _ => ∀ is, ¬ Root ts is)
      ((Declarations.items (ts.length + 1) true (Cursor.ofList ts)).run u w).1
      ((Declarations.items (ts.length + 1) true (Cursor.ofList ts)).run u w).2 := by
  have hsound := Declarations.items_sound (u := u) (ts.length + 1) true ts (Cursor.ofList ts) w
    rfl trivial
  have hcomplete := fun is (h : Root ts is) =>
    Declarations.root_complete (u := u) h (ts.length + 1) (Nat.lt_succ_self _) (Cursor.ofList ts)
      w rfl hw
  generalize (Declarations.items (ts.length + 1) true (Cursor.ofList ts)).run u w = r
    at hsound hcomplete
  rcases r with ⟨_ | _, w'⟩
  · exact fun is h => hcomplete is h
  · -- the loop only ends at the end of the tokens, past the last item
    obtain ⟨is, h | ⟨-, h⟩⟩ := hsound
    · exact ⟨⟨is, .plain h⟩, hcomplete⟩
    · exact ⟨⟨is, h⟩, hcomplete⟩

/-- What the first phase decides of the significant tokens `ts` of a text: the file has not failed
    exactly when they derive from the grammar, and the root lists the items of the derivation. -/
def Analysis.Decides (ts : List Token) (w : Work) : Prop :=
  (w.file.failed = false ↔ ∃ is, Root ts is) ∧
    ∀ is, Root ts is → w.file.tree.topItems = is.map some

theorem Analysis.skeleton_decides (file : Nat) (text : String) :
    Step.Triple (fun _ => True) (Analysis.skeleton file text)
      fun _ => Analysis.Decides ((Token.lex text).filter (!·.isTrivia)) := by
  unfold Analysis.skeleton
  refine Step.Triple.withReader ?_ _
  dsimp only
  -- the file starts over from the root
  refine Step.Triple.bind (Q := fun _ => Declarations.Listed [])
    (fun _ _ _ => ⟨Tree.ListsItems.empty, rfl⟩) fun _ => ?_
  refine Step.Triple.bind (fun u w hw => Declarations.items_decide u _ w hw) fun r => ?_
  -- what follows records the error, if any, and only tags and logs
  have tail := fun {α : Type} (x : Step α) =>
    Step.Triple.keep (P := Analysis.Decides ((Token.lex text).filter (!·.isTrivia))) (x := x)
  split
  · refine Step.Triple.pre (Step.Triple.bind (tail _ fun _ _ hw => hw) fun _ =>
      Step.Triple.bind (tail _ fun _ _ hw => hw) fun _ => tail _ fun _ _ hw => hw) fun w hw => ?_
    obtain ⟨⟨is, hroot⟩, hlisted⟩ := hw
    exact ⟨⟨fun _ => ⟨is, hroot⟩, fun ⟨is', h⟩ => (hlisted is' h).2⟩,
      fun is' h => (hlisted is' h).1.items⟩
  · refine Step.Triple.bind (fun _ w hw => ?_) fun _ => Step.Triple.bind (tail _ fun _ _ hw => hw)
      fun _ => Step.Triple.bind (tail _ fun _ _ hw => hw) fun _ => tail _ fun _ _ hw => hw
    exact ⟨⟨fun h => (by cases h), fun ⟨is, h⟩ => absurd h (hw is)⟩, fun is h => absurd h (hw is)⟩

/-- The first phase accepts exactly the files whose significant tokens derive from the grammar of
    `Skeleton.Root`: an optional `version` line, then `#include` lines, class, struct, enum and
    constant declarations and stray `;`. On acceptance the root of the tree lists the includes,
    classes, structs, enums and constants of the derivation, in source order. -/
theorem Analysis.skeleton_accepts_root (file : Nat) (text : String) (u : Universe) (w : Work) :
    ((Analysis.skeleton file text u w).2.file.failed = false ↔
      ∃ is, Root ((Token.lex text).filter (!·.isTrivia)) is) ∧
    ∀ is, Root ((Token.lex text).filter (!·.isTrivia)) is →
      (Analysis.skeleton file text u w).2.file.tree.topItems = is.map some :=
  Analysis.skeleton_decides file text u w trivial

end ZScript
