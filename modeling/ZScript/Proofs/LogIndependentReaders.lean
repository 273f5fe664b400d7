import ZScript.Proofs.LogIndependence

/-!
# The readers of declarations and members never read the log

Each reader of top-level declarations and of the members of classes and structs, and the first
two phases of analysis built from them (`Analysis.skeleton`, `Analysis.addMembers`), never reads
the log: it ends with the same value and the same analysis from two works that differ only in
their logs. Each proof follows its definition, step by step, through the rules of
`ZScript.Proofs.LogIndependence`; the statement readers and the last two phases follow in
`ZScript.Proofs.LogIndependentBodies`.
-/

namespace ZScript

/-! ## Declarations -/

namespace Declarations

open Parse

theorem ignoresLog_flagArgument (flag : String) : Parse.IgnoresLog (flagArgument flag) := by
  unfold flagArgument
  refine .bind (ignoresLog_expect _ _) fun _ => .bind (ignoresLog_expect _ _) fun _ => ?_
  refine .bind (ignoresLog_expect _ _) fun _ => .bind (.lift (Step.ignoresLog_emit _ _)) fun _ => ?_
  refine .bind (.lift (Step.ignoresLog_emit _ _)) fun _ => ?_
  exact .bind (.lift (Step.ignoresLog_emit _ _)) fun _ => .pure _

theorem ignoresLog_flag (t : Token) (mods : Modifiers) : Parse.IgnoresLog (flag t mods) := by
  unfold flag
  split
  · exact .bind (ignoresLog_flagArgument _) fun _ => .pure _
  split
  · exact .bind (ignoresLog_flagArgument _) fun _ => .pure _
  · exact .pure _

theorem ignoresLog_typeFlags (fuel : Nat) (mods : Modifiers) :
    Parse.IgnoresLog (typeFlags fuel mods) := by
  induction fuel generalizing mods with
  | zero =>
    rw [typeFlags]
    exact ignoresLog_tooDeep
  | succ fuel ih =>
    rw [typeFlags]
    refine .bind (ignoresLog_accept _) fun _ => ?_
    split
    · exact .pure _
    · dsimp only
      split
      · exact .bind (.lift (Step.ignoresLog_emit _ _)) fun _ =>
          .bind (ignoresLog_flag _ _) fun _ => ih _
      · exact .bind (.throw _) fun _ => .bind (.lift (Step.ignoresLog_emit _ _)) fun _ =>
          .bind (ignoresLog_flag _ _) fun _ => ih _

theorem ignoresLog_structDecl (keyword : Token) (parent : Nat) :
    Parse.IgnoresLog (structDecl keyword parent) := by
  unfold structDecl
  refine .bind (.lift (Step.ignoresLog_emit _ _)) fun _ => ?_
  refine .bind (ignoresLog_expectIdent _) fun _ => .bind ignoresLog_fuel fun _ => ?_
  refine .bind (ignoresLog_typeFlags _ _) fun _ => .bind (ignoresLog_bracedBody _) fun _ => ?_
  refine .bind (.lift (Step.ignoresLog_add _ _ _ _)) fun _ => ?_
  exact .bind (.lift (Step.ignoresLog_here _)) fun _ => .bind (.lift Step.ignoresLog_view) fun _ =>
    .bind (.lift (Step.ignoresLog_emitRef _ _ _ _)) fun _ => .pure _

theorem ignoresLog_enumMembers (enum fuel : Nat) : Parse.IgnoresLog (enumMembers enum fuel) := by
  induction fuel with
  | zero =>
    rw [enumMembers]
    exact ignoresLog_tooDeep
  | succ fuel ih =>
    rw [enumMembers]
    refine .bind (ignoresLog_expect _ _) fun _ => ?_
    split
    · exact .bind (.lift (Step.ignoresLog_emit _ _)) fun _ => .pure _
    refine .bind (.lift (Step.ignoresLog_add _ _ _ _)) fun _ => ?_
    refine .bind (.lift (Step.ignoresLog_here _)) fun _ =>
      .bind (.lift Step.ignoresLog_view) fun _ => ?_
    refine .bind (.lift (Step.ignoresLog_emitRef _ _ _ _)) fun _ => ?_
    refine .bind (ignoresLog_expect _ _) fun _ => ?_
    extract_lets jp
    -- the rest of the list, after the member's separator
    have hjp : ∀ sep, Parse.IgnoresLog (jp sep) := by
      intro sep
      dsimp only [jp]
      refine .bind (.lift (Step.ignoresLog_emit _ _)) fun _ => ?_
      split
      · exact .pure _
      · exact ih
    split
    · refine .bind (.lift (Step.ignoresLog_emit _ _)) fun _ => ?_
      refine .bind (ignoresLog_expression _) fun _ => ?_
      refine .bind (.lift (Step.ignoresLog_modifyKind _ _)) fun _ => ?_
      exact .bind (ignoresLog_expect _ _) hjp
    · exact hjp _

theorem ignoresLog_enumDecl (keyword : Token) (parent : Nat) :
    Parse.IgnoresLog (enumDecl keyword parent) := by
  unfold enumDecl
  refine .bind (.lift (Step.ignoresLog_emit _ _)) fun _ => ?_
  refine .bind (ignoresLog_expectIdent _) fun _ => .bind (ignoresLog_accept _) fun _ => ?_
  extract_lets jp
  -- the enum, once its base type is read
  have hjp : ∀ base, Parse.IgnoresLog (jp base) := by
    intro base
    dsimp only [jp]
    refine .bind (ignoresLog_expect _ _) fun _ =>
      .bind (.lift (Step.ignoresLog_emit _ _)) fun _ => ?_
    refine .bind (.lift (Step.ignoresLog_alloc _ _ _ _)) fun _ => ?_
    refine .bind (.lift (Step.ignoresLog_here _)) fun _ =>
      .bind (.lift Step.ignoresLog_view) fun _ => ?_
    refine .bind (.lift (Step.ignoresLog_emitRef _ _ _ _)) fun _ => .bind ignoresLog_fuel fun _ => ?_
    exact .bind (ignoresLog_enumMembers _ _) fun _ =>
      .bind (.lift (Step.ignoresLog_attach _ _)) fun _ => .pure _
  split
  · exact .bind (.lift (Step.ignoresLog_emit _ _)) fun _ =>
      .bind (ignoresLog_compoundType _) fun _ => hjp _
  · exact hjp none

theorem ignoresLog_constantDecl (keyword : Token) (parent : Nat) :
    Parse.IgnoresLog (constantDecl keyword parent) := by
  unfold constantDecl
  refine .bind (.lift (Step.ignoresLog_emit _ _)) fun _ => ?_
  refine .bind (ignoresLog_expectIdent _) fun _ => .bind (ignoresLog_expect _ _) fun _ => ?_
  refine .bind (.lift (Step.ignoresLog_emit _ _)) fun _ =>
    .bind (ignoresLog_expression _) fun _ => ?_
  refine .bind (ignoresLog_expect _ _) fun _ => .bind (.lift (Step.ignoresLog_emit _ _)) fun _ => ?_
  refine .bind (.lift (Step.ignoresLog_add _ _ _ _)) fun _ => ?_
  exact .bind (.lift (Step.ignoresLog_here _)) fun _ => .bind (.lift Step.ignoresLog_view) fun _ =>
    .bind (.lift (Step.ignoresLog_emitRef _ _ _ _)) fun _ => .pure _

theorem ignoresLog_classDecl (keyword : Token) (extend : Option Token) :
    Parse.IgnoresLog (classDecl keyword extend) := by
  unfold classDecl
  -- the header is read in three parts, each continuing the one before
  extract_lets afterExtend
  suffices h : ∀ r, Parse.IgnoresLog (afterExtend r) by
    split
    · exact .bind (.lift (Step.ignoresLog_emit _ _)) h
    · exact h ()
  intro r
  dsimp -zeta only [afterExtend]
  refine .bind (.lift (Step.ignoresLog_emit _ _)) fun _ => ?_
  refine .bind (ignoresLog_expectIdent _) fun _ => .bind (ignoresLog_accept _) fun _ => ?_
  extract_lets extendName afterParent
  suffices h : ∀ parentName, Parse.IgnoresLog (afterParent parentName) by
    split
    · refine .bind (.lift (Step.ignoresLog_emit _ _)) fun _ => ?_
      refine .bind (ignoresLog_expectIdent _) fun _ => ?_
      exact .bind (.lift (Step.ignoresLog_emitRef _ _ _ _)) fun _ => .bind (.pure _) h
    · exact .bind (.pure _) h
  intro parentName
  dsimp -zeta only [afterParent]
  refine .bind (ignoresLog_acceptKeyword _) fun _ => ?_
  extract_lets afterReplace
  suffices h : ∀ replaceName, Parse.IgnoresLog (afterReplace replaceName) by
    split
    · refine .bind (.lift (Step.ignoresLog_emit _ _)) fun _ => ?_
      refine .bind (ignoresLog_expectIdent _) fun _ => ?_
      exact .bind (.lift (Step.ignoresLog_emitRef _ _ _ _)) fun _ => .bind (.pure _) h
    · exact .bind (.pure _) h
  intro replaceName
  dsimp only [afterReplace]
  refine .bind ignoresLog_fuel fun _ => .bind (ignoresLog_typeFlags _ _) fun _ => ?_
  refine .bind (ignoresLog_bracedBody _) fun _ => .bind (.lift (Step.ignoresLog_add _ _ _ _)) fun _ => ?_
  split
  · exact .lift (Step.ignoresLog_emitRef _ _ _ _)
  · exact .bind (.lift (Step.ignoresLog_here _)) fun _ => .lift (Step.ignoresLog_emitRef _ _ _ _)

theorem ignoresLog_directive (hash : Token) : Parse.IgnoresLog (directive hash) := by
  unfold directive
  refine .bind ignoresLog_peek fun _ => ?_
  split
  · refine .bind ignoresLog_next fun _ => ?_
    extract_lets afterWord
    suffices h : ∀ r, Parse.IgnoresLog (afterWord r) by
      split
      · exact h ()
      · exact .bind (.throw _) h
    intro r
    dsimp only [afterWord]
    refine .bind ignoresLog_peek fun _ => ?_
    split
    · refine .bind ignoresLog_next fun _ => .bind (.lift (Step.ignoresLog_emit _ _)) fun _ => ?_
      refine .bind (.lift (Step.ignoresLog_emit _ _)) fun _ => ?_
      refine .bind (.lift (Step.ignoresLog_emit _ _)) fun _ => ?_
      exact .bind (.lift (Step.ignoresLog_add _ _ _ _)) fun _ => .pure _
    · exact .throw _
  · exact .throw _

theorem ignoresLog_version (word : Token) : Parse.IgnoresLog (version word) := by
  unfold version
  refine .bind ignoresLog_peek fun _ => ?_
  split
  · refine .bind ignoresLog_next fun _ => .bind (.lift (Step.ignoresLog_emit _ _)) fun _ => ?_
    exact .bind (.lift (Step.ignoresLog_emit _ _)) fun _ => .lift (Step.ignoresLog_modifyKind _ _)
  · exact ignoresLog_unexpected _

theorem ignoresLog_items (fuel : Nat) (leading : Bool) :
    Parse.IgnoresLog (items fuel leading) := by
  induction fuel generalizing leading with
  | zero =>
    rw [items]
    exact ignoresLog_tooDeep
  | succ fuel ih =>
    rw [items]
    refine .bind ignoresLog_next fun _ => ?_
    -- no token left ends the file; otherwise one item is read
    split
    rotate_left
    · exact .pure _
    extract_lets next
    have item : ∀ {x : Parse Unit}, Parse.IgnoresLog x → Parse.IgnoresLog (x >>= next) :=
      fun h => .bind h fun _ => ih false
    split
    · exact item (.lift (Step.ignoresLog_emit _ _))
    · exact item (ignoresLog_directive _)
    · split
      · exact item (ignoresLog_version _)
      split
      · exact item (ignoresLog_classDecl _ _)
      split
      · refine .bind (ignoresLog_acceptKeyword _) fun _ => ?_
        split
        · exact item (ignoresLog_classDecl _ _)
        · exact item (ignoresLog_unexpected _)
      split
      · exact item (.discard (ignoresLog_structDecl _ 0))
      split
      · exact item (.discard (ignoresLog_enumDecl _ 0))
      split
      · exact item (.discard (ignoresLog_constantDecl _ 0))
      · exact item (.throw _)
    · exact item (.throw _)

end Declarations

/-! ## Members -/

namespace Members

open Parse

theorem ignoresLog_selfVar (owner : Nat) : Step.IgnoresLog (selfVar owner) := by
  unfold selfVar
  refine .bind Step.ignoresLog_view fun _ => ?_
  split
  · dsimp only
    exact .bind (Step.ignoresLog_alloc _ _ _ _) fun _ => Step.ignoresLog_modifyKind _ _
  · exact .pure _

theorem ignoresLog_propertyFields (fuel : Nat) (acc : List String) :
    Parse.IgnoresLog (propertyFields fuel acc) := by
  induction fuel generalizing acc with
  | zero =>
    rw [propertyFields]
    exact ignoresLog_tooDeep
  | succ fuel ih =>
    rw [propertyFields]
    refine .bind (ignoresLog_expectIdent _) fun _ =>
      .bind (.lift (Step.ignoresLog_emitRef _ _ _ _)) fun _ => ?_
    refine .bind (ignoresLog_expect _ _) fun _ => .bind (.lift (Step.ignoresLog_emit _ _)) fun _ => ?_
    split
    · exact .pure _
    · exact ih _

theorem ignoresLog_property (keyword : Token) (owner : Nat) :
    Parse.IgnoresLog (property keyword owner) := by
  unfold property
  refine .bind (.lift (Step.ignoresLog_emit _ _)) fun _ => ?_
  refine .bind (ignoresLog_expectIdent _) fun _ => .bind (ignoresLog_expect _ _) fun _ => ?_
  refine .bind (.lift (Step.ignoresLog_emit _ _)) fun _ => .bind ignoresLog_fuel fun _ => ?_
  refine .bind (ignoresLog_propertyFields _ _) fun _ =>
    .bind (.lift (Step.ignoresLog_add _ _ _ _)) fun _ => ?_
  exact .bind (.lift (Step.ignoresLog_here _)) fun _ => .bind (.lift Step.ignoresLog_view) fun _ =>
    .lift (Step.ignoresLog_emitRef _ _ _ _)

theorem ignoresLog_memberFlags (fuel : Nat) (mods : Modifiers) :
    Parse.IgnoresLog (memberFlags fuel mods) := by
  induction fuel generalizing mods with
  | zero =>
    rw [memberFlags]
    exact ignoresLog_tooDeep
  | succ fuel ih =>
    rw [memberFlags]
    refine .bind ignoresLog_peek fun _ => ?_
    split
    rotate_left
    · exact .pure _
    refine .bind (ignoresLog_peekAt _) fun _ => ?_
    dsimp only
    split
    · exact .bind ignoresLog_next fun _ => .bind (.lift (Step.ignoresLog_emit _ _)) fun _ =>
        .bind (Declarations.ignoresLog_flag _ _) fun _ => ih _
    · exact .pure _

theorem ignoresLog_moreTypes (owner fuel : Nat) : Parse.IgnoresLog (moreTypes owner fuel) := by
  induction fuel with
  | zero =>
    rw [moreTypes]
    exact ignoresLog_tooDeep
  | succ fuel ih =>
    rw [moreTypes]
    refine .bind (ignoresLog_accept _) fun _ => ?_
    split
    · exact .pure _
    · exact .bind (.lift (Step.ignoresLog_emit _ _)) fun _ =>
        .bind (ignoresLog_compoundType _) fun _ => .bind ih fun _ => .pure _

theorem ignoresLog_fieldNames (owner : Nat) (base : Ty) (mods : Modifiers) (fuel : Nat)
    (name : Token) : Parse.IgnoresLog (fieldNames owner base mods fuel name) := by
  induction fuel generalizing name with
  | zero =>
    rw [fieldNames]
    exact ignoresLog_tooDeep
  | succ fuel ih =>
    rw [fieldNames]
    refine .bind ignoresLog_fuel fun _ => .bind (ignoresLog_dimensions _) fun _ => ?_
    refine .bind (ignoresLog_accept _) fun _ => ?_
    extract_lets afterInit
    -- the field, once its initializer is read, then the next name
    suffices h : ∀ init, Parse.IgnoresLog (afterInit init) by
      split
      · exact .bind (.lift (Step.ignoresLog_emit _ _)) fun _ =>
          .bind (ignoresLog_expression _) fun _ => .bind (.pure _) h
      · exact .bind (.pure _) h
    intro init
    dsimp only [afterInit]
    refine .bind (.lift (Step.ignoresLog_add _ _ _ _)) fun _ => ?_
    refine .bind (.lift (Step.ignoresLog_here _)) fun _ =>
      .bind (.lift Step.ignoresLog_view) fun _ => ?_
    refine .bind (.lift (Step.ignoresLog_emitRef _ _ _ _)) fun _ => ?_
    refine .bind (ignoresLog_expect _ _) fun _ => .bind (.lift (Step.ignoresLog_emit _ _)) fun _ => ?_
    split
    · exact .pure _
    · exact .bind (ignoresLog_expectIdent _) fun name' => ih name'

theorem ignoresLog_argumentFlags (fuel : Nat) (acc : List String) :
    Parse.IgnoresLog (argumentFlags fuel acc) := by
  induction fuel generalizing acc with
  | zero =>
    rw [argumentFlags]
    exact ignoresLog_tooDeep
  | succ fuel ih =>
    rw [argumentFlags]
    refine .bind ignoresLog_peek fun _ => ?_
    split
    · exact .pure _
    · exact .bind ignoresLog_next fun _ => .bind (.lift (Step.ignoresLog_emit _ _)) fun _ => ih _

theorem ignoresLog_arguments (owner method fuel : Nat) (args : List Nat) :
    Parse.IgnoresLog (arguments owner method fuel args) := by
  induction fuel generalizing args with
  | zero =>
    rw [arguments]
    exact ignoresLog_tooDeep
  | succ fuel ih =>
    rw [arguments]
    refine .bind (ignoresLog_accept _) fun _ => ?_
    split
    · -- `...` ends the list
      refine .bind (.lift (Step.ignoresLog_emit _ _)) fun _ => ?_
      exact .bind (ignoresLog_expect _ _) fun _ => .bind (.lift (Step.ignoresLog_emit _ _)) fun _ =>
        .pure _
    refine .bind ignoresLog_fuel fun _ => .bind (ignoresLog_argumentFlags _ _) fun _ => ?_
    refine .bind (ignoresLog_compoundType _) fun _ => ?_
    extract_lets named
    -- an argument with a name, and perhaps a default value
    have hnamed : ∀ u, Parse.IgnoresLog (named u) := by
      intro u
      dsimp -zeta only [named]
      refine .bind (ignoresLog_expectIdent _) fun _ =>
        .bind (.lift (Step.ignoresLog_alloc _ _ _ _)) fun _ => ?_
      refine .bind (.lift (Step.ignoresLog_here _)) fun _ =>
        .bind (.lift (Step.ignoresLog_emitRef _ _ _ _)) fun _ => ?_
      refine .bind (ignoresLog_accept _) fun _ => ?_
      extract_lets args' rest
      have hrest : ∀ u, Parse.IgnoresLog (rest u) := by
        intro u
        dsimp only [rest]
        refine .bind (ignoresLog_expect _ _) fun _ =>
          .bind (.lift (Step.ignoresLog_emit _ _)) fun _ => ?_
        split
        · exact .pure _
        · exact ih _
      split
      · refine .bind (.lift (Step.ignoresLog_emit _ _)) fun _ =>
          .bind (ignoresLog_expression _) fun _ => ?_
        exact .bind (.lift (Step.ignoresLog_add _ _ _ _)) fun _ => hrest ()
      · exact hrest ()
    split
    · refine .bind (ignoresLog_accept _) fun _ => ?_
      split
      · exact .bind (.lift (Step.ignoresLog_emit _ _)) fun _ => .pure _
      · exact hnamed ()
    · exact hnamed ()

theorem ignoresLog_method (owner : Nat) (returns : List Ty) (name : Token) (mods : Modifiers) :
    Parse.IgnoresLog (method owner returns name mods) := by
  unfold method
  refine .bind (ignoresLog_expect _ _) fun _ => .bind (.lift (Step.ignoresLog_emit _ _)) fun _ => ?_
  refine .bind (.lift (Step.ignoresLog_alloc _ _ _ _)) fun _ => ?_
  refine .bind (.lift (Step.ignoresLog_here _)) fun _ => .bind (.lift Step.ignoresLog_view) fun _ => ?_
  refine .bind (.lift (Step.ignoresLog_emitRef _ _ _ _)) fun _ => ?_
  refine .bind (ignoresLog_accept _) fun _ => ?_
  -- the signature, then `const`, then the body, each continuing the one before
  extract_lets afterArgs
  suffices h : ∀ sig, Parse.IgnoresLog (afterArgs sig) by
    split
    · exact .bind (.lift (Step.ignoresLog_emit _ _)) fun _ => .bind (.pure _) h
    · exact .bind ignoresLog_fuel fun _ => .bind (ignoresLog_arguments _ _ _ _) h
  intro sig
  dsimp -zeta only [afterArgs]
  refine .bind (ignoresLog_acceptKeyword _) fun _ => ?_
  extract_lets afterConst
  suffices h : ∀ isConst, Parse.IgnoresLog (afterConst isConst) by
    split
    · exact .bind (.lift (Step.ignoresLog_emit _ _)) fun _ => .bind (.pure _) h
    · exact .bind (.pure _) h
  intro isConst
  dsimp -zeta only [afterConst]
  refine .bind (ignoresLog_accept _) fun _ => ?_
  extract_lets afterBody afterWarning
  suffices h : ∀ body, Parse.IgnoresLog (afterBody body) by
    split
    · refine .bind (.lift (Step.ignoresLog_emit _ _)) fun _ => ?_
      have hw : ∀ u, Parse.IgnoresLog (afterWarning u) := fun _ => .bind (.pure _) h
      split
      · exact hw ()
      · exact .bind (.lift (Step.ignoresLog_warn _ _)) hw
    · refine .bind (ignoresLog_check _) fun _ => ?_
      split
      · exact .bind (ignoresLog_bracedBody _) fun _ => .bind (.pure _) h
      · exact .bind (ignoresLog_unexpected _) h
  intro body
  dsimp only [afterBody]
  exact .bind (.lift (Step.ignoresLog_modifyKind _ _)) fun _ => .lift (Step.ignoresLog_attach _ _)

theorem ignoresLog_member (owner : Nat) : Parse.IgnoresLog (member owner) := by
  unfold member
  refine .bind ignoresLog_fuel fun _ => .bind (ignoresLog_memberFlags _ _) fun _ => ?_
  refine .bind (ignoresLog_compoundType _) fun _ => .bind ignoresLog_fuel fun _ => ?_
  refine .bind (ignoresLog_moreTypes _ _) fun _ => ?_
  dsimp only
  refine .bind (ignoresLog_expectIdent _) fun _ => .bind (ignoresLog_check _) fun _ => ?_
  split
  · exact ignoresLog_method _ _ _ _
  -- a field declaration names one type
  split
  · exact .bind (.throw _) fun _ => .bind ignoresLog_fuel fun _ => ignoresLog_fieldNames _ _ _ _ _
  · exact .bind ignoresLog_fuel fun _ => ignoresLog_fieldNames _ _ _ _ _

/-- The items of a type's body, whose nested structs are read by a body reader that never reads
    the log. -/
theorem ignoresLog_items {nested : Nat → ExceptT ParseError Step Unit}
    (hn : ∀ id, Step.IgnoresLog (nested id).run) (owner fuel : Nat) :
    Parse.IgnoresLog (items nested owner fuel) := by
  induction fuel with
  | zero =>
    rw [items]
    exact ignoresLog_tooDeep
  | succ fuel ih =>
    rw [items]
    refine .bind ignoresLog_peek fun _ => ?_
    -- no token left ends the body; otherwise one item is read
    split
    rotate_left
    · exact .pure _
    extract_lets next block
    have item : ∀ {x : Parse Unit}, Parse.IgnoresLog x → Parse.IgnoresLog (x >>= next) :=
      fun h => .bind h fun _ => ih
    split
    · exact .bind ignoresLog_next fun _ => item (.lift (Step.ignoresLog_emit _ _))
    · split
      · exact .bind ignoresLog_next fun _ => item (.discard (Declarations.ignoresLog_enumDecl _ _))
      split
      · -- a nested struct, whose own body is read at once
        exact .bind ignoresLog_next fun _ => .bind (Declarations.ignoresLog_structDecl _ _) fun id =>
          .bind (.exceptLift (hn id)) fun _ => ih
      refine .bind (ignoresLog_peekAt _) fun _ => ?_
      split
      · exact .bind ignoresLog_next fun _ =>
          item (.discard (Declarations.ignoresLog_constantDecl _ _))
      split
      · exact .bind ignoresLog_next fun _ => item (ignoresLog_property _ _)
      split
      · -- `flagdef` and `mixin` are skipped
        refine .bind ignoresLog_next fun _ => .bind (.lift (Step.ignoresLog_emit _ _)) fun _ => ?_
        refine .bind (ignoresLog_balanced _) fun _ => ?_
        exact .bind (ignoresLog_expect _ _) fun _ => item (.lift (Step.ignoresLog_emit _ _))
      split
      · -- so are `default` and `states` blocks
        refine .bind ignoresLog_next fun _ => .bind (.lift (Step.ignoresLog_emit _ _)) fun _ => ?_
        refine .bind (ignoresLog_accept _) fun _ => ?_
        have hblock : ∀ u, Parse.IgnoresLog (block u) :=
          fun _ => .bind (ignoresLog_bracedBody _) fun _ => ih
        split
        · refine .bind (.lift (Step.ignoresLog_emit _ _)) fun _ => ?_
          refine .bind (ignoresLog_balanced _) fun _ => ?_
          exact .bind (ignoresLog_expect _ _) fun _ => .bind (.lift (Step.ignoresLog_emit _ _)) hblock
        · exact hblock ()
      · exact item (ignoresLog_member _)
    · exact item (ignoresLog_member _)

/-- Reading a type's body, at every depth of nesting. -/
theorem ignoresLog_body (depth owner : Nat) : Step.IgnoresLog (body depth owner).run := by
  induction depth generalizing owner with
  | zero =>
    rw [body]
    exact .except_bind (.except_lift Step.ignoresLog_tree) fun _ => .except_throw _
  | succ depth ih =>
    rw [body]
    refine .except_bind (.except_lift Step.ignoresLog_tree) fun _ => ?_
    split
    · split
      · refine .except_bind (.except_lift (Step.ignoresLog_modifyKind _ _)) fun _ => ?_
        refine .except_bind (.except_lift (ignoresLog_selfVar _)) fun _ => ?_
        exact IgnoresLog.runOn (ignoresLog_items ih _ _) _
      · exact .except_pure _
    · exact .except_pure _

end Members

/-! ## The first two phases -/

namespace Analysis

/-- Reading the skeleton of a text. -/
theorem ignoresLog_skeleton (file : Nat) (text : String) :
    Step.IgnoresLog (Analysis.skeleton file text) := by
  unfold Analysis.skeleton
  refine .withReader ?_ _
  dsimp only
  refine .bind (Step.ignoresLog_change _) fun _ => ?_
  refine .bind (Declarations.ignoresLog_items _ true (Cursor.ofList _)) fun _ => ?_
  -- what follows records the error, if any, and tags the anomalies
  split
  · exact .bind (Step.ignoresLog_change _) fun _ => .bind Step.ignoresLog_current fun _ =>
      Step.ignoresLog_log _ _ _
  · exact .bind (Step.ignoresLog_fail _) fun _ => .bind (Step.ignoresLog_change _) fun _ =>
      .bind Step.ignoresLog_current fun _ => Step.ignoresLog_log _ _ _

theorem ignoresLog_addMembers_go (owners : List Nat) : Step.IgnoresLog (addMembers.go owners) := by
  induction owners with
  | nil => exact .pure _
  | cons o rest ih =>
    rw [addMembers.go]
    refine .bind Step.ignoresLog_current fun _ => .bind (Members.ignoresLog_body _ _) fun _ => ?_
    split
    · exact ih
    · exact Step.ignoresLog_fail _

/-- The members phase. -/
theorem ignoresLog_addMembers : Step.IgnoresLog addMembers := by
  unfold addMembers
  refine .bind Step.ignoresLog_current fun _ => ?_
  split
  · exact .pure _
  · exact ignoresLog_addMembers_go _

end Analysis

end ZScript
