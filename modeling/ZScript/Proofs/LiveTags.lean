import ZScript.Proofs.LiveLookups
import ZScript.Proofs.PlainExprs

/-!
# Tags and types name alive handles

Tagging an expression and reading a written type only tag (`TagOnly`): the tree stays as it
was, so for their whole run the view of the file is one fixed view `v`. Every handle they tag
with or store comes from a lookup in `v`, from a builtin, or from the expression they were given;
so in a view fit for lookups (`View.Sound`) they keep the analysis alive (`View.Current`), and the
expressions and types they answer hold only handles alive in `v` (`View.Lives`) when the ones they
were given do. Expressions as read hold none (`PlainExprs`), so every tagged expression qualifies.
-/

namespace ZScript

namespace View

/-- Handles alive in the view. -/
def Lives (v : View) (hs : List Target) : Prop := ∀ r ∈ hs, v.Live r

/-- What a step that only tags keeps from the view `v`: an alive analysis of `v`'s file in `v`'s
    universe, still on `v`'s tree. -/
structure Current (v : View) (m : Nat) (a : Analysis) : Prop where
  alive : Alive v.world v.file m a
  tree : a.tree = v.tree

section Lives

variable {v : View}

@[simp] theorem lives_nil : v.Lives [] := fun _ h => absurd h List.not_mem_nil

@[simp] theorem lives_append {hs hs' : List Target} :
    v.Lives (hs ++ hs') ↔ v.Lives hs ∧ v.Lives hs' := by
  simp only [Lives, List.mem_append, or_imp, forall_and]

@[simp] theorem lives_cons {r : Target} {hs : List Target} :
    v.Lives (r :: hs) ↔ v.Live r ∧ v.Lives hs := by
  simp [Lives]

theorem Lives.mono {hs hs' : List Target} (h : v.Lives hs) (hsub : ∀ r ∈ hs', r ∈ hs) :
    v.Lives hs' :=
  fun r hr => h r (hsub r hr)

end Lives

end View

/-! ## Types derived from alive types -/

@[simp] theorem Expr.handlesDims_append (ds ds' : List (Option Expr)) :
    Expr.handlesDims (ds ++ ds') = Expr.handlesDims ds ++ Expr.handlesDims ds' := by
  induction ds with
  | nil => rfl
  | cons d ds ih => simp [ih]

theorem Ty.mem_handlesList {t : Ty} {ts : List Ty} (ht : t ∈ ts) {r : Target}
    (hr : r ∈ t.handles) : r ∈ Ty.handlesList ts := by
  induction ts with
  | nil => exact absurd ht List.not_mem_nil
  | cons t' ts ih =>
    rcases List.mem_cons.1 ht with rfl | ht
    · simp [hr]
    · simp [ih ht]

/-- An element type holds handles of the container type only. -/
theorem Ty.handles_element : ∀ (count : Nat) (ty ty' : Ty), Ty.element count ty = some ty' →
    ∀ r ∈ ty'.handles, r ∈ ty.handles
  | 0, ty, ty', h => by
    rw [Ty.element] at h
    cases h
    exact fun _ => id
  | count + 1, ⟨n, ref, args, dims⟩, ty', h => by
    unfold Ty.element at h
    split at h
    · -- a subscript drops the last array dimension
      next d rest hrev =>
      intro r hr
      have hdims : dims = rest.reverse ++ [d] := by
        rw [← List.reverse_reverse dims, hrev, List.reverse_cons]
      have hr' := Ty.handles_element count _ ty' h r hr
      simp only [Ty.handles_mk, List.mem_append] at hr' ⊢
      rw [hdims, Expr.handlesDims_append, List.mem_append]
      tauto
    · -- or takes the last type argument of a builtin container
      dsimp only at h
      split_ifs at h
      cases ha : args.getLast? with
      | none => simp [ha] at h
      | some a =>
        simp only [ha] at h
        intro r hr
        have hr' := Ty.handles_element count a ty' h r hr
        simp only [Ty.handles_mk, List.mem_append]
        exact .inl (.inr (Ty.mem_handlesList (List.mem_of_getLast? ha) hr'))

namespace View

variable {v : View}

theorem lives_builtinType (n : String) : v.Lives (Ty.handlesOpt (builtinType n)) := by
  cases h : builtinType n with
  | none => simp
  | some ty => exact builtinType_handles h

theorem Sound.lives_typeOf (hv : v.Sound) (d : DeclRef) : v.Lives (Ty.handlesOpt (v.typeOf d)) := by
  cases h : v.typeOf d with
  | none => simp
  | some ty => exact hv.typeOf_handles h

end View

/-- The type of an operator node, derived from its operands' types, holds their handles or a
    builtin's. -/
theorem Tagging.lives_resultOf {v : View} (op : Operator) (leaves : List Leaf)
    {tys : List (Option Ty)} (htys : ∀ ty ∈ tys, v.Lives (Ty.handlesOpt ty)) :
    v.Lives (Ty.handlesOpt (Tagging.resultOf op leaves tys)) := by
  -- the type of the first operand, and of the second
  have hhead : v.Lives (Ty.handlesOpt tys.head?.join) := by
    cases tys with
    | nil => simp
    | cons ty tys => simpa using htys ty List.mem_cons_self
  have hsecond : v.Lives (Ty.handlesOpt tys[1]?.join) := by
    cases h : tys[1]? with
    | none => simp
    | some ty => simpa using htys ty (List.mem_of_getElem? h)
  unfold Tagging.resultOf
  split
  · exact hsecond
  · exact View.lives_builtinType _
  · exact View.lives_builtinType _
  · exact View.lives_builtinType _
  · split
    · exact View.lives_builtinType _
    · exact View.lives_builtinType _
    · simp
  · simp
  · -- a subscript's type is an element type of the first operand's
    cases hty : tys.head?.join with
    | none => simp
    | some ty =>
      rw [hty] at hhead
      cases he : Ty.element (leaves.length - 1) ty with
      | none => simp [he]
      | some ty' =>
        simp only [Option.bind_some, he, Ty.handlesOpt_some]
        exact hhead.mono (Ty.handles_element _ ty ty' he)
  · exact View.lives_builtinType _
  · split
    · exact View.lives_builtinType _
    · exact hhead

/-! ## Steps that keep the current view -/

namespace View

variable {v : View} {m : Nat}

/-- The view a step reads is the current one. -/
theorem Current.view_eq {w : Work} (h : v.Current m w.file) :
    (⟨w.file.file, w.file.tree, v.world⟩ : View) = v := by
  obtain ⟨file, tree, world⟩ := v
  rw [h.alive.file, h.tree]

/-- A tag whose reference is alive in the view. -/
theorem Current.push {a : Analysis} (h : v.Current m a) {s : SemanticToken}
    (hs : ∀ r ∈ s.ref, v.Live r) : v.Current m { a with semantic := a.semantic.push s } :=
  ⟨h.alive.push fun r hr => h.tree ▸ hs r hr, h.tree⟩

open Step

theorem current_bind_view {α : Type} {x : View → Step α} {Q : α → Work → Prop}
    (h : TripleIn v.world (fun w => v.Current m w.file) (x v) Q) :
    TripleIn v.world (fun w => v.Current m w.file) (Step.view >>= x) Q := by
  intro w hw
  rw [bind_run, view_run, hw.view_eq]
  exact h w hw

theorem current_emitRef (t : Token) (kind : SemanticKind) {ref : Option Target} (name : String)
    (hr : ∀ r ∈ ref, v.Live r) :
    TripleIn v.world (fun w => v.Current m w.file) (emitRef t kind ref name)
      fun _ w => v.Current m w.file :=
  fun _ hw => hw.push hr

theorem current_emit (t : Token) (kind : SemanticKind) :
    TripleIn v.world (fun w => v.Current m w.file) (emit t kind) fun _ w => v.Current m w.file :=
  fun _ hw => hw.push fun _ hr => absurd hr (by simp [SemanticToken.ofToken])

theorem current_warn (message : String) (line : Nat) :
    TripleIn v.world (fun w => v.Current m w.file) (warn message line)
      fun _ w => v.Current m w.file :=
  fun _ hw => ⟨hw.alive.congr rfl rfl rfl, hw.tree⟩

/-- A value that holds alive handles, answered without a change. -/
theorem current_pure {α : Type} {a : α} {R : α → Prop} (h : R a) :
    TripleIn v.world (fun w => v.Current m w.file) (Pure.pure a : Step α)
      fun b w => R b ∧ v.Current m w.file :=
  TripleIn.pure fun _ hw => ⟨h, hw⟩

end View

/-! ## Tagging expressions -/

namespace Tagging

open Step View

variable {v : View} {m : Nat} (hv : v.Sound)
include hv

theorem current_emitDecl (t : Token) (d : DeclRef) :
    TripleIn v.world (fun w => v.Current m w.file) (emitDecl t d)
      fun ty w => v.Lives (Ty.handlesOpt ty) ∧ v.Current m w.file := by
  unfold emitDecl
  refine current_bind_view ?_
  split
  · exact current_pure (by simp)
  · next node hnode =>
    refine TripleIn.bind (current_emitRef _ _ _ fun r hr => ?_) fun _ => ?_
    · obtain rfl := Option.mem_some_iff.1 hr
      exact live_of_node? hnode
    · exact current_pure (hv.lives_typeOf d)

theorem current_ident (t : Token) (scope : Scope) :
    TripleIn v.world (fun w => v.Current m w.file) (ident t scope)
      fun ty w => v.Lives (Ty.handlesOpt ty) ∧ v.Current m w.file := by
  unfold ident
  refine current_bind_view ?_
  split
  · exact TripleIn.bind (current_emit _ _) fun _ => current_pure (by simp)
  split
  · -- `self` and `super` name a synthetic local
    refine TripleIn.bind (current_emitRef _ _ _ fun r hr => ?_) fun _ => current_pure ?_
    · obtain ⟨d, hd, rfl⟩ := Option.mem_map.1 hr
      exact hv.live_resolveSymbol hd
    · cases hvar : v.resolveSymbol t.text scope.node scope.context with
      | none => simp
      | some d => exact hv.lives_typeOf d
  -- a symbol, else a type, else a builtin, else an unresolved name
  split
  · exact current_emitDecl hv _ _
  split
  · exact current_emitDecl hv _ _
  split
  · next i hi =>
    have hlive : v.Live (.builtin i) := by
      unfold Builtin.find? at hi
      exact (List.findIdx?_eq_some_iff_findIdx_eq.1 hi).1
    refine TripleIn.bind (current_emitRef _ _ _ fun r hr => ?_) fun _ => current_pure ?_
    · obtain rfl := Option.mem_some_iff.1 hr
      exact hlive
    · simpa using hlive
  · refine TripleIn.bind (current_emitRef _ _ _ fun r hr => absurd hr (by simp)) fun _ => ?_
    exact TripleIn.bind (current_warn _ _) fun _ => current_pure (by simp)

/-- A member chain: each link is a member of an existing node, or the type it started from. -/
theorem current_links : ∀ (current : Option Ty) (rest : List Leaf),
    v.Lives (Ty.handlesOpt current) →
    TripleIn v.world (fun w => v.Current m w.file) (links current rest)
      fun ty w => v.Lives (Ty.handlesOpt ty) ∧ v.Current m w.file
  | current, [], hcur => by
    rw [links]
    exact current_pure hcur
  | current, .ident t :: rest, _ => by
    rw [links]
    refine current_bind_view ?_
    split
    · exact current_pure (by simp)
    · next owner _ =>
      split
      · next d hd =>
        -- the link names a member of the chain, or a type nested in it
        have hlive : v.Live (.decl d) := by
          cases hm : v.findMemberInChain owner t.text with
          | some d' =>
            rw [hm] at hd
            cases hd
            exact live_findMemberInChain hm
          | none =>
            simp only [hm, Option.orElse] at hd
            exact live_findNestedType hd
        exact TripleIn.bind (current_emitDecl hv _ _) fun ty =>
          TripleIn.of_fact fun hty => current_links ty rest hty
      · refine TripleIn.bind (current_emitRef _ _ _ fun r hr => absurd hr (by simp)) fun _ => ?_
        exact TripleIn.bind (current_warn _ _) fun _ => current_pure (by simp)
  | _, .integer _ :: _, _ | _, .double _ :: _, _ | _, .boolean _ :: _, _ | _, .string _ :: _, _
  | _, .expr _ :: _, _ => by
    unfold links
    exact current_pure (by simp)

/-- `new("T")` names the class `T` found by the lookups. -/
theorem current_newClass (t : Token) (scope : Scope) :
    TripleIn v.world (fun w => v.Current m w.file) (newClass t scope)
      fun ty w => v.Lives (Ty.handlesOpt ty) ∧ v.Current m w.file := by
  unfold newClass
  refine current_bind_view ?_
  dsimp only
  split
  · next d hd =>
    have hlive := hv.live_resolveType hd
    refine TripleIn.bind (current_emitRef _ _ _ fun r hr => ?_) fun _ => current_pure ?_
    · obtain rfl := Option.mem_some_iff.1 hr
      exact hlive
    · simpa using hlive
  · refine TripleIn.bind (current_emitRef _ _ _ fun r hr => absurd hr (by simp)) fun _ => ?_
    exact TripleIn.bind (current_warn _ _) fun _ => current_pure (by simp)

omit hv in
/-- Tagging an operand that is a literal: its builtin type. -/
theorem current_literal {t : Token} {kind : SemanticKind} {l : Leaf} (hl : l.handles = [])
    (n : String) :
    TripleIn v.world (fun w => v.Current m w.file)
      (do emit t kind; Pure.pure (l, builtinType n) : Step (Leaf × Option Ty))
      fun p w => (v.Lives p.1.handles ∧ v.Lives (Ty.handlesOpt p.2)) ∧ v.Current m w.file :=
  TripleIn.bind (current_emit _ _) fun _ => current_pure ⟨by simp [hl], lives_builtinType n⟩

omit hv in
mutual

/-- Tagging an expression whose handles are alive answers an expression and a type whose
    handles are alive. -/
theorem current_expr (hv : v.Sound) (scope : Scope) : ∀ e : Expr, v.Lives e.handles →
    TripleIn v.world (fun w => v.Current m w.file) (expr scope e)
      fun p w => (v.Lives p.1.handles ∧ v.Lives (Ty.handlesOpt p.2)) ∧ v.Current m w.file
  | ⟨op, assign, leaves, operators, special, type⟩, he => by
    rw [expr]
    have hleaves : v.Lives (Leaf.handlesList leaves) := (lives_append.1 (by simpa using he)).1
    -- the operator and structural tokens are tagged without references
    refine TripleIn.bind (TripleIn.forIn _ _ fun _ _ _ =>
      TripleIn.bind (current_emit _ _) fun _ => TripleIn.pure fun _ => id) fun _ => ?_
    refine TripleIn.bind (TripleIn.forIn _ _ fun _ _ _ =>
      TripleIn.bind (current_emit _ _) fun _ => TripleIn.pure fun _ => id) fun _ => ?_
    refine TripleIn.bind (current_operands hv scope op leaves hleaves) fun p =>
      TripleIn.of_fact fun hp => ?_
    obtain ⟨leaves', ty⟩ := p
    exact current_pure ⟨by simpa using hp, hp.2⟩

theorem current_operands (hv : v.Sound) (scope : Scope) (op : Operator) :
    ∀ ls : List Leaf, v.Lives (Leaf.handlesList ls) →
    TripleIn v.world (fun w => v.Current m w.file) (operands scope op ls)
      fun p w => (v.Lives (Leaf.handlesList p.1) ∧ v.Lives (Ty.handlesOpt p.2)) ∧ v.Current m w.file
  | [], _ => by
    rw [operands]
    refine current_pure ⟨by simp, ?_⟩
    split
    · simp
    · exact lives_resultOf op [] (fun _ h => absurd h List.not_mem_nil)
  | first :: rest, hls => by
    have hfirst : v.Lives first.handles := (lives_append.1 (by simpa using hls)).1
    have hrest : v.Lives (Leaf.handlesList rest) := (lives_append.1 (by simpa using hls)).2
    unfold operands
    split
    · -- a member chain: the first operand, then its links
      refine TripleIn.bind (current_leaf hv scope first hfirst) fun p => TripleIn.of_fact fun hp => ?_
      obtain ⟨first', ty⟩ := p
      refine TripleIn.bind (current_links hv ty rest hp.2) fun ty' =>
        TripleIn.of_fact fun hty' => ?_
      exact current_pure ⟨by simp [hp.1, hrest], hty'⟩
    · -- a call: `new` with a class name, `new` with other arguments, or an ordinary call
      have ordinary : TripleIn v.world (fun w => v.Current m w.file)
          (do
            let (first, ty) ← leaf scope first
            let (rest, _) ← leaves scope rest
            Pure.pure (first :: rest, ty))
          fun p w => (v.Lives (Leaf.handlesList p.1) ∧ v.Lives (Ty.handlesOpt p.2)) ∧
            v.Current m w.file := by
        refine TripleIn.bind (current_leaf hv scope first hfirst) fun p =>
          TripleIn.of_fact fun hp => ?_
        obtain ⟨first', ty⟩ := p
        refine TripleIn.bind (current_leaves hv scope rest hrest) fun q =>
          TripleIn.of_fact fun hq => ?_
        obtain ⟨rest', tys⟩ := q
        exact current_pure ⟨by simp [hp.1, hq.1], hp.2⟩
      split
      · split
        · refine TripleIn.bind (current_emit _ _) fun _ => ?_
          split
          · exact TripleIn.bind (current_newClass hv _ _) fun ty =>
              TripleIn.of_fact fun hty => current_pure ⟨by simp [hfirst, hrest], hty⟩
          · refine TripleIn.bind (current_leaves hv scope rest hrest) fun q =>
              TripleIn.of_fact fun hq => ?_
            obtain ⟨rest', tys⟩ := q
            exact current_pure ⟨by simp [hfirst, hq.1], by simp⟩
        · exact ordinary
      · exact ordinary
    · -- a cast: the arguments, then the builtin type it names
      refine TripleIn.bind (current_leaves hv scope rest hrest) fun q => TripleIn.of_fact fun hq => ?_
      obtain ⟨rest', tys⟩ := q
      dsimp only
      split
      · next t =>
        refine TripleIn.bind (current_emitRef _ _ _ fun r hr => ?_) fun _ =>
          current_pure ⟨by simp [hfirst, hq.1], lives_builtinType _⟩
        obtain ⟨ty, hty, hr⟩ := Option.mem_bind_iff.1 hr
        have hlive := lives_builtinType (v := v) t.text.toLower
        rw [Option.mem_def.1 hty] at hlive
        obtain ⟨name, ref, args, dims⟩ := ty
        have href : ref = some r := hr
        exact hlive r (by simp [href])
      · exact current_pure ⟨by simp [hfirst, hq.1], by simp⟩
    · -- any other operator: its operands, and the type derived from theirs
      refine TripleIn.bind (current_leaf hv scope first hfirst) fun p => TripleIn.of_fact fun hp => ?_
      obtain ⟨first', ty⟩ := p
      refine TripleIn.bind (current_leaves hv scope rest hrest) fun q => TripleIn.of_fact fun hq => ?_
      obtain ⟨rest', tys⟩ := q
      refine current_pure ⟨by simp [hp.1, hq.1], lives_resultOf _ _ fun ty' hty' => ?_⟩
      rcases List.mem_cons.1 hty' with rfl | hty'
      · exact hp.2
      · exact hq.2 ty' hty'

theorem current_leaves (hv : v.Sound) (scope : Scope) : ∀ ls : List Leaf, v.Lives (Leaf.handlesList ls) →
    TripleIn v.world (fun w => v.Current m w.file) (leaves scope ls)
      fun p w => (v.Lives (Leaf.handlesList p.1) ∧ ∀ ty ∈ p.2, v.Lives (Ty.handlesOpt ty)) ∧
        v.Current m w.file
  | [], _ => by
    rw [leaves]
    exact current_pure ⟨by simp, fun _ h => absurd h List.not_mem_nil⟩
  | l :: ls, hls => by
    rw [leaves]
    refine TripleIn.bind (current_leaf hv scope l (lives_append.1 (by simpa using hls)).1) fun p =>
      TripleIn.of_fact fun hp => ?_
    obtain ⟨l', ty⟩ := p
    refine TripleIn.bind (current_leaves hv scope ls (lives_append.1 (by simpa using hls)).2) fun q =>
      TripleIn.of_fact fun hq => ?_
    obtain ⟨ls', tys⟩ := q
    refine current_pure ⟨by simp [hp.1, hq.1], fun ty' hty' => ?_⟩
    rcases List.mem_cons.1 hty' with rfl | hty'
    · exact hp.2
    · exact hq.2 ty' hty'

theorem current_leaf (hv : v.Sound) (scope : Scope) : ∀ l : Leaf, v.Lives l.handles →
    TripleIn v.world (fun w => v.Current m w.file) (leaf scope l)
      fun p w => (v.Lives p.1.handles ∧ v.Lives (Ty.handlesOpt p.2)) ∧ v.Current m w.file
  | .integer t, _ => by
    rw [leaf]
    exact current_literal rfl _
  | .double t, _ => by
    rw [leaf]
    exact current_literal rfl _
  | .boolean t, _ => by
    rw [leaf]
    exact current_literal rfl _
  | .string t, _ => by
    rw [leaf]
    exact current_literal rfl _
  | .ident t, _ => by
    rw [leaf]
    exact TripleIn.bind (current_ident hv t scope) fun ty =>
      TripleIn.of_fact fun hty => current_pure ⟨by simp [Leaf.handles], hty⟩
  | .expr e, he => by
    rw [leaf]
    refine TripleIn.bind (current_expr hv scope e (by simpa using he)) fun p =>
      TripleIn.of_fact fun hp => ?_
    obtain ⟨e', ty⟩ := p
    exact current_pure ⟨by simpa using hp.1, hp.2⟩

end

/-- Tagging an expression as read keeps the analysis alive and answers an alive expression. -/
theorem current_tag {e : Expr} (he : v.Lives e.handles) (scope : Scope) :
    TripleIn v.world (fun w => v.Current m w.file) (e.tag scope)
      fun e' w => v.Lives e'.handles ∧ v.Current m w.file :=
  TripleIn.bind (current_expr hv scope e he) fun _ =>
    TripleIn.of_fact fun hp => current_pure hp.1

end Tagging

/-! ## Reading written types -/

namespace Parse

variable {α : Type} {u : Universe} {I : Work → Prop} {E : Work → Prop}

/-- A reader that leaves the work alone keeps every property of it. -/
theorem Quiet.tripleIn {x : Parse α} (h : Quiet x) : TripleIn u I x (fun _ => I) I :=
  TripleIn.of_triple h.triple

/-- Running out of fuel fails, and leaves the work alone. -/
theorem tripleIn_tooDeep {Q : α → Work → Prop} : TripleIn u E (tooDeep : Parse α) Q E :=
  TripleIn.bind Quiet.get.tripleIn fun _ => TripleIn.throw

/-- A value given by an `Except` is the one it holds. -/
theorem tripleIn_ofExcept (x : Except ParseError α) :
    TripleIn u I (ofExcept x) (fun a w => x = .ok a ∧ I w) I := by
  cases x with
  | error e => exact TripleIn.throw
  | ok a => exact TripleIn.pure fun _ hw => ⟨rfl, hw⟩

end Parse

namespace Types

open Parse View

variable {v : View} {m : Nat}

theorem current_bind_view {α : Type} {x : View → Parse α} {Q : α → Work → Prop}
    {E : Work → Prop}
    (h : Parse.TripleIn v.world (fun w => v.Current m w.file) (x v) Q E) :
    Parse.TripleIn v.world (fun w => v.Current m w.file)
      ((monadLift Step.view : Parse View) >>= x) Q E := by
  refine TripleIn.bind (TripleIn.lift (Q := fun v' w => v' = v ∧ v.Current m w.file)
    fun w hw => ⟨by rw [Step.view_run]; exact hw.view_eq, hw⟩) fun v' => ?_
  exact TripleIn.of_fact fun hv' => hv' ▸ h

/-- A part of a type name is tagged with the declaration it resolves to, which is alive. -/
theorem current_emitTypeName (t : Token) {resolved : Option DeclRef} (context : Option Nat)
    (hr : ∀ d ∈ resolved, v.Live (.decl d)) :
    Step.TripleIn v.world (fun w => v.Current m w.file) (emitTypeName t resolved context)
      fun _ w => v.Current m w.file := by
  unfold emitTypeName
  refine View.current_bind_view ?_
  split
  · next d =>
    exact current_emitRef _ _ _ fun r hr' => by
      obtain rfl := Option.mem_some_iff.1 hr'
      exact hr d rfl
  · exact current_emitRef _ _ _ fun r hr' => absurd hr' (by simp)

variable (hv : v.Sound)
include hv

theorem current_dotted (context : Option Nat) :
    ∀ (fuel : Nat) (path : String) (resolved : Option DeclRef),
      (∀ d ∈ resolved, v.Live (.decl d)) →
      Parse.TripleIn v.world (fun w => v.Current m w.file) (dotted context fuel path resolved)
        (fun r w => (∀ d ∈ r.2, v.Live (.decl d)) ∧ v.Current m w.file)
        fun w => v.Current m w.file
  | 0, _, _, _ => by
    rw [dotted]
    exact tripleIn_tooDeep
  | fuel + 1, path, resolved, hres => by
    rw [dotted]
    refine TripleIn.bind (quiet_check _).tripleIn fun _ =>
      TripleIn.bind (quiet_peekAt _).tripleIn fun _ => ?_
    dsimp only
    split
    · exact TripleIn.pure fun _ hw => ⟨hres, hw⟩
    refine TripleIn.bind quiet_next.tripleIn fun dot => ?_
    -- the dot is tagged when there is one; then the next part, resolved in the one before
    have part : Parse.TripleIn v.world (fun w => v.Current m w.file) (do
        let part ← expectIdent "type name"
        let path := path ++ "." ++ part.text
        let v ← monadLift Step.view
        let scope := context.map (⟨v.file, ·⟩)
        let resolved := (resolved.bind (v.findNestedType · part.text)).orElse fun _ =>
          v.resolveType path scope
        monadLift (emitTypeName part resolved context)
        dotted context fuel path resolved)
        (fun r w => (∀ d ∈ r.2, v.Live (.decl d)) ∧ v.Current m w.file)
        fun w => v.Current m w.file := by
      refine TripleIn.bind (quiet_expectIdent _).tripleIn fun part => ?_
      refine current_bind_view ?_
      -- the part is nested in the type before it, or the whole path so far names a type
      have hnext : ∀ d ∈ (resolved.bind (v.findNestedType · part.text)).orElse fun _ =>
          v.resolveType (path ++ "." ++ part.text) (context.map (⟨v.file, ·⟩)),
          v.Live (.decl d) := by
        intro d hd
        cases hn : resolved.bind (v.findNestedType · part.text) with
        | some d' =>
          rw [hn] at hd
          obtain ⟨c, _, hc⟩ := Option.bind_eq_some_iff.1 hn
          cases hd
          exact live_findNestedType hc
        | none =>
          simp only [hn, Option.orElse] at hd
          exact hv.live_resolveType hd
      exact TripleIn.bind (TripleIn.lift (current_emitTypeName part context hnext)) fun _ =>
        current_dotted context fuel _ _ hnext
    split
    · exact TripleIn.bind (TripleIn.lift (current_emit _ _)) fun _ => part
    · exact part

omit hv in
mutual

/-- A written type: every reference in it is alive. -/
theorem current_reference (hv : v.Sound) (context : Option Nat) : ∀ fuel : Nat,
    Parse.TripleIn v.world (fun w => v.Current m w.file) (reference context fuel)
      (fun r w => v.Lives r.1.handles ∧ v.Current m w.file) fun w => v.Current m w.file
  | 0 => by
    rw [reference]
    exact tripleIn_tooDeep
  | fuel + 1 => by
    rw [reference]
    refine TripleIn.bind (quiet_expectIdent _).tripleIn fun name => ?_
    extract_lets jp
    -- the type's arguments, after `<`
    have hjp : ∀ base : Ty, v.Lives base.handles → Parse.TripleIn v.world
        (fun w => v.Current m w.file) (jp base)
        (fun r w => v.Lives r.1.handles ∧ v.Current m w.file) fun w => v.Current m w.file := by
      intro base hbase
      refine TripleIn.bind (quiet_accept _).tripleIn fun o => ?_
      split
      · exact TripleIn.pure fun _ hw => ⟨hbase, hw⟩
      · refine TripleIn.bind (TripleIn.lift (current_emit _ _)) fun _ => ?_
        refine TripleIn.bind (current_arguments hv context fuel) fun r =>
          TripleIn.of_fact fun hr => ?_
        obtain ⟨args, closes⟩ := r
        refine TripleIn.pure fun _ hw => ⟨?_, hw⟩
        obtain ⟨n, ref, args₀, dims⟩ := base
        simp only [Ty.handles_mk, lives_append] at hbase ⊢
        exact ⟨⟨hbase.1.1, hr⟩, hbase.2⟩
    split
    · -- a builtin name refers to its catalog entry
      next i hi =>
      have hlive : v.Live (.builtin i) := by
        unfold Builtin.find? at hi
        exact (List.findIdx?_eq_some_iff_findIdx_eq.1 hi).1
      refine TripleIn.bind (TripleIn.lift (current_emitRef _ _ _ fun r hr => ?_)) fun _ =>
        TripleIn.bind (TripleIn.pure (Q := fun (base : Ty) w => v.Lives base.handles ∧
          v.Current m w.file) fun _ hw => ⟨by simpa using hlive, hw⟩) fun base =>
            TripleIn.of_fact fun hbase => hjp base hbase
      obtain rfl := Option.mem_some_iff.1 hr
      exact hlive
    · -- a declared name, and its dotted parts
      refine current_bind_view ?_
      have hres : ∀ d ∈ v.resolveType name.text (context.map (⟨v.file, ·⟩)),
          v.Live (.decl d) := fun d hd => hv.live_resolveType hd
      refine TripleIn.bind (TripleIn.lift (current_emitTypeName name context hres)) fun _ => ?_
      refine TripleIn.bind quiet_fuel.tripleIn fun _ => ?_
      refine TripleIn.bind (current_dotted hv context _ _ _ hres) fun r =>
        TripleIn.of_fact fun hr => ?_
      obtain ⟨path, resolved⟩ := r
      refine TripleIn.bind (TripleIn.pure (Q := fun (base : Ty) w => v.Lives base.handles ∧
        v.Current m w.file) fun _ hw => ⟨fun r hr' => ?_, hw⟩) fun base =>
          TripleIn.of_fact fun hbase => hjp base hbase
      cases resolved with
      | none => simp at hr'
      | some d =>
        simp only [Ty.handles_named, Option.map_some, Option.toList_some,
          List.mem_singleton] at hr'
        exact hr' ▸ hr d rfl

theorem current_arguments (hv : v.Sound) (context : Option Nat) : ∀ fuel : Nat,
    Parse.TripleIn v.world (fun w => v.Current m w.file) (arguments context fuel)
      (fun r w => v.Lives (Ty.handlesList r.1) ∧ v.Current m w.file) fun w => v.Current m w.file
  | 0 => by
    rw [arguments]
    exact tripleIn_tooDeep
  | fuel + 1 => by
    rw [arguments]
    refine TripleIn.bind (current_reference hv context fuel) fun r => TripleIn.of_fact fun hr => ?_
    obtain ⟨arg, closed⟩ := r
    dsimp only
    split
    · exact TripleIn.pure fun _ hw => ⟨by simpa using hr, hw⟩
    refine TripleIn.bind (quiet_expect _ _).tripleIn fun sep => ?_
    refine TripleIn.bind (TripleIn.lift (current_emit _ _)) fun _ => ?_
    split
    · refine TripleIn.bind (current_arguments hv context fuel) fun r =>
        TripleIn.of_fact fun hmore => ?_
      obtain ⟨more, closes⟩ := r
      exact TripleIn.pure fun _ hw => ⟨by simp [hr, hmore], hw⟩
    · exact TripleIn.pure fun _ hw => ⟨by simpa using hr, hw⟩
    · exact TripleIn.pure fun _ hw => ⟨by simpa using hr, hw⟩

end

theorem current_compoundType (context : Option Nat) :
    Parse.TripleIn v.world (fun w => v.Current m w.file) (Parse.compoundType context)
      (fun ty w => v.Lives ty.handles ∧ v.Current m w.file) fun w => v.Current m w.file := by
  unfold Parse.compoundType
  refine TripleIn.bind quiet_fuel.tripleIn fun _ => ?_
  refine TripleIn.bind (current_reference hv context _) fun r => TripleIn.of_fact fun hr => ?_
  obtain ⟨ty, closes⟩ := r
  dsimp only
  split
  · exact TripleIn.bind (Quiet.get.tripleIn) fun _ => TripleIn.throw
  · exact TripleIn.pure fun _ hw => ⟨hr, hw⟩

end Types

/-- Array dimensions as read hold no handles. -/
theorem Parse.current_dimensions {v : View} {m : Nat} : ∀ fuel : Nat,
    Parse.TripleIn v.world (fun w => v.Current m w.file) (Parse.dimensions fuel)
      (fun dims w => Expr.handlesDims dims = [] ∧ v.Current m w.file) fun w => v.Current m w.file
  | 0 => by
    rw [Parse.dimensions]
    exact tripleIn_tooDeep
  | fuel + 1 => by
    rw [Parse.dimensions]
    refine TripleIn.bind (quiet_accept _).tripleIn fun o => ?_
    split
    · exact TripleIn.pure fun _ hw => ⟨rfl, hw⟩
    refine TripleIn.bind (TripleIn.lift (View.current_emit _ _)) fun _ => ?_
    refine TripleIn.bind (quiet_balanced _).tripleIn fun size => ?_
    refine TripleIn.bind (quiet_expect _ _).tripleIn fun closing => ?_
    refine TripleIn.bind (TripleIn.lift (View.current_emit _ _)) fun _ => ?_
    extract_lets jp
    have hjp : ∀ dim, Expr.handlesOpt dim = [] → TripleIn v.world
        (fun w => v.Current m w.file) (jp dim)
        (fun dims w => Expr.handlesDims dims = [] ∧ v.Current m w.file)
        fun w => v.Current m w.file := by
      intro dim hdim
      refine TripleIn.bind (Parse.current_dimensions fuel) fun rest =>
        TripleIn.of_fact fun hrest => ?_
      exact TripleIn.pure fun _ hw => ⟨by simp [hdim, hrest], hw⟩
    -- a size is read as an expression, which holds no handles
    split
    · exact TripleIn.bind (TripleIn.pure (Q := fun dim w => Expr.handlesOpt dim = [] ∧
        v.Current m w.file) fun _ hw => ⟨rfl, hw⟩) fun dim => TripleIn.of_fact fun hdim => hjp dim hdim
    · rw [map_eq_pure_bind]
      refine TripleIn.bind (TripleIn.bind (Parse.tripleIn_ofExcept _) fun e =>
        TripleIn.pure (Q := fun dim w => Expr.handlesOpt dim = [] ∧ v.Current m w.file)
          fun _ hw => ⟨by simpa using ExprParser.run_plain hw.1, hw.2⟩) fun dim => ?_
      exact TripleIn.of_fact fun hdim => hjp dim hdim

/-! ## From the current view back to the analysis -/

section Alive

variable {u : Universe} {i n0 m : Nat} (hu : u.Sound i n0) (hm : n0 ≤ m)
include hu hm

/-- The view of an alive analysis in a universe fit for it is current and fit for lookups. -/
theorem Alive.current {a : Analysis} (h : Alive u i m a) :
    View.Sound ⟨i, a.tree, u⟩ ∧ View.Current ⟨i, a.tree, u⟩ m a := by
  have hv := h.view (hu.mono hm)
  rw [h.file] at hv
  exact ⟨hv, h, rfl⟩

/-- A step that keeps every current view keeps the analysis alive, and what it answers is
    alive at the size it leaves. -/
theorem Step.TripleIn.alive_of_current {α : Type} {x : Step α} {R : α → View → Prop}
    (h : ∀ v : View, v.Sound → v.world = u → v.file = i →
      Step.TripleIn u (fun w => v.Current m w.file) x fun a w => R a v ∧ v.Current m w.file) :
    Step.TripleIn u (fun w => Alive u i m w.file) x
      fun a w => R a ⟨i, w.file.tree, u⟩ ∧ Alive u i m w.file := by
  intro w hw
  obtain ⟨hv, hcur⟩ := Alive.current hu hm hw
  obtain ⟨hR, hc⟩ := h _ hv rfl rfl w hcur
  have ht : (x u w).2.file.tree = w.file.tree := hc.tree
  rw [ht]
  exact ⟨hR, hc.alive⟩

/-- The same for a reader, whose failure also keeps the analysis alive. -/
theorem Parse.TripleIn.alive_of_current {α : Type} {x : Parse α} {R : α → View → Prop}
    (h : ∀ v : View, v.Sound → v.world = u → v.file = i →
      Parse.TripleIn u (fun w => v.Current m w.file) x (fun a w => R a v ∧ v.Current m w.file)
        fun w => v.Current m w.file) :
    Parse.TripleIn u (fun w => Alive u i m w.file) x
      (fun a w => R a ⟨i, w.file.tree, u⟩ ∧ Alive u i m w.file)
      fun w => Alive u i m w.file := by
  intro c w hw
  obtain ⟨hv, hcur⟩ := Alive.current hu hm hw
  have hout := h _ hv rfl rfl c w hcur
  revert hout
  generalize (x c).run u w = r
  rcases r with ⟨e | ⟨a, c'⟩, w'⟩
  · exact fun hc => hc.alive
  · rintro ⟨hR, hc⟩
    have ht : w'.file.tree = w.file.tree := hc.tree
    show R a ⟨i, w'.file.tree, u⟩ ∧ _
    rw [ht]
    exact ⟨hR, hc.alive⟩

end Alive

end ZScript
