import ZScript.Proofs.TagOnly

/-!
# Reading a method body keeps the tree well formed

Every reader of a method body, run under a node `p` past the floor, keeps the invariant
`Kept fl n ps` (`Bodies.Reads`): the tree stays well formed, every node it was handed keeps its
parent, and what lies before the floor is left alone. The nodes a statement answers are children
of `p` (`Tree.Under`), and a reader that fails leaves a state that is still well formed and still
keeps the floor (`Floor.Safe`), whatever depth the failure comes from.

The statement readers are mutually recursive on their fuel; `Bodies.Sound fuel` bundles one
`Reads` fact per reader, and `Bodies.sound` proves it for every fuel from the facts at the fuel
below.
-/

namespace ZScript

/-- What a reader may leave when it fails: a well-formed tree with a node past the floor, keeping
    what the floor fixes. -/
def Floor.Safe (fl : Floor) (a : Analysis) : Prop := Kept fl (fl.nodes + 1) [] a

theorem Kept.safe {fl : Floor} {n : Nat} {ps : List (Nat × Nat)} {a : Analysis} (h : Kept fl n ps a)
    (hn : fl.nodes < n) : fl.Safe a :=
  h.weaken hn (Nat.le_succ _) fun _ hq => nomatch hq

/-- The nodes `ids` are all children of `p`. -/
def Tree.Under (t : Tree) (p : Nat) (ids : List Nat) : Prop := ∀ x ∈ ids, t.parentOf x = some p

section Kept

variable {α : Type} {fl : Floor} {n : Nat} {ps : List (Nat × Nat)}

/-- A reader that only tags keeps a body reader's invariant and every fact about the tree. -/
theorem Parse.Tags.keptWith {x : Parse α} (h : Parse.Tags x) (hn : fl.nodes < n) {R : Tree → Prop} :
    Parse.Triple (fun w => Kept fl n ps w.file ∧ R w.file.tree) x
      (fun _ w => Kept fl n ps w.file ∧ R w.file.tree) (fun w => fl.Safe w.file) :=
  h.triple.mono (fun _ => id) (fun _ _ => id) fun _ hw => hw.1.safe hn

theorem Parse.Tags.kept {x : Parse α} (h : Parse.Tags x) (hn : fl.nodes < n) :
    Parse.Triple (fun w => Kept fl n ps w.file) x (fun _ w => Kept fl n ps w.file)
      (fun w => fl.Safe w.file) :=
  (h.keptWith hn (R := fun _ => True)).mono (fun _ hw => ⟨hw, trivial⟩) (fun _ _ hw => hw.1)
    fun _ => id

theorem Parse.Quiet.kept {x : Parse α} (h : Parse.Quiet x) (hn : fl.nodes < n) :
    Parse.Triple (fun w => Kept fl n ps w.file) x (fun _ w => Kept fl n ps w.file)
      (fun w => fl.Safe w.file) :=
  (Parse.Tags.quiet h).kept hn

theorem Step.Tags.kept {x : Step α} (h : Step.Tags x) (hn : fl.nodes < n) :
    Parse.Triple (fun w => Kept fl n ps w.file) (monadLift x : Parse α)
      (fun _ w => Kept fl n ps w.file) (fun w => fl.Safe w.file) :=
  (Parse.Tags.lift h).kept hn

theorem Kept.throw {e : ParseError} (hn : fl.nodes < n) :
    Parse.Triple (fun w => Kept fl n ps w.file) (MonadExcept.throw e : Parse α)
      (fun _ _ => False) (fun w => fl.Safe w.file) :=
  Parse.Triple.throw.pre fun _ hw => hw.safe hn

theorem Kept.tooDeep {Q : α → Work → Prop} (hn : fl.nodes < n) :
    Parse.Triple (fun w => Kept fl n ps w.file) (Parse.tooDeep : Parse α) Q
      (fun w => fl.Safe w.file) :=
  Parse.Triple.bind (Parse.Triple.get fun _ _ => id) fun _ =>
    (Kept.throw hn).post fun _ _ => False.elim

theorem Kept.unexpected {Q : α → Work → Prop} {expected : String} (hn : fl.nodes < n) :
    Parse.Triple (fun w => Kept fl n ps w.file) (Parse.unexpected expected : Parse α) Q
      (fun w => fl.Safe w.file) :=
  Parse.Triple.bind ((Parse.quiet_unexpectedHere expected).kept hn) fun _ =>
    (Kept.throw hn).post fun _ _ => False.elim

/-- Adding a plain node as the last child of `p`, a node past the floor: the invariant now covers
    the new node and carries its parent. -/
theorem Kept.addChild {p : Nat} {name : String} {line : Nat} {kind : NodeKind} (hp : p < n)
    (hfp : fl.nodes ≤ p) (hheld : kind.held = []) (hroot : kind.isRoot = false)
    (hjump : kind.isJump = false) :
    Parse.Triple (fun w => Kept fl n ps w.file) (monadLift (Step.add p name line kind) : Parse Nat)
      (fun id w => n ≤ id ∧ Kept fl (id + 1) ((id, p) :: ps) w.file) (fun w => fl.Safe w.file) :=
  Parse.Triple.lift ((Step.kept_add hp hfp hheld hroot).mono
    (fun _ hw => ⟨hw, by simp [hjump]⟩) fun _ _ ⟨hk, hn, hpar⟩ => ⟨hn, hk.cons hpar⟩)

/-- Adding a plain node under `p`, a node past the floor. -/
theorem Kept.add {p : Nat} {name : String} {line : Nat} {kind : NodeKind} (hp : p < n)
    (hfp : fl.nodes ≤ p) (hheld : kind.held = []) (hroot : kind.isRoot = false)
    (hjump : kind.isJump = false) :
    Parse.Triple (fun w => Kept fl n ps w.file) (monadLift (Step.add p name line kind) : Parse Nat)
      (fun _ w => Kept fl n ps w.file) (fun w => fl.Safe w.file) :=
  Parse.Triple.lift ((Step.kept_add hp hfp hheld hroot).mono
    (fun _ hw => ⟨hw, by simp [hjump]⟩) fun _ _ hw => hw.1.weaken (by omega) (by omega)
      fun _ => id)

/-- Changing what node `id` holds, keeping its shape, when every node the new kind holds is held
    by the old kind or is one of `extra`, children of `id`. -/
theorem Step.kept_modifyKindUnder {id : Nat} {f : NodeKind → NodeKind} (extra : List Nat)
    (hfi : fl.nodes ≤ id) (hshape : ∀ k, NodeKind.SameShape k (f k))
    (hheld : ∀ k, ∀ x ∈ (f k).held, x ∈ k.held ∨ x ∈ extra) :
    Step.Triple (fun w => Kept fl n ps w.file ∧ w.file.tree.Under id extra)
      (Step.modifyKind id f) (fun _ w => Kept fl n ps w.file) := by
  refine (Step.kept_modifyKind hfi).pre fun w ⟨hk, hu⟩ => ⟨hk, ?_⟩
  intro node hg
  refine ⟨hshape node.kind, fun x hx => ?_⟩
  rcases hheld node.kind x hx with hx | hx
  · exact hk.wf.held_parent id node x hg hx
  · exact hu x hx

theorem Kept.modifyKind {id : Nat} {f : NodeKind → NodeKind} (extra : List Nat)
    (hfi : fl.nodes ≤ id) (hshape : ∀ k, NodeKind.SameShape k (f k))
    (hheld : ∀ k, ∀ x ∈ (f k).held, x ∈ k.held ∨ x ∈ extra) :
    Parse.Triple (fun w => Kept fl n ps w.file ∧ w.file.tree.Under id extra)
      (monadLift (Step.modifyKind id f) : Parse Unit) (fun _ w => Kept fl n ps w.file)
      (fun w => fl.Safe w.file) :=
  Parse.Triple.lift (Step.kept_modifyKindUnder extra hfi hshape hheld)

/-- `;` closes a statement in a block, after which the statement answers `r`. -/
theorem Kept.closing {β : Type} {inBlock : Bool} {what : String} {r : β} {R : Tree → Prop}
    {Q : β → Work → Prop} (hn : fl.nodes < n)
    (hq : ∀ w, Kept fl n ps w.file ∧ R w.file.tree → Q r w) :
    Parse.Triple (fun w => Kept fl n ps w.file ∧ R w.file.tree)
      (if inBlock = true then (do let _ ← Parse.semicolon what; pure r) else pure r) Q
      (fun w => fl.Safe w.file) := by
  refine Parse.Triple.ite (fun _ => ?_) fun _ => Parse.Triple.pure hq
  exact Parse.Triple.bind ((Parse.tags_semicolon what).keptWith hn) fun _ => Parse.Triple.pure hq

end Kept

theorem Tree.holds_of_get? {t : Tree} {id : Nat} {node : Node} (h : t.get? id = some node)
    (P : NodeKind → Bool) : t.holds id P = P node.kind := by
  simp [Tree.holds, h]

theorem Tree.holds_of_get?_none {t : Tree} {id : Nat} (h : t.get? id = none) (P : NodeKind → Bool) :
    t.holds id P = false := by
  simp [Tree.holds, h]

theorem Tree.chain_none (t : Tree) (fuel : Nat) : t.chain fuel none = [] := by
  cases fuel <;> rfl

/-- Walking up from `id` through nodes that are no methods, a loop is met: `id` is under a loop.
    The two tests are any that agree with `NodeKind.isMethod` and `NodeKind.isLoop`. -/
theorem Tree.underLoop_of_chain {t : Tree} {isM isL : NodeKind → Bool}
    (hM : ∀ k, isM k = k.isMethod) (hL : ∀ k, isL k = k.isLoop) : ∀ {fuel id : Nat},
    ((t.chain fuel (some id)).takeWhile fun i => !t.holds i isM).any (fun i => t.holds i isL) = true →
      t.UnderLoop id
  | 0, _, h => by simp [Tree.chain] at h
  | fuel + 1, id, h => by
    rw [Tree.chain, List.takeWhile_cons] at h
    cases hg : t.get? id with
    | none => simp [Tree.holds_of_get?_none hg, hg, Tree.chain_none] at h
    | some node =>
      simp only [Tree.holds_of_get? hg, hg, Option.bind_some, hM] at h
      cases hm : node.kind.isMethod
      · simp only [hm, Bool.not_false, ↓reduceIte, List.any_cons, Tree.holds_of_get? hg, hL] at h
        cases hl : node.kind.isLoop
        · rw [hl, Bool.false_or] at h
          cases hp : node.parent with
          | none => simp [hp, Tree.chain_none] at h
          | some q =>
            rw [hp] at h
            exact .up hg hm hp (Tree.underLoop_of_chain hM hL h)
        · exact .loop hg hl
      · simp [hm] at h

/-- `inLoop` is sound: a `break` or `continue` it admits stands under a loop of its method. -/
theorem Bodies.underLoop_of_inLoop {t : Tree} {p : Nat} (h : Bodies.inLoop t p = true) :
    t.UnderLoop p :=
  Tree.underLoop_of_chain (fun k => by cases k <;> rfl) (fun k => by cases k <;> rfl) h

namespace Bodies

theorem quiet_require (inFor : Bool) (f : Form) (t : Token) : Parse.Quiet (require inFor f t) := by
  unfold require
  split
  · exact Parse.Quiet.pure _
  · exact Parse.Quiet.throw

/-- A body reader under node `p`: from every state of the invariant in which `p` is a node past
    the floor, it keeps the invariant and answers a value satisfying `post`, or fails in a safe
    state. -/
def Reads {α : Type} (p : Nat) (x : Parse α) (post : α → Tree → Prop) : Prop :=
  ∀ fl n ps, fl.nodes ≤ p → p < n →
    Parse.Triple (fun w => Kept fl n ps w.file) x
      (fun r w => Kept fl n ps w.file ∧ post r w.file.tree) (fun w => fl.Safe w.file)

section Place

variable {fl : Floor} {n : Nat} {ps : List (Nat × Nat)}

/-- A statement node under `p`: listed under a block, only parented elsewhere. -/
theorem kept_place {p : Nat} {name : String} {line : Nat} {kind : NodeKind} (hp : p < n)
    (hfp : fl.nodes ≤ p) (hheld : kind.held = []) (hroot : kind.isRoot = false) :
    Step.Triple (fun w => Kept fl n ps w.file ∧ (kind.isJump → w.file.tree.UnderLoop p))
      (place p name line kind) (fun id w => n ≤ id ∧ Kept fl (id + 1) ((id, p) :: ps) w.file) := by
  unfold place
  refine Step.Triple.bind Step.triple_tree fun t => ?_
  split
  · exact ((Step.kept_add hp hfp hheld hroot).pre fun _ hw => hw.1).post
      fun _ _ ⟨hk, hn, hpar⟩ => ⟨hn, hk.cons hpar⟩
  · exact ((Step.kept_alloc hp hheld hroot).pre fun _ hw => hw.1).post
      fun _ _ ⟨hk, hn, hpar, _⟩ => ⟨hn, hk.cons hpar⟩

/-- `place` for a node that is no `break` or `continue`. -/
theorem kept_placePlain {p : Nat} {name : String} {line : Nat} {kind : NodeKind} (hp : p < n)
    (hfp : fl.nodes ≤ p) (hheld : kind.held = []) (hroot : kind.isRoot = false)
    (hjump : kind.isJump = false) :
    Parse.Triple (fun w => Kept fl n ps w.file) (monadLift (place p name line kind) : Parse Nat)
      (fun id w => n ≤ id ∧ Kept fl (id + 1) ((id, p) :: ps) w.file) (fun w => fl.Safe w.file) :=
  Parse.Triple.lift ((kept_place hp hfp hheld hroot).pre fun _ hw => ⟨hw, by simp [hjump]⟩)

end Place

open Parse (Triple)

theorem reads_declarators (p owner : Nat) (base : Ty) (const : Bool) (scope : Scope) :
    ∀ fuel name acc, Reads p (declarators p owner base const scope fuel name acc)
      fun r t => ∃ ys, r = acc ++ ys ∧ t.Under p ys
  | 0, _, _ => fun _ _ _ hfp hpn => by
    rw [declarators]
    exact Kept.tooDeep (by omega)
  | fuel + 1, name, acc => by
    intro fl n ps hfp hpn
    have hfn : fl.nodes < n := by omega
    rw [declarators]
    refine Triple.bind (Parse.quiet_fuel.kept hfn) fun _ => ?_
    refine Triple.bind ((Parse.tags_dimensions _).kept hfn) fun _ => ?_
    refine Triple.bind ((tags_tagDims _ _).kept hfn) fun dims => ?_
    refine Triple.bind ((Parse.quiet_accept _).kept hfn) fun _ => ?_
    extract_lets flags jp
    -- the variable once its initializer is read
    have hjp : ∀ init, Triple (fun w => Kept fl n ps w.file) (jp init)
        (fun r w => Kept fl n ps w.file ∧ ∃ ys, r = acc ++ ys ∧ w.file.tree.Under p ys)
        (fun w => fl.Safe w.file) := by
      intro init
      dsimp -zeta only [jp]
      refine Triple.bind (kept_placePlain hpn hfp rfl rfl rfl) fun id => Triple.of_fact fun hid => ?_
      have hfi : fl.nodes < id + 1 := by omega
      extract_lets acc' jp'
      have hjp' : ∀ u, Triple (fun w => Kept fl (id + 1) ((id, p) :: ps) w.file) (jp' u)
          (fun r w => Kept fl n ps w.file ∧ ∃ ys, r = acc ++ ys ∧ w.file.tree.Under p ys)
          (fun w => fl.Safe w.file) := by
        intro u
        dsimp only [jp']
        refine Triple.bind ((Step.tags_here _).kept hfi) fun _ => ?_
        refine Triple.bind ((Step.tags_emitRef _ _ _ _).kept hfi) fun _ => ?_
        refine Triple.bind ((Parse.quiet_accept _).kept hfi) fun _ => ?_
        split
        · refine Triple.bind ((Step.tags_emit _ _).kept hfi) fun _ => ?_
          refine Triple.bind ((Parse.quiet_expectIdent _).kept hfi) fun name' => ?_
          refine (reads_declarators p owner base const scope fuel name' (acc ++ [id]) fl (id + 1)
            ((id, p) :: ps) hfp (by omega)).post fun r w ⟨hk, ys, hr, hys⟩ => ?_
          obtain ⟨hk, hpar⟩ := hk.pop n (by omega) (by omega)
          refine ⟨hk, id :: ys, by simp [hr], fun x hx => ?_⟩
          rcases List.mem_cons.1 hx with rfl | hx
          · exact hpar
          · exact hys x hx
        · refine Triple.pure fun w hk => ?_
          obtain ⟨hk, hpar⟩ := hk.pop n (by omega) (by omega)
          exact ⟨hk, [id], rfl, by simpa [Tree.Under] using hpar⟩
      split
      · exact Triple.bind (Kept.add (by omega) (by omega) rfl rfl rfl) fun _ => hjp' ()
      · exact hjp' ()
    split
    · split
      · exact Triple.bind (Kept.throw hfn) fun _ => (hjp _).pre fun _ => False.elim
      · refine Triple.bind ((Step.tags_emit _ _).kept hfn) fun _ => ?_
        refine Triple.bind ((tags_tagged _ _).kept hfn) fun _ => ?_
        exact Triple.bind (Triple.pure fun _ h => h) hjp
    · exact Triple.bind (Triple.pure fun _ h => h) hjp

theorem reads_declaration (p owner : Nat) (inBlock : Bool) :
    Reads p (declaration p owner inBlock) fun r t => ∀ ds ∈ r, t.Under p ds := by
  intro fl n ps hfp hpn
  have hfn : fl.nodes < n := by omega
  unfold declaration
  refine Triple.bind (Triple.get fun _ _ => id) fun start => ?_
  -- the probe for a type below only tags, so the tree stays as it is at the mark
  refine Triple.bind ((Triple.lift Step.triple_mark).post fun m w ⟨hk, hm⟩ =>
    (⟨⟨hm ▸ hk.floor.semantic_le, hm ▸ hk.floor.diagnostics_le⟩, hk, hm ▸ Nat.le_refl _⟩ :
      (fl.semantic ≤ m.semantic ∧ fl.diagnostics ≤ m.diagnostics) ∧
        Kept fl n ps w.file ∧ w.file.tree.size ≤ m.nodes)) fun m => Triple.of_fact fun ⟨hs, hd⟩ => ?_
  refine Triple.bind ((Parse.Tags.quiet (Parse.quiet_acceptKeyword _)).keptWith hfn (R := fun t => t.size ≤ m.nodes)) fun const => ?_
  refine Triple.bind ((tags_attempt (Parse.tags_compoundType _)).keptWith hfn (R := fun t => t.size ≤ m.nodes)) fun base => ?_
  refine Triple.bind ((Parse.Tags.quiet (Parse.quiet_check _)).keptWith hfn (R := fun t => t.size ≤ m.nodes)) fun _ => ?_
  refine Triple.bind ((Parse.Tags.quiet (Parse.quiet_peekAt _)).keptWith hfn (R := fun t => t.size ≤ m.nodes)) fun _ => ?_
  extract_lets follows
  generalize follows = f
  split
  · extract_lets jp
    -- the declarators, once a `const` is tagged
    have hjp : ∀ u, Triple (fun w => Kept fl n ps w.file ∧ w.file.tree.size ≤ m.nodes) (jp u)
        (fun r w => Kept fl n ps w.file ∧ ∀ ds ∈ r, w.file.tree.Under p ds)
        (fun w => fl.Safe w.file) := by
      intro u
      dsimp only [jp]
      refine Triple.pre ?_ fun _ hw => hw.1
      refine Triple.bind ((tags_scopeAt _ _).kept hfn) fun _ => ?_
      refine Triple.bind (Parse.quiet_fuel.kept hfn) fun _ => ?_
      refine Triple.bind (Parse.quiet_expectIdent _ |>.kept hfn) fun _ => ?_
      refine Triple.bind (reads_declarators _ _ _ _ _ _ _ _ fl n ps hfp hpn) fun declared => ?_
      refine Triple.pre ?_ fun w ⟨hk, ys, hr, hys⟩ => (⟨hk, hr ▸ hys⟩ :
        Kept fl n ps w.file ∧ w.file.tree.Under p declared)
      have done : Triple (fun w => Kept fl n ps w.file ∧ w.file.tree.Under p declared)
          (pure (some declared)) (fun r w => Kept fl n ps w.file ∧ ∀ ds ∈ r, w.file.tree.Under p ds)
          (fun w => fl.Safe w.file) := Triple.pure fun _ ⟨hk, hu⟩ => ⟨hk, fun ds hds => by
            cases hds
            exact hu⟩
      refine Triple.ite (fun _ => ?_) fun _ => done
      exact Triple.bind ((Parse.tags_semicolon _).keptWith hfn
        (R := fun t => t.Under p declared)) fun _ => done
    split
    · exact Triple.bind ((Parse.Tags.lift (Step.tags_emit _ _)).keptWith hfn
        (R := fun t => t.size ≤ m.nodes)) hjp
    · exact hjp ()
  · refine Triple.bind (Triple.set (Q := fun _ w => Kept fl n ps w.file ∧
      w.file.tree.size ≤ m.nodes)) fun _ => ?_
    refine Triple.bind (Triple.lift (Step.kept_rollback hs hd)) fun _ => ?_
    exact Triple.pure fun _ hk => ⟨hk, fun _ hds => nomatch hds⟩

theorem reads_letDeclarators (p : Nat) (scope : Scope) :
    ∀ fuel acc, Reads p (letDeclarators p scope fuel acc)
      fun r t => ∃ ys, r = acc ++ ys ∧ t.Under p ys
  | 0, _ => fun _ _ _ hfp hpn => by
    rw [letDeclarators]
    exact Kept.tooDeep (by omega)
  | fuel + 1, acc => by
    intro fl n ps hfp hpn
    have hfn : fl.nodes < n := by omega
    rw [letDeclarators]
    refine Triple.bind ((Parse.quiet_expectIdent _).kept hfn) fun _ => ?_
    refine Triple.bind ((Parse.quiet_expect _ _).kept hfn) fun _ => ?_
    refine Triple.bind ((Step.tags_emit _ _).kept hfn) fun _ => ?_
    refine Triple.bind ((tags_tagged _ _).kept hfn) fun _ => ?_
    refine Triple.bind (kept_placePlain hpn hfp rfl rfl rfl) fun id => Triple.of_fact fun hid => ?_
    have hfi : fl.nodes < id + 1 := by omega
    refine Triple.bind (Kept.add (by omega) (by omega) rfl rfl rfl) fun _ => ?_
    refine Triple.bind ((Step.tags_here _).kept hfi) fun _ => ?_
    refine Triple.bind ((Step.tags_emitRef _ _ _ _).kept hfi) fun _ => ?_
    refine Triple.bind ((Parse.quiet_accept _).kept hfi) fun _ => ?_
    split
    · refine Triple.bind ((Step.tags_emit _ _).kept hfi) fun _ => ?_
      refine (reads_letDeclarators p scope fuel (acc ++ [id]) fl (id + 1) ((id, p) :: ps) hfp
        (by omega)).post fun r w ⟨hk, ys, hr, hys⟩ => ?_
      obtain ⟨hk, hpar⟩ := hk.pop n (by omega) (by omega)
      refine ⟨hk, id :: ys, by simp [hr], fun x hx => ?_⟩
      rcases List.mem_cons.1 hx with rfl | hx
      · exact hpar
      · exact hys x hx
    · refine Triple.pure fun w hk => ?_
      obtain ⟨hk, hpar⟩ := hk.pop n (by omega) (by omega)
      exact ⟨hk, [id], rfl, by simpa [Tree.Under] using hpar⟩

theorem reads_letStatement (p owner : Nat) (inBlock : Bool) :
    Reads p (letStatement p owner inBlock) fun r t => t.Under p r := by
  intro fl n ps hfp hpn
  have hfn : fl.nodes < n := by omega
  unfold letStatement
  refine Triple.bind ((tags_scopeAt _ _).kept hfn) fun _ => ?_
  refine Triple.bind (Parse.quiet_fuel.kept hfn) fun _ => ?_
  refine Triple.bind (reads_letDeclarators _ _ _ _ fl n ps hfp hpn) fun declared => ?_
  dsimp only
  exact (Kept.closing (R := fun t => t.Under p declared) hfn fun _ => id).pre
    fun _ ⟨hk, ys, hr, hys⟩ => ⟨hk, hr ▸ hys⟩

theorem reads_expressionStatement (p owner : Nat) (inBlock : Bool) :
    Reads p (expressionStatement p owner inBlock) fun r t => t.Under p r := by
  intro fl n ps hfp hpn
  have hfn : fl.nodes < n := by omega
  unfold expressionStatement
  dsimp only
  refine Triple.bind ((tags_scopeAt _ _).kept hfn) fun _ => ?_
  refine Triple.bind ((tags_tagged _ _).kept hfn) fun _ => ?_
  refine Triple.bind (kept_placePlain hpn hfp rfl rfl rfl) fun id => Triple.of_fact fun hid => ?_
  refine (Kept.closing (R := fun _ => True) (by omega) fun w ⟨hk, _⟩ => ?_).pre fun _ hk => ⟨hk, trivial⟩
  obtain ⟨hk, hpar⟩ := hk.pop n (by omega) (by omega)
  exact ⟨hk, by simpa [Tree.Under] using hpar⟩

theorem reads_returnValues (id : Nat) (scope : Scope) (fuel : Nat) :
    Reads id (returnValues id scope fuel) fun _ _ => True := by
  induction fuel with
  | zero =>
    intro fl n ps hfi hin
    rw [returnValues]
    exact Kept.tooDeep (by omega)
  | succ fuel ih =>
    intro fl n ps hfi hin
    have hfn : fl.nodes < n := by omega
    rw [returnValues]
    refine Triple.bind ((tags_tagged _ _).kept hfn) fun _ => ?_
    refine Triple.bind (Kept.add hin hfi rfl rfl rfl) fun _ => ?_
    refine Triple.bind ((Parse.quiet_accept _).kept hfn) fun _ => ?_
    split
    · exact Triple.bind ((Step.tags_emit _ _).kept hfn) fun _ => ih fl n ps hfi hin
    · exact Triple.pure fun _ hk => ⟨hk, trivial⟩

theorem reads_returnStatement (keyword : Token) (p owner : Nat) :
    Reads p (returnStatement keyword p owner) fun r t => t.Under p r := by
  intro fl n ps hfp hpn
  unfold returnStatement
  refine Triple.bind (kept_placePlain hpn hfp rfl rfl rfl) fun id => Triple.of_fact fun hid => ?_
  have hfi : fl.nodes < id + 1 := by omega
  refine Triple.bind ((tags_scopeAt _ _).kept hfi) fun scope => ?_
  refine Triple.bind ((Parse.quiet_check _).kept hfi) fun _ => ?_
  extract_lets jp
  -- the closing `;`, with or without values before it
  have hjp : ∀ u, Triple (fun w => Kept fl (id + 1) ((id, p) :: ps) w.file) (jp u)
      (fun r w => Kept fl n ps w.file ∧ w.file.tree.Under p r) (fun w => fl.Safe w.file) := by
    intro u
    dsimp only [jp]
    refine Triple.bind ((Parse.tags_semicolon _).kept hfi) fun _ => Triple.pure fun w hk => ?_
    obtain ⟨hk, hpar⟩ := hk.pop n (by omega) (by omega)
    exact ⟨hk, by simpa [Tree.Under] using hpar⟩
  refine Triple.ite (fun _ => hjp ()) fun _ => ?_
  refine Triple.bind (Parse.quiet_fuel.kept hfi) fun _ => ?_
  exact Triple.bind ((reads_returnValues id scope _ fl (id + 1) ((id, p) :: ps) (by omega)
    (by omega)).post fun _ _ h => h.1) hjp

theorem reads_jump (keyword : Token) (p : Nat) : Reads p (jump keyword p) fun r t => t.Under p r := by
  intro fl n ps hfp hpn
  have hfn : fl.nodes < n := by omega
  unfold jump
  refine Triple.bind (Triple.lift Step.triple_tree) fun t => ?_
  dsimp only
  refine Triple.ite (fun hl => ?_) fun _ => Triple.bind (Kept.throw hfn |>.pre fun _ hw => hw.1)
    fun _ => Triple.of_false
  -- the check found a loop above `p`, so the jump may stand under it
  refine Triple.bind (Triple.lift ((kept_place hpn hfp rfl rfl).pre fun _ ⟨hk, ht⟩ =>
    ⟨hk, fun _ => ht ▸ underLoop_of_inLoop hl⟩)) fun id => Triple.of_fact fun hid => ?_
  refine Triple.bind ((Parse.tags_semicolon _).kept (by omega)) fun _ => Triple.pure fun w hk => ?_
  obtain ⟨hk, hpar⟩ := hk.pop n (by omega) (by omega)
  exact ⟨hk, by simpa [Tree.Under] using hpar⟩

/-! ## The statement readers -/

/-- One `Reads` fact for each of the mutually recursive statement readers at `fuel`. -/
structure Sound (fuel : Nat) : Prop where
  statement : ∀ p owner inFor, Reads p (statement p owner inFor fuel) fun r t => t.Under p r
  statements : ∀ block owner closer, Reads block (statements block owner closer fuel) fun _ _ => True
  blockOrLine : ∀ p owner, Reads p (blockOrLine p owner fuel) fun b t => t.parentOf b = some p
  ifStatement : ∀ keyword p owner, Reads p (ifStatement keyword p owner fuel) fun r t => t.Under p r
  initializers : ∀ id owner, Reads id (initializers id owner fuel) fun _ _ => True
  forStatement : ∀ keyword p owner, Reads p (forStatement keyword p owner fuel) fun r t => t.Under p r
  whileStatement : ∀ keyword p owner,
    Reads p (whileStatement keyword p owner fuel) fun r t => t.Under p r
  doStatement : ∀ keyword p owner, Reads p (doStatement keyword p owner fuel) fun r t => t.Under p r

theorem sound_zero : Sound 0 where
  statement _ _ _ _ _ _ hfp hpn := by
    rw [statement]
    exact Kept.tooDeep (by omega)
  statements _ _ _ _ _ _ hfp hpn := by
    rw [statements]
    exact Kept.tooDeep (by omega)
  blockOrLine _ _ _ _ _ hfp hpn := by
    rw [blockOrLine]
    exact Kept.tooDeep (by omega)
  ifStatement _ _ _ _ _ _ hfp hpn := by
    rw [ifStatement]
    exact Kept.tooDeep (by omega)
  initializers _ _ _ _ _ hfp hpn := by
    rw [initializers]
    exact Kept.tooDeep (by omega)
  forStatement _ _ _ _ _ _ hfp hpn := by
    rw [forStatement]
    exact Kept.tooDeep (by omega)
  whileStatement _ _ _ _ _ _ hfp hpn := by
    rw [whileStatement]
    exact Kept.tooDeep (by omega)
  doStatement _ _ _ _ _ _ hfp hpn := by
    rw [doStatement]
    exact Kept.tooDeep (by omega)

section Step

variable {fuel : Nat} (ih : Sound fuel)
include ih

theorem Sound.reads_statement (p owner : Nat) (inFor : Bool) :
    Reads p (Bodies.statement p owner inFor (fuel + 1)) fun r t => t.Under p r := by
  intro fl n ps hfp hpn
  have hfn : fl.nodes < n := by omega
  -- a statement of a form that has to be allowed here first
  have required : ∀ {β : Type} (f : Form) (t : Token) {x : Parse β} {Q : β → Work → Prop},
      Triple (fun w => Kept fl n ps w.file) x Q (fun w => fl.Safe w.file) →
      Triple (fun w => Kept fl n ps w.file) (do require inFor f t; x) Q (fun w => fl.Safe w.file) :=
    fun f t _ _ h => Triple.bind ((quiet_require inFor f t).kept hfn) fun _ => h
  have expression := reads_expressionStatement p owner
  rw [Bodies.statement]
  refine Triple.bind (Step.tags_tree.kept hfn) fun _ => ?_
  dsimp only
  refine Triple.bind (Parse.quiet_peek.kept hfn) fun _ => ?_
  split
  · split
    · -- `;` is an empty statement in a block, else the start of an expression
      refine Triple.ite (fun _ => ?_) fun _ => required _ _ (expression _ fl n ps hfp hpn)
      refine Triple.bind (Parse.quiet_next.kept hfn) fun _ => ?_
      exact Triple.bind ((Step.tags_emit _ _).kept hfn) fun _ =>
        Triple.pure fun _ hk => ⟨hk, fun _ hx => nomatch hx⟩
    · exact required _ _ (Triple.bind (ih.blockOrLine p owner fl n ps hfp hpn) fun _ =>
        Triple.pure fun _ ⟨hk, hb⟩ => ⟨hk, by simpa [Tree.Under] using hb⟩)
    · split
      · -- a statement keyword, tagged before the statement it starts
        refine required _ _ (Triple.bind (Parse.quiet_next.kept hfn) fun _ => ?_)
        refine Triple.bind ((Step.tags_emit _ _).kept hfn) fun _ => ?_
        split
        · exact ih.ifStatement _ p owner fl n ps hfp hpn
        · exact ih.forStatement _ p owner fl n ps hfp hpn
        · exact ih.whileStatement _ p owner fl n ps hfp hpn
        · exact ih.doStatement _ p owner fl n ps hfp hpn
        · exact reads_returnStatement _ p owner fl n ps hfp hpn
        · exact reads_jump _ p fl n ps hfp hpn
        · exact reads_jump _ p fl n ps hfp hpn
        · exact reads_letStatement p owner _ fl n ps hfp hpn
      · -- a declaration when the tokens read as one, else an expression
        refine Triple.ite (fun _ => Triple.bind (Kept.throw hfn) fun _ => Triple.of_false)
          fun _ => ?_
        refine Triple.bind (reads_declaration p owner _ fl n ps hfp hpn) fun _ => ?_
        split
        · exact Triple.pure fun _ ⟨hk, hd⟩ => ⟨hk, hd _ rfl⟩
        · exact (required _ _ (expression _ fl n ps hfp hpn)).pre fun _ h => h.1
    · exact required _ _ (expression _ fl n ps hfp hpn)
  · exact Kept.unexpected hfn

theorem Sound.reads_statements (block owner : Nat) (closer : Option TokenKind) :
    Reads block (Bodies.statements block owner closer (fuel + 1)) fun _ _ => True := by
  intro fl n ps hfb hbn
  have hfn : fl.nodes < n := by omega
  rw [Bodies.statements]
  refine Triple.bind (Parse.quiet_peek.kept hfn) fun _ => ?_
  split
  · exact Triple.ite (fun _ => Triple.pure fun _ hk => ⟨hk, trivial⟩) fun _ => Kept.unexpected hfn
  · refine Triple.ite (fun _ => Triple.pure fun _ hk => ⟨hk, trivial⟩) fun _ => ?_
    exact Triple.bind ((ih.statement block owner false fl n ps hfb hbn).post fun _ _ h => h.1)
      fun _ => ih.statements block owner closer fl n ps hfb hbn

theorem Sound.reads_blockOrLine (p owner : Nat) :
    Reads p (Bodies.blockOrLine p owner (fuel + 1)) fun b t => t.parentOf b = some p := by
  intro fl n ps hfp hpn
  have hfn : fl.nodes < n := by omega
  rw [Bodies.blockOrLine]
  refine Triple.bind (Parse.quiet_peek.kept hfn) fun _ => ?_
  extract_lets jp
  -- the block, once the line it starts on is known
  have hjp : ∀ line, Triple (fun w => Kept fl n ps w.file) (jp line)
      (fun b w => Kept fl n ps w.file ∧ w.file.tree.parentOf b = some p) (fun w => fl.Safe w.file) := by
    intro line
    dsimp only [jp]
    refine Triple.bind (Kept.addChild hpn hfp rfl rfl rfl) fun block => Triple.of_fact fun hb => ?_
    have hfb : fl.nodes < block + 1 := by omega
    have done : Triple (fun w => Kept fl (block + 1) ((block, p) :: ps) w.file) (pure block)
        (fun b w => Kept fl n ps w.file ∧ w.file.tree.parentOf b = some p)
        (fun w => fl.Safe w.file) :=
      Triple.pure fun _ hk => hk.pop n (by omega) (by omega)
    refine Triple.bind ((Parse.quiet_accept _).kept hfb) fun _ => ?_
    split
    · refine Triple.bind ((Step.tags_emit _ _).kept hfb) fun _ => ?_
      refine Triple.bind ((ih.statements block owner _ fl (block + 1) ((block, p) :: ps)
        (by omega) (by omega)).post fun _ _ h => h.1) fun _ => ?_
      refine Triple.bind ((Parse.quiet_expect _ _).kept hfb) fun _ => ?_
      exact Triple.bind ((Step.tags_emit _ _).kept hfb) fun _ => done
    · exact Triple.bind (Triple.discard ((ih.statement block owner false fl (block + 1)
        ((block, p) :: ps) (by omega) (by omega)).post fun _ _ h => h.1)) fun _ => done
  split
  · exact Triple.bind (Triple.pure fun _ h => h) hjp
  · exact Triple.bind (Triple.get fun _ _ => id) fun _ => Triple.bind (Triple.pure fun _ h => h) hjp

theorem Sound.reads_ifStatement (keyword : Token) (p owner : Nat) :
    Reads p (Bodies.ifStatement keyword p owner (fuel + 1)) fun r t => t.Under p r := by
  intro fl n ps hfp hpn
  have hfn : fl.nodes < n := by omega
  rw [Bodies.ifStatement]
  refine Triple.bind ((tags_scopeAt _ _).kept hfn) fun _ => ?_
  refine Triple.bind ((tags_condition _).kept hfn) fun _ => ?_
  refine Triple.bind (kept_placePlain hpn hfp rfl rfl rfl) fun id => Triple.of_fact fun hid => ?_
  have hfi : fl.nodes < id + 1 := by omega
  refine Triple.bind ((ih.blockOrLine id owner fl (id + 1) ((id, p) :: ps) (by omega)
    (by omega)).post fun _ _ h => h.1) fun _ => ?_
  refine Triple.bind ((Parse.quiet_acceptKeyword _).kept hfi) fun _ => ?_
  extract_lets jp
  have hjp : ∀ u, Triple (fun w => Kept fl (id + 1) ((id, p) :: ps) w.file) (jp u)
      (fun r w => Kept fl n ps w.file ∧ w.file.tree.Under p r) (fun w => fl.Safe w.file) := by
    intro u
    refine Triple.pure fun w hk => ?_
    obtain ⟨hk, hpar⟩ := hk.pop n (by omega) (by omega)
    exact ⟨hk, by simpa [Tree.Under] using hpar⟩
  split
  · refine Triple.bind ((Step.tags_emit _ _).kept hfi) fun _ => ?_
    refine Triple.bind (ih.blockOrLine id owner fl (id + 1) ((id, p) :: ps) (by omega)
      (by omega)) fun other => ?_
    -- the `else` block is held by the condition, and its parent is the condition
    refine Triple.bind ((Kept.modifyKind [other] (by omega)
      (fun k => by cases k <;> exact ⟨rfl, rfl, rfl, rfl⟩) fun k x hx => ?_).pre
      fun _ ⟨hk, hpar⟩ => ⟨hk, by simpa [Tree.Under] using hpar⟩) hjp
    cases k with
    | cond => exact .inr hx
    | _ => exact .inl hx
  · exact hjp ()

theorem Sound.reads_initializers (id owner : Nat) :
    Reads id (Bodies.initializers id owner (fuel + 1)) fun _ _ => True := by
  intro fl n ps hfi hin
  have hfn : fl.nodes < n := by omega
  rw [Bodies.initializers]
  refine Triple.bind (ih.statement id owner true fl n ps hfi hin) fun declared => ?_
  -- the declared initializers join those the loop already holds
  refine Triple.bind (Kept.modifyKind declared hfi
    (fun k => by cases k <;> exact ⟨rfl, rfl, rfl, rfl⟩) fun k x hx => ?_) fun _ => ?_
  · cases k with
    | forLoop => exact List.mem_append.1 hx
    | _ => exact .inl hx
  refine Triple.bind ((Parse.quiet_accept _).kept hfn) fun _ => ?_
  split
  · exact Triple.bind ((Step.tags_emit _ _).kept hfn) fun _ =>
      ih.initializers id owner fl n ps hfi hin
  · exact Triple.pure fun _ hk => ⟨hk, trivial⟩

theorem Sound.reads_forStatement (keyword : Token) (p owner : Nat) :
    Reads p (Bodies.forStatement keyword p owner (fuel + 1)) fun r t => t.Under p r := by
  intro fl n ps hfp hpn
  have hfn : fl.nodes < n := by omega
  rw [Bodies.forStatement]
  refine Triple.bind ((Parse.quiet_expect _ _).kept hfn) fun _ => ?_
  refine Triple.bind ((Step.tags_emit _ _).kept hfn) fun _ => ?_
  refine Triple.bind (kept_placePlain hpn hfp rfl rfl rfl) fun id => Triple.of_fact fun hid => ?_
  have hfi : fl.nodes < id + 1 := by omega
  refine Triple.bind ((tags_scopeAt _ _).kept hfi) fun scope => ?_
  refine Triple.bind ((Parse.quiet_check _).kept hfi) fun _ => ?_
  -- the parts of the header after the initializers, each continuing the one before
  extract_lets afterCondition afterInits
  have hCondition : ∀ c, Triple (fun w => Kept fl (id + 1) ((id, p) :: ps) w.file)
      (afterCondition c) (fun r w => Kept fl n ps w.file ∧ w.file.tree.Under p r)
      (fun w => fl.Safe w.file) := by
    intro c
    dsimp -zeta only [afterCondition]
    refine Triple.bind ((Parse.tags_semicolon _).kept hfi) fun _ => ?_
    refine Triple.bind ((Parse.quiet_check _).kept hfi) fun _ => ?_
    extract_lets afterSteps
    have hSteps : ∀ s, Triple (fun w => Kept fl (id + 1) ((id, p) :: ps) w.file)
        (afterSteps s) (fun r w => Kept fl n ps w.file ∧ w.file.tree.Under p r)
        (fun w => fl.Safe w.file) := by
      intro s
      dsimp only [afterSteps]
      refine Triple.bind ((Parse.quiet_expect _ _).kept hfi) fun _ => ?_
      refine Triple.bind ((Step.tags_emit _ _).kept hfi) fun _ => ?_
      refine Triple.bind ((Kept.modifyKind [] (by omega)
        (fun k => by cases k <;> exact ⟨rfl, rfl, rfl, rfl⟩)
        fun k x hx => by cases k <;> exact .inl hx).pre
        fun _ hk => ⟨hk, fun _ hx => nomatch hx⟩) fun _ => ?_
      refine Triple.bind ((ih.blockOrLine id owner fl (id + 1) ((id, p) :: ps) (by omega)
        (by omega)).post fun _ _ h => h.1) fun _ => Triple.pure fun w hk => ?_
      obtain ⟨hk, hpar⟩ := hk.pop n (by omega) (by omega)
      exact ⟨hk, by simpa [Tree.Under] using hpar⟩
    refine Triple.ite (fun _ => Triple.bind (Triple.pure fun _ h => h) hSteps) fun _ => ?_
    exact Triple.bind (Parse.quiet_fuel.kept hfi) fun _ =>
      Triple.bind ((tags_steps _ _).kept hfi) hSteps
  have hInits : ∀ u, Triple (fun w => Kept fl (id + 1) ((id, p) :: ps) w.file) (afterInits u)
      (fun r w => Kept fl n ps w.file ∧ w.file.tree.Under p r) (fun w => fl.Safe w.file) := by
    intro u
    dsimp -zeta only [afterInits]
    refine Triple.bind ((Parse.tags_semicolon _).kept hfi) fun _ => ?_
    refine Triple.bind ((Parse.quiet_check _).kept hfi) fun _ => ?_
    refine Triple.ite (fun _ => Triple.bind (Triple.pure fun _ h => h) hCondition) fun _ => ?_
    exact Triple.bind ((Parse.Tags.map _ (tags_tagged _ _)).kept hfi) hCondition
  refine Triple.ite (fun _ => hInits ()) fun _ => ?_
  exact Triple.bind ((ih.initializers id owner fl (id + 1) ((id, p) :: ps) (by omega)
    (by omega)).post fun _ _ h => h.1) hInits

theorem Sound.reads_whileStatement (keyword : Token) (p owner : Nat) :
    Reads p (Bodies.whileStatement keyword p owner (fuel + 1)) fun r t => t.Under p r := by
  intro fl n ps hfp hpn
  have hfn : fl.nodes < n := by omega
  rw [Bodies.whileStatement]
  refine Triple.bind ((tags_scopeAt _ _).kept hfn) fun _ => ?_
  refine Triple.bind ((tags_condition _).kept hfn) fun _ => ?_
  refine Triple.bind (kept_placePlain hpn hfp rfl rfl rfl) fun id => Triple.of_fact fun hid => ?_
  refine Triple.bind ((ih.blockOrLine id owner fl (id + 1) ((id, p) :: ps) (by omega)
    (by omega)).post fun _ _ h => h.1) fun _ => Triple.pure fun w hk => ?_
  obtain ⟨hk, hpar⟩ := hk.pop n (by omega) (by omega)
  exact ⟨hk, by simpa [Tree.Under] using hpar⟩

theorem Sound.reads_doStatement (keyword : Token) (p owner : Nat) :
    Reads p (Bodies.doStatement keyword p owner (fuel + 1)) fun r t => t.Under p r := by
  intro fl n ps hfp hpn
  rw [Bodies.doStatement]
  refine Triple.bind (kept_placePlain hpn hfp rfl rfl rfl) fun id => Triple.of_fact fun hid => ?_
  have hfi : fl.nodes < id + 1 := by omega
  refine Triple.bind ((ih.blockOrLine id owner fl (id + 1) ((id, p) :: ps) (by omega)
    (by omega)).post fun _ _ h => h.1) fun _ => ?_
  refine Triple.bind ((Parse.quiet_acceptKeyword _).kept hfi) fun _ => ?_
  split
  · refine Triple.bind ((Step.tags_emit _ _).kept hfi) fun _ => ?_
    refine Triple.bind ((tags_scopeAt _ _).kept hfi) fun _ => ?_
    refine Triple.bind ((tags_condition _).kept hfi) fun _ => ?_
    refine Triple.bind ((Parse.tags_semicolon _).kept hfi) fun _ => ?_
    refine Triple.bind ((Kept.modifyKind [] (by omega)
      (fun k => by cases k <;> exact ⟨rfl, rfl, rfl, rfl⟩)
      fun k x hx => by cases k <;> exact .inl hx).pre
      fun _ hk => ⟨hk, fun _ hx => nomatch hx⟩) fun _ => Triple.pure fun w hk => ?_
    obtain ⟨hk, hpar⟩ := hk.pop n (by omega) (by omega)
    exact ⟨hk, by simpa [Tree.Under] using hpar⟩
  · exact Kept.unexpected hfi

end Step

/-- Every statement reader keeps the invariant, at every fuel. -/
theorem sound (fuel : Nat) : Sound fuel := by
  induction fuel with
  | zero => exact sound_zero
  | succ fuel ih =>
    exact ⟨ih.reads_statement, ih.reads_statements, ih.reads_blockOrLine, ih.reads_ifStatement,
      ih.reads_initializers, ih.reads_forStatement, ih.reads_whileStatement, ih.reads_doStatement⟩

end Bodies

end ZScript
