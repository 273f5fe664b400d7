import ZScript.Proofs.BodyReaders

/-!
# Reading one method body

`Bodies.methodBody` takes the stored body out of a method, creates the body's block under the
method and reads the statements into it. The block is listed under the method only when the
statements are read; when they fail, the error is recorded and every node made meanwhile is
dropped. This file states what that leaves:

* when the statements fail, the tree is the tree before with only the method's body taken out, one
  error follows the warnings the attempt raised, the semantic tokens made before are kept, and the
  tokens made meanwhile name no node of this file from the old size on
  (`Bodies.failed_methodBody_leaves_no_trace`);
* either way, a well-formed tree stays well formed (`Bodies.wellFormed_methodBody`).

Both follow from the invariant of the statement readers (`Bodies.sound`), run from the state in
which the block has just been created: once with a floor at the block, so that nothing before it
may change, and once with a floor at the root, so that the method may list the block.
-/

namespace ZScript

/-- A token with its reference into the nodes from `cut` on dropped names no such node. -/
theorem SemanticToken.forget_ref {file cut : Nat} {s : SemanticToken} {d : DeclRef}
    (h : (s.forget file cut).ref = some (.decl d)) (hf : d.file = file) : d.node < cut := by
  unfold SemanticToken.forget at h
  split at h
  · rename_i d' hd
    split at h
    · simp at h
    · rw [hd] at h
      cases h
      simp_all
  · rename_i hd
    rw [h] at hd
    exact absurd rfl (hd d)

namespace Bodies

/-- The work when the statements of a body start to be read: the body `m` is out of method
    `method`, and the body's block is created under the method, not yet among its children. -/
def bodyStart (w : Work) (method : Nat) (m : MethodInfo) (line : Nat) : Work :=
  { w with file := { w.file with tree := ((w.file.tree.modifyKind method fun _ =>
      .method { m with body := none }).alloc (some method) "" line .block).2 } }

/-- What reading a body keeps as it was once the body is out of the method: the nodes before
    `cut`, and all semantic tokens and diagnostics made before. -/
def bodyFloor (w : Work) (method : Nat) (m : MethodInfo) (cut : Nat) : Floor :=
  ⟨{ w.file with tree := w.file.tree.modifyKind method fun _ => .method { m with body := none } },
    cut, w.file.semantic.size, w.file.diagnostics.size⟩

section

variable {owner method : Nat} {u : Universe} {w : Work} {node : Node} {m : MethodInfo}
  {body : List Token}

/-- What `methodBody` does to a method with a body: it runs the statements from `bodyStart`, then
    lists the block, or records the error and drops the nodes made since the block. -/
theorem methodBody_run (hg : w.file.tree.get? method = some node) (hk : node.kind = .method m)
    (hb : m.body = some body) :
    (methodBody owner method u w).2 =
      let r := (Parse.runOn body (statements w.file.tree.size owner none (4 * body.length + 8))).run
        u (bodyStart w method m node.line)
      ((match r.1 with
        | .ok _ => Step.attach method w.file.tree.size
        | .error e => do
          Step.report e
          Step.discardNodes ⟨w.file.tree.size, w.file.semantic.size, w.file.diagnostics.size⟩)
        u r.2).2 := by
  unfold methodBody
  rw [Step.bind_run, Step.tree_run]
  dsimp only
  rw [hg]
  dsimp only
  rw [hk]
  dsimp only
  rw [hb]
  dsimp only
  rw [Step.bind_run, Step.modifyKind_run, Step.bind_run, Step.mark_run, Step.bind_run,
    Step.alloc_run, Step.bind_run]
  simp only [Tree.size_modifyKind]
  rfl

/-- Taking the body out of a method keeps the tree well formed. -/
theorem wellFormed_takeBody (hwf : w.file.tree.WellFormed) (hg : w.file.tree.get? method = some node)
    (hk : node.kind = .method m) :
    (w.file.tree.modifyKind method fun _ => .method { m with body := none }).WellFormed := by
  refine hwf.modifyKind fun node' hg' => ?_
  rw [hg] at hg'
  cases hg'
  rw [hk]
  exact ⟨⟨rfl, rfl, rfl, rfl⟩, fun x hx => hwf.held_parent method node x hg (hk ▸ hx)⟩

/-- When the statements start, the reader's invariant holds for the block and the floor at `cut`. -/
theorem kept_bodyStart (hwf : w.file.tree.WellFormed) (hg : w.file.tree.get? method = some node)
    (hk : node.kind = .method m) {cut : Nat} (hcut : cut ≤ w.file.tree.size) :
    Kept (bodyFloor w method m cut) (w.file.tree.size + 1) [(w.file.tree.size, method)]
      (bodyStart w method m node.line).file := by
  have hwf' := wellFormed_takeBody hwf hg hk
  have hm : method < (w.file.tree.modifyKind method fun _ => .method { m with body := none }).size := by
    rw [Tree.size_modifyKind]
    exact Tree.lt_size_of_get? hg
  refine ⟨hwf'.alloc hm rfl rfl (fun h => nomatch h), by simp [bodyStart], ?_, ?_,
    ⟨rfl, fun i hi => ?_, Nat.le_refl _, fun _ _ => rfl, Nat.le_refl _, fun _ _ => rfl,
      fun i d hi hd => ?_⟩⟩
  · simp only [bodyFloor]
    omega
  · intro q hq
    rw [List.mem_singleton.1 hq]
    have := Tree.parentOf_alloc_self (w.file.tree.modifyKind method fun _ =>
      .method { m with body := none }) method "" node.line .block
    simpa [bodyStart] using this
  · exact Tree.get?_alloc_of_lt (by simp only [bodyFloor] at hi; simp; omega)
  · simp only [bodyFloor] at hi
    simp [bodyStart, Array.getElem?_eq_none hi] at hd

/-- A method body whose statements fail leaves no trace but the error: the tree is the tree before
    with the body taken out of the method, the error follows the warnings raised meanwhile, the
    semantic tokens made before stay as they were, and no token made meanwhile names a node of this
    file from the old size on. -/
theorem failed_methodBody_leaves_no_trace {e : ParseError} (hwf : w.file.tree.WellFormed)
    (hg : w.file.tree.get? method = some node) (hk : node.kind = .method m) (hb : m.body = some body)
    (hfail : ((Parse.runOn body (statements w.file.tree.size owner none (4 * body.length + 8))).run
      u (bodyStart w method m node.line)).1 = .error e) :
    let a := (methodBody owner method u w).2.file
    a.tree = w.file.tree.modifyKind method (fun _ => .method { m with body := none }) ∧
    (∃ ws, a.diagnostics = w.file.diagnostics ++ ws ++ #[e.toDiagnostic] ∧
      ∀ d ∈ ws, d.severity = .warning) ∧
    ∃ ss, a.semantic = w.file.semantic ++ ss ∧
      ∀ s ∈ ss, ∀ d, s.ref = some (.decl d) → d.file = w.file.file → d.node < w.file.tree.size := by
  intro a
  have hrun : (methodBody owner method u w).2 = _ := methodBody_run hg hk hb
  rw [Parse.runOn_run] at hrun hfail
  have hout := (sound (4 * body.length + 8)).statements w.file.tree.size owner none
    (bodyFloor w method m w.file.tree.size) (w.file.tree.size + 1) [(w.file.tree.size, method)]
    (Nat.le_refl _) (Nat.lt_succ_self _) (Cursor.ofList body) u _
    (kept_bodyStart hwf hg hk (Nat.le_refl _))
  generalize ((statements w.file.tree.size owner none (4 * body.length + 8))
    (Cursor.ofList body)).run u (bodyStart w method m node.line) = inner at hrun hfail hout
  obtain ⟨res, w'⟩ := inner
  cases res with
  | ok p => cases hfail
  | error e' =>
  cases hfail
  -- the statements failed in a state that keeps everything before the block
  have hE : Kept (bodyFloor w method m w.file.tree.size) (w.file.tree.size + 1) [] w'.file := hout
  have ha : a = { w'.file with
      tree := w'.file.tree.truncate w.file.tree.size,
      semantic := w'.file.semantic.take w.file.semantic.size ++
        (w'.file.semantic.extract w.file.semantic.size w'.file.semantic.size).map
          (SemanticToken.forget w'.file.file w.file.tree.size),
      diagnostics := w'.file.diagnostics.push e.toDiagnostic } := by
    simp only [a]
    rw [hrun]
    rfl
  rw [ha]
  refine ⟨?_, ?_, ?_⟩
  · -- the truncation drops exactly the nodes made since the block
    have hbase := wellFormed_takeBody hwf hg hk
    obtain ⟨root, hroot, -⟩ := hwf.root
    refine Tree.truncate_eq (Tree.size_modifyKind _ _ _) (Tree.lt_size_of_get? hroot)
      (by have := hE.size; omega) hE.floor.nodes fun i node' hg' c hc => ?_
    have := hbase.child_lt hg' hc
    rwa [Tree.size_modifyKind] at this
  · obtain ⟨ws, hws, hwarn⟩ := hE.floor.diagnostics_eq_append rfl
    exact ⟨ws, by rw [hws, Array.push_eq_append]; rfl, hwarn⟩
  · obtain ⟨ss, hss⟩ := hE.floor.semantic_eq_append rfl
    have hfile : w'.file.file = w.file.file := hE.floor.file
    refine ⟨ss.map (SemanticToken.forget w'.file.file w.file.tree.size), ?_, ?_⟩
    · simp only [bodyFloor] at hss
      rw [hss]
      simp
    · intro s hs d hd hf
      obtain ⟨s₀, -, rfl⟩ := Array.mem_map.1 hs
      exact SemanticToken.forget_ref hd (hf.trans hfile.symm)

/-- A `break;` outside any loop fails its method body, which leaves the tree as it was with only
    the body taken out of the method. -/
theorem failed_methodBody_break :
    let m : MethodInfo := { returns := [], body := some [⟨.identifier, "break", 0, 5, 1, true, 0, 0⟩,
      ⟨.semicolon, ";", 5, 6, 1, true, 0, 0⟩] }
    let t := ((Tree.empty.add 0 "A" 1 (.classDecl {})).2.add 1 "f" 1 (.method m)).2
    let w : Work := { file := { file := 0, tokens := [], tree := t } }
    w.file.tree.WellFormed ∧
      ((Parse.runOn (m.body.getD []) (statements w.file.tree.size 1 none
        (4 * (m.body.getD []).length + 8))).run {} (bodyStart w 2 m 1)).1 =
        .error ⟨.outsideLoop "break", 1⟩ ∧
      (methodBody 1 2 {} w).2.file.tree = w.file.tree.modifyKind 2 fun _ =>
        .method { m with body := none } := by
  intro m t w
  have hwf : w.file.tree.WellFormed :=
    (Tree.WellFormed.empty.add (by decide) rfl rfl (fun h => absurd h (by decide))).add (by decide)
      rfl rfl (fun h => absurd h (by decide))
  have hfail : ((Parse.runOn (m.body.getD []) (statements w.file.tree.size 1 none
      (4 * (m.body.getD []).length + 8))).run {} (bodyStart w 2 m 1)).1 =
      .error ⟨.outsideLoop "break", 1⟩ := by
    cbv
  have hg : w.file.tree.get? 2 = some ⟨"f", some 1, [], 1, .method m⟩ := rfl
  exact ⟨hwf, hfail, (failed_methodBody_leaves_no_trace hwf hg rfl rfl hfail).1⟩

end

/-- Once the statements have failed, dropping every node from the block on gives back the tree
    before, with the body taken out of the method. -/
theorem truncate_of_failed (hwf : w.file.tree.WellFormed) (hg : w.file.tree.get? method = some node)
    (hk : node.kind = .method m) {a : Analysis}
    (hE : Kept (bodyFloor w method m w.file.tree.size) (w.file.tree.size + 1) [] a) :
    a.tree.truncate w.file.tree.size =
      w.file.tree.modifyKind method fun _ => .method { m with body := none } := by
  have hbase := wellFormed_takeBody hwf hg hk
  obtain ⟨root, hroot, -⟩ := hwf.root
  refine Tree.truncate_eq (Tree.size_modifyKind _ _ _) (Tree.lt_size_of_get? hroot)
    (by have := hE.size; omega) hE.floor.nodes fun i node' hg' c hc => ?_
  have := hbase.child_lt hg' hc
  rwa [Tree.size_modifyKind] at this

/-- A node that is not a method holding its body's tokens is left alone. -/
theorem methodBody_skip (h : ¬ ∃ node m body, w.file.tree.get? method = some node ∧
    node.kind = .method m ∧ m.body = some body) : (methodBody owner method u w).2 = w := by
  suffices hs : Step.Triple (· = w) (methodBody owner method) fun _ w' => w' = w from hs u w rfl
  unfold methodBody
  refine Step.Triple.bind Step.triple_tree fun t => ?_
  split
  · next node hg =>
    split
    · next m hk =>
      split
      · next body hb =>
        rintro _ _ ⟨rfl, rfl⟩
        exact absurd ⟨node, m, body, hg, hk, hb⟩ h
      · exact Step.Triple.pure fun _ h => h.1
    · exact Step.Triple.pure fun _ h => h.1
  · exact Step.Triple.pure fun _ h => h.1

/-- Reading a method body keeps a well-formed tree well formed: the block is listed under the
    method when the statements are read, and every node made since it is dropped when they fail. -/
theorem wellFormed_methodBody (owner method : Nat) :
    Step.Triple (fun w => w.file.tree.WellFormed) (methodBody owner method)
      (fun _ w => w.file.tree.WellFormed) := by
  intro u w hwf
  show (methodBody owner method u w).2.file.tree.WellFormed
  by_cases hmain : ∃ node m body, w.file.tree.get? method = some node ∧
      node.kind = .method m ∧ m.body = some body
  case neg => rw [methodBody_skip hmain]; exact hwf
  obtain ⟨node, m, body, hg, hk, hb⟩ := hmain
  rw [methodBody_run hg hk hb, Parse.runOn_run]
  have hout := (sound (4 * body.length + 8)).statements w.file.tree.size owner none
    (bodyFloor w method m w.file.tree.size) (w.file.tree.size + 1) [(w.file.tree.size, method)]
    (Nat.le_refl _) (Nat.lt_succ_self _) (Cursor.ofList body) u _
    (kept_bodyStart hwf hg hk (Nat.le_refl _))
  generalize ((statements w.file.tree.size owner none (4 * body.length + 8))
    (Cursor.ofList body)).run u (bodyStart w method m node.line) = inner at hout ⊢
  obtain ⟨res, w'⟩ := inner
  cases res with
  | ok p =>
    -- the block names the method as its parent, and the method's children, kept below the
    -- floor, all come before it
    have hk' : Kept (bodyFloor w method m w.file.tree.size) (w.file.tree.size + 1)
        [(w.file.tree.size, method)] w'.file := hout.1
    show (Step.attach method w.file.tree.size u w').2.file.tree.WellFormed
    rw [Step.attach_run]
    refine hk'.wf.attach (hk'.parents _ List.mem_cons_self) fun node' hg' x hx => ?_
    rw [hk'.floor.nodes method (Tree.lt_size_of_get? hg)] at hg'
    have := (wellFormed_takeBody hwf hg hk).child_lt hg' hx
    rwa [Tree.size_modifyKind] at this
  | error e =>
    have hE : Kept (bodyFloor w method m w.file.tree.size) (w.file.tree.size + 1) [] w'.file := hout
    show ((Step.report e >>= fun _ => Step.discardNodes _) u w').2.file.tree.WellFormed
    rw [Step.bind_run, Step.discardNodes_run]
    show (w'.file.tree.truncate w.file.tree.size).WellFormed
    rw [truncate_of_failed hwf hg hk hE]
    exact wellFormed_takeBody hwf hg hk

end Bodies

end ZScript
