import Mathlib
import ZScript.Proofs.BodyReaders

/-!
# What the initializers of a `for` can see

A lookup from a node finds a local only where the local is listed: among the children of a
block, the arguments of a method, or the initializers of a `for` (`View.localCandidates`). Under a
block `place` lists each statement node as it creates it; under any other node it only gives the
node its parent, and a `for` adds what one of its initializer statements declared to its list
once the whole statement is read (`Bodies.initializers`). So the declarators of one declaration
in a `for` header do not see one another: in `for (int i = 0, j = i; ; )` the second `i` is
looked up from the loop and does not find the first.

`Tree.Grows t₀ t` says that `t` keeps every node of `t₀` as it was. A lookup from a node of a
well-formed `t₀` reads nothing but nodes of `t₀`, so it answers in `t` as it does in `t₀`
(`View.findLocal_grows`), and reading a declaration under a node that is not a block only grows
the tree (`Bodies.declaration_grows`). `Bodies.declaration_keeps_lookups` puts the two together.
-/

namespace ZScript

namespace Tree

/-- `t` keeps every node of `t₀` as it was. -/
def Grows (t₀ t : Tree) : Prop := ∀ i < t₀.size, t.get? i = t₀.get? i

namespace Grows

variable {t₀ t : Tree}

theorem size_le (h : t₀.Grows t) : t₀.size ≤ t.size := by
  rcases Nat.eq_zero_or_pos t₀.size with h0 | hpos
  · omega
  · have hlast : t₀.size - 1 < t₀.size := by omega
    obtain ⟨node, hg⟩ := get?_of_lt hlast
    have := lt_size_of_get? ((h _ hlast).trans hg)
    omega

theorem holds (h : t₀.Grows t) {p : Nat} (hp : p < t₀.size) (f : NodeKind → Bool) :
    t.holds p f = t₀.holds p f := by
  unfold Tree.holds
  rw [h p hp]

/-- Creating a node grows the tree. -/
theorem alloc (h : t₀.Grows t) (parent : Option Nat) (name : String) (line : Nat)
    (kind : NodeKind) : t₀.Grows (t.alloc parent name line kind).2 := fun i hi =>
  (get?_alloc_of_lt (Nat.lt_of_lt_of_le hi h.size_le)).trans (h i hi)

/-- Adding a node under a node that `t₀` does not have grows the tree. -/
theorem add (h : t₀.Grows t) {p : Nat} (hp : t₀.size ≤ p) (name : String) (line : Nat)
    (kind : NodeKind) : t₀.Grows (t.add p name line kind).2 := by
  intro i hi
  rw [add_eq]
  dsimp only
  rw [get?_modify_of_ne (by omega)]
  exact h.alloc _ _ _ _ i hi

end Grows

namespace WellFormed

variable {t : Tree}

/-- A node's parent comes before it. -/
theorem lt_of_parent (h : t.WellFormed) {id q : Nat} {node : Node} (hg : t.get? id = some node)
    (hq : node.parent = some q) : q < id := by
  rcases Nat.eq_zero_or_pos id with rfl | hid
  · -- the root has no parent
    obtain ⟨root, hroot, -, hnone⟩ := h.root
    have hsame : node = root := Option.some.inj (hg.symm.trans hroot)
    rw [hsame, hnone] at hq
    cases hq
  · obtain ⟨p, hp, hpar⟩ := h.parent_lt id node hg (by omega)
    rw [hpar] at hq
    cases hq
    exact hp

/-- Every node on a parent chain is at most where the chain starts. -/
theorem le_of_mem_chain (h : t.WellFormed) :
    ∀ (fuel : Nat) {id x : Nat}, x ∈ t.chain fuel (some id) → x ≤ id
  | 0, _, _, hx => by simp [chain] at hx
  | fuel + 1, id, x, hx => by
    rw [chain] at hx
    rcases List.mem_cons.1 hx with rfl | hx
    · exact Nat.le_refl _
    · cases hq : (t.get? id).bind (·.parent) with
      | none => rw [hq, chain_none] at hx; cases hx
      | some q =>
        rw [hq] at hx
        obtain ⟨node, hn, hpar⟩ := Option.bind_eq_some_iff.1 hq
        exact Nat.le_trans (le_of_mem_chain h fuel hx) (Nat.le_of_lt (h.lt_of_parent hn hpar))

/-- Once the fuel passes the node's index, the parent chain from it is complete: each step goes
    to a smaller index. -/
theorem chain_fuel (h : t.WellFormed) (id : Nat) :
    ∀ {f₁ f₂ : Nat}, id < f₁ → id < f₂ → t.chain f₁ (some id) = t.chain f₂ (some id) := by
  induction id using Nat.strong_induction_on with
  | _ id ih =>
    intro f₁ f₂ h₁ h₂
    obtain ⟨k₁, rfl⟩ : ∃ k, f₁ = k + 1 := ⟨f₁ - 1, by omega⟩
    obtain ⟨k₂, rfl⟩ : ∃ k, f₂ = k + 1 := ⟨f₂ - 1, by omega⟩
    rw [chain, chain]
    congr 1
    cases hq : (t.get? id).bind (·.parent) with
    | none => rw [chain_none, chain_none]
    | some q =>
      obtain ⟨node, hn, hpar⟩ := Option.bind_eq_some_iff.1 hq
      have hlt := h.lt_of_parent hn hpar
      exact ih q hlt (by omega) (by omega)

/-- A parent chain read in a tree that grows from a well-formed `t₀` is the chain of `t₀`. -/
theorem chain_grows {t₀ : Tree} (h : t₀.WellFormed) (hg : t₀.Grows t) :
    ∀ (fuel : Nat) {id : Nat}, id < t₀.size → t.chain fuel (some id) = t₀.chain fuel (some id)
  | 0, _, _ => rfl
  | fuel + 1, id, hid => by
    rw [chain, chain, hg id hid]
    congr 1
    cases hq : (t₀.get? id).bind (·.parent) with
    | none => rw [chain_none, chain_none]
    | some q =>
      obtain ⟨node, hn, hpar⟩ := Option.bind_eq_some_iff.1 hq
      exact chain_grows h hg fuel (Nat.lt_trans (h.lt_of_parent hn hpar) hid)

theorem ancestors_grows {t₀ : Tree} (h : t₀.WellFormed) (hg : t₀.Grows t) {id : Nat}
    (hid : id < t₀.size) : t.ancestors id = t₀.ancestors id := by
  have hsize := hg.size_le
  unfold ancestors
  rw [chain_grows h hg _ hid]
  exact h.chain_fuel id (by omega) (by omega)

end WellFormed

end Tree

namespace View

/-- The places a lookup searches at a node of a well-formed tree are nodes of the tree. -/
theorem lt_of_mem_localCandidates {t : Tree} (h : t.WellFormed) {id : Nat} {node : Node}
    (hg : t.get? id = some node) {cands : List Nat} (hc : localCandidates node = some cands)
    {c : Nat} (hmem : c ∈ cands) : c < t.size := by
  unfold localCandidates at hc
  split at hc
  · next inits _ _ hk =>
    cases hc
    exact Tree.lt_size_of_parentOf (h.held_parent id node c hg (by simp [NodeKind.held, hk, hmem]))
  · next m hk =>
    cases hc
    exact Tree.lt_size_of_parentOf (h.held_parent id node c hg (by simp [NodeKind.held, hk, hmem]))
  · cases hc
    exact h.child_lt hg hmem
  · cases hc
  · cases hc
  · cases hc
    cases hmem

variable {t₀ : Tree} {n : String}

theorem findLocal_go_grows (h : t₀.WellFormed) {v : View} (hg : t₀.Grows v.tree) :
    ∀ ids : List Nat, (∀ id ∈ ids, id < t₀.size) →
      findLocal.go v n ids = findLocal.go { v with tree := t₀ } n ids
  | [], _ => rfl
  | id :: ids, hids => by
    have hid := hids id List.mem_cons_self
    have ih := findLocal_go_grows h hg ids fun x hx => hids x (List.mem_cons_of_mem _ hx)
    rw [findLocal.go, findLocal.go]
    dsimp only
    rw [hg id hid]
    cases hn : t₀.get? id with
    | none => exact ih
    | some node =>
      cases hc : localCandidates node with
      | none => simp only [Option.map_some, hc]
      | some cands =>
        -- every candidate is a node of `t₀`, which `v.tree` keeps
        have hfind : ∀ q : Node → Bool, cands.find? (fun c => (v.tree.get? c).any q) =
            cands.find? (fun c => (t₀.get? c).any q) := fun q =>
          List.find?_congr fun c hmem => by rw [hg c (lt_of_mem_localCandidates h hn hc hmem)]
        simp only [Option.map_some, hc]
        rw [hfind]
        split
        · rfl
        · exact ih

/-- A lookup from a node of a well-formed tree answers the same in every tree that keeps the
    nodes of the first. -/
theorem findLocal_grows (h : t₀.WellFormed) {v : View} (hg : t₀.Grows v.tree) {p : Nat}
    (hp : p < t₀.size) : v.findLocal n p = { v with tree := t₀ }.findLocal n p := by
  unfold findLocal
  rw [Tree.WellFormed.ancestors_grows h hg hp]
  exact findLocal_go_grows h hg _ fun x hx =>
    Nat.lt_of_le_of_lt (h.le_of_mem_chain _ hx) hp

end View

/-! ## Reading a declaration under a node that is not a block -/

/-- A reader that only tags keeps every fact about the tree. -/
theorem Parse.Tags.treeFact {α : Type} {x : Parse α} (h : Parse.Tags x) {R : Tree → Prop} :
    Parse.Triple (fun w => R w.file.tree) x (fun _ w => R w.file.tree) (fun w => R w.file.tree) := by
  intro c u w hr
  show Outcome _ _ _ _
  rw [outcome_same]
  exact (h c u w).tree ▸ hr

namespace Bodies

open Parse (Triple)

variable {t₀ : Tree} {p : Nat}

/-- `place` under a node of `t₀` that is not a block only creates the node. -/
theorem grows_place (hp : p < t₀.size)
    (hplain : ∀ node, t₀.get? p = some node → node.kind ≠ .block)
    (name : String) (line : Nat) (kind : NodeKind) :
    Step.Triple (fun w => t₀.Grows w.file.tree) (place p name line kind)
      (fun id w => t₀.size ≤ id ∧ t₀.Grows w.file.tree) := by
  unfold place
  refine Step.Triple.bind Step.triple_tree fun t => ?_
  intro u w ⟨hg, ht⟩
  subst ht
  split
  · next hblock =>
    -- the node at `p` is the one of `t₀`, which is no block
    unfold Tree.holds at hblock
    rw [hg p hp] at hblock
    obtain ⟨node, hn, hk⟩ := (Option.any_eq_true _ _).1 hblock
    dsimp only at hk
    split at hk
    · next hkind => exact absurd hkind (hplain node hn)
    · cases hk
  · rw [Step.alloc_run]
    exact ⟨hg.size_le, hg.alloc _ _ _ _⟩

/-- Adding a node under a node that `t₀` does not have. -/
theorem grows_add {q : Nat} (hq : t₀.size ≤ q) (name : String) (line : Nat) (kind : NodeKind) :
    Step.Triple (fun w => t₀.Grows w.file.tree) (Step.add q name line kind)
      (fun _ w => t₀.Grows w.file.tree) := by
  intro u w hg
  rw [Step.add_run]
  exact hg.add hq _ _ _

/-- Undoing an attempt that added no node leaves the tree as it is. -/
theorem grows_rollback {m : Mark} :
    Step.Triple (fun w => t₀.Grows w.file.tree ∧ w.file.tree.size ≤ m.nodes) (Step.rollback m)
      (fun _ w => t₀.Grows w.file.tree) := by
  intro u w ⟨hg, hsize⟩
  have htree : w.file.tree.truncate m.nodes = w.file.tree := by
    unfold Tree.truncate
    rw [if_pos (by omega)]
  rw [Step.rollback_run]
  show t₀.Grows (w.file.tree.truncate m.nodes)
  rw [htree]
  exact hg

/-- Reading the declarators of a declaration under a node of `t₀` that is not a block only grows
    the tree: each local is created past the nodes of `t₀`, and so is its initializer. -/
theorem declarators_grow (hp : p < t₀.size)
    (hplain : ∀ node, t₀.get? p = some node → node.kind ≠ .block)
    (owner : Nat) (base : Ty) (const : Bool) (scope : Scope) :
    ∀ fuel name acc, Triple (fun w => t₀.Grows w.file.tree)
      (declarators p owner base const scope fuel name acc)
      (fun _ w => t₀.Grows w.file.tree) (fun w => t₀.Grows w.file.tree)
  | 0, _, _ => by
    rw [declarators]
    exact (Parse.Tags.bind (Parse.Tags.quiet Parse.Quiet.get) fun _ => Parse.Tags.throw).treeFact
  | fuel + 1, name, acc => by
    rw [declarators]
    refine Triple.bind (Parse.Tags.quiet Parse.quiet_fuel).treeFact fun _ => ?_
    refine Triple.bind (Parse.tags_dimensions _).treeFact fun _ => ?_
    refine Triple.bind (Parse.Tags.lift (tags_tagDims _ _)).treeFact fun _ => ?_
    refine Triple.bind (Parse.Tags.quiet (Parse.quiet_accept _)).treeFact fun _ => ?_
    extract_lets flags jp
    -- the local once its initializer is read
    have hjp : ∀ init, Triple (fun w => t₀.Grows w.file.tree) (jp init)
        (fun _ w => t₀.Grows w.file.tree) (fun w => t₀.Grows w.file.tree) := by
      intro init
      dsimp -zeta only [jp]
      refine Triple.bind (Triple.lift (grows_place hp hplain _ _ _)) fun id =>
        Triple.of_fact fun hid => ?_
      extract_lets acc' jp'
      have hjp' : ∀ u, Triple (fun w => t₀.Grows w.file.tree) (jp' u)
          (fun _ w => t₀.Grows w.file.tree) (fun w => t₀.Grows w.file.tree) := by
        intro u
        dsimp only [jp']
        refine Triple.bind (Parse.Tags.lift (Step.tags_here _)).treeFact fun _ => ?_
        refine Triple.bind (Parse.Tags.lift (Step.tags_emitRef _ _ _ _)).treeFact fun _ => ?_
        refine Triple.bind (Parse.Tags.quiet (Parse.quiet_accept _)).treeFact fun _ => ?_
        split
        · refine Triple.bind (Parse.Tags.lift (Step.tags_emit _ _)).treeFact fun _ => ?_
          refine Triple.bind (Parse.Tags.quiet (Parse.quiet_expectIdent _)).treeFact fun name' => ?_
          exact declarators_grow hp hplain owner base const scope fuel name' acc'
        · exact Triple.pure fun _ h => h
      split
      · exact Triple.bind (Triple.lift (grows_add hid _ _ _)) fun _ => hjp' ()
      · exact hjp' ()
    split
    · split
      · exact Triple.bind Triple.throw fun _ => hjp _
      · refine Triple.bind (Parse.Tags.lift (Step.tags_emit _ _)).treeFact fun _ => ?_
        refine Triple.bind (tags_tagged _ _).treeFact fun _ => ?_
        exact Triple.bind (Triple.pure fun _ h => h) hjp
    · exact Triple.bind (Triple.pure fun _ h => h) hjp

/-- Placing a local under a node that is not a block leaves every lookup from that node as it
    was. In `for (int i = 0, j = i; ; )` the initializer of `j` is tagged right after `i` is
    placed, with only tagging in between, so the `i` just declared is not found from the loop
    there. -/
theorem place_keeps_lookups (hwf : t₀.WellFormed) (hp : p < t₀.size)
    (hplain : ∀ node, t₀.get? p = some node → node.kind ≠ .block)
    (name : String) (line : Nat) (kind : NodeKind) :
    Step.Triple (fun w => t₀.Grows w.file.tree) (place p name line kind)
      (fun _ w => ∀ (v : View) (n : String), v.tree = w.file.tree →
        v.findLocal n p = { v with tree := t₀ }.findLocal n p) :=
  (grows_place hp hplain name line kind).post fun _ _ h _ _ hv =>
    View.findLocal_grows hwf (hv ▸ h.2) hp

example : ({ file := 0, tree := ((Tree.empty.add 0 "for" 1 (.forLoop [] none [])).2.alloc (some 1)
    "i" 1 (.localVar none [])).2, world := {} } : View).findLocal "i" 1 = none := by
  decide

/-- Reading a declaration under a node of `t₀` that is not a block only grows the tree; when the
    tokens do not read as a declaration, the probe for a type only tagged, and the tree is as it
    was at the mark. -/
theorem declaration_grows (hp : p < t₀.size)
    (hplain : ∀ node, t₀.get? p = some node → node.kind ≠ .block) (owner : Nat) (inBlock : Bool) :
    Triple (fun w => t₀.Grows w.file.tree) (declaration p owner inBlock)
      (fun _ w => t₀.Grows w.file.tree) (fun w => t₀.Grows w.file.tree) := by
  unfold declaration
  refine Triple.bind (Triple.get fun _ _ => id) fun start => ?_
  refine Triple.bind ((Triple.lift Step.triple_mark).post fun m w ⟨hg, hm⟩ =>
    (⟨hg, hm ▸ Nat.le_refl _⟩ : t₀.Grows w.file.tree ∧ w.file.tree.size ≤ m.nodes)) fun m => ?_
  -- the probe for a type only tags, so the tree keeps the size it has at the mark
  have probe : ∀ {β : Type} {x : Parse β}, Parse.Tags x →
      Triple (fun w => t₀.Grows w.file.tree ∧ w.file.tree.size ≤ m.nodes) x
        (fun _ w => t₀.Grows w.file.tree ∧ w.file.tree.size ≤ m.nodes)
        (fun w => t₀.Grows w.file.tree) :=
    fun h => (h.treeFact (R := fun t => t₀.Grows t ∧ t.size ≤ m.nodes)).mono (fun _ => id)
      (fun _ _ => id) fun _ hw => hw.1
  refine Triple.bind (probe (Parse.Tags.quiet (Parse.quiet_acceptKeyword _))) fun const => ?_
  refine Triple.bind (probe (tags_attempt (Parse.tags_compoundType _))) fun base => ?_
  refine Triple.bind (probe (Parse.Tags.quiet (Parse.quiet_check _))) fun _ => ?_
  refine Triple.bind (probe (Parse.Tags.quiet (Parse.quiet_peekAt _))) fun _ => ?_
  extract_lets follows
  generalize follows = f
  split
  · extract_lets jp
    -- the declarators, once a `const` is tagged
    have hjp : ∀ u, Triple (fun w => t₀.Grows w.file.tree) (jp u)
        (fun _ w => t₀.Grows w.file.tree) (fun w => t₀.Grows w.file.tree) := by
      intro u
      dsimp only [jp]
      refine Triple.bind (Parse.Tags.lift (tags_scopeAt _ _)).treeFact fun _ => ?_
      refine Triple.bind (Parse.Tags.quiet Parse.quiet_fuel).treeFact fun _ => ?_
      refine Triple.bind (Parse.Tags.quiet (Parse.quiet_expectIdent _)).treeFact fun _ => ?_
      refine Triple.bind (declarators_grow hp hplain _ _ _ _ _ _ _) fun _ => ?_
      refine Triple.ite (fun _ => ?_) fun _ => Triple.pure fun _ h => h
      exact Triple.bind (Parse.tags_semicolon _).treeFact fun _ => Triple.pure fun _ h => h
    split
    · exact Triple.bind (probe (Parse.Tags.lift (Step.tags_emit _ _))) fun _ =>
        (hjp ()).pre fun _ hw => hw.1
    · exact (hjp ()).pre fun _ hw => hw.1
  · refine Triple.bind (Triple.set (Q := fun _ w => t₀.Grows w.file.tree ∧
      w.file.tree.size ≤ m.nodes)) fun _ => ?_
    refine Triple.bind (Triple.lift grows_rollback) fun _ => ?_
    exact Triple.pure fun _ h => h

/-- Under a node that is not a block, such as a `for` whose initializers are being read, the
    locals of a declaration stay out of sight of lookups from that node while the declaration is
    read: every lookup from it answers as it did before. In `for (int i = 0, j = i; ; )` the
    initializer of `j` is tagged in the scope of the loop, where the `i` just declared is not
    found; only once the whole declaration is read does the loop list `i` among its
    initializers. -/
theorem declaration_keeps_lookups (hwf : t₀.WellFormed) (hp : p < t₀.size)
    (hplain : ∀ node, t₀.get? p = some node → node.kind ≠ .block) (owner : Nat) (inBlock : Bool) :
    Triple (fun w => t₀.Grows w.file.tree) (declaration p owner inBlock)
      (fun _ w => ∀ (v : View) (n : String), v.tree = w.file.tree →
        v.findLocal n p = { v with tree := t₀ }.findLocal n p)
      (fun w => t₀.Grows w.file.tree) :=
  (declaration_grows hp hplain owner inBlock).post fun _ _ hg _ _ hv =>
    View.findLocal_grows hwf (hv ▸ hg) hp

/-- A `for` directly under the root of a file, its initializers not yet read. -/
theorem declaration_keeps_lookups_under_for :
    (Tree.empty.add 0 "for" 1 (.forLoop [] none [])).2.WellFormed ∧
      1 < (Tree.empty.add 0 "for" 1 (.forLoop [] none [])).2.size ∧
      (∀ node, (Tree.empty.add 0 "for" 1 (.forLoop [] none [])).2.get? 1 = some node →
        node.kind ≠ .block) ∧
      Triple (fun w => (Tree.empty.add 0 "for" 1 (.forLoop [] none [])).2.Grows w.file.tree)
        (declaration 1 0 false)
        (fun _ w => ∀ (v : View) (n : String), v.tree = w.file.tree →
          v.findLocal n 1 = { v with tree := (Tree.empty.add 0 "for" 1 (.forLoop [] none [])).2 }.findLocal n 1)
        (fun w => (Tree.empty.add 0 "for" 1 (.forLoop [] none [])).2.Grows w.file.tree) := by
  have hwf : (Tree.empty.add 0 "for" 1 (.forLoop [] none [])).2.WellFormed :=
    Tree.WellFormed.empty.add (by decide) rfl rfl (by simp [NodeKind.isJump])
  have hp : 1 < (Tree.empty.add 0 "for" 1 (.forLoop [] none [])).2.size := by decide
  have hplain : ∀ node, (Tree.empty.add 0 "for" 1 (.forLoop [] none [])).2.get? 1 = some node →
      node.kind ≠ .block := by
    intro node hn hk
    cases hn
    cases hk
  exact ⟨hwf, hp, hplain, declaration_keeps_lookups hwf hp hplain 0 false⟩

end Bodies

end ZScript
