import ZScript.Proofs.Arena
import ZScript.Proofs.StepLogic

/-!
# What the analysis steps keep

Readers change a file's analysis in a few ways only: they create nodes, list them, change what a
node holds, add semantic tokens and warnings, and undo a failed attempt back to a mark. This file
states, for each primitive step, how it keeps the invariant `Kept fl n ps` of a reader:

* the tree is well formed and has at least `n` nodes, so that every node a reader was handed
  still exists;
* the parents listed in `ps` are still the parents of their nodes; since no reader ever changes
  the parent of a node, a proof may add any parent fact it needs to carry across a call;
* what the floor `fl` fixes is as it was in `fl.base`: the nodes before `fl.nodes`, the first
  `fl.semantic` semantic tokens and the first `fl.diagnostics` diagnostics, and every diagnostic
  after those is a warning.

A step that only tags (`Step.Tags`: it adds semantic tokens, warnings and log records, and
leaves the tree alone) keeps the invariant together with every fact about the tree.
-/

namespace ZScript

/-- What a reader leaves as it found it in `base`: the nodes before `nodes`, the first `semantic`
    semantic tokens and the first `diagnostics` diagnostics; the diagnostics after those are
    warnings. -/
structure Floor where
  base : Analysis
  nodes : Nat
  semantic : Nat
  diagnostics : Nat

namespace Floor

/-- The analysis keeps what the floor fixes. -/
structure Keeps (fl : Floor) (a : Analysis) : Prop where
  file : a.file = fl.base.file
  nodes : ∀ i < fl.nodes, a.tree.get? i = fl.base.tree.get? i
  semantic_le : fl.semantic ≤ a.semantic.size
  semantic : ∀ i < fl.semantic, a.semantic[i]? = fl.base.semantic[i]?
  diagnostics_le : fl.diagnostics ≤ a.diagnostics.size
  diagnostics : ∀ i < fl.diagnostics, a.diagnostics[i]? = fl.base.diagnostics[i]?
  warnings : ∀ i d, fl.diagnostics ≤ i → a.diagnostics[i]? = some d → d.severity = .warning

/-- A new tree that agrees with the old one before the floor. -/
theorem Keeps.withTree {fl : Floor} {a : Analysis} {t : Tree} (h : fl.Keeps a)
    (ht : ∀ i < fl.nodes, t.get? i = a.tree.get? i) : fl.Keeps { a with tree := t } :=
  ⟨h.file, fun i hi => (ht i hi).trans (h.nodes i hi), h.semantic_le, h.semantic,
    h.diagnostics_le, h.diagnostics, h.warnings⟩

/-- The semantic tokens under a floor that fixes all of the base's: the base's, then more. -/
theorem Keeps.semantic_eq_append {fl : Floor} {a : Analysis} (h : fl.Keeps a)
    (hs : fl.semantic = fl.base.semantic.size) : ∃ ss, a.semantic = fl.base.semantic ++ ss := by
  have hle := h.semantic_le
  refine ⟨a.semantic.extract fl.semantic a.semantic.size, Array.ext_getElem? fun i => ?_⟩
  by_cases hi : i < fl.semantic
  · rw [Array.getElem?_append_left (by omega)]
    exact h.semantic i hi
  · rw [Array.getElem?_append_right (by omega), Array.getElem?_extract]
    split
    · congr 1
      omega
    · rw [Array.getElem?_eq_none (by omega)]

/-- The diagnostics under a floor that fixes all of the base's: the base's, then warnings. -/
theorem Keeps.diagnostics_eq_append {fl : Floor} {a : Analysis} (h : fl.Keeps a)
    (hd : fl.diagnostics = fl.base.diagnostics.size) :
    ∃ ws, a.diagnostics = fl.base.diagnostics ++ ws ∧ ∀ d ∈ ws, d.severity = .warning := by
  have hle := h.diagnostics_le
  refine ⟨a.diagnostics.extract fl.diagnostics a.diagnostics.size, Array.ext_getElem? fun i => ?_, ?_⟩
  · by_cases hi : i < fl.diagnostics
    · rw [Array.getElem?_append_left (by omega)]
      exact h.diagnostics i hi
    · rw [Array.getElem?_append_right (by omega), Array.getElem?_extract]
      split
      · congr 1
        omega
      · rw [Array.getElem?_eq_none (by omega)]
  · intro d hd'
    obtain ⟨j, hj, rfl⟩ := Array.getElem_of_mem hd'
    rw [Array.getElem_extract]
    exact h.warnings _ _ (by omega) (Array.getElem?_eq_getElem _)

/-- The floor that keeps `a` as it is: its nodes before `nodes`, all its semantic tokens and all
    its diagnostics. -/
def ofAnalysis (a : Analysis) (nodes : Nat) : Floor :=
  ⟨a, nodes, a.semantic.size, a.diagnostics.size⟩

theorem keeps_ofAnalysis (a : Analysis) (nodes : Nat) : (ofAnalysis a nodes).Keeps a :=
  ⟨rfl, fun _ _ => rfl, Nat.le_refl _, fun _ _ => rfl, Nat.le_refl _, fun _ _ => rfl,
    fun _ _ hi hg => absurd hg (by simp [Array.getElem?_eq_none hi])⟩

/-- Keeping a state `b` that keeps a lower floor keeps that floor. -/
theorem Keeps.trans {fl : Floor} {a b : Analysis} {m : Nat} (hb : fl.Keeps b)
    (ha : (ofAnalysis b m).Keeps a) (hm : fl.nodes ≤ m) : fl.Keeps a := by
  have hs := hb.semantic_le
  have hd := hb.diagnostics_le
  refine ⟨ha.file.trans hb.file, fun i hi => (ha.nodes i (by simp only [ofAnalysis]; omega)).trans (hb.nodes i hi),
    hs.trans ha.semantic_le, fun i hi => (ha.semantic i (by simp only [ofAnalysis]; omega)).trans
      (hb.semantic i hi), hd.trans ha.diagnostics_le,
    fun i hi => (ha.diagnostics i (by simp only [ofAnalysis]; omega)).trans (hb.diagnostics i hi),
    fun i d hi hg => ?_⟩
  -- a diagnostic of `b` is a warning by the lower floor, a later one by the raised floor
  by_cases hlt : i < b.diagnostics.size
  · rw [ha.diagnostics i hlt] at hg
    exact hb.warnings i d hi hg
  · exact ha.warnings i d (by simp only [ofAnalysis]; omega) hg

end Floor

/-- The invariant of a reader: a well-formed tree of at least `n` nodes, in which the nodes of
    `ps` keep their parents, keeping what the floor `fl` fixes. -/
structure Kept (fl : Floor) (n : Nat) (ps : List (Nat × Nat)) (a : Analysis) : Prop where
  wf : a.tree.WellFormed
  size : n ≤ a.tree.size
  floor_le : fl.nodes ≤ n
  parents : ∀ q ∈ ps, a.tree.parentOf q.1 = some q.2
  floor : fl.Keeps a

namespace Kept

variable {fl : Floor} {n : Nat} {ps : List (Nat × Nat)} {a : Analysis}

/-- A smaller size bound and fewer parent facts. -/
theorem weaken (h : Kept fl n ps a) {n' : Nat} {ps' : List (Nat × Nat)} (hn : n' ≤ n)
    (hfl : fl.nodes ≤ n') (hps : ∀ q ∈ ps', q ∈ ps) : Kept fl n' ps' a :=
  ⟨h.wf, Nat.le_trans hn h.size, hfl, fun q hq => h.parents q (hps q hq), h.floor⟩

/-- Another parent fact to carry. -/
theorem cons (h : Kept fl n ps a) {c p : Nat} (hc : a.tree.parentOf c = some p) :
    Kept fl n ((c, p) :: ps) a := by
  refine ⟨h.wf, h.size, h.floor_le, fun q hq => ?_, h.floor⟩
  rcases List.mem_cons.1 hq with rfl | hq
  · exact hc
  · exact h.parents q hq

/-- Dropping the last parent fact carried, with what it says. -/
theorem pop {c p : Nat} (h : Kept fl n ((c, p) :: ps) a) (n' : Nat) (hn : n' ≤ n)
    (hfl : fl.nodes ≤ n') : Kept fl n' ps a ∧ a.tree.parentOf c = some p :=
  ⟨h.weaken hn hfl fun _ hq => List.mem_cons_of_mem _ hq, h.parents (c, p) List.mem_cons_self⟩

/-- A new tree, well formed, at least as large, with the same nodes before the floor and the
    same parents for `ps`. -/
theorem withTree (h : Kept fl n ps a) {t : Tree} {n' : Nat} (hwf : t.WellFormed)
    (hsize : n' ≤ t.size) (hn : n ≤ n') (hnodes : ∀ i < fl.nodes, t.get? i = a.tree.get? i)
    (hps : ∀ q ∈ ps, t.parentOf q.1 = some q.2) : Kept fl n' ps { a with tree := t } :=
  ⟨hwf, hsize, Nat.le_trans h.floor_le hn, hps, h.floor.withTree hnodes⟩

/-- The same invariant over the floor raised to `a` itself, below node `m`. -/
theorem raise (h : Kept fl n ps a) {m : Nat} (hm : m ≤ n) : Kept (Floor.ofAnalysis a m) n ps a :=
  ⟨h.wf, h.size, hm, h.parents, Floor.keeps_ofAnalysis a m⟩

/-- Back from a floor raised to a state `b` that keeps `fl`. -/
theorem lower {b : Analysis} {m : Nat} (h : Kept (Floor.ofAnalysis b m) n ps a) (hb : fl.Keeps b)
    (hm : fl.nodes ≤ m) : Kept fl n ps a :=
  ⟨h.wf, h.size, hm.trans h.floor_le, h.parents, hb.trans h.floor hm⟩

end Kept

/-! ## Steps that only tag -/

/-- `a'` is `a` with more semantic tokens and more warnings: same file, same tree. -/
structure Analysis.Extends (a a' : Analysis) : Prop where
  file : a'.file = a.file
  tree : a'.tree = a.tree
  semantic : ∃ ss, a'.semantic = a.semantic ++ ss
  diagnostics : ∃ ds, a'.diagnostics = a.diagnostics ++ ds ∧ ∀ d ∈ ds, d.severity = .warning

namespace Analysis.Extends

theorem refl (a : Analysis) : a.Extends a :=
  ⟨rfl, rfl, ⟨#[], by simp⟩, ⟨#[], by simp, by simp⟩⟩

theorem trans {a b c : Analysis} (h₁ : a.Extends b) (h₂ : b.Extends c) : a.Extends c := by
  obtain ⟨f₁, t₁, ⟨s₁, hs₁⟩, ⟨d₁, hd₁, hw₁⟩⟩ := h₁
  obtain ⟨f₂, t₂, ⟨s₂, hs₂⟩, ⟨d₂, hd₂, hw₂⟩⟩ := h₂
  refine ⟨f₂.trans f₁, t₂.trans t₁, ⟨s₁ ++ s₂, by rw [hs₂, hs₁, Array.append_assoc]⟩,
    ⟨d₁ ++ d₂, by rw [hd₂, hd₁, Array.append_assoc], ?_⟩⟩
  intro d hd
  rcases Array.mem_append.1 hd with hd | hd
  · exact hw₁ d hd
  · exact hw₂ d hd

/-- Tagging keeps a reader's invariant. -/
theorem kept {fl : Floor} {n : Nat} {ps : List (Nat × Nat)} {a a' : Analysis} (h : a.Extends a')
    (hk : Kept fl n ps a) : Kept fl n ps a' := by
  obtain ⟨hf, ht, ⟨ss, hs⟩, ⟨ds, hd, hw⟩⟩ := h
  obtain ⟨wf, size, floor_le, parents, fk⟩ := hk
  refine ⟨ht ▸ wf, ht ▸ size, floor_le, ht ▸ parents, ⟨hf.trans fk.file, ht ▸ fk.nodes, ?_, ?_, ?_,
    ?_, ?_⟩⟩
  · rw [hs, Array.size_append]
    exact Nat.le_trans fk.semantic_le (Nat.le_add_right _ _)
  · intro i hi
    rw [hs, Array.getElem?_append_left (by have := fk.semantic_le; omega)]
    exact fk.semantic i hi
  · rw [hd, Array.size_append]
    exact Nat.le_trans fk.diagnostics_le (Nat.le_add_right _ _)
  · intro i hi
    rw [hd, Array.getElem?_append_left (by have := fk.diagnostics_le; omega)]
    exact fk.diagnostics i hi
  · intro i d hi hg
    rw [hd] at hg
    by_cases hlt : i < a.diagnostics.size
    · rw [Array.getElem?_append_left hlt] at hg
      exact fk.warnings i d hi hg
    · rw [Array.getElem?_append_right (by omega)] at hg
      exact hw d (Array.mem_of_getElem? hg)

end Analysis.Extends

/-- A step that only tags: every run extends the file's analysis. -/
def Step.Tags {α : Type} (x : Step α) : Prop :=
  ∀ (u : Universe) (w : Work), w.file.Extends (x u w).2.file

/-- A reader that only tags, whether it succeeds or fails. -/
def Parse.Tags {α : Type} (x : Parse α) : Prop :=
  ∀ (c : Cursor) (u : Universe) (w : Work), w.file.Extends ((x c).run u w).2.file

namespace Step.Tags

variable {α β : Type}

theorem pure (a : α) : Tags (Pure.pure a : Step α) := by
  intro _ w
  exact .refl w.file

theorem bind {x : Step α} {f : α → Step β} (hx : Tags x) (hf : ∀ a, Tags (f a)) :
    Tags (x >>= f) := by
  intro u w
  exact (hx u w).trans (hf _ u _)

theorem forIn {γ σ : Type} (xs : List γ) (init : σ) {f : γ → σ → Step (ForInStep σ)}
    (hf : ∀ b s, Tags (f b s)) : Tags (forIn xs init f) := by
  induction xs generalizing init with
  | nil =>
    rw [List.forIn_nil]
    exact pure init
  | cons b bs ih =>
    rw [List.forIn_cons]
    refine bind (hf b init) fun r => ?_
    cases r with
    | done s => exact pure s
    | yield s => exact ih s

theorem listMapM {γ : Type} {f : γ → Step α} (hf : ∀ b, Tags (f b)) :
    ∀ xs : List γ, Tags (xs.mapM f)
  | [] => pure []
  | b :: bs => by
    rw [List.mapM_cons]
    exact bind (hf b) fun _ => bind (listMapM hf bs) fun _ => pure _

theorem optionMapM {γ : Type} {f : γ → Step α} (hf : ∀ b, Tags (f b)) :
    ∀ o : Option γ, Tags (o.mapM f)
  | none => pure none
  | some b => bind (hf b) fun _ => pure _

/-- A step that only tags keeps a reader's invariant, and every fact about the tree. -/
theorem triple {x : Step α} (h : Tags x) {fl : Floor} {n : Nat} {ps : List (Nat × Nat)}
    {R : Tree → Prop} :
    Step.Triple (fun w => Kept fl n ps w.file ∧ R w.file.tree) x
      (fun _ w => Kept fl n ps w.file ∧ R w.file.tree) := by
  intro u w ⟨hk, hr⟩
  exact ⟨(h u w).kept hk, (h u w).tree ▸ hr⟩

end Step.Tags

/-- A step that leaves the work alone only tags. -/
theorem Step.tags_of_eq {α : Type} {x : Step α} (h : ∀ u w, (x u w).2 = w) : Step.Tags x := by
  intro u w
  rw [h u w]
  exact .refl w.file

theorem Step.tags_current : Step.Tags Step.current := Step.tags_of_eq fun _ _ => rfl

theorem Step.tags_tree : Step.Tags Step.tree := Step.tags_of_eq fun _ _ => rfl

theorem Step.tags_view : Step.Tags Step.view := Step.tags_of_eq fun _ _ => rfl

theorem Step.tags_here (id : Nat) : Step.Tags (Step.here id) := Step.tags_of_eq fun _ _ => rfl

theorem Step.tags_log (level : LogLevel) (source : LogSource) (message : String) :
    Step.Tags (Step.log level source message) := by
  intro u w
  rw [Step.log_run]
  exact .refl w.file

theorem Step.tags_emitToken (s : SemanticToken) : Step.Tags (Step.emitToken s) := by
  intro u w
  rw [Step.emitToken_run]
  exact ⟨rfl, rfl, ⟨#[s], by simp⟩, ⟨#[], by simp, by simp⟩⟩

theorem Step.tags_emit (t : Token) (kind : SemanticKind) : Step.Tags (Step.emit t kind) :=
  Step.tags_emitToken _

theorem Step.tags_emitRef (t : Token) (kind : SemanticKind) (ref : Option Target) (name : String) :
    Step.Tags (Step.emitRef t kind ref name) :=
  Step.tags_emitToken _

theorem Step.tags_warn (message : String) (line : Nat) : Step.Tags (Step.warn message line) := by
  intro u w
  rw [Step.warn_run]
  exact ⟨rfl, rfl, ⟨#[], by simp⟩, ⟨#[⟨.warning, message, line⟩], by simp, by simp⟩⟩

namespace Parse.Tags

variable {α β : Type}

theorem pure (a : α) : Tags (Pure.pure a : Parse α) := by
  intro _ _ w
  exact .refl w.file

/-- A reader that only tags keeps every analysis its work extends. -/
theorem extending {x : Parse α} (h : Tags x) (a₀ : Analysis) :
    Parse.Triple (fun w => a₀.Extends w.file) x (fun _ w => a₀.Extends w.file)
      (fun w => a₀.Extends w.file) := by
  intro c u w hw
  show Outcome _ _ _ _
  rw [outcome_same]
  exact hw.trans (h c u w)

theorem bind {x : Parse α} {f : α → Parse β} (hx : Tags x) (hf : ∀ a, Tags (f a)) :
    Tags (x >>= f) := by
  intro c u w
  have h := Parse.Triple.bind (extending hx w.file) (fun a => extending (hf a) w.file) c u w
    (.refl w.file)
  exact (outcome_same (I := fun w' => w.file.Extends w'.file)).1 h

theorem throw {e : ParseError} : Tags (MonadExcept.throw e : Parse α) := by
  intro _ _ w
  exact .refl w.file

theorem step {x : Step α} (h : Step.Tags x) : Tags (Parse.step x) := by
  intro _ u w
  exact h u w

theorem lift {x : Step α} (h : Step.Tags x) : Tags (monadLift x : Parse α) := step h

theorem quiet {x : Parse α} (h : Parse.Quiet x) : Tags x := by
  intro c u w
  rw [h c u w]
  exact .refl w.file

theorem ite {c : Prop} [Decidable c] {x y : Parse α} (hx : Tags x) (hy : Tags y) :
    Tags (if c then x else y) := by
  split
  · exact hx
  · exact hy

theorem map {x : Parse α} (f : α → β) (h : Tags x) : Tags (f <$> x) := by
  rw [map_eq_pure_bind]
  exact bind h fun _ => pure _

theorem tryCatch {x : Parse α} {h : ParseError → Parse α} (hx : Tags x) (hh : ∀ e, Tags (h e)) :
    Tags (MonadExcept.tryCatch x h) := by
  intro c u w
  have h := Parse.Triple.tryCatch (extending hx w.file) (fun e => extending (hh e) w.file) c u w
    (.refl w.file)
  exact (outcome_same (I := fun w' => w.file.Extends w'.file)).1 h

/-- A reader that only tags keeps a reader's invariant, and every fact about the tree. -/
theorem triple {x : Parse α} (h : Tags x) {fl : Floor} {n : Nat} {ps : List (Nat × Nat)}
    {R : Tree → Prop} :
    Parse.Triple (fun w => Kept fl n ps w.file ∧ R w.file.tree) x
      (fun _ w => Kept fl n ps w.file ∧ R w.file.tree)
      (fun w => Kept fl n ps w.file ∧ R w.file.tree) := by
  intro c u w ⟨hk, hr⟩
  show Outcome _ _ _ _
  rw [outcome_same]
  exact ⟨(h c u w).kept hk, (h c u w).tree ▸ hr⟩

end Parse.Tags

/-! ## Steps that read -/

namespace Step

variable {P : Work → Prop}

theorem triple_tree : Triple P tree fun t w => P w ∧ t = w.file.tree := by
  intro u w hw
  rw [tree_run]
  exact ⟨hw, rfl⟩

theorem triple_current : Triple P current fun a w => P w ∧ a = w.file := by
  intro u w hw
  rw [current_run]
  exact ⟨hw, rfl⟩

theorem triple_here (id : Nat) : Triple P (here id) fun d w => P w ∧ d = ⟨w.file.file, id⟩ := by
  intro u w hw
  rw [here_run]
  exact ⟨hw, rfl⟩

theorem triple_mark : Triple P mark fun m w => P w ∧
    m = ⟨w.file.tree.size, w.file.semantic.size, w.file.diagnostics.size⟩ := by
  intro u w hw
  rw [mark_run]
  exact ⟨hw, rfl⟩

/-! ## Steps that change the tree -/

variable {fl : Floor} {n : Nat} {ps : List (Nat × Nat)}

/-- Creating a node under an existing node `p`: the new node comes after every child of `p`,
    and the invariant now covers it. -/
theorem kept_alloc {p : Nat} {name : String} {line : Nat} {kind : NodeKind} (hp : p < n)
    (hheld : kind.held = []) (hroot : kind.isRoot = false) :
    Triple (fun w => Kept fl n ps w.file ∧ (kind.isJump → w.file.tree.UnderLoop p))
      (alloc (some p) name line kind)
      (fun id w => Kept fl (id + 1) ps w.file ∧ n ≤ id ∧ w.file.tree.parentOf id = some p ∧
        ∀ node, w.file.tree.get? p = some node → ∀ x ∈ node.children, x < id) := by
  intro u w ⟨hk, hj⟩
  rw [alloc_run]
  have hsize := hk.size
  have hfloor := hk.floor_le
  have hps : p < w.file.tree.size := by omega
  refine ⟨hk.withTree (hk.wf.alloc hps hheld hroot hj) (by simp) (by omega)
    (fun i hi => Tree.get?_alloc_of_lt (by omega))
    (fun q hq => Tree.parentOf_alloc (hk.parents q hq)), hsize,
    Tree.parentOf_alloc_self _ _ _ _ _, ?_⟩
  intro node hg x hx
  rw [Tree.get?_alloc_of_lt hps] at hg
  exact hk.wf.child_lt hg hx

/-- Adding a node as the last child of `p`, a node past the floor. -/
theorem kept_add {p : Nat} {name : String} {line : Nat} {kind : NodeKind} (hp : p < n)
    (hfp : fl.nodes ≤ p) (hheld : kind.held = []) (hroot : kind.isRoot = false) :
    Triple (fun w => Kept fl n ps w.file ∧ (kind.isJump → w.file.tree.UnderLoop p))
      (add p name line kind)
      (fun id w => Kept fl (id + 1) ps w.file ∧ n ≤ id ∧ w.file.tree.parentOf id = some p) := by
  intro u w ⟨hk, hj⟩
  rw [add_run]
  have hsize := hk.size
  have hps : p < w.file.tree.size := by omega
  have hpar : ∀ i, (w.file.tree.add p name line kind).2.parentOf i =
      (w.file.tree.alloc (some p) name line kind).2.parentOf i := by
    intro i
    rw [Tree.add_eq]
    exact Tree.parentOf_appendChild _ _ _ i
  refine ⟨hk.withTree (hk.wf.add hps hheld hroot hj) (by simp [Tree.add_eq]) (by omega) ?_ ?_,
    hsize, by rw [hpar]; exact Tree.parentOf_alloc_self _ _ _ _ _⟩
  · intro i hi
    rw [Tree.add_eq]
    simp only
    rw [Tree.get?_modify_of_ne (by omega), Tree.get?_alloc_of_lt (by have := hk.floor_le; omega)]
  · intro q hq
    rw [hpar]
    exact Tree.parentOf_alloc (hk.parents q hq)

/-- Listing `c` as the last child of `p`, a node past the floor, when `c` names `p` as its
    parent and comes after `p`'s children. -/
theorem kept_attach {p c : Nat} (hfp : fl.nodes ≤ p) :
    Triple (fun w => Kept fl n ps w.file ∧ w.file.tree.parentOf c = some p ∧
        ∀ node, w.file.tree.get? p = some node → ∀ x ∈ node.children, x < c)
      (attach p c) (fun _ w => Kept fl n ps w.file) := by
  intro u w ⟨hk, hc, hlt⟩
  rw [attach_run]
  refine hk.withTree (hk.wf.attach hc hlt) (by rw [Tree.attach_eq hc]; simpa using hk.size)
    (Nat.le_refl n) ?_ ?_
  · intro i hi
    rw [Tree.attach_eq hc, Tree.get?_modify_of_ne (by omega)]
  · intro q hq
    rw [Tree.attach_eq hc, Tree.parentOf_appendChild]
    exact hk.parents q hq

/-- Changing what node `id`, past the floor, holds, keeping its shape, when every node the new
    kind holds names `id` as its parent. -/
theorem kept_modifyKind {id : Nat} {f : NodeKind → NodeKind} (hfi : fl.nodes ≤ id) :
    Triple (fun w => Kept fl n ps w.file ∧ ∀ node, w.file.tree.get? id = some node →
        NodeKind.SameShape node.kind (f node.kind) ∧
          ∀ x ∈ (f node.kind).held, w.file.tree.parentOf x = some id)
      (modifyKind id f) (fun _ w => Kept fl n ps w.file) := by
  intro u w ⟨hk, hf⟩
  rw [modifyKind_run]
  refine hk.withTree (hk.wf.modifyKind hf) (by simpa [Tree.modifyKind] using hk.size)
    (Nat.le_refl n) ?_ ?_
  · intro i hi
    rw [Tree.modifyKind, Tree.get?_modify_of_ne (by omega)]
  · intro q hq
    rw [Tree.parentOf_modifyKind]
    exact hk.parents q hq

/-- Undoing an attempt that added no node: the tokens and diagnostics since the mark go, and the
    tree stays. -/
theorem kept_rollback {m : Mark} (hs : fl.semantic ≤ m.semantic) (hd : fl.diagnostics ≤ m.diagnostics) :
    Triple (fun w => Kept fl n ps w.file ∧ w.file.tree.size ≤ m.nodes) (rollback m)
      (fun _ w => Kept fl n ps w.file) := by
  intro u w ⟨hk, hsize⟩
  have htree : w.file.tree.truncate m.nodes = w.file.tree := by
    unfold Tree.truncate
    rw [if_pos (by omega)]
  rw [rollback_run, htree]
  obtain ⟨wf, size, floor_le, parents, fk⟩ := hk
  refine ⟨wf, size, floor_le, parents, ⟨fk.file, fk.nodes, ?_, ?_, ?_, ?_, ?_⟩⟩
  · simp only [Array.take_eq_extract, Array.size_extract]
    have := fk.semantic_le
    omega
  · intro i hi
    simp only [Array.take_eq_extract, Array.getElem?_extract]
    rw [if_pos (by have := fk.semantic_le; omega), Nat.zero_add]
    exact fk.semantic i hi
  · simp only [Array.take_eq_extract, Array.size_extract]
    have := fk.diagnostics_le
    omega
  · intro i hi
    simp only [Array.take_eq_extract, Array.getElem?_extract]
    rw [if_pos (by have := fk.diagnostics_le; omega), Nat.zero_add]
    exact fk.diagnostics i hi
  · intro i d hi hg
    simp only [Array.take_eq_extract, Array.getElem?_extract] at hg
    split at hg
    · rw [Nat.zero_add] at hg
      exact fk.warnings i d hi hg
    · exact absurd hg (by simp)

end Step

end ZScript
