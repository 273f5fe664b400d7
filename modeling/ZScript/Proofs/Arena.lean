import Mathlib
import ZScript.Analysis.Bodies

/-!
# Well-formed arenas

A file's syntax tree is an arena in which nodes name each other by index. It is well formed
(`Tree.WellFormed`) when:

* node `0` is the file root and has no parent, and no other node is a root;
* every other node has a parent created before it;
* the children of a node name it as their parent, and are listed in the order they were
  created; so no node is listed twice, or under two nodes;
* the nodes a node holds in what it is (the `self` of a class or struct, the arguments of a
  method, the initializers of a `for`, the `else` block of an `if`) name it as their parent;
* every `break` and `continue` stands under a loop of its own method: walking up from its parent,
  a loop comes before any method (`Tree.UnderLoop`).

A node may have a parent without being listed among its children: arguments, the synthetic
`self`, the initializers of a `for`, and whatever a failed declaration left half built.

This file proves how the tree operations keep a tree well formed: creating a node (`alloc`),
listing it among its parent's children (`appendChild`, `attach`, `add`) and changing what it holds
(`modifyKind`), each under the conditions the readers meet.
-/

namespace ZScript

namespace NodeKind

/-- The nodes named by what a node holds, apart from its children. -/
def held : NodeKind → List Nat
  | .classDecl c => c.info.selfVar.toList
  | .structDecl i => i.selfVar.toList
  | .method m => m.arguments
  | .forLoop inits _ _ => inits
  | .cond _ e => e.toList
  | _ => []

/-- Whether the node is a file root. -/
def isRoot : NodeKind → Bool
  | .root _ => true
  | _ => false

/-- Whether the node is a method. -/
def isMethod : NodeKind → Bool
  | .method _ => true
  | _ => false

/-- Whether the node is a loop: a `for`, a `while` or a `do … while`. -/
def isLoop : NodeKind → Bool
  | .forLoop .. | .whileLoop .. => true
  | _ => false

/-- Whether the node is a `break` or a `continue`. -/
def isJump : NodeKind → Bool
  | .control .exitLoop | .control .nextIteration => true
  | _ => false

/-- Two kinds of node play the same part in the tree's shape: both or neither are roots,
    methods, loops and jumps. -/
structure SameShape (k k' : NodeKind) : Prop where
  root : k'.isRoot = k.isRoot
  method : k'.isMethod = k.isMethod
  loop : k'.isLoop = k.isLoop
  jump : k'.isJump = k.isJump

theorem SameShape.refl (k : NodeKind) : SameShape k k := ⟨rfl, rfl, rfl, rfl⟩

end NodeKind

namespace Tree

/-- The parent of node `id`, when the node exists and has one. -/
def parentOf (t : Tree) (id : Nat) : Option Nat := (t.get? id).bind (·.parent)

/-- Walking up from node `id`, a loop comes before any method: `id` is a loop, or it is not a
    method and its parent is under a loop. -/
inductive UnderLoop (t : Tree) : Nat → Prop
  | loop {id : Nat} {node : Node} : t.get? id = some node → node.kind.isLoop → UnderLoop t id
  | up {id p : Nat} {node : Node} : t.get? id = some node → node.kind.isMethod = false →
      node.parent = some p → UnderLoop t p → UnderLoop t id

/-- The shape of a file's syntax tree. -/
structure WellFormed (t : Tree) : Prop where
  /-- Node `0` is the file root, with no parent. -/
  root : ∃ node, t.get? 0 = some node ∧ node.kind.isRoot ∧ node.parent = none
  /-- No other node is a root. -/
  root_only : ∀ id node, t.get? id = some node → node.kind.isRoot → id = 0
  /-- Every other node has a parent, created before it. -/
  parent_lt : ∀ id node, t.get? id = some node → id ≠ 0 → ∃ p < id, node.parent = some p
  /-- The children of a node name it as their parent. -/
  child_parent : ∀ p node c, t.get? p = some node → c ∈ node.children → t.parentOf c = some p
  /-- Children are listed in the order they were created. -/
  children_sorted : ∀ p node, t.get? p = some node → node.children.Pairwise (· < ·)
  /-- The nodes held in what a node is name it as their parent. -/
  held_parent : ∀ p node c, t.get? p = some node → c ∈ node.kind.held → t.parentOf c = some p
  /-- `break` and `continue` stand under a loop of their own method. -/
  jump_under_loop : ∀ id node, t.get? id = some node → node.kind.isJump →
    ∃ p, node.parent = some p ∧ t.UnderLoop p

theorem get?_eq_some_iff {t : Tree} {id : Nat} {node : Node} :
    t.get? id = some node ↔ ∃ h : id < t.size, t.nodes[id] = node := by
  simp [get?, size, Array.getElem?_eq_some_iff]

theorem lt_size_of_get? {t : Tree} {id : Nat} {node : Node} (h : t.get? id = some node) :
    id < t.size :=
  (get?_eq_some_iff.1 h).1

theorem lt_size_of_parentOf {t : Tree} {id p : Nat} (h : t.parentOf id = some p) : id < t.size := by
  unfold parentOf at h
  cases hg : t.get? id with
  | none => simp [hg] at h
  | some node => exact lt_size_of_get? hg

theorem get?_of_lt {t : Tree} {id : Nat} (h : id < t.size) : ∃ node, t.get? id = some node :=
  ⟨t.nodes[id], get?_eq_some_iff.2 ⟨h, rfl⟩⟩

/-! ## Reading a changed arena -/

theorem alloc_fst (t : Tree) (parent : Option Nat) (name : String) (line : Nat) (kind : NodeKind) :
    (t.alloc parent name line kind).1 = t.size := rfl

@[simp] theorem size_alloc (t : Tree) (parent : Option Nat) (name : String) (line : Nat)
    (kind : NodeKind) : (t.alloc parent name line kind).2.size = t.size + 1 := by
  simp [alloc, size]

theorem get?_alloc (t : Tree) (parent : Option Nat) (name : String) (line : Nat) (kind : NodeKind)
    (i : Nat) : (t.alloc parent name line kind).2.get? i =
      if i = t.size then some ⟨name, parent, [], line, kind⟩ else t.get? i := by
  unfold alloc get? size
  by_cases h : i = t.nodes.size <;> simp [Array.getElem?_push, h]

/-- Creating a node leaves the nodes before it as they were. -/
theorem get?_alloc_of_lt {t : Tree} {parent : Option Nat} {name : String} {line : Nat}
    {kind : NodeKind} {i : Nat} (h : i < t.size) :
    (t.alloc parent name line kind).2.get? i = t.get? i := by
  rw [get?_alloc, if_neg (by omega)]

@[simp] theorem size_modify (t : Tree) (id : Nat) (f : Node → Node) :
    (t.modify id f).size = t.size := by
  simp [modify, size]

@[simp] theorem size_modifyKind (t : Tree) (id : Nat) (f : NodeKind → NodeKind) :
    (t.modifyKind id f).size = t.size :=
  size_modify _ _ _

theorem get?_modify (t : Tree) (id : Nat) (f : Node → Node) (i : Nat) :
    (t.modify id f).get? i = if id = i then (t.get? i).map f else t.get? i := by
  simp [modify, get?, Array.getElem?_modify]

theorem get?_modify_of_ne {t : Tree} {id : Nat} {f : Node → Node} {i : Nat} (h : id ≠ i) :
    (t.modify id f).get? i = t.get? i := by
  rw [get?_modify, if_neg h]

/-- A change that keeps the parent of every node keeps `parentOf`. -/
theorem parentOf_modify (t : Tree) (id : Nat) (f : Node → Node) (hf : ∀ n, (f n).parent = n.parent)
    (i : Nat) : (t.modify id f).parentOf i = t.parentOf i := by
  unfold parentOf
  rw [get?_modify]
  split
  · cases t.get? i <;> simp [hf]
  · rfl

/-- Listing a child changes no node's parent. -/
theorem parentOf_appendChild (t : Tree) (p c i : Nat) :
    (t.modify p fun n => { n with children := n.children ++ [c] }).parentOf i = t.parentOf i :=
  parentOf_modify t p (fun n => { n with children := n.children ++ [c] }) (fun _ => rfl) i

/-- Changing what a node holds changes no node's parent. -/
theorem parentOf_modifyKind (t : Tree) (id : Nat) (f : NodeKind → NodeKind) (i : Nat) :
    (t.modifyKind id f).parentOf i = t.parentOf i :=
  parentOf_modify t id (fun n => { n with kind := f n.kind }) (fun _ => rfl) i

theorem parentOf_alloc_of_lt {t : Tree} {parent : Option Nat} {name : String} {line : Nat}
    {kind : NodeKind} {i : Nat} (h : i < t.size) :
    (t.alloc parent name line kind).2.parentOf i = t.parentOf i := by
  simp only [parentOf, get?_alloc_of_lt h]

theorem parentOf_alloc_self (t : Tree) (p : Nat) (name : String) (line : Nat) (kind : NodeKind) :
    (t.alloc (some p) name line kind).2.parentOf t.size = some p := by
  simp [parentOf, get?_alloc]

/-- A node that exists keeps its parent when another node is created. -/
theorem parentOf_alloc {t : Tree} {parent : Option Nat} {name : String} {line : Nat}
    {kind : NodeKind} {i q : Nat} (h : t.parentOf i = some q) :
    (t.alloc parent name line kind).2.parentOf i = some q := by
  rw [parentOf_alloc_of_lt (lt_size_of_parentOf h), h]

theorem ext_get? {t t' : Tree} (h : ∀ i, t.get? i = t'.get? i) : t = t' := by
  cases t
  cases t'
  exact congrArg Tree.mk (Array.ext_getElem? h)

/-- Attaching a node to the parent it already names only lists it. -/
theorem attach_eq {t : Tree} {p c : Nat} (h : t.parentOf c = some p) :
    t.attach p c = t.modify p fun n => { n with children := n.children ++ [c] } := by
  unfold attach
  congr 1
  refine ext_get? fun i => ?_
  rw [get?_modify]
  split
  · next hi =>
    subst hi
    unfold parentOf at h
    cases hg : t.get? c with
    | none => simp [hg] at h
    | some node =>
      rw [hg] at h
      obtain ⟨name, parent, children, line, kind⟩ := node
      simp only [Option.bind_some] at h
      simp [h]
  · rfl

theorem add_eq (t : Tree) (p : Nat) (name : String) (line : Nat) (kind : NodeKind) :
    t.add p name line kind = (t.size, (t.alloc (some p) name line kind).2.modify p
      fun n => { n with children := n.children ++ [t.size] }) := rfl

/-- Dropping the nodes from `m` on gives a tree back when the nodes before `m` are its nodes and
    none of them lists a child from `m` on. -/
theorem truncate_eq {t t' : Tree} {m : Nat} (hm : t.size = m) (hpos : 1 ≤ m) (hlt : m < t'.size)
    (hsame : ∀ i < m, t'.get? i = t.get? i)
    (hch : ∀ i node, t.get? i = some node → ∀ c ∈ node.children, c < m) : t'.truncate m = t := by
  unfold truncate
  rw [Nat.max_eq_left hpos, if_neg (by omega)]
  refine ext_get? fun i => ?_
  simp only [get?, Array.getElem?_map, Array.getElem?_extract]
  by_cases hi : i < m
  · have hi' : i < min m t'.nodes.size - 0 := by simp only [size] at hlt; omega
    rw [if_pos hi', Nat.zero_add]
    have hs := hsame i hi
    simp only [get?] at hs
    rw [hs]
    cases hg : t.nodes[i]? with
    | none => rfl
    | some node =>
      simp only [Option.map_some, Option.some.injEq]
      have hfilter := List.filter_eq_self.2 fun c hc => decide_eq_true
        (hch i node (by simpa [get?] using hg) c hc)
      rw [hfilter]
  · rw [if_neg (by omega)]
    exact (Array.getElem?_eq_none (by simp only [size] at hm; omega)).symm

/-! ## Walking up to a loop -/

/-- A walk up to a loop stays one when the nodes on it keep their parent and their shape. -/
theorem UnderLoop.of_shape {t t' : Tree} {id : Nat}
    (h : ∀ i node, t.get? i = some node → ∃ node', t'.get? i = some node' ∧
      node'.parent = node.parent ∧ node'.kind.isLoop = node.kind.isLoop ∧
      node'.kind.isMethod = node.kind.isMethod)
    (hu : t.UnderLoop id) : t'.UnderLoop id := by
  induction hu with
  | loop hg hl =>
    obtain ⟨node', hg', -, hl', -⟩ := h _ _ hg
    exact .loop hg' (hl'.trans hl)
  | up hg hm hp _ ih =>
    obtain ⟨node', hg', hp', -, hm'⟩ := h _ _ hg
    exact .up hg' (hm'.trans hm) (hp'.trans hp) ih

/-- A walk up to a loop survives the creation of a node. -/
theorem UnderLoop.alloc {t : Tree} {id : Nat} {parent : Option Nat} {name : String} {line : Nat}
    {kind : NodeKind} (hu : t.UnderLoop id) : (t.alloc parent name line kind).2.UnderLoop id :=
  hu.of_shape fun i node hg => ⟨node, by rw [get?_alloc_of_lt (lt_size_of_get? hg), hg],
    rfl, rfl, rfl⟩

/-- A walk up to a loop survives a change of node `j` that keeps its parent and shape. -/
theorem UnderLoop.modify {t : Tree} {id j : Nat} {f : Node → Node}
    (hf : ∀ n, t.get? j = some n → (f n).parent = n.parent ∧
      (f n).kind.isLoop = n.kind.isLoop ∧ (f n).kind.isMethod = n.kind.isMethod)
    (hu : t.UnderLoop id) : (t.modify j f).UnderLoop id := by
  refine hu.of_shape fun i node hg => ?_
  rw [get?_modify, hg]
  split
  · next hj =>
    subst hj
    exact ⟨f node, rfl, hf node hg⟩
  · exact ⟨node, rfl, rfl, rfl, rfl⟩

/-! ## The operations keep a tree well formed -/

namespace WellFormed

variable {t : Tree}

/-- A child listed in a well-formed tree exists. -/
theorem child_lt (h : t.WellFormed) {p c : Nat} {node : Node} (hp : t.get? p = some node)
    (hc : c ∈ node.children) : c < t.size :=
  lt_size_of_parentOf (h.child_parent p node c hp hc)

/-- No node is listed under two nodes. -/
theorem listed_once (h : t.WellFormed) {p q c : Nat} {np nq : Node} (hp : t.get? p = some np)
    (hq : t.get? q = some nq) (hcp : c ∈ np.children) (hcq : c ∈ nq.children) : p = q := by
  have h₁ := h.child_parent p np c hp hcp
  have h₂ := h.child_parent q nq c hq hcq
  rw [h₁] at h₂
  exact Option.some.inj h₂

/-- A node that is not yet listed may be created under an existing parent, provided it holds
    no other node, is not a root, and stands under a loop if it is a jump. -/
theorem alloc (h : t.WellFormed) {p : Nat} {name : String} {line : Nat} {kind : NodeKind}
    (hp : p < t.size) (hheld : kind.held = []) (hroot : kind.isRoot = false)
    (hjump : kind.isJump → t.UnderLoop p) :
    (t.alloc (some p) name line kind).2.WellFormed := by
  have hnew : ∀ i node, (t.alloc (some p) name line kind).2.get? i = some node →
      (i = t.size ∧ node = ⟨name, some p, [], line, kind⟩) ∨ (i < t.size ∧ t.get? i = some node) := by
    intro i node hg
    rw [get?_alloc] at hg
    split at hg
    · exact .inl ⟨‹_›, (Option.some.inj hg).symm⟩
    · exact .inr ⟨lt_size_of_get? hg, hg⟩
  refine ⟨?_, ?_, ?_, ?_, ?_, ?_, ?_⟩
  · obtain ⟨node, hg, hr, hn⟩ := h.root
    exact ⟨node, by rw [get?_alloc_of_lt (lt_size_of_get? hg), hg], hr, hn⟩
  · intro i node hg hr
    rcases hnew i node hg with ⟨-, rfl⟩ | ⟨-, hg⟩
    · simp [hroot] at hr
    · exact h.root_only i node hg hr
  · intro i node hg hi
    rcases hnew i node hg with ⟨rfl, rfl⟩ | ⟨-, hg⟩
    · exact ⟨p, hp, rfl⟩
    · exact h.parent_lt i node hg hi
  · intro q node c hg hc
    rcases hnew q node hg with ⟨-, rfl⟩ | ⟨-, hg⟩
    · simp at hc
    · exact parentOf_alloc (h.child_parent q node c hg hc)
  · intro q node hg
    rcases hnew q node hg with ⟨-, rfl⟩ | ⟨-, hg⟩
    · exact List.Pairwise.nil
    · exact h.children_sorted q node hg
  · intro q node c hg hc
    rcases hnew q node hg with ⟨-, rfl⟩ | ⟨-, hg⟩
    · simp [hheld] at hc
    · exact parentOf_alloc (h.held_parent q node c hg hc)
  · intro i node hg hj
    rcases hnew i node hg with ⟨-, rfl⟩ | ⟨-, hg⟩
    · exact ⟨p, rfl, (hjump hj).alloc⟩
    · obtain ⟨q, hq, hu⟩ := h.jump_under_loop i node hg hj
      exact ⟨q, hq, hu.alloc⟩

/-- Listing `c` as the last child of `p`, when `c` names `p` as its parent and comes after
    `p`'s other children. -/
theorem appendChild (h : t.WellFormed) {p c : Nat} (hc : t.parentOf c = some p)
    (hlt : ∀ node, t.get? p = some node → ∀ x ∈ node.children, x < c) :
    (t.modify p fun n => { n with children := n.children ++ [c] }).WellFormed := by
  have hpar := parentOf_modify t p (fun n => { n with children := n.children ++ [c] }) fun _ => rfl
  have hget : ∀ i node, (t.modify p fun n => { n with children := n.children ++ [c] }).get? i =
      some node → ∃ node₀, t.get? i = some node₀ ∧ node.parent = node₀.parent ∧
        node.kind = node₀.kind ∧ (node.children = node₀.children ∨
          (i = p ∧ node.children = node₀.children ++ [c])) := by
    intro i node hg
    rw [get?_modify] at hg
    split at hg
    · next hi =>
      subst hi
      obtain ⟨node₀, hg₀, rfl⟩ := Option.map_eq_some_iff.1 hg
      exact ⟨node₀, hg₀, rfl, rfl, .inr ⟨rfl, rfl⟩⟩
    · exact ⟨node, hg, rfl, rfl, .inl rfl⟩
  refine ⟨?_, ?_, ?_, ?_, ?_, ?_, ?_⟩
  · obtain ⟨node, hg, hr, hn⟩ := h.root
    rw [get?_modify, hg]
    split <;> exact ⟨_, rfl, hr, hn⟩
  · intro i node hg hr
    obtain ⟨node₀, hg₀, -, hk, -⟩ := hget i node hg
    exact h.root_only i node₀ hg₀ (hk ▸ hr)
  · intro i node hg hi
    obtain ⟨node₀, hg₀, hp, -, -⟩ := hget i node hg
    rw [hp]
    exact h.parent_lt i node₀ hg₀ hi
  · intro q node x hg hx
    obtain ⟨node₀, hg₀, -, -, hch⟩ := hget q node hg
    rw [hpar]
    rcases hch with hch | ⟨rfl, hch⟩
    · exact h.child_parent q node₀ x hg₀ (hch ▸ hx)
    · rw [hch, List.mem_append, List.mem_singleton] at hx
      rcases hx with hx | rfl
      · exact h.child_parent q node₀ x hg₀ hx
      · exact hc
  · intro q node hg
    obtain ⟨node₀, hg₀, -, -, hch⟩ := hget q node hg
    rcases hch with hch | ⟨rfl, hch⟩
    · exact hch ▸ h.children_sorted q node₀ hg₀
    · rw [hch, List.pairwise_append]
      refine ⟨h.children_sorted q node₀ hg₀, List.pairwise_singleton _ _, ?_⟩
      intro a ha b hb
      rw [List.mem_singleton] at hb
      exact hb ▸ hlt node₀ hg₀ a ha
  · intro q node x hg hx
    obtain ⟨node₀, hg₀, -, hk, -⟩ := hget q node hg
    rw [hpar]
    exact h.held_parent q node₀ x hg₀ (hk ▸ hx)
  · intro i node hg hj
    obtain ⟨node₀, hg₀, hp, hk, -⟩ := hget i node hg
    obtain ⟨q, hq, hu⟩ := h.jump_under_loop i node₀ hg₀ (hk ▸ hj)
    exact ⟨q, hp ▸ hq, hu.modify fun _ _ => ⟨rfl, rfl, rfl⟩⟩

/-- Changing what node `id` holds, keeping its shape, when every node the new kind holds names
    `id` as its parent. -/
theorem modifyKind (h : t.WellFormed) {id : Nat} {f : NodeKind → NodeKind}
    (hf : ∀ node, t.get? id = some node → NodeKind.SameShape node.kind (f node.kind) ∧
      ∀ x ∈ (f node.kind).held, t.parentOf x = some id) :
    (t.modifyKind id f).WellFormed := by
  unfold Tree.modifyKind
  have hpar := parentOf_modify t id (fun n => { n with kind := f n.kind }) fun _ => rfl
  have hget : ∀ i node, (t.modify id fun n => { n with kind := f n.kind }).get? i = some node →
      ∃ node₀, t.get? i = some node₀ ∧ node.parent = node₀.parent ∧
        node.children = node₀.children ∧ NodeKind.SameShape node₀.kind node.kind ∧
        (node.kind = node₀.kind ∨ (i = id ∧ node.kind = f node₀.kind)) := by
    intro i node hg
    rw [get?_modify] at hg
    split at hg
    · next hi =>
      subst hi
      obtain ⟨node₀, hg₀, rfl⟩ := Option.map_eq_some_iff.1 hg
      exact ⟨node₀, hg₀, rfl, rfl, (hf node₀ hg₀).1, .inr ⟨rfl, rfl⟩⟩
    · exact ⟨node, hg, rfl, rfl, .refl _, .inl rfl⟩
  refine ⟨?_, ?_, ?_, ?_, ?_, ?_, ?_⟩
  · obtain ⟨node, hg, hr, hn⟩ := h.root
    obtain ⟨node', hg'⟩ := get?_of_lt (t := t.modify id fun n => { n with kind := f n.kind })
      (by simpa using lt_size_of_get? hg)
    obtain ⟨node₀, hg₀, hp, -, hs, -⟩ := hget 0 node' hg'
    rw [hg] at hg₀
    cases hg₀
    exact ⟨node', hg', hs.root ▸ hr, hp ▸ hn⟩
  · intro i node hg hr
    obtain ⟨node₀, hg₀, -, -, hs, -⟩ := hget i node hg
    exact h.root_only i node₀ hg₀ (hs.root ▸ hr)
  · intro i node hg hi
    obtain ⟨node₀, hg₀, hp, -, -, -⟩ := hget i node hg
    rw [hp]
    exact h.parent_lt i node₀ hg₀ hi
  · intro q node x hg hx
    obtain ⟨node₀, hg₀, -, hch, -, -⟩ := hget q node hg
    rw [hpar]
    exact h.child_parent q node₀ x hg₀ (hch ▸ hx)
  · intro q node hg
    obtain ⟨node₀, hg₀, -, hch, -, -⟩ := hget q node hg
    exact hch ▸ h.children_sorted q node₀ hg₀
  · intro q node x hg hx
    obtain ⟨node₀, hg₀, -, -, -, hk⟩ := hget q node hg
    rw [hpar]
    rcases hk with hk | ⟨rfl, hk⟩
    · exact h.held_parent q node₀ x hg₀ (hk ▸ hx)
    · exact (hf node₀ hg₀).2 x (hk ▸ hx)
  · intro i node hg hj
    obtain ⟨node₀, hg₀, hp, -, hs, -⟩ := hget i node hg
    obtain ⟨q, hq, hu⟩ := h.jump_under_loop i node₀ hg₀ (hs.jump ▸ hj)
    refine ⟨q, hp ▸ hq, hu.modify fun n hn => ?_⟩
    have hs' := (hf n hn).1
    exact ⟨rfl, hs'.loop, hs'.method⟩

/-- Attaching a node that names `p` as its parent and comes after `p`'s children. -/
theorem attach (h : t.WellFormed) {p c : Nat} (hc : t.parentOf c = some p)
    (hlt : ∀ node, t.get? p = some node → ∀ x ∈ node.children, x < c) :
    (t.attach p c).WellFormed := by
  rw [attach_eq hc]
  exact h.appendChild hc hlt

/-- Adding a node as the last child of an existing node. -/
theorem add (h : t.WellFormed) {p : Nat} {name : String} {line : Nat} {kind : NodeKind}
    (hp : p < t.size) (hheld : kind.held = []) (hroot : kind.isRoot = false)
    (hjump : kind.isJump → t.UnderLoop p) :
    (t.add p name line kind).2.WellFormed := by
  rw [add_eq]
  refine (h.alloc hp hheld hroot hjump).appendChild (parentOf_alloc_self t p name line kind) ?_
  intro node hg x hx
  rw [get?_alloc_of_lt hp] at hg
  exact h.child_lt hg hx

/-- The tree of a file before anything is read: the root alone. -/
theorem empty : Tree.empty.WellFormed := by
  have hget : ∀ id node, Tree.empty.get? id = some node → id = 0 ∧ node = rootNode := by
    intro id node h
    obtain ⟨hlt, hn⟩ := get?_eq_some_iff.1 h
    have h0 : id = 0 := by
      simp only [Tree.empty, size, List.size_toArray, List.length_singleton] at hlt
      omega
    subst h0
    exact ⟨rfl, hn.symm⟩
  refine ⟨⟨rootNode, rfl, rfl, rfl⟩, fun id node h _ => (hget id node h).1, fun id node h hid =>
    absurd (hget id node h).1 hid, ?_, ?_, ?_, ?_⟩
  · intro p node c h hc
    rw [(hget p node h).2] at hc
    nomatch hc
  · intro p node h
    rw [(hget p node h).2]
    exact List.Pairwise.nil
  · intro p node c h hc
    rw [(hget p node h).2] at hc
    nomatch hc
  · intro id node h hj
    rw [(hget id node h).2] at hj
    nomatch hj

end WellFormed

end Tree

end ZScript
