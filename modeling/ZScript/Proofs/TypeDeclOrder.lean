import ZScript.Proofs.BodyReaders

/-!
# The order of a file's type declarations

`Tree.typeDecls` lists every class and struct of a file, nested ones included. The last phase
visits the type declarations in this order and creates the nodes of their method bodies as it
goes, so the order fixes the index of every node it creates.

The order is the preorder of the tree restricted to types (`Tree.TypePreorder`): the root's
children in turn, each class or struct followed by the same preorder of its own children, every
other node skipped together with everything under it. `typeDecls` computes it with an explicit
stack (`Tree.typeDeclsLoop`): it pops a node, and a class or struct is kept and its children
pushed, the first on top. `Tree.typePreorder_iff_typeDecls` shows that in a well-formed tree the
loop gives this preorder, and that nothing else is.

Two facts carry the proof. A run of the loop from a stack whose preorder is `out` appends `out`
to what it found, as long as its fuel covers the nodes it pops: the stack, and the children of
each type it keeps (`Tree.typeDeclsLoop_toList`). And in a well-formed tree those nodes are
distinct nodes of the tree (`Tree.nodup_pops`), since every node has one parent and siblings
have no node under both (`Tree.Beneath.total`), so `size` pops are enough. The preorder itself
exists by recursion on the depth (`Tree.typePreorder_typeDeclsFrom`): a node's children come
after it, so a chain of nested types climbs through distinct indices below the size.
-/

namespace ZScript

namespace Tree

/-- `TypePreorder t ids out`: `out` lists, for each of the nodes `ids` in turn, the node followed
    by the type preorder of its children when it is a class or a struct, and nothing when it is
    not. -/
inductive TypePreorder (t : Tree) : List Nat → List Nat → Prop
  | nil : TypePreorder t [] []
  | skip {id : Nat} {ids out : List Nat} : t.holds id NodeKind.isTypeDecl = false →
      TypePreorder t ids out → TypePreorder t (id :: ids) out
  | visit {id : Nat} {ids below rest : List Nat} : t.holds id NodeKind.isTypeDecl = true →
      TypePreorder t (t.children id) below → TypePreorder t ids rest →
      TypePreorder t (id :: ids) (id :: below ++ rest)

/-- A list of nodes has one type preorder at most. -/
theorem TypePreorder.unique {t : Tree} {ids out out' : List Nat} (h : t.TypePreorder ids out)
    (h' : t.TypePreorder ids out') : out = out' := by
  induction h generalizing out' with
  | nil => cases h'; rfl
  | skip hk _ ih =>
    cases h' with
    | skip _ h' => exact ih h'
    | visit hk' _ _ => rw [hk] at hk'; cases hk'
  | visit hk _ _ ihb ihr =>
    cases h' with
    | skip hk' _ => rw [hk] at hk'; cases hk'
    | visit _ hb hr => rw [ihb hb, ihr hr]

/-- A node listed among the children of `p` names `p` as its parent. -/
theorem WellFormed.parentOf_of_mem_children {t : Tree} (h : t.WellFormed) {p c : Nat}
    (hc : c ∈ t.children p) : t.parentOf c = some p := by
  cases hp : t.get? p with
  | none => simp [Tree.children, hp] at hc
  | some node =>
    rw [Tree.children, hp, Option.map_some, Option.getD_some] at hc
    exact h.child_parent p node c hp hc

/-- A well-formed tree lists a node's children after the node, and only nodes it has. -/
theorem WellFormed.lt_of_mem_children {t : Tree} (h : t.WellFormed) {p c : Nat}
    (hc : c ∈ t.children p) : p < c ∧ c < t.size := by
  have hparent := h.parentOf_of_mem_children hc
  obtain ⟨child, hchild⟩ := get?_of_lt (lt_size_of_parentOf hparent)
  rw [parentOf, hchild, Option.bind_some] at hparent
  -- the root has no parent, so the child is another node, whose parent comes before it
  have hc0 : c ≠ 0 := by
    rintro rfl
    obtain ⟨root, hroot, -, hnone⟩ := h.root
    rw [hroot, Option.some.injEq] at hchild
    rw [← hchild, hnone] at hparent
    cases hparent
  obtain ⟨q, hq, hcq⟩ := h.parent_lt c child hchild hc0
  rw [hcq, Option.some.injEq] at hparent
  exact ⟨hparent ▸ hq, lt_size_of_get? hchild⟩

/-- The type preorder by recursion: classes and structs among the given nodes and below them, each
    before those nested in it. `fuel` bounds the depth. -/
def typeDeclsFrom (t : Tree) : Nat → List Nat → List Nat
  | 0, _ => []
  | fuel + 1, ids => ids.flatMap fun id =>
    if t.holds id NodeKind.isTypeDecl then id :: typeDeclsFrom t fuel (t.children id) else []

theorem typeDeclsFrom_zero (t : Tree) (ids : List Nat) : t.typeDeclsFrom 0 ids = [] := rfl

theorem typeDeclsFrom_succ_cons (t : Tree) (fuel id : Nat) (ids : List Nat) :
    t.typeDeclsFrom (fuel + 1) (id :: ids) =
      (if t.holds id NodeKind.isTypeDecl then id :: t.typeDeclsFrom fuel (t.children id) else []) ++
        t.typeDeclsFrom (fuel + 1) ids := by
  simp [typeDeclsFrom]

/-- A node that does not exist is no class or struct. -/
theorem holds_of_size_le {t : Tree} {id : Nat} (h : t.size ≤ id) (p : NodeKind → Bool) :
    t.holds id p = false :=
  holds_of_get?_none (by simpa [get?, size] using h) p

/-- With depth `fuel` left, `typeDeclsFrom` gives the type preorder of nodes that lie at most
    `fuel` levels above the size. The induction is on the depth: the children of a class or
    struct lie above it, so they need one level less. -/
theorem typePreorder_typeDeclsFrom {t : Tree} (h : t.WellFormed) (fuel : Nat) (ids : List Nat)
    (hfuel : ∀ id ∈ ids, id < t.size → t.size ≤ id + fuel) :
    t.TypePreorder ids (t.typeDeclsFrom fuel ids) := by
  induction fuel generalizing ids with
  | zero =>
    -- no node of `ids` exists
    rw [typeDeclsFrom_zero]
    induction ids with
    | nil => exact .nil
    | cons id ids ih =>
      have hsize : t.size ≤ id := by
        by_contra hlt
        have := hfuel id List.mem_cons_self (by omega)
        omega
      exact .skip (holds_of_size_le hsize _)
        (ih fun i hi => hfuel i (List.mem_cons_of_mem id hi))
  | succ fuel ih =>
    induction ids with
    | nil => exact .nil
    | cons id ids ihids =>
      have hrest := ihids fun i hi => hfuel i (List.mem_cons_of_mem id hi)
      rw [typeDeclsFrom_succ_cons]
      cases hk : t.holds id NodeKind.isTypeDecl with
      | false => exact .skip hk hrest
      | true =>
        -- a class or struct exists, and its children lie above it
        have hid : id < t.size := by
          by_contra hge
          rw [holds_of_size_le (by omega)] at hk
          cases hk
        have hdepth := hfuel id List.mem_cons_self hid
        refine .visit hk (ih _ fun c hc _ => ?_) hrest
        have := (h.lt_of_mem_children hc).1
        omega

/-! ## The stack loop -/

/-- Preorders of two lists of nodes, one after the other. -/
theorem TypePreorder.append {t : Tree} {ids ids' out out' : List Nat} (h : t.TypePreorder ids out)
    (h' : t.TypePreorder ids' out') : t.TypePreorder (ids ++ ids') (out ++ out') := by
  induction h with
  | nil => exact h'
  | skip hk _ ih => exact .skip hk ih
  | visit hk hb _ _ ih => simpa only [List.cons_append, List.append_assoc] using .visit hk hb ih

/-- The nodes the loop pops when its stack is `ids` with type preorder `out`: the stack, and the
    children of every type it keeps. -/
def pops (t : Tree) (ids out : List Nat) : List Nat := ids ++ out.flatMap t.children

/-- Run from a stack whose type preorder is `out`, with fuel for every node it pops, the loop
    appends `out` to what it has found. The induction is on the fuel: each step pops one node,
    and a type it keeps leaves its children's preorder and the rest's on the stack. -/
theorem typeDeclsLoop_toList {t : Tree} {ids out : List Nat} (h : t.TypePreorder ids out)
    {fuel : Nat} (hfuel : (t.pops ids out).length ≤ fuel) (found : Array Nat) :
    (t.typeDeclsLoop fuel ids found).toList = found.toList ++ out := by
  induction fuel generalizing ids out found with
  | zero =>
    -- no fuel is left only when the stack is empty
    have hids : ids = [] :=
      List.eq_nil_of_length_eq_zero (by simp only [pops, List.length_append] at hfuel; omega)
    subst hids
    cases h
    simp [typeDeclsLoop]
  | succ fuel ih =>
    cases h with
    | nil => simp [typeDeclsLoop]
    | @skip id ids out hk hrest =>
      rw [typeDeclsLoop, if_neg (by simp [hk])]
      refine ih hrest ?_ found
      simp only [pops, List.length_append, List.length_cons] at hfuel ⊢
      omega
    | @visit id ids below rest hk hb hrest =>
      rw [typeDeclsLoop, if_pos hk, ih (hb.append hrest) ?_ (found.push id)]
      · simp
      · simp only [pops, List.flatMap_cons, List.flatMap_append, List.length_append,
          List.length_cons] at hfuel ⊢
        omega

/-! ## Nodes under a node -/

/-- `Beneath t z x`: node `x` is `z` or lies below it. -/
inductive Beneath (t : Tree) (z : Nat) : Nat → Prop
  | self : Beneath t z z
  | child {p c : Nat} : Beneath t z p → c ∈ t.children p → Beneath t z c

/-- Two nodes neither of which lies under the other. -/
def Apart (t : Tree) (z z' : Nat) : Prop := ¬t.Beneath z z' ∧ ¬t.Beneath z' z

section WellFormed

variable {t : Tree} (h : t.WellFormed)
include h

/-- A node is listed among the children of one node at most. -/
theorem WellFormed.eq_of_mem_children {p q c : Nat} (hp : c ∈ t.children p)
    (hq : c ∈ t.children q) : p = q := by
  have h' := h.parentOf_of_mem_children hq
  rw [h.parentOf_of_mem_children hp, Option.some.injEq] at h'
  exact h'

theorem WellFormed.pairwise_children (p : Nat) : (t.children p).Pairwise (· < ·) := by
  cases hp : t.get? p with
  | none => simp [Tree.children, hp]
  | some node =>
    rw [Tree.children, hp, Option.map_some, Option.getD_some]
    exact h.children_sorted p node hp

/-- A node lies under its ancestors, which come before it. -/
theorem Beneath.le {z x : Nat} (hu : t.Beneath z x) : z ≤ x := by
  induction hu with
  | self => exact Nat.le_refl z
  | child _ hc ih => exact Nat.le_of_lt (Nat.lt_of_le_of_lt ih (h.lt_of_mem_children hc).1)

omit h in
/-- What lies under a child lies under its parent. -/
theorem Beneath.of_child {p c x : Nat} (hu : t.Beneath c x) (hc : c ∈ t.children p) : t.Beneath p x := by
  induction hu with
  | self => exact .child .self hc
  | child _ hc' ih => exact .child ih hc'

/-- Two nodes over one node are one under the other: the parents above a node form one chain. -/
theorem Beneath.total {z z' x : Nat} (hz : t.Beneath z x) (hz' : t.Beneath z' x) :
    t.Beneath z z' ∨ t.Beneath z' z := by
  induction hz with
  | self => exact .inr hz'
  | @child p c hp hc ih =>
    cases hz' with
    | self => exact .inl (.child hp hc)
    | child hq hcq => exact ih (h.eq_of_mem_children hcq hc ▸ hq)

/-- Two children of one node are apart. -/
theorem apart_of_mem_children {p c c' : Nat} (hc : c ∈ t.children p) (hc' : c' ∈ t.children p)
    (hne : c ≠ c') : t.Apart c c' := by
  -- a sibling under `c` would put `c` under its own parent, which comes before it
  have hsib : ∀ {a b}, a ∈ t.children p → b ∈ t.children p → a ≠ b → ¬t.Beneath a b := by
    intro a b ha hb hab hu
    cases hu with
    | self => exact hab rfl
    | child hq hbq =>
      have hpa := (Beneath.le h (h.eq_of_mem_children hbq hb ▸ hq))
      have := (h.lt_of_mem_children ha).1
      omega
  exact ⟨hsib hc hc' hne, hsib hc' hc (Ne.symm hne)⟩

theorem pairwise_apart_children (p : Nat) : (t.children p).Pairwise t.Apart :=
  (List.Pairwise.and_mem.1 (h.pairwise_children p)).imp fun ⟨ha, hb, hab⟩ =>
    apart_of_mem_children h ha hb (Nat.ne_of_lt hab)

omit h in
/-- Each type the preorder lists lies under a node of the stack. -/
theorem TypePreorder.under {ids out : List Nat} (hpre : t.TypePreorder ids out) :
    ∀ x ∈ out, ∃ z ∈ ids, t.Beneath z x := by
  induction hpre with
  | nil => simp
  | skip _ _ ih =>
    intro x hx
    obtain ⟨z, hz, hu⟩ := ih x hx
    exact ⟨z, List.mem_cons_of_mem _ hz, hu⟩
  | @visit id ids below rest _ _ _ ihb ihr =>
    intro x hx
    rcases List.mem_cons.1 hx with rfl | hx
    · exact ⟨x, List.mem_cons_self, .self⟩
    rcases List.mem_append.1 hx with hx | hx
    · obtain ⟨c, hc, hu⟩ := ihb x hx
      exact ⟨id, List.mem_cons_self, hu.of_child hc⟩
    · obtain ⟨z, hz, hu⟩ := ihr x hx
      exact ⟨z, List.mem_cons_of_mem _ hz, hu⟩

/-- From a stack of nodes apart from each other, the preorder lists no type twice. -/
theorem TypePreorder.nodup {ids out : List Nat} (hpre : t.TypePreorder ids out)
    (hids : ids.Pairwise t.Apart) : out.Nodup := by
  induction hpre with
  | nil => exact List.nodup_nil
  | skip _ _ ih => exact ih (List.pairwise_cons.1 hids).2
  | @visit id ids below rest _ hb hr ihb ihr =>
    obtain ⟨hid, hids⟩ := List.pairwise_cons.1 hids
    -- what lies under `id` is neither `id`'s sibling nor under one
    have hbelow : ∀ x ∈ below, t.Beneath id x ∧ id < x := by
      intro x hx
      obtain ⟨c, hc, hu⟩ := hb.under x hx
      exact ⟨hu.of_child hc, Nat.lt_of_lt_of_le (h.lt_of_mem_children hc).1 (Beneath.le h hu)⟩
    refine List.nodup_cons.2 ⟨fun hmem => ?_, List.nodup_append.2
      ⟨ihb (pairwise_apart_children h id), ihr hids, fun x hx y hy hxy => ?_⟩⟩
    · rcases List.mem_append.1 hmem with hmem | hmem
      · exact Nat.lt_irrefl id (hbelow id hmem).2
      · obtain ⟨z, hz, hu⟩ := hr.under id hmem
        exact (hid z hz).2 hu
    · subst hxy
      obtain ⟨z, hz, hu⟩ := hr.under x hy
      rcases Beneath.total h (hbelow x hx).1 hu with hu' | hu'
      · exact (hid z hz).1 hu'
      · exact (hid z hz).2 hu'

/-- From a stack of nodes apart from each other, the loop pops no node twice. -/
theorem nodup_pops {ids out : List Nat} (hpre : t.TypePreorder ids out)
    (hids : ids.Pairwise t.Apart) : (t.pops ids out).Nodup := by
  have hout := hpre.nodup h hids
  refine List.nodup_append.2 ⟨hids.imp fun hzz => fun heq => hzz.1 (heq ▸ .self),
    List.nodup_flatMap.2 ⟨fun d _ => (h.pairwise_children d).imp Nat.ne_of_lt, ?_⟩,
    fun y hy x hx hxy => ?_⟩
  · -- distinct types have disjoint children
    exact hout.imp fun hne c hc hc' => hne (h.eq_of_mem_children hc hc')
  · -- a child of a kept type lies under a node of the stack, which is apart from its siblings
    subst hxy
    obtain ⟨d, hd, hyd⟩ := List.mem_flatMap.1 hx
    obtain ⟨z, hz, hu⟩ := hpre.under d hd
    by_cases hzy : z = y
    · subst hzy
      have := Beneath.le h hu
      have := (h.lt_of_mem_children hyd).1
      omega
    · have : Std.Symm t.Apart := ⟨fun _ _ hab => ⟨hab.2, hab.1⟩⟩
      exact (hids.forall hz hy hzy).1 (.child hu hyd)

end WellFormed

/-- In a well-formed tree, the type declarations are listed in type preorder from the root's
    children, and that preorder is the only list so made. -/
theorem typePreorder_iff_typeDecls {t : Tree} (h : t.WellFormed) (out : List Nat) :
    t.TypePreorder (t.children 0) out ↔ out = t.typeDecls := by
  have hpre : t.TypePreorder (t.children 0) (t.typeDeclsFrom (t.size + 1) (t.children 0)) :=
    typePreorder_typeDeclsFrom h (t.size + 1) _ fun _ _ _ => by omega
  -- the loop pops distinct nodes of the tree, so `size` pops are enough
  have hfuel : (t.pops (t.children 0) (t.typeDeclsFrom (t.size + 1) (t.children 0))).length ≤
      t.size := by
    refine ((nodup_pops h hpre (pairwise_apart_children h 0)).subperm fun x hx => ?_).length_le.trans
      (List.length_range (n := t.size)).le
    rcases List.mem_append.1 hx with hx | hx
    · exact List.mem_range.2 (h.lt_of_mem_children hx).2
    · obtain ⟨d, -, hxd⟩ := List.mem_flatMap.1 hx
      exact List.mem_range.2 (h.lt_of_mem_children hxd).2
  have hloop : t.typeDecls = t.typeDeclsFrom (t.size + 1) (t.children 0) := by
    rw [typeDecls, typeDeclsLoop_toList hpre hfuel #[]]
    rfl
  rw [hloop]
  exact ⟨fun hout => hout.unique hpre, fun hout => hout ▸ hpre⟩

end Tree

/-- The tree of `struct Outer { struct Inner {} } class Other {}`. -/
def Tree.nestedSample : Tree :=
  ((Tree.empty.add 0 "Outer" 1 (.structDecl {})).2.add 1 "Inner" 2 (.structDecl {})).2.add 0
    "Other" 3 (.classDecl {}) |>.2

/-- A nested struct comes right after the struct it is declared in. -/
theorem Tree.typePreorder_iff_typeDecls_nested :
    Tree.nestedSample.WellFormed ∧
      Tree.nestedSample.TypePreorder (Tree.nestedSample.children 0) [1, 2, 3] := by
  have hwf : Tree.nestedSample.WellFormed :=
    ((WellFormed.empty.add (by decide) rfl rfl (by simp [NodeKind.isJump])).add (by decide) rfl rfl
      (by simp [NodeKind.isJump])).add (by decide) rfl rfl (by simp [NodeKind.isJump])
  exact ⟨hwf, (Tree.typePreorder_iff_typeDecls hwf _).2 (by decide)⟩

end ZScript
