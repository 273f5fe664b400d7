import ZScript.Proofs.Handles

/-!
# Lookups answer alive handles

Every handle a lookup answers comes from a node that exists: a child of an existing node
(`View.members`), a node around the scope (`findLocal`), the `self` a type records, or an entry
of the project index. So in a view whose universe is fit for its file and whose own nodes hold
only alive handles (`View.Sound`), every lookup answers an alive handle, and every type it
derives (`typeOf`, `builtinType`) holds only alive handles.

The class chain needs no such fact: a chain may name a class that does not exist, but the lookups
through it answer only members of existing nodes.
-/

namespace ZScript

namespace View

/-- A handle alive in the view: a node of its own tree, of a tree its universe lends, or a
    builtin. -/
def Live (v : View) : Target → Prop := v.world.Live v.file v.tree.size

/-- A view fit for lookups: its universe is fit for its file, and the nodes of its own tree hold
    alive handles. -/
structure Sound (v : View) : Prop where
  world : v.world.Sound v.file v.tree.size
  nodes : ∀ id node, v.tree.get? id = some node → node.kind.AliveIn v.world v.file v.tree.size

section Lookups

variable {v : View}

/-- The node behind a handle is in the view's own tree or in a tree the universe lends. -/
theorem node?_cases {d : DeclRef} {node : Node} (h : v.node? d = some node) :
    (d.file = v.file ∧ v.tree.get? d.node = some node) ∨
      (d.file ≠ v.file ∧ ∃ t, v.world.trees[d.file]? = some (some t) ∧ t.get? d.node = some node) := by
  unfold node? at h
  split at h
  · next hf => exact .inl ⟨by simpa using hf, h⟩
  · next hf =>
    refine .inr ⟨by simpa using hf, ?_⟩
    unfold Universe.node? at h
    cases ht : v.world.trees[d.file]? with
    | none => simp [ht] at h
    | some t? =>
      cases t? with
      | none => simp [ht] at h
      | some t => exact ⟨t, rfl, by simpa [ht] using h⟩

/-- A handle with a node behind it is alive. -/
theorem live_of_node? {d : DeclRef} {node : Node} (h : v.node? d = some node) :
    v.Live (.decl d) := by
  rcases node?_cases h with ⟨hf, hg⟩ | ⟨hf, t, ht, hg⟩
  · simp only [Live, Universe.Live, if_pos hf]
    exact Tree.lt_size_of_get? hg
  · simp only [Live, Universe.Live, if_neg hf]
    exact ⟨t, ht, Tree.lt_size_of_get? hg⟩

/-- A member is a node behind its handle. -/
theorem node?_of_mem_members {d m : DeclRef} {node : Node} (h : (m, node) ∈ v.members d) :
    v.node? m = some node := by
  unfold members at h
  obtain ⟨c, _, hc⟩ := List.mem_filterMap.1 h
  obtain ⟨node', hnode, heq⟩ := Option.map_eq_some_iff.1 hc
  cases heq
  exact hnode

theorem live_of_mem_members {d m : DeclRef} {node : Node} (h : (m, node) ∈ v.members d) :
    v.Live (.decl m) :=
  live_of_node? (node?_of_mem_members h)

/-- A type nested in a class of the chain is one of its members. -/
theorem live_findNestedType {owner d : DeclRef} {n : String} (h : v.findNestedType owner n = some d) :
    v.Live (.decl d) := by
  unfold findNestedType at h
  obtain ⟨c, _, hc⟩ := List.exists_of_findSome?_eq_some h
  obtain ⟨⟨m, node⟩, hfind, rfl⟩ := Option.map_eq_some_iff.1 hc
  exact live_of_mem_members (List.mem_of_find?_eq_some hfind)

/-- A member found directly inside `owner` is one of its members or a member of one of them. -/
theorem live_findMember {owner d : DeclRef} {n : String} (h : v.findMember owner n = some d) :
    v.Live (.decl d) := by
  unfold findMember at h
  obtain ⟨⟨m, node⟩, hm, hd⟩ := List.exists_of_findSome?_eq_some h
  dsimp only at hd
  -- a field, method, constant or property answers itself when it has the name
  have named : (if node.isNamed n then some m else none) = some d → v.Live (.decl d) := by
    intro h
    split at h
    · cases h
      exact live_of_mem_members hm
    · cases h
  split at hd
  · exact named hd
  · exact named hd
  · exact named hd
  · exact named hd
  · -- an enum answers its value with that name
    obtain ⟨⟨m', node'⟩, hfind, rfl⟩ := Option.map_eq_some_iff.1 hd
    exact live_of_mem_members (List.mem_of_find?_eq_some hfind)
  · cases hd

theorem live_findMemberInChain {owner d : DeclRef} {n : String}
    (h : v.findMemberInChain owner n = some d) : v.Live (.decl d) := by
  obtain ⟨c, _, hc⟩ := List.exists_of_findSome?_eq_some h
  exact live_findMember hc

/-- A local found around a scope is a node of the view's own tree. -/
theorem live_findLocal_go {n : String} :
    ∀ (ids : List Nat) {d : DeclRef}, findLocal.go v n ids = some d → v.Live (.decl d)
  | [], _, h => by simp [findLocal.go] at h
  | id :: ids, d, h => by
    rw [findLocal.go] at h
    dsimp only at h
    split at h
    · cases h
    · split at h
      · next c hc =>
        cases h
        have hany := List.find?_some hc
        obtain ⟨l, hl, _⟩ := (Option.any_eq_true _ _).1 hany
        simp only [Live, Universe.Live, if_pos]
        exact Tree.lt_size_of_get? hl
      · exact live_findLocal_go ids h
    · exact live_findLocal_go ids h

theorem live_findLocal {n : String} {scope : Nat} {d : DeclRef} (h : v.findLocal n scope = some d) :
    v.Live (.decl d) :=
  live_findLocal_go _ h

/-- A builtin type refers to its catalog entry. -/
theorem builtinType_handles {n : String} {ty : Ty} (h : builtinType n = some ty) :
    ∀ r ∈ ty.handles, v.Live r := by
  unfold builtinType at h
  obtain ⟨i, hi, rfl⟩ := Option.map_eq_some_iff.1 h
  intro r hr
  simp only [Ty.handles_named, Option.toList_some, List.mem_singleton] at hr
  subst hr
  unfold Builtin.find? at hi
  exact (List.findIdx?_eq_some_iff_findIdx_eq.1 hi).1

/-- Each further dotted part is a type nested in the one before. -/
theorem live_foldl_findNestedType (parts : List String) :
    ∀ {acc : Option DeclRef}, (∀ d, acc = some d → v.Live (.decl d)) → ∀ {d : DeclRef},
      parts.foldl (fun acc part => acc.bind (v.findNestedType · part)) acc = some d →
        v.Live (.decl d) := by
  induction parts with
  | nil => exact fun hacc => hacc _
  | cons p ps ih =>
    intro acc _
    refine ih fun d hd => ?_
    obtain ⟨c, _, hc⟩ := Option.bind_eq_some_iff.1 hd
    exact live_findNestedType hc

variable (hv : v.Sound)
include hv

/-- The handles a node holds are alive. -/
theorem Sound.handles_of_node? {d : DeclRef} {node : Node} (h : v.node? d = some node) :
    ∀ r ∈ node.kind.handles, v.Live r := by
  rcases node?_cases h with ⟨_, hg⟩ | ⟨_, t, ht, hg⟩
  · exact (hv.nodes _ _ hg).handles
  · exact hv.world.handles _ t ht _ _ hg

/-- The `self` a node records is alive. -/
theorem Sound.live_self {d : DeclRef} {node : Node} (h : v.node? d = some node) {x : Nat}
    (hx : x ∈ node.kind.selfVar?) : v.Live (.decl ⟨d.file, x⟩) := by
  rcases node?_cases h with ⟨hf, hg⟩ | ⟨hf, t, ht, hg⟩
  · simp only [Live, Universe.Live, if_pos hf]
    exact (hv.nodes _ _ hg).self x hx
  · simp only [Live, Universe.Live, if_neg hf]
    exact ⟨t, ht, hv.world.selves _ t ht _ _ hg x hx⟩

theorem Sound.live_selfVar {d s : DeclRef} (h : v.selfVar d = some s) : v.Live (.decl s) := by
  unfold selfVar at h
  obtain ⟨node, hnode, h⟩ := Option.bind_eq_some_iff.1 h
  obtain ⟨info, hinfo, h⟩ := Option.bind_eq_some_iff.1 h
  obtain ⟨x, hx, rfl⟩ := Option.map_eq_some_iff.1 h
  exact hv.live_self hnode (by simp [NodeKind.selfVar?, hinfo, hx])

theorem Sound.live_indexType {n : String} {d : DeclRef} (h : v.indexType n = some d) :
    v.Live (.decl d) :=
  hv.world.types _ d h

theorem Sound.live_findSymbol {n : String} {d : DeclRef} (h : v.world.index.findSymbol n = some d) :
    v.Live (.decl d) :=
  hv.world.symbols _ d h

theorem Sound.live_resolveTypeRoot (n : String) (fuel : Nat) :
    ∀ {context : Option DeclRef} {d : DeclRef}, v.resolveTypeRoot n fuel context = some d →
      v.Live (.decl d) := by
  induction fuel with
  | zero =>
    intro _ _ h
    exact hv.live_indexType (by simpa [resolveTypeRoot] using h)
  | succ fuel ih =>
    intro context d h
    cases context with
    | none => exact hv.live_indexType (by simpa [resolveTypeRoot] using h)
    | some c =>
      simp only [resolveTypeRoot] at h
      split at h
      · next found hf =>
        cases h
        exact live_findNestedType hf
      · exact ih h

theorem Sound.live_resolveType {n : String} {context : Option DeclRef} {d : DeclRef}
    (h : v.resolveType n context = some d) : v.Live (.decl d) := by
  unfold resolveType at h
  split at h
  · cases h
  · dsimp only at h
    exact live_foldl_findNestedType _ (fun _ hd => hv.live_resolveTypeRoot _ _ hd) h

theorem Sound.live_resolveQualified {n : String} {d : DeclRef} (h : v.resolveQualified n = some d) :
    v.Live (.decl d) := by
  obtain ⟨_, _, hd⟩ := List.exists_of_findSome?_eq_some h
  exact hv.live_resolveType hd

/-- What an identifier names: the `self` of a type, a local, a member of the class chain, or a
    global constant. -/
theorem Sound.live_resolveSymbol {n : String} {scope : Option Nat} {context : Option DeclRef}
    {d : DeclRef} (h : v.resolveSymbol n scope context = some d) : v.Live (.decl d) := by
  unfold resolveSymbol at h
  split at h
  · obtain ⟨c, _, hc⟩ := Option.bind_eq_some_iff.1 h
    exact hv.live_selfVar hc
  · split at h
    · obtain ⟨c, _, hc⟩ := Option.bind_eq_some_iff.1 h
      exact hv.live_selfVar hc
    · -- the first of the three searches that finds something
      cases hl : scope.bind (v.findLocal n ·) with
      | some l =>
        rw [hl] at h
        obtain ⟨s, _, hs⟩ := Option.bind_eq_some_iff.1 hl
        cases h
        exact live_findLocal hs
      | none =>
        rw [hl] at h
        cases hm : context.bind (v.findMemberInChain · n) with
        | some l =>
          simp only [hm, Option.orElse] at h
          obtain ⟨c, _, hc⟩ := Option.bind_eq_some_iff.1 hm
          cases h
          exact live_findMemberInChain hc
        | none =>
          simp only [hm, Option.orElse] at h
          exact hv.live_findSymbol h

/-- The static type of a declaration holds only alive handles: it is stored in the node, in an
    initializer under it, or names the declaration itself. -/
theorem Sound.typeOf_handles {d : DeclRef} {ty : Ty} (h : v.typeOf d = some ty) :
    ∀ r ∈ ty.handles, v.Live r := by
  unfold typeOf at h
  obtain ⟨node, hnode, hty⟩ := Option.bind_eq_some_iff.1 h
  have hk := hv.handles_of_node? hnode
  -- the type of a class, struct or enum names the declaration itself
  have self : ∀ r ∈ (Ty.named (v.fullName d) (some (.decl d))).handles, v.Live r := by
    intro r hr
    simp only [Ty.handles_named, Option.toList_some, List.mem_singleton] at hr
    exact hr ▸ live_of_node? hnode
  intro r hr
  split at hty
  · next f hf =>
    cases hty
    exact hk r (by simp [hf, NodeKind.handles, hr])
  · next m hm =>
    cases hret : m.returns with
    | nil => simp [hret] at hty
    | cons t ts =>
      rw [hret, List.head?_cons, Option.some.injEq] at hty
      subst hty
      exact hk r (by simp [hm, hret, NodeKind.handles, hr])
  · next t flags ht =>
    cases hty
    exact hk r (by simp [ht, NodeKind.handles, hr])
  · -- a local without a written type has the type of its initializer
    obtain ⟨c, _, hc⟩ := List.exists_of_findSome?_eq_some hty
    split at hc
    · next e hce =>
      have hkc := hv.handles_of_node? hce
      obtain ⟨op, assign, leaves, operators, special, type⟩ := e
      simp only at hc
      subst hc
      exact hkc r (by simp [NodeKind.handles, hr])
    · cases hc
  · next value hv' =>
    obtain ⟨e, rfl, he⟩ := Option.bind_eq_some_iff.1 hty
    obtain ⟨op, assign, leaves, operators, special, type⟩ := e
    cases he
    exact hk r (by simp [hv', NodeKind.handles, hr])
  · cases hty
    exact self r hr
  · cases hty
    exact self r hr
  · cases hty
    exact self r hr
  · cases hty

end Lookups

end View

/-- The view of an alive analysis in a universe fit for it is fit for lookups. -/
theorem Alive.view {u : Universe} {i m : Nat} {a : Analysis} (h : Alive u i m a)
    (hu : u.Sound i m) : View.Sound ⟨a.file, a.tree, u⟩ := by
  obtain ⟨hf, hsize, _, hnodes⟩ := h
  subst hf
  exact ⟨hu.mono hsize, hnodes⟩

end ZScript
