import ZScript.Proofs.SkeletonGrammar
import ZScript.Proofs.Arena

/-!
# The items a root lists

The first reading of a file adds each include, class, struct and constant as the last child of
the root, and creates an enum first, adds its members under it, and lists it under the root last.
`Tree.ListsItems t is` says that the root of `t` lists exactly the items `is`, in order, each a
node after the root; `Tree.Pending t is e item` says the same of a tree in which the node `e`,
created after every child of the root, stands for `item` but is not listed yet.

Each change the reader makes moves these facts along: adding under the root appends one item
(`Tree.ListsItems.add`), creating the enum makes it pending (`Tree.ListsItems.alloc`), adding
and changing its members keeps it pending (`Tree.Pending.add`, `Tree.Pending.modifyKind`), and
listing it appends it (`Tree.Pending.attach`).
-/

namespace ZScript

namespace Node

@[simp] theorem topItem?_withChildren (n : Node) (cs : List Nat) :
    ({ n with children := cs } : Node).topItem? = n.topItem? := rfl

@[simp] theorem topItem?_withParent (n : Node) (p : Option Nat) :
    ({ n with parent := p } : Node).topItem? = n.topItem? := rfl

end Node

namespace Tree

/-- The root lists the items of its children, in order: only what the children's nodes stand for
    and the list of children count. -/
theorem topItems_of_frame {t t' : Tree} {extra : List Nat}
    (hc : t'.children 0 = t.children 0 ++ extra)
    (hold : ∀ id ∈ t.children 0, (t'.get? id).bind Node.topItem? = (t.get? id).bind Node.topItem?) :
    t'.topItems = t.topItems ++ extra.map fun id => (t'.get? id).bind Node.topItem? := by
  unfold topItems
  rw [hc, List.map_append]
  congr 1
  exact List.map_congr_left hold

/-- A root with the same children, whose nodes stand for the same items, lists the same items. -/
theorem topItems_of_same {t t' : Tree} (hc : t'.children 0 = t.children 0)
    (hold : ∀ id ∈ t.children 0, (t'.get? id).bind Node.topItem? = (t.get? id).bind Node.topItem?) :
    t'.topItems = t.topItems := by
  unfold topItems
  rw [hc]
  exact List.map_congr_left hold

/-- The root of `t` lists exactly the items `is`, each a node after the root. -/
structure ListsItems (t : Tree) (is : List TopItem) : Prop where
  size_pos : 0 < t.size
  children : ∀ id ∈ t.children 0, 0 < id ∧ id < t.size
  items : t.topItems = is.map some

/-- The root of `t` lists the items `is`, and node `e`, made after all of them, stands for `item`
    without being listed yet. -/
structure Pending (t : Tree) (is : List TopItem) (e : Nat) (item : TopItem) : Prop where
  lists : t.ListsItems is
  pos : 0 < e
  after : ∀ id ∈ t.children 0, id < e
  lt_size : e < t.size
  item : (t.get? e).bind Node.topItem? = some item

/-- The children of a node other than the one changed stay as they were. -/
theorem children_modify_of_ne {t : Tree} {id p : Nat} {f : Node → Node} (h : id ≠ p) :
    (t.modify id f).children p = t.children p := by
  simp only [children, get?_modify_of_ne h]

theorem children_alloc_of_lt {t : Tree} {parent : Option Nat} {name : String} {line : Nat}
    {kind : NodeKind} {p : Nat} (h : p < t.size) :
    (t.alloc parent name line kind).2.children p = t.children p := by
  simp only [children, get?_alloc_of_lt h]

/-- Appending to the children of `p` appends to its list of children. -/
theorem children_appendChild {t : Tree} {p c : Nat} (h : p < t.size) :
    (t.modify p fun n => { n with children := n.children ++ [c] }).children p =
      t.children p ++ [c] := by
  obtain ⟨node, hg⟩ := get?_of_lt h
  simp [children, get?_modify, hg]

namespace ListsItems

/-- A tree with only its root lists no item. -/
theorem empty : Tree.empty.ListsItems [] where
  size_pos := by decide
  children _ h := by
    rw [show Tree.empty.children 0 = [] from rfl] at h
    cases h
  items := rfl

variable {t : Tree} {is : List TopItem}

/-- Adding a node that stands for `item` under the root lists one more item. -/
theorem add (h : t.ListsItems is) {name : String} {line : Nat} {kind : NodeKind} {item : TopItem}
    (hk : (⟨name, some 0, [], line, kind⟩ : Node).topItem? = some item) :
    (t.add 0 name line kind).2.ListsItems (is ++ [item]) := by
  have hsize := h.size_pos
  rw [add_eq]
  dsimp only
  have hc : ((t.alloc (some 0) name line kind).2.modify 0
      fun n => { n with children := n.children ++ [t.size] }).children 0 =
        t.children 0 ++ [t.size] := by
    rw [children_appendChild (by simp), children_alloc_of_lt hsize]
  have hold : ∀ id ∈ t.children 0, ((t.alloc (some 0) name line kind).2.modify 0
      fun n => { n with children := n.children ++ [t.size] }).get? id = t.get? id := by
    intro id hid
    obtain ⟨hpos, hlt⟩ := h.children id hid
    rw [get?_modify_of_ne (by omega), get?_alloc_of_lt hlt]
  refine ⟨by simp, fun id hid => ?_, ?_⟩
  · rw [hc] at hid
    rcases List.mem_append.1 hid with hid | hid
    · have := h.children id hid
      simp only [size_modify, size_alloc]
      omega
    · obtain rfl := List.mem_singleton.1 hid
      simp only [size_modify, size_alloc]
      omega
  · rw [topItems_of_frame hc fun id hid => by rw [hold id hid], h.items]
    simp only [List.map_cons, List.map_nil, List.map_append]
    rw [get?_modify_of_ne (by omega), get?_alloc, if_pos rfl]
    simp [hk]

/-- Creating a node that stands for `item` under the root, without listing it, makes it
    pending. -/
theorem alloc (h : t.ListsItems is) {name : String} {line : Nat} {kind : NodeKind} {item : TopItem}
    (hk : (⟨name, some 0, [], line, kind⟩ : Node).topItem? = some item) :
    (t.alloc (some 0) name line kind).2.Pending is t.size item := by
  have hsize := h.size_pos
  have hc : (t.alloc (some 0) name line kind).2.children 0 = t.children 0 :=
    children_alloc_of_lt hsize
  refine ⟨⟨by simp, fun id hid => ?_, ?_⟩, hsize, fun id hid => ?_, by simp, ?_⟩
  · rw [hc] at hid
    have := h.children id hid
    simp only [size_alloc]
    omega
  · rw [← h.items]
    exact topItems_of_same hc fun id hid => by rw [get?_alloc_of_lt (h.children id hid).2]
  · rw [hc] at hid
    exact (h.children id hid).2
  · rw [get?_alloc, if_pos rfl]
    simpa using hk

/-- Changing what a node other than a listed one holds keeps the items listed. -/
theorem modifyKind (h : t.ListsItems is) {id : Nat} {f : NodeKind → NodeKind}
    (hid : ∀ c ∈ t.children 0, c ≠ id) : (t.modifyKind id f).ListsItems is := by
  have hc : (t.modifyKind id f).children 0 = t.children 0 := by
    unfold Tree.modifyKind Tree.children
    rw [get?_modify]
    split
    · next h0 =>
      subst h0
      cases t.get? 0 <;> rfl
    · rfl
  refine ⟨by simpa using h.size_pos, fun c hc' => ?_, ?_⟩
  · rw [hc] at hc'
    simpa using h.children c hc'
  · rw [← h.items]
    exact topItems_of_same hc fun c hc' => by
      unfold Tree.modifyKind
      rw [get?_modify_of_ne (hid c hc').symm]

end ListsItems

namespace Pending

variable {t : Tree} {is : List TopItem} {e : Nat} {item : TopItem}

/-- Adding a node under the pending node keeps it pending; the new node comes after it. -/
theorem add (h : t.Pending is e item) (name : String) (line : Nat) (kind : NodeKind) :
    (t.add e name line kind).2.Pending is e item ∧ e < (t.add e name line kind).1 := by
  have hsize := h.lists.size_pos
  have he := h.lt_size
  rw [add_eq]
  dsimp only
  have hc : ((t.alloc (some e) name line kind).2.modify e
      fun n => { n with children := n.children ++ [t.size] }).children 0 = t.children 0 := by
    rw [children_modify_of_ne (by have := h.pos; omega), children_alloc_of_lt hsize]
  have hold : ∀ id, id < t.size → id ≠ e → ((t.alloc (some e) name line kind).2.modify e
      fun n => { n with children := n.children ++ [t.size] }).get? id = t.get? id := by
    intro id hlt hne
    rw [get?_modify_of_ne (Ne.symm hne), get?_alloc_of_lt hlt]
  refine ⟨⟨⟨by simp, fun id hid => ?_, ?_⟩, h.pos, fun id hid => ?_, by simp; omega, ?_⟩, he⟩
  · rw [hc] at hid
    have := h.lists.children id hid
    simp only [size_modify, size_alloc]
    omega
  · rw [← h.lists.items]
    exact topItems_of_same hc fun id hid => by
      rw [hold id (h.lists.children id hid).2 (Nat.ne_of_lt (h.after id hid))]
  · rw [hc] at hid
    exact h.after id hid
  · rw [get?_modify, if_pos rfl, get?_alloc_of_lt he, ← h.item]
    cases t.get? e <;> rfl

/-- Changing what a node after the pending one holds keeps it pending. -/
theorem modifyKind (h : t.Pending is e item) {id : Nat} (hid : e < id) (f : NodeKind → NodeKind) :
    (t.modifyKind id f).Pending is e item := by
  refine ⟨h.lists.modifyKind fun c hc => Nat.ne_of_lt ((h.after c hc).trans hid), h.pos,
    fun c hc => ?_, by simpa using h.lt_size, ?_⟩
  · have hc' : (t.modifyKind id f).children 0 = t.children 0 := by
      unfold Tree.modifyKind
      rw [children_modify_of_ne (by have := h.pos; omega)]
    rw [hc'] at hc
    exact h.after c hc
  · unfold Tree.modifyKind
    rw [get?_modify_of_ne (Nat.ne_of_gt hid), h.item]

/-- Listing the pending node under the root lists its item last. -/
theorem attach (h : t.Pending is e item) : (t.attach 0 e).ListsItems (is ++ [item]) := by
  have hsize := h.lists.size_pos
  have he := h.lt_size
  unfold Tree.attach
  have hc : ((t.modify e fun n => { n with parent := some 0 }).modify 0
      fun n => { n with children := n.children ++ [e] }).children 0 = t.children 0 ++ [e] := by
    rw [children_appendChild (by simpa using hsize), children_modify_of_ne (by have := h.pos; omega)]
  refine ⟨by simpa using hsize, fun id hid => ?_, ?_⟩
  · rw [hc] at hid
    rcases List.mem_append.1 hid with hid | hid
    · simpa using h.lists.children id hid
    · obtain rfl := List.mem_singleton.1 hid
      simpa using ⟨h.pos, he⟩
  · rw [topItems_of_frame hc fun id hid => ?_, h.lists.items]
    · simp only [List.map_cons, List.map_nil, List.map_append]
      rw [get?_modify_of_ne (by have := h.pos; omega), get?_modify, if_pos rfl]
      have hi := h.item
      cases hg : t.get? e with
      | none => rw [hg] at hi; cases hi
      | some node =>
        rw [hg] at hi
        simpa using hi
    · have hlt := h.after id hid
      have hpos := (h.lists.children id hid).1
      rw [get?_modify_of_ne (by omega), get?_modify_of_ne (by omega)]

end Pending

end Tree

end ZScript
