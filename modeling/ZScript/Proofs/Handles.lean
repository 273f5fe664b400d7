import ZScript.Proofs.WellFormedTrees

/-!
# Handles and where they are alive

A handle names a node of a file (`Target.decl`) or an entry of the builtin catalog
(`Target.builtin`). An analysis stores handles in its semantic tokens and in its nodes: the links
of a class, and the written or derived types that fields, locals, method returns, enum bases and
expressions hold, with the types and expressions under them (`NodeKind.handles`).

A handle is alive in a project when it names an existing node of a document that has an analysis
(`Project.Live`). While a file is analysed it sees the other files through a universe, so the
same notion is stated for a file of `n` nodes in a universe (`Universe.Live`): its own nodes below
`n`, and the nodes of the trees the universe lends. `Alive` is what the analysis of one file keeps,
and `Universe.Sound` what it may assume of the universe.

A file is analysed in one universe, so these invariants are carried by triples relative to that
universe (`Step.TripleIn`, `Parse.TripleIn`), whose rules are those of `Step.Triple` and
`Parse.Triple`.
-/

namespace ZScript

/-! ## The handles of types, expressions and nodes -/

mutual

/-- The handles a type holds: its own, and those of its arguments and of the sizes of its
    dimensions. -/
def Ty.handles : Ty → List Target
  | ⟨_, ref, args, dims⟩ => ref.toList ++ Ty.handlesList args ++ Expr.handlesDims dims

/-- The handles of a list of types. -/
def Ty.handlesList : List Ty → List Target
  | [] => []
  | t :: ts => t.handles ++ Ty.handlesList ts

/-- The handles of a type that may be missing. -/
def Ty.handlesOpt : Option Ty → List Target
  | none => []
  | some t => t.handles

/-- The handles an expression holds: those of its operands and of its derived type. -/
def Expr.handles : Expr → List Target
  | ⟨_, _, leaves, _, _, type⟩ => Leaf.handlesList leaves ++ Ty.handlesOpt type

/-- The handles of an expression that may be missing. -/
def Expr.handlesOpt : Option Expr → List Target
  | none => []
  | some e => e.handles

/-- The handles of the sizes of array dimensions. -/
def Expr.handlesDims : List (Option Expr) → List Target
  | [] => []
  | d :: ds => Expr.handlesOpt d ++ Expr.handlesDims ds

/-- The handles of an operand: those of a nested expression. -/
def Leaf.handles : Leaf → List Target
  | .expr e => e.handles
  | _ => []

/-- The handles of a list of operands. -/
def Leaf.handlesList : List Leaf → List Target
  | [] => []
  | l :: ls => l.handles ++ Leaf.handlesList ls

end

section HandleLemmas

variable (name : String) (ref : Option Target) (args : List Ty) (dims : List (Option Expr))

@[simp] theorem Ty.handles_mk :
    Ty.handles ⟨name, ref, args, dims⟩ = ref.toList ++ Ty.handlesList args ++ Expr.handlesDims dims :=
  rfl

@[simp] theorem Ty.handles_named : (Ty.named name ref).handles = ref.toList := by
  simp [Ty.named, Ty.handlesList, Expr.handlesDims]

@[simp] theorem Ty.handlesList_nil : Ty.handlesList [] = [] := rfl

@[simp] theorem Ty.handlesList_cons (t : Ty) (ts : List Ty) :
    Ty.handlesList (t :: ts) = t.handles ++ Ty.handlesList ts := rfl

@[simp] theorem Ty.handlesOpt_none : Ty.handlesOpt none = [] := rfl

@[simp] theorem Ty.handlesOpt_some (t : Ty) : Ty.handlesOpt (some t) = t.handles := rfl

@[simp] theorem Expr.handles_mk (op : Operator) (assign : Bool) (leaves : List Leaf)
    (operators special : List Token) (type : Option Ty) :
    Expr.handles ⟨op, assign, leaves, operators, special, type⟩ =
      Leaf.handlesList leaves ++ Ty.handlesOpt type :=
  rfl

@[simp] theorem Expr.handlesOpt_none : Expr.handlesOpt none = [] := rfl

@[simp] theorem Expr.handlesOpt_some (e : Expr) : Expr.handlesOpt (some e) = e.handles := rfl

@[simp] theorem Expr.handlesDims_nil : Expr.handlesDims [] = [] := rfl

@[simp] theorem Expr.handlesDims_cons (d : Option Expr) (ds : List (Option Expr)) :
    Expr.handlesDims (d :: ds) = Expr.handlesOpt d ++ Expr.handlesDims ds := rfl

@[simp] theorem Leaf.handles_expr (e : Expr) : (Leaf.expr e).handles = e.handles := rfl

@[simp] theorem Leaf.handles_of_token? {l : Leaf} {t : Token} (h : l.token? = some t) :
    l.handles = [] := by
  cases l <;> simp_all [Leaf.token?, Leaf.handles]

@[simp] theorem Leaf.handlesList_nil : Leaf.handlesList [] = [] := rfl

@[simp] theorem Leaf.handlesList_cons (l : Leaf) (ls : List Leaf) :
    Leaf.handlesList (l :: ls) = l.handles ++ Leaf.handlesList ls := rfl

end HandleLemmas

/-- The handles of a list of expressions. -/
def Expr.handlesAll (es : List Expr) : List Target := es.flatMap Expr.handles

/-- The handles of a class's links. -/
def ClassLinks.handles (l : ClassLinks) : List Target :=
  (l.parent.toList ++ l.extend.toList ++ l.replace.toList ++ l.extensions ++ l.children ++
    l.replacedBy).map .decl

/-- The handles a node holds. -/
def NodeKind.handles : NodeKind → List Target
  | .enumDecl base => Ty.handlesOpt base
  | .classDecl c => c.links.handles
  | .field f => f.type.handles ++ Expr.handlesOpt f.init
  | .method m => Ty.handlesList m.returns
  | .expression e => e.handles
  | .forLoop _ condition steps => Expr.handlesOpt condition ++ Expr.handlesAll steps
  | .whileLoop condition _ => condition.handles
  | .cond condition _ => condition.handles
  | .constant value => Expr.handlesOpt value
  | .localVar type _ => Ty.handlesOpt type
  | .root _ | .inclusion _ _ | .structDecl _ | .block | .property _ | .control _ => []

/-- The synthetic `self` a class or struct records. -/
def NodeKind.selfVar? (k : NodeKind) : Option Nat := k.typeInfo?.bind (·.selfVar)

/-- Every handle of the analysis satisfies `ok`: those of its semantic tokens and of its nodes. -/
structure Analysis.HandlesOk (ok : Target → Prop) (a : Analysis) : Prop where
  semantic : ∀ s ∈ a.semantic, ∀ r ∈ s.ref, ok r
  nodes : ∀ id node, a.tree.get? id = some node → ∀ r ∈ node.kind.handles, ok r

theorem Analysis.HandlesOk.mono {ok ok' : Target → Prop} {a : Analysis} (h : a.HandlesOk ok)
    (hok : ∀ r, ok r → ok' r) : a.HandlesOk ok' :=
  ⟨fun s hs r hr => hok r (h.semantic s hs r hr),
    fun id node hg r hr => hok r (h.nodes id node hg r hr)⟩

/-! ## Alive handles -/

/-- A handle alive in a project: it names an existing node of a document that has an analysis,
    or an entry of the builtin catalog. -/
def Project.Live (p : Project) : Target → Prop
  | .decl d => ∃ doc a, p.documents[d.file]? = some doc ∧ doc.analysis = some a ∧
      d.node < a.tree.size
  | .builtin i => i < Builtin.catalog.length

/-- A handle alive while file `file`, of `n` nodes so far, is analysed in universe `u`: one of
    its own nodes, a node of a tree the universe lends, or an entry of the builtin catalog. -/
def Universe.Live (u : Universe) (file n : Nat) : Target → Prop
  | .decl d => if d.file = file then d.node < n else
      ∃ t, u.trees[d.file]? = some (some t) ∧ d.node < t.size
  | .builtin i => i < Builtin.catalog.length

theorem Universe.Live.mono {u : Universe} {file n n' : Nat} {r : Target} (h : u.Live file n r)
    (hn : n ≤ n') : u.Live file n' r := by
  cases r with
  | decl d =>
    simp only [Universe.Live] at h ⊢
    split_ifs at h ⊢
    · omega
    · exact h
  | builtin i => exact h

/-- The file an include points at, once it is resolved. -/
def NodeKind.includes? : NodeKind → Option Nat
  | .inclusion _ target => target
  | _ => none

/-- A node kind fit for a tree of `n` nodes of file `i` in universe `u`: its handles are alive,
    the `self` it records is a node of the tree, and the file it includes is one of the
    universe's. -/
structure NodeKind.AliveIn (u : Universe) (i n : Nat) (k : NodeKind) : Prop where
  handles : ∀ r ∈ k.handles, u.Live i n r
  self : ∀ x ∈ k.selfVar?, x < n
  included : ∀ f ∈ k.includes?, f < u.trees.size

theorem NodeKind.AliveIn.mono {u : Universe} {i n n' : Nat} {k : NodeKind} (h : k.AliveIn u i n)
    (hn : n ≤ n') : k.AliveIn u i n' :=
  ⟨fun r hr => (h.handles r hr).mono hn, fun x hx => Nat.lt_of_lt_of_le (h.self x hx) hn,
    h.included⟩

/-- What the analysis of file `i` keeps in universe `u`: it is that file's analysis with at least
    `m` nodes, and its semantic tokens and nodes hold only alive handles. -/
structure Alive (u : Universe) (i m : Nat) (a : Analysis) : Prop where
  file : a.file = i
  size : m ≤ a.tree.size
  semantic : ∀ s ∈ a.semantic, ∀ r ∈ s.ref, u.Live i a.tree.size r
  nodes : ∀ id node, a.tree.get? id = some node → node.kind.AliveIn u i a.tree.size

/-- A universe fit for analysing file `i`, which had `n0` nodes when the phase began: the index and
    the lent trees hold alive handles, and every `self` a lent tree records exists. -/
structure Universe.Sound (u : Universe) (i n0 : Nat) : Prop where
  types : ∀ (k : String) d, u.index.types[k]? = some d → u.Live i n0 (.decl d)
  symbols : ∀ (k : String) d, u.index.symbols[k]? = some d → u.Live i n0 (.decl d)
  classes : ∀ e ∈ u.index.classes, u.Live i n0 (.decl e.decl)
  handles : ∀ (j : Nat) (t : Tree), u.trees[j]? = some (some t) → ∀ id node, t.get? id = some node →
    ∀ r ∈ node.kind.handles, u.Live i n0 r
  selves : ∀ (j : Nat) (t : Tree), u.trees[j]? = some (some t) → ∀ id node, t.get? id = some node →
    ∀ x ∈ node.kind.selfVar?, x < t.size

/-- A universe fit while the file had fewer nodes stays fit. -/
theorem Universe.Sound.mono {u : Universe} {i n n' : Nat} (h : u.Sound i n) (hn : n ≤ n') :
    u.Sound i n' :=
  ⟨fun k d hk => (h.types k d hk).mono hn, fun k d hk => (h.symbols k d hk).mono hn,
    fun e he => (h.classes e he).mono hn,
    fun j t ht id node hg r hr => (h.handles j t ht id node hg r hr).mono hn, h.selves⟩

/-! ## Triples in one universe -/

namespace Step

/-- From a work satisfying `P`, the step run in universe `u` ends where `Q` holds of its value. -/
def TripleIn {α : Type} (u : Universe) (P : Work → Prop) (x : Step α) (Q : α → Work → Prop) :
    Prop :=
  ∀ w, P w → Q (x u w).1 (x u w).2

namespace TripleIn

variable {α β : Type} {u : Universe} {P P' : Work → Prop} {Q Q' : α → Work → Prop}

/-- What holds in every universe holds in `u`. -/
theorem of_triple {x : Step α} (h : Triple P x Q) : TripleIn u P x Q :=
  fun w hw => h u w hw

theorem pure {a : α} (h : ∀ w, P w → Q a w) : TripleIn u P (Pure.pure a : Step α) Q :=
  fun w hw => h w hw

theorem bind {x : Step α} {f : α → Step β} {R : β → Work → Prop} (hx : TripleIn u P x Q)
    (hf : ∀ a, TripleIn u (Q a) (f a) R) : TripleIn u P (x >>= f) R :=
  fun w hw => hf _ _ (hx w hw)

theorem mono {x : Step α} (h : TripleIn u P x Q) (hP : ∀ w, P' w → P w)
    (hQ : ∀ a w, Q a w → Q' a w) : TripleIn u P' x Q' :=
  fun w hw => hQ _ _ (h w (hP w hw))

theorem pre {x : Step α} (h : TripleIn u P x Q) (hP : ∀ w, P' w → P w) : TripleIn u P' x Q :=
  h.mono hP fun _ _ => id

theorem post {x : Step α} (h : TripleIn u P x Q) (hQ : ∀ a w, Q a w → Q' a w) :
    TripleIn u P x Q' :=
  h.mono (fun _ => id) hQ

/-- A loop whose body keeps `I` keeps `I`. -/
theorem forIn {γ σ : Type} {I : Work → Prop} (xs : List γ) (init : σ)
    {f : γ → σ → Step (ForInStep σ)} (hf : ∀ b ∈ xs, ∀ s, TripleIn u I (f b s) fun _ => I) :
    TripleIn u I (forIn xs init f) fun _ => I := by
  induction xs generalizing init with
  | nil =>
    rw [List.forIn_nil]
    exact pure fun _ => id
  | cons b bs ih =>
    rw [List.forIn_cons]
    refine bind (hf b List.mem_cons_self init) fun r => ?_
    cases r with
    | done s => exact pure fun _ => id
    | yield s => exact ih s fun b hb => hf b (List.mem_cons_of_mem _ hb)

/-- A fact that does not depend on the work leaves the precondition for the context. -/
theorem of_fact {φ : Prop} {x : Step α} (h : φ → TripleIn u P x Q) :
    TripleIn u (fun w => φ ∧ P w) x Q :=
  fun w hw => h hw.1 w hw.2

/-- A proof may name the analysis a step starts from. -/
theorem ghost {x : Step α} (h : ∀ a, TripleIn u (fun w => w.file = a ∧ P w) x Q) :
    TripleIn u P x Q :=
  fun w hw => h w.file w ⟨rfl, hw⟩

variable {E : Work → Prop} {R : β → Work → Prop}

theorem except_pure {a : α} (h : ∀ w, P w → Q a w) :
    TripleIn u P (Pure.pure a : ExceptT ParseError Step α).run (Outcome Q E) :=
  fun w hw => h w hw

theorem except_throw {e : ParseError} :
    TripleIn u E (MonadExcept.throw e : ExceptT ParseError Step α).run (Outcome Q E) :=
  fun _ hw => hw

/-- A step lifted into one that may fail never fails. -/
theorem except_lift {x : Step α} (h : TripleIn u P x Q) :
    TripleIn u P (monadLift x : ExceptT ParseError Step α).run (Outcome Q E) :=
  fun w hw => h w hw

theorem except_bind {x : ExceptT ParseError Step α} {f : α → ExceptT ParseError Step β}
    (hx : TripleIn u P x.run (Outcome Q E)) (hf : ∀ a, TripleIn u (Q a) (f a).run (Outcome R E)) :
    TripleIn u P (x >>= f).run (Outcome R E) := by
  intro w hw
  rw [ExceptT.run_bind, bind_run]
  have h := hx w hw
  revert h
  generalize x.run u w = r
  rcases r with ⟨e | a, w'⟩
  · exact id
  · exact hf a w'

end TripleIn

end Step

namespace Parse

/-- From a work satisfying `P` and any cursor, a reader run in universe `u` that succeeds ends
    where `Q` holds of its value, and one that fails ends where `E` holds. -/
def TripleIn {α : Type} (u : Universe) (P : Work → Prop) (x : Parse α) (Q : α → Work → Prop)
    (E : Work → Prop) : Prop :=
  ∀ c, Step.TripleIn u P (x c).run (Outcome (fun p => Q p.1) E)

namespace TripleIn

variable {α β : Type} {u : Universe} {P P' : Work → Prop} {Q Q' : α → Work → Prop}
  {E E' : Work → Prop}

/-- What holds in every universe holds in `u`. -/
theorem of_triple {x : Parse α} (h : Triple P x Q E) : TripleIn u P x Q E :=
  fun c w hw => h c u w hw

theorem pure {a : α} (h : ∀ w, P w → Q a w) : TripleIn u P (Pure.pure a : Parse α) Q E :=
  fun _ w hw => h w hw

theorem bind {x : Parse α} {f : α → Parse β} {R : β → Work → Prop} (hx : TripleIn u P x Q E)
    (hf : ∀ a, TripleIn u (Q a) (f a) R E) : TripleIn u P (x >>= f) R E := by
  intro c
  rw [run_bind]
  refine Step.TripleIn.bind (hx c) fun r => ?_
  rcases r with e | ⟨a, c'⟩
  · exact fun _ hw => hw
  · exact hf a c'

theorem mono {x : Parse α} (h : TripleIn u P x Q E) (hP : ∀ w, P' w → P w)
    (hQ : ∀ a w, Q a w → Q' a w) (hE : ∀ w, E w → E' w) : TripleIn u P' x Q' E' := by
  intro c w hw
  have h' := h c w (hP w hw)
  revert h'
  generalize ((x c).run u w) = r
  rcases r with ⟨e | ⟨a, c'⟩, w'⟩
  · exact hE w'
  · exact hQ a w'

theorem pre {x : Parse α} (h : TripleIn u P x Q E) (hP : ∀ w, P' w → P w) :
    TripleIn u P' x Q E :=
  h.mono hP (fun _ _ => id) fun _ => id

theorem post {x : Parse α} (h : TripleIn u P x Q E) (hQ : ∀ a w, Q a w → Q' a w) :
    TripleIn u P x Q' E :=
  h.mono (fun _ => id) hQ fun _ => id

theorem throw {e : ParseError} : TripleIn u E (MonadExcept.throw e : Parse α) Q E :=
  fun _ _ h => h

/-- Nothing runs from a state that cannot be reached. -/
theorem of_false {x : Parse α} : TripleIn u (fun _ => False) x Q E :=
  fun _ _ h => h.elim

/-- A fact that does not depend on the work leaves the precondition for the context. -/
theorem of_fact {φ : Prop} {x : Parse α} (h : φ → TripleIn u P x Q E) :
    TripleIn u (fun w => φ ∧ P w) x Q E :=
  fun c w hw => h hw.1 c w hw.2

/-- A reader run for its effect alone. -/
theorem discard {x : Parse α} {Q : PUnit → Work → Prop} (h : TripleIn u P x (fun _ => Q ()) E) :
    TripleIn u P (Functor.discard x) Q E := by
  rw [Functor.discard, LawfulFunctor.map_const, Function.comp_apply, map_eq_pure_bind]
  exact bind h fun _ => pure fun _ => id

theorem ite {c : Prop} [Decidable c] {x y : Parse α} (hx : c → TripleIn u P x Q E)
    (hy : ¬c → TripleIn u P y Q E) : TripleIn u P (if c then x else y) Q E := by
  split
  · exact hx ‹_›
  · exact hy ‹_›

/-- A step lifted into a reader by a `do` block. -/
theorem lift {x : Step α} (h : Step.TripleIn u P x Q) : TripleIn u P (monadLift x : Parse α) Q E :=
  fun _ w hw => h w hw

theorem get {Q : Cursor → Work → Prop} (h : ∀ c w, P w → Q c w) :
    TripleIn u P (MonadState.get : Parse Cursor) Q E :=
  fun c w hw => h c w hw

theorem set {c' : Cursor} {Q : PUnit → Work → Prop} :
    TripleIn u (Q ()) (MonadStateOf.set c' : Parse PUnit) Q E :=
  fun _ _ hw => hw

/-- A failure caught by `tryCatch` ends in the handler, from the work the failure left. -/
theorem tryCatch {x : Parse α} {h : ParseError → Parse α} {F : Work → Prop}
    (hx : TripleIn u P x Q F) (hh : ∀ e, TripleIn u F (h e) Q E) :
    TripleIn u P (MonadExcept.tryCatch x h) Q E := by
  intro c
  rw [run_tryCatch]
  refine Step.TripleIn.bind (hx c) fun r => ?_
  rcases r with e | ⟨a, c'⟩
  · exact hh e c
  · exact Step.TripleIn.pure fun _ => id

/-- A proof may name the analysis a reader starts from. -/
theorem ghost {x : Parse α} (h : ∀ a, TripleIn u (fun w => w.file = a ∧ P w) x Q E) :
    TripleIn u P x Q E :=
  fun c w hw => h w.file c w ⟨rfl, hw⟩

/-- A step that may fail, lifted into a reader. -/
theorem exceptLift {x : ExceptT ParseError Step α} (h : Step.TripleIn u P x.run (Outcome Q E)) :
    TripleIn u P (monadLift x : Parse α) Q E :=
  fun _ => Step.TripleIn.except_bind h fun _ => Step.TripleIn.except_pure fun _ => id

/-- A reader run on a token list of its own. -/
theorem runOn {x : Parse α} (h : TripleIn u P x Q E) (ts : List Token) :
    Step.TripleIn u P (Parse.runOn ts x).run (Outcome Q E) := by
  intro w hw
  rw [runOn_run]
  have h' := h (Cursor.ofList ts) w hw
  revert h'
  generalize (x (Cursor.ofList ts)).run u w = r
  rcases r with ⟨e | ⟨a, _⟩, w'⟩
  · exact id
  · exact id

end TripleIn

end Parse

/-! ## Kinds in a changed tree -/

namespace Tree

/-- A change that keeps every node's kind. -/
theorem kind_modify {t : Tree} {p id : Nat} {f : Node → Node} {node' : Node}
    (hg : (t.modify p f).get? id = some node') (hf : ∀ n, (f n).kind = n.kind) :
    ∃ node, t.get? id = some node ∧ node.kind = node'.kind := by
  rw [get?_modify] at hg
  split at hg
  · obtain ⟨node, hnode, rfl⟩ := Option.map_eq_some_iff.1 hg
    exact ⟨node, hnode, (hf node).symm⟩
  · exact ⟨node', hg, rfl⟩

@[simp] theorem size_attach (t : Tree) (p c : Nat) : (t.attach p c).size = t.size := by
  simp [attach]

/-- Attaching a node changes no node's kind. -/
theorem kind_attach {t : Tree} {p c id : Nat} {node' : Node} (hg : (t.attach p c).get? id = some node') :
    ∃ node, t.get? id = some node ∧ node.kind = node'.kind := by
  unfold attach at hg
  obtain ⟨node₁, hg, hk₁⟩ := kind_modify hg fun _ => rfl
  obtain ⟨node₀, hg, hk₀⟩ := kind_modify hg fun _ => rfl
  exact ⟨node₀, hg, hk₀.trans hk₁⟩

end Tree

/-! ## Keeping an analysis alive -/

namespace Alive

variable {u : Universe} {i m : Nat} {a : Analysis}

theorem weaken (h : Alive u i m a) {m' : Nat} (hm : m' ≤ m) : Alive u i m' a :=
  ⟨h.file, Nat.le_trans hm h.size, h.semantic, h.nodes⟩

/-- The bound raised to the analysis' own size. -/
theorem raise (h : Alive u i m a) : Alive u i a.tree.size a :=
  ⟨h.file, Nat.le_refl _, h.semantic, h.nodes⟩

/-- Another analysis with the same file, tree and semantic tokens: only diagnostics or the failure
    flag differ. -/
theorem congr (h : Alive u i m a) {b : Analysis} (hf : b.file = a.file) (ht : b.tree = a.tree)
    (hs : b.semantic = a.semantic) : Alive u i m b :=
  ⟨hf.trans h.file, ht ▸ h.size, hs ▸ ht ▸ h.semantic, ht ▸ h.nodes⟩

/-- Another semantic token, whose reference is alive. -/
theorem push (h : Alive u i m a) {s : SemanticToken} (hs : ∀ r ∈ s.ref, u.Live i a.tree.size r) :
    Alive u i m { a with semantic := a.semantic.push s } := by
  refine ⟨h.file, h.size, fun s' hs' r hr => ?_, h.nodes⟩
  rcases Array.mem_push.1 hs' with hs' | rfl
  · exact h.semantic s' hs' r hr
  · exact hs r hr

/-- A tree at least as large, whose every node is an old node's kind or a kind fit for it. -/
theorem withTree (h : Alive u i m a) {t : Tree} (hsize : a.tree.size ≤ t.size)
    (hnodes : ∀ id node', t.get? id = some node' →
      (∃ node, a.tree.get? id = some node ∧ node.kind = node'.kind) ∨ node'.kind.AliveIn u i t.size) :
    Alive u i m { a with tree := t } := by
  refine ⟨h.file, Nat.le_trans h.size hsize,
    fun s hs r hr => (h.semantic s hs r hr).mono hsize, fun id node' hg => ?_⟩
  rcases hnodes id node' hg with ⟨node, hold, hk⟩ | hnew
  · exact hk ▸ (h.nodes id node hold).mono hsize
  · exact hnew

end Alive

namespace Step

variable {u : Universe} {i m : Nat}

/-- A step that changes neither the tree nor the semantic tokens. -/
theorem alive_of_same {α : Type} {x : Step α}
    (h : ∀ w, (x u w).2.file.file = w.file.file ∧ (x u w).2.file.tree = w.file.tree ∧
      (x u w).2.file.semantic = w.file.semantic) :
    TripleIn u (fun w => Alive u i m w.file) x fun _ w => Alive u i m w.file := fun w hw =>
  hw.congr (h w).1 (h w).2.1 (h w).2.2

theorem alive_emitToken {s : SemanticToken} :
    TripleIn u (fun w => Alive u i m w.file ∧ ∀ r ∈ s.ref, u.Live i w.file.tree.size r)
      (emitToken s) fun _ w => Alive u i m w.file :=
  fun _ hw => hw.1.push hw.2

theorem alive_emit (t : Token) (kind : SemanticKind) :
    TripleIn u (fun w => Alive u i m w.file) (emit t kind) fun _ w => Alive u i m w.file :=
  fun _ hw => hw.push fun _ hr => absurd hr (by simp [SemanticToken.ofToken])

theorem alive_emitRef (t : Token) (kind : SemanticKind) (ref : Option Target) (name : String) :
    TripleIn u (fun w => Alive u i m w.file ∧ ∀ r ∈ ref, u.Live i w.file.tree.size r)
      (emitRef t kind ref name) fun _ w => Alive u i m w.file :=
  alive_emitToken (s := .ofToken t kind ref (some name))

theorem alive_log (level : LogLevel) (source : LogSource) (message : String) :
    TripleIn u (fun w => Alive u i m w.file) (log level source message) fun _ w => Alive u i m w.file :=
  alive_of_same fun _ => ⟨rfl, rfl, rfl⟩

theorem alive_report (e : ParseError) :
    TripleIn u (fun w => Alive u i m w.file) (report e) fun _ w => Alive u i m w.file :=
  alive_of_same fun _ => ⟨rfl, rfl, rfl⟩

theorem alive_warn (message : String) (line : Nat) :
    TripleIn u (fun w => Alive u i m w.file) (warn message line) fun _ w => Alive u i m w.file :=
  alive_of_same fun _ => ⟨rfl, rfl, rfl⟩

theorem alive_fail (e : ParseError) :
    TripleIn u (fun w => Alive u i m w.file) (fail e) fun _ w => Alive u i m w.file :=
  alive_of_same fun _ => ⟨rfl, rfl, rfl⟩

/-- A new node of a kind fit for the grown tree; its index is the old size. -/
theorem alive_alloc (parent : Option Nat) (name : String) (line : Nat) (kind : NodeKind) :
    TripleIn u (fun w => Alive u i m w.file ∧ kind.AliveIn u i (w.file.tree.size + 1))
      (alloc parent name line kind) fun id w => Alive u i m w.file ∧ id + 1 = w.file.tree.size := by
  intro w hw
  rw [alloc_run]
  refine ⟨hw.1.withTree (by simp) fun id node' hg => ?_, by simp⟩
  rw [Tree.get?_alloc] at hg
  split at hg
  · cases hg
    exact .inr (by simpa using hw.2)
  · exact .inl ⟨node', hg, rfl⟩

theorem alive_add (parent : Nat) (name : String) (line : Nat) (kind : NodeKind) :
    TripleIn u (fun w => Alive u i m w.file ∧ kind.AliveIn u i (w.file.tree.size + 1))
      (add parent name line kind) fun id w => Alive u i m w.file ∧ id + 1 = w.file.tree.size := by
  intro w hw
  rw [add_run, Tree.add_eq]
  refine ⟨hw.1.withTree (by simp) fun id node' hg => ?_, by simp⟩
  dsimp only at hg
  obtain ⟨node, hg, hk⟩ := Tree.kind_modify hg fun _ => rfl
  rw [Tree.get?_alloc] at hg
  split at hg
  · cases hg
    exact .inr (by simpa [← hk] using hw.2)
  · exact .inl ⟨node, hg, hk⟩

theorem alive_attach (parent child : Nat) :
    TripleIn u (fun w => Alive u i m w.file) (attach parent child) fun _ w => Alive u i m w.file := by
  intro w hw
  rw [attach_run]
  exact hw.withTree (Nat.le_of_eq (Tree.size_attach _ _ _).symm) fun _ _ hg => .inl (Tree.kind_attach hg)

/-- Changing what a node holds into a kind fit for the tree. -/
theorem alive_modifyKind (id : Nat) (f : NodeKind → NodeKind) :
    TripleIn u (fun w => Alive u i m w.file ∧
        ∀ node, w.file.tree.get? id = some node → (f node.kind).AliveIn u i w.file.tree.size)
      (modifyKind id f) fun _ w => Alive u i m w.file := by
  intro w hw
  rw [modifyKind_run]
  refine hw.1.withTree (by simp) fun j node' hg => ?_
  rw [Tree.modifyKind, Tree.get?_modify] at hg
  split at hg
  · next hj =>
    subst hj
    obtain ⟨node, hnode, rfl⟩ := Option.map_eq_some_iff.1 hg
    exact .inr (by simpa using hw.2 node hnode)
  · exact .inl ⟨node', hg, rfl⟩

end Step

/-- A reader that leaves the work alone keeps it alive. -/
theorem Parse.Quiet.alive {α : Type} {x : Parse α} (h : Parse.Quiet x) {u : Universe} {i m : Nat} :
    Parse.TripleIn u (fun w => Alive u i m w.file) x (fun _ w => Alive u i m w.file)
      fun w => Alive u i m w.file :=
  Parse.TripleIn.of_triple h.triple

end ZScript
