import ZScript.Proofs.LogIndependentBodies
import ZScript.Proofs.ProjectSources

/-!
# A rebuild reads the sources and nothing else

Two projects whose documents have the same sources, index by index, rebuild to projects whose
documents have the same analyses (`Project.Numbered.agree_rebuild`): the log, the analyses held
before, and whether a document counts as modified make no difference. Two documents agree
(`Document.Agree`) when they have the same source and the same analysis.

Each stage of the rebuild keeps two projects in agreement: reading the skeletons gives each
document the skeleton of its own text (`Project.Numbered.analysis_readSkeletons`), pointing the
includes reads the paths and the analyses only, and each phase runs its step on the same
analysis with the same view of the project, whatever the two logs hold (`Step.IgnoresLog`).

A project whose analyses are those its own rebuild gives (`Project.Settled`), as every rebuilt
project is, therefore has the analyses that any project with its sources rebuilds to.
-/

namespace ZScript

/-- Two documents that differ at most in whether they count as modified: the same source and
    the same analysis. -/
structure Document.Agree (d e : Document) : Prop extends d.SameSource e where
  analysis : e.analysis = d.analysis

namespace Document.Agree

theorem refl (d : Document) : d.Agree d := ⟨.refl d, rfl⟩

theorem symm {d e : Document} (h : d.Agree e) : e.Agree d :=
  ⟨h.toSameSource.symm, h.analysis.symm⟩

theorem trans {d e f : Document} (h : d.Agree e) (h' : e.Agree f) : d.Agree f :=
  ⟨h.toSameSource.trans h'.toSameSource, h'.analysis.trans h.analysis⟩

/-- Giving two agreeing documents the same analysis. -/
theorem with_analysis {d e : Document} (h : d.Agree e) (a : Option Analysis) :
    { d with analysis := a }.Agree { e with analysis := a } :=
  ⟨⟨h.id, h.path, h.kind, h.text⟩, rfl⟩

end Document.Agree

/-- A fold over pairs whose first component never depends on the second. -/
theorem List.foldl_fst_congr {α β γ : Type} {g : α × β → γ → α × β}
    (hg : ∀ a b b' c, (g (a, b) c).1 = (g (a, b') c).1) (l : List γ) (a : α) (b b' : β) :
    (l.foldl g (a, b)).1 = (l.foldl g (a, b')).1 := by
  induction l generalizing a b b' with
  | nil => rfl
  | cons c l ih =>
    rw [List.foldl_cons, List.foldl_cons, ← Prod.mk.eta (p := g (a, b) c),
      ← Prod.mk.eta (p := g (a, b') c), hg a b b' c]
    exact ih _ _ _

/-- An analysis step that never reads the log gives the same analysis whatever log the project
    holds. -/
theorem Step.IgnoresLog.runStep {x : Step Unit} (h : Step.IgnoresLog x) (u : Universe)
    (a : Analysis) (log log' : Array LogRecord) :
    (Project.runStep x u a log).1 = (Project.runStep x u a log').1 :=
  (h u ⟨a, log⟩ ⟨a, log'⟩ rfl).2

namespace Project

/-- The documents of two projects agree, index by index. -/
def Agree (p q : Project) : Prop :=
  ∀ i : Nat, Option.Rel Document.Agree p.documents[i]? q.documents[i]?

namespace Agree

variable {p q r : Project}

theorem refl (p : Project) : p.Agree p := by
  intro i
  cases p.documents[i]? with
  | none => exact .none
  | some d => exact .some (.refl d)

theorem symm (h : p.Agree q) : q.Agree p := by
  intro i
  have hi := h i
  generalize p.documents[i]? = x at hi ⊢
  generalize q.documents[i]? = y at hi ⊢
  cases hi with
  | none => exact .none
  | some hde => exact .some hde.symm

theorem trans (h : p.Agree q) (h' : q.Agree r) : p.Agree r := by
  intro i
  have hi := h i
  have hi' := h' i
  generalize p.documents[i]? = x at hi ⊢
  generalize q.documents[i]? = y at hi hi'
  generalize r.documents[i]? = z at hi' ⊢
  cases hi with
  | none => cases hi'; exact .none
  | some hde =>
    cases hi' with
    | some hef => exact .some (hde.trans hef)

theorem sameSources (h : p.Agree q) : p.SameSources q := by
  intro i
  have hi := h i
  generalize p.documents[i]? = x at hi ⊢
  generalize q.documents[i]? = y at hi ⊢
  cases hi with
  | none => exact .none
  | some hde => exact .some hde.toSameSource

/-- Projects with the same sources whose analyses are the same at each index. -/
theorem of_sameSources (h : p.SameSources q)
    (ha : ∀ i : Nat, q.documents[i]?.map (·.analysis) = p.documents[i]?.map (·.analysis)) :
    p.Agree q := by
  intro i
  have hi := h i
  have hai := ha i
  generalize p.documents[i]? = x at hi hai ⊢
  generalize q.documents[i]? = y at hi hai ⊢
  cases hi with
  | none => exact .none
  | some hde =>
    rw [Option.map_some, Option.map_some, Option.some.injEq] at hai
    exact .some ⟨hde, hai⟩

theorem getElem?_analysis (h : p.Agree q) (i : Nat) :
    q.documents[i]?.map (·.analysis) = p.documents[i]?.map (·.analysis) := by
  have hi := h i
  generalize p.documents[i]? = x at hi ⊢
  generalize q.documents[i]? = y at hi ⊢
  cases hi with
  | none => rfl
  | some hde => rw [Option.map_some, Option.map_some, hde.analysis]

theorem size_eq (h : p.Agree q) : q.documents.size = p.documents.size := h.sameSources.size_eq

/-- Whatever is computed from the analyses, index by index, is the same in both. -/
theorem mapIdx_analysis (h : p.Agree q) {β : Type} (f : Nat → Option Analysis → β) :
    q.documents.mapIdx (fun i d => f i d.analysis) = p.documents.mapIdx fun i d => f i d.analysis := by
  apply Array.ext_getElem?
  intro i
  rw [Array.getElem?_mapIdx, Array.getElem?_mapIdx]
  have hi := h.getElem?_analysis i
  generalize p.documents[i]? = x at hi ⊢
  generalize q.documents[i]? = y at hi ⊢
  cases x <;> cases y <;> simp_all

theorem analyses_eq (h : p.Agree q) : q.analyses = p.analyses := by
  have hmap : q.documents.map (·.analysis) = p.documents.map (·.analysis) := by
    apply Array.ext_getElem?
    intro i
    rw [Array.getElem?_map, Array.getElem?_map]
    exact h.getElem?_analysis i
  have hfilter : ∀ r : Project, r.analyses = (r.documents.map (·.analysis)).toList.filterMap id := by
    intro r
    rw [Array.toList_map, List.filterMap_map]
    rfl
  rw [hfilter, hfilter, hmap]

/-- Putting agreeing documents at one index of two agreeing projects. -/
theorem set (h : p.Agree q) {i : Nat} {d e : Document} (hde : d.Agree e) {r r' : Project}
    (hr : r.documents = p.documents.set! i d) (hr' : r'.documents = q.documents.set! i e) :
    r.Agree r' := by
  intro j
  rw [hr, hr', Array.set!_eq_setIfInBounds, Array.set!_eq_setIfInBounds,
    Array.getElem?_setIfInBounds, Array.getElem?_setIfInBounds, h.size_eq]
  split
  · split
    · exact .some hde
    · exact .none
  · exact h j

/-- Putting agreeing documents at one index of projects with the documents of two agreeing
    projects. -/
theorem update (h : p.Agree q) {i : Nat} {d e : Document} (hde : d.Agree e) {P Q : Project}
    (hP : P.documents = p.documents) (hQ : Q.documents = q.documents) :
    ({ P with documents := P.documents.set! i d } : Project).Agree
      { Q with documents := Q.documents.set! i e } :=
  h.set hde (congrArg (·.set! i d) hP) (congrArg (·.set! i e) hQ)

theorem record (h : p.Agree q) (level : LogLevel) (message : String) :
    p.Agree (q.record level message) := h

end Agree

/-- A fold that keeps two projects in agreement at each step. -/
theorem foldl_agree {F : Project → Nat → Project}
    (hF : ∀ r r' j, r.Agree r' → (F r j).Agree (F r' j)) (l : List Nat) {p q : Project}
    (h : p.Agree q) : (l.foldl F p).Agree (l.foldl F q) := by
  induction l generalizing p q with
  | nil => exact h
  | cons j l ih => exact ih (hF p q j h)

/-! ## Reading the skeletons -/

end Project

/-- What reading the skeletons gives a document: the skeleton of its text for a ZScript
    document, nothing for a text. -/
def Document.skeleton (d : Document) : Option Analysis :=
  match d.kind with
  | .zscript =>
    some (Project.runStep (Analysis.skeleton d.id d.text) {} { file := d.id, tokens := [] } #[]).1
  | .text => none

theorem Document.SameSource.skeleton_eq {d e : Document} (h : d.SameSource e) :
    e.skeleton = d.skeleton := by
  unfold Document.skeleton
  rw [h.kind, h.id, h.text]

namespace Project

variable {p q : Project}

/-- Reading the skeletons gives each document of a project whose ids are its indices the
    skeleton of its own text, whatever it held before and whatever the log holds. -/
theorem Numbered.analysis_readSkeletons (hp : p.Numbered) (i : Nat) :
    p.readSkeletons.documents[i]?.map (·.analysis) = p.documents[i]?.map Document.skeleton := by
  -- after `k` steps the documents below `k` hold their skeletons
  let Done (k : Nat) (q : Project) : Prop := q.documents.size = p.documents.size ∧
    ∀ j, j < k → q.documents[j]?.map (·.analysis) = p.documents[j]?.map Document.skeleton
  suffices hdone : Done p.documents.size p.readSkeletons by
    by_cases hi : i < p.documents.size
    · exact hdone.2 i hi
    · have hsize : p.readSkeletons.documents.size = p.documents.size := hdone.1
      rw [Array.getElem?_eq_none (show p.documents.size ≤ i by omega),
        Array.getElem?_eq_none (show p.readSkeletons.documents.size ≤ i by omega)]
      rfl
  unfold Project.readSkeletons
  refine Array.foldl_induction Done ⟨rfl, fun j hj => absurd hj (Nat.not_lt_zero j)⟩
    fun i q hq => ?_
  obtain ⟨hsize, hdocs⟩ := hq
  have hd : p.documents[(i : Nat)]? = some p.documents[i] := Array.getElem?_eq_getElem i.2
  have hid : p.documents[i].id = i := hp i _ hd
  -- the document at `i` is replaced, the others are kept
  have hset : ∀ (x : Document) (r : Project), x.analysis = p.documents[i].skeleton →
      r.documents = q.documents.set! i x → Done (i + 1) r := by
    intro x r hx hr
    refine ⟨by simp [hr, hsize], fun j hj => ?_⟩
    rw [hr, Array.set!_eq_setIfInBounds, Array.getElem?_setIfInBounds]
    split
    · next hij =>
      subst hij
      rw [if_pos (by rw [hsize]; exact i.2), hd, Option.map_some, Option.map_some, hx]
    · exact hdocs j (by omega)
  split
  · next hkind =>
    split
    next a log heq =>
    refine hset { p.documents[i] with analysis := some a } _ ?_ (by dsimp only; rw [hid])
    have hread : (runStep _ _ _ _).1 = a := congrArg Prod.fst heq
    rw [Document.skeleton, hkind, ← hread, (Analysis.ignoresLog_skeleton _ _).runStep]
  · next hkind =>
    exact hset { p.documents[i] with analysis := none } _ (by rw [Document.skeleton, hkind])
      (by dsimp only; rw [hid])

/-- A project with the same sources as one whose ids are its indices has its ids as indices. -/
theorem Numbered.of_sameSources (hp : p.Numbered) (h : p.SameSources q) : q.Numbered := by
  intro i e he
  have hi := h i
  rw [he] at hi
  cases hd : p.documents[i]? with
  | none => rw [hd] at hi; cases hi
  | some d =>
    rw [hd, Option.rel_some_some] at hi
    rw [hi.id]
    exact hp i d hd

theorem Numbered.agree_readSkeletons (hp : p.Numbered) (h : p.SameSources q) :
    p.readSkeletons.Agree q.readSkeletons := by
  have hq := hp.of_sameSources h
  refine .of_sameSources (hp.sameSources_readSkeletons.symm.trans
    (h.trans hq.sameSources_readSkeletons)) fun i => ?_
  rw [hp.analysis_readSkeletons, hq.analysis_readSkeletons]
  have hi := h i
  generalize p.documents[i]? = x at hi ⊢
  generalize q.documents[i]? = y at hi ⊢
  cases hi with
  | none => rfl
  | some hde => rw [Option.map_some, Option.map_some, hde.skeleton_eq]

/-! ## Pointing the includes -/

theorem Agree.resolveIn (h : p.Agree q) (paths : List String) (i : Nat) :
    (p.resolveIn paths i).Agree (q.resolveIn paths i) := by
  have hi := h i
  unfold Project.resolveIn
  generalize p.documents[i]? = x at hi ⊢
  generalize q.documents[i]? = y at hi ⊢
  cases hi with
  | none => exact h
  | @some d e hde =>
    -- the other document names the same path in its warnings and has the same analysis
    obtain ⟨id, path, kind, text, analysis, modified⟩ := e
    obtain rfl : path = d.path := hde.path
    obtain rfl : analysis = d.analysis := hde.analysis
    dsimp only
    split
    · exact h
    · next a _ =>
      -- the fold reads only the analysis, and records warnings in the project
      rw [List.foldl_fst_congr ?_ _ a p q]
      · refine h.update (hde.with_analysis _) ?_ ?_
        all_goals
          refine List.foldlRecOn (motive := fun s : Analysis × Project => s.2.documents = _) _ _
            rfl fun s hs id _ => ?_
          obtain ⟨a₀, q₀⟩ := s
          dsimp only
          split
          · split <;> exact hs
          · exact hs
      · intro a b b' c
        dsimp only
        split
        · split <;> rfl
        · rfl

theorem Agree.resolveIncludes (h : p.Agree q) : p.resolveIncludes.Agree q.resolveIncludes := by
  unfold Project.resolveIncludes
  have hpaths : q.documents.toList.map (·.path.toLower) = p.documents.toList.map (·.path.toLower) := by
    apply List.ext_getElem?
    intro i
    rw [List.getElem?_map, List.getElem?_map, Array.getElem?_toList, Array.getElem?_toList]
    have hi := h i
    generalize p.documents[i]? = x at hi ⊢
    generalize q.documents[i]? = y at hi ⊢
    cases hi with
    | none => rfl
    | some hde => rw [Option.map_some, Option.map_some, hde.path]
  dsimp only
  rw [h.size_eq, hpaths]
  exact foldl_agree (fun r r' j hr => hr.resolveIn _ j) _ h

/-! ## The phases -/

theorem Agree.runPhase (h : p.Agree q) {phase : Step Unit} (hphase : Step.IgnoresLog phase) :
    (p.runPhase phase).Agree (q.runPhase phase) := by
  unfold Project.runPhase
  dsimp only
  rw [h.size_eq, h.analyses_eq]
  refine foldl_agree (fun r r' j hr => ?_) _ h
  have hj := hr j
  generalize r.documents[j]? = x at hj ⊢
  generalize r'.documents[j]? = y at hj ⊢
  cases hj with
  | none => exact hr
  | @some d e hde =>
    dsimp only
    rw [hde.analysis]
    split
    · next a _ =>
      -- the step runs on the same analysis, with the same trees of the other documents
      rw [hr.mapIdx_analysis fun k x => if k == j then none else x.map (·.tree),
        hphase.runStep _ a r.log r'.log]
      exact hr.set (hde.with_analysis _) rfl rfl
    · exact hr

/-! ## The rebuild -/

/-- Two projects with the same sources, one with its ids as indices, rebuild to projects whose
    documents agree. -/
theorem Numbered.agree_rebuild (hp : p.Numbered) (h : p.SameSources q) :
    p.rebuild.Agree q.rebuild := by
  unfold Project.rebuild
  have hagree := (((hp.agree_readSkeletons h).resolveIncludes.runPhase
    Analysis.ignoresLog_addMembers).runPhase Analysis.ignoresLog_link).runPhase
    Analysis.ignoresLog_addBodies
  dsimp only
  exact (hagree.record _ _).symm.record _ _ |>.symm

/-- A project whose analyses are those its own rebuild gives. -/
def Settled (p : Project) : Prop := p.Agree p.rebuild

/-- A rebuilt project is settled: rebuilding it again gives the same analyses. -/
theorem Numbered.settled_rebuild (hp : p.Numbered) : p.rebuild.Settled :=
  hp.agree_rebuild hp.sameSources_rebuild

/-- A settled project has the analyses that any project with its sources rebuilds to. -/
theorem Settled.agree_rebuild (hs : p.Settled) (hp : p.Numbered) (h : p.SameSources q) :
    p.Agree q.rebuild :=
  hs.trans (hp.agree_rebuild h)

end Project

end ZScript
