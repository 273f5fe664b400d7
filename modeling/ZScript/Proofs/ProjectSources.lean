import ZScript.Proofs.SemanticRanges

/-!
# What a rebuild reads of a project

A rebuild reads each document's index, path, kind and text, its source (`Document.SameSource`),
and replaces the analyses. Every stage of a rebuild keeps the sources of all documents in
place, so a rebuilt project has the documents it had, with the texts they had
(`Project.Numbered.sameSources_rebuild`), and replacing a text rebuilds a project whose one
document has the new text (`Project.setContents_eq`).
-/

namespace ZScript

/-- Two documents with the same source: the same index, path, kind and text, which is all a
    rebuild reads of a document besides the analysis it replaces. -/
structure Document.SameSource (d e : Document) : Prop where
  id : e.id = d.id
  path : e.path = d.path
  kind : e.kind = d.kind
  text : e.text = d.text

namespace Document.SameSource

theorem refl (d : Document) : d.SameSource d := ⟨rfl, rfl, rfl, rfl⟩

theorem trans {d e f : Document} (h : d.SameSource e) (h' : e.SameSource f) : d.SameSource f :=
  ⟨h'.id.trans h.id, h'.path.trans h.path, h'.kind.trans h.kind, h'.text.trans h.text⟩

theorem symm {d e : Document} (h : d.SameSource e) : e.SameSource d :=
  ⟨h.id.symm, h.path.symm, h.kind.symm, h.text.symm⟩

@[simp] theorem with_analysis (d : Document) (a : Option Analysis) :
    d.SameSource { d with analysis := a } := ⟨rfl, rfl, rfl, rfl⟩

@[simp] theorem with_modified (d : Document) (b : Bool) :
    d.SameSource { d with modified := b } := ⟨rfl, rfl, rfl, rfl⟩

end Document.SameSource

namespace Project

/-- The documents of two projects have the same sources, index by index. -/
def SameSources (p q : Project) : Prop :=
  ∀ i : Nat, Option.Rel Document.SameSource p.documents[i]? q.documents[i]?

namespace SameSources

variable {p q r : Project}

theorem refl (p : Project) : p.SameSources p := by
  intro i
  cases p.documents[i]? with
  | none => exact .none
  | some d => exact .some (.refl d)

theorem trans (h : p.SameSources q) (h' : q.SameSources r) : p.SameSources r := by
  intro i
  have hi := h i
  have hi' := h' i
  generalize p.documents[i]? = x at hi ⊢
  generalize q.documents[i]? = y at hi hi'
  generalize r.documents[i]? = z at hi' ⊢
  cases hi with
  | none => cases hi'; exact .none
  | some hde =>
    cases hi' with
    | some hef => exact .some (hde.trans hef)

theorem symm (h : p.SameSources q) : q.SameSources p := by
  intro i
  have hi := h i
  generalize p.documents[i]? = x at hi ⊢
  generalize q.documents[i]? = y at hi ⊢
  cases hi with
  | none => exact .none
  | some hde => exact .some hde.symm

theorem size_eq (h : p.SameSources q) : q.documents.size = p.documents.size := by
  by_contra hne
  rcases Nat.lt_or_gt_of_ne hne with hlt | hlt
  · have hi := h q.documents.size
    rw [Array.getElem?_eq_none (Nat.le_refl _), Array.getElem?_eq_getElem hlt] at hi
    cases hi
  · have hi := h p.documents.size
    rw [Array.getElem?_eq_none (Nat.le_refl _), Array.getElem?_eq_getElem hlt] at hi
    cases hi

/-- Putting a document of the same source at an index. -/
theorem set (h : p.SameSources q) {i : Nat} {d e : Document} (hd : p.documents[i]? = some d)
    (he : d.SameSource e) {r : Project} (hr : r.documents = q.documents.set! i e) :
    p.SameSources r := by
  intro j
  rw [hr, Array.set!_eq_setIfInBounds, Array.getElem?_setIfInBounds]
  split
  · next hij =>
    subst hij
    rw [if_pos (by rw [h.size_eq]; exact (Array.getElem?_eq_some_iff.1 hd).1), hd]
    exact .some he
  · exact h j

theorem record (h : p.SameSources q) (level : LogLevel) (message : String) :
    p.SameSources (q.record level message) := h

end SameSources

variable {p : Project}

/-- A phase changes analyses only. -/
theorem sameSources_runPhase (p : Project) (phase : Step Unit) :
    p.SameSources (p.runPhase phase) := by
  intro i
  unfold runPhase
  refine foldl_range_getElem? (R := Document.SameSource) (fun q j => ?_) (fun q j i hji => ?_) i
  · dsimp only
    split
    · next d hd =>
      split
      · next a ha =>
        have hj : j < q.documents.size := (Array.getElem?_eq_some_iff.1 hd).1
        simp only [hd, Array.set!_eq_setIfInBounds, Array.getElem?_setIfInBounds, if_pos hj,
          if_true, Option.rel_some_some]
        exact .with_analysis d _
      · rw [hd]
        exact .some (.refl d)
    · next hd =>
      rw [hd]
      exact .none
  · dsimp only
    split
    · split
      · simp only [Array.set!_eq_setIfInBounds, Array.getElem?_setIfInBounds, if_neg hji]
      · rfl
    · rfl

/-- Reading the skeletons of a project whose ids are its indices changes analyses only. -/
theorem Numbered.sameSources_readSkeletons (hp : p.Numbered) : p.SameSources p.readSkeletons := by
  unfold Project.readSkeletons
  refine Array.foldl_induction (fun _ q => p.SameSources q) (SameSources.refl p) fun i q hq => ?_
  have hd : p.documents[(i : Nat)]? = some p.documents[i] := Array.getElem?_eq_getElem i.2
  have hid : p.documents[i].id = i := hp i _ hd
  dsimp only
  split
  · exact hq.set hd (.with_analysis _ _) (by rw [hid])
  · exact hq.set hd (.with_analysis _ _) (by rw [hid])

/-- Pointing the includes of a document at their documents changes its analysis only. -/
theorem sameSources_resolveIn (p : Project) (paths : List String) (i : Nat) :
    p.SameSources (p.resolveIn paths i) := by
  unfold Project.resolveIn
  split
  · next d hd =>
    split
    · exact SameSources.refl p
    · next a ha =>
      split
      · next a' p' hfold =>
        -- the fold only records warnings in the project
        have hdocs : p'.documents = p.documents :=
          congrArg (·.2.documents) hfold.symm |>.trans (List.foldlRecOn
            (motive := fun s : Analysis × Project => s.2.documents = p.documents) _ _ rfl
            fun s hs id _ => by
              obtain ⟨a₀, q⟩ := s
              dsimp only
              split
              · split <;> exact hs
              · exact hs)
        exact (SameSources.refl p).set hd (.with_analysis _ _) (by rw [hdocs])
  · exact SameSources.refl p

theorem sameSources_resolveIncludes (p : Project) : p.SameSources p.resolveIncludes := by
  unfold Project.resolveIncludes
  exact List.foldlRecOn (motive := p.SameSources) _ _ (SameSources.refl p) fun q hq i _ =>
    hq.trans (sameSources_resolveIn q _ i)

/-- A rebuild of a project whose ids are its indices changes analyses only. -/
theorem Numbered.sameSources_rebuild (hp : p.Numbered) : p.SameSources p.rebuild := by
  unfold Project.rebuild
  have h := (((hp.sameSources_readSkeletons.trans (sameSources_resolveIncludes _)).trans
    (sameSources_runPhase _ Analysis.addMembers)).trans
    (sameSources_runPhase _ Analysis.link)).trans (sameSources_runPhase _ Analysis.addBodies)
  dsimp only
  exact h.record _ _

/-- Putting a document of the same id at an index keeps the ids the indices. -/
theorem Numbered.set (hp : p.Numbered) {i : Nat} {d e : Document} (hd : p.documents[i]? = some d)
    (he : e.id = d.id) {r : Project} (hr : r.documents = p.documents.set! i e) : r.Numbered := by
  intro j x hx
  rw [hr, Array.set!_eq_setIfInBounds, Array.getElem?_setIfInBounds] at hx
  split at hx
  · next hij =>
    subst hij
    rw [if_pos (Array.getElem?_eq_some_iff.1 hd).1, Option.some.injEq] at hx
    rw [← hx, he]
    exact hp _ d hd
  · exact hp j x hx

/-- Replacing the text of a document that exists. -/
theorem setContents_eq {id : Nat} {d : Document} (hd : p.documents[id]? = some d)
    (text : String) :
    p.setContents id text =
      .ok { p with documents := p.documents.set! id { d with text, modified := true } }.rebuild := by
  unfold Project.setContents
  rw [hd]

end Project

end ZScript
