import ZScript.Proofs.SourcedBodies
import ZScript.Proofs.SymmetricLinks
import ZScript.Proofs.LexTiles

/-!
# Semantic tokens lie on the text's tokens

Every range a project classifies is the range of a token of its document's own text
(`Project.semanticRanges`). Each phase of a rebuild keeps `Analysis.Sourced`: reading the
skeletons makes it so of the fresh analysis of each text, and the members, link and bodies
phases keep it, whatever they see of the rest of the project. So a project in which every
document sits at its id, and so every reachable project, holds only sourced analyses once it
is rebuilt. The lexer then places each token on a nonempty run of the text's characters, so a
range of a semantic token is nonempty, inside the text, and between characters at both ends.
-/

namespace ZScript

/-! ## Where a token lies -/

namespace Lexer

/-- A token of a text covers a nonempty run `m` of its characters, after the characters `P`. -/
theorem lex_span {s : String} {t : Token} (ht : t ∈ Token.lex s) :
    ∃ P m Q : List Char, s.toList = P ++ m ++ Q ∧ m ≠ [] ∧
      t.start = String.utf8Len P ∧ t.stop = String.utf8Len P + String.utf8Len m := by
  obtain ⟨l, hl, P, Q, hsplit, rfl⟩ := lex_pieces ht
  obtain ⟨-, hstart, hstop, -⟩ := tokenOf_span l (String.utf8Len P) (1 + P.count '\n')
  exact ⟨P, l.chars, Q, hsplit, lexemes_chars_ne_nil _ l hl, hstart, hstop⟩

/-- The byte offset after some first characters of a text is a boundary between characters. -/
theorem isValid_utf8Len {s : String} {P Q : List Char} (h : s.toList = P ++ Q) :
    (String.Pos.Raw.mk (String.utf8Len P)).IsValid s := by
  rw [String.Pos.Raw.isValid_iff_exists_take_toList]
  refine ⟨P.length, ?_⟩
  rw [h, List.take_left, String.utf8ByteSize_ofList]

/-- A token of a text is not empty, ends inside the text, and both its ends are boundaries
    between characters. -/
theorem lex_within {s : String} {t : Token} (ht : t ∈ Token.lex s) :
    t.start < t.stop ∧ t.stop ≤ s.utf8ByteSize ∧
      (String.Pos.Raw.mk t.start).IsValid s ∧ (String.Pos.Raw.mk t.stop).IsValid s := by
  obtain ⟨P, m, Q, hsplit, hm, hstart, hstop⟩ := lex_span ht
  have hsize : s.utf8ByteSize = String.utf8Len P + String.utf8Len m + String.utf8Len Q := by
    rw [← String.ofList_toList (s := s), String.utf8ByteSize_ofList, hsplit,
      String.utf8Len_append, String.utf8Len_append]
  have hne : String.utf8Len m ≠ 0 := by
    rwa [Ne, String.utf8Len_eq_zero]
  refine ⟨by omega, by omega, ?_, ?_⟩
  · rw [hstart]
    exact isValid_utf8Len (Q := m ++ Q) (by rw [hsplit, List.append_assoc])
  · rw [hstop, ← String.utf8Len_append]
    exact isValid_utf8Len hsplit

end Lexer

namespace Project

/-- Each analysis the project holds is one of its document's text: its tokens are the text's,
    and every range it classifies and every token its tree keeps is one of them. -/
def Sourced (p : Project) : Prop :=
  ∀ d ∈ p.documents, ∀ a, d.analysis = some a → a.Sourced (Token.lex d.text)

variable {p : Project}

theorem Sourced.record (hp : p.Sourced) (level : LogLevel) (message : String) :
    (p.record level message).Sourced := hp

/-- Replacing a document by one whose analysis, if any, is of its text. -/
theorem Sourced.set (hp : p.Sourced) (i : Nat) {d : Document}
    (hd : ∀ a, d.analysis = some a → a.Sourced (Token.lex d.text)) :
    ∀ x ∈ p.documents.set! i d, ∀ a, x.analysis = some a → a.Sourced (Token.lex x.text) :=
  fun x hx => (Array.mem_or_eq_of_mem_setIfInBounds hx).elim (hp x) fun hx => hx ▸ hd

/-- A phase whose step keeps every analysis sourced in its tokens keeps the project sourced. -/
theorem Sourced.runPhase {phase : Step Unit} (h : ∀ T, Step.Sourced T phase fun _ => True)
    (hp : p.Sourced) : (p.runPhase phase).Sourced := by
  unfold Project.runPhase
  refine List.foldlRecOn (motive := Sourced) _ _ hp fun q hq i _ => ?_
  split
  · next d hd =>
    split
    · next a ha =>
      exact hq.set i fun a' ha' => by
        cases ha'
        exact (h _ _ ⟨a, q.log⟩ (hq d (Array.mem_of_getElem? hd) a ha)).2
    · exact hq
  · exact hq

/-- Pointing the includes of one document at their documents keeps its analysis sourced: an
    include keeps no token, and only the diagnostics and the project's log grow meanwhile. -/
theorem Sourced.resolveIn (paths : List String) (i : Nat) (hp : p.Sourced) :
    (p.resolveIn paths i).Sourced := by
  unfold Project.resolveIn
  split
  · next d hd =>
    split
    · exact hp
    · next a ha =>
      split
      · next a' p' hfold =>
        -- the fold changes the analysis and the log, never the documents
        have hinv : (fun s : Analysis × Project =>
            s.1.Sourced (Token.lex d.text) ∧ s.2.documents = p.documents) (a', p') :=
          hfold ▸ List.foldlRecOn (motive := fun s : Analysis × Project =>
            s.1.Sourced (Token.lex d.text) ∧ s.2.documents = p.documents) _ _
            ⟨hp d (Array.mem_of_getElem? hd) a ha, rfl⟩ fun s hs id _ => by
              obtain ⟨a₀, q⟩ := s
              obtain ⟨hs, hq⟩ := hs
              have hinc : ∀ location target,
                  ({ a₀ with tree := a₀.tree.modifyKind id fun _ => .inclusion location target } :
                    Analysis).Sourced (Token.lex d.text) :=
                fun _ _ => hs.withTree (hs.tree.modifyKind fun _ _ => List.nil_subset _)
              dsimp only
              split
              · split
                · exact ⟨hinc _ _, hq⟩
                · exact ⟨(hinc _ _).congr rfl rfl rfl, hq⟩
              · exact ⟨hs, hq⟩
        obtain ⟨hs, hdocs⟩ := hinv
        have hp' : p'.Sourced := fun x hx => hp x (hdocs ▸ hx)
        exact hp'.set i fun a'' h'' => by
          cases h''
          exact hs
  · exact hp

theorem Sourced.resolveIncludes (hp : p.Sourced) : p.resolveIncludes.Sourced := by
  unfold Project.resolveIncludes
  exact List.foldlRecOn (motive := Sourced) _ _ hp fun q hq i _ => hq.resolveIn _ i

/-- Reading the skeletons gives each document of a project whose documents sit at their ids
    an analysis of its own text, or none: every analysis held before is replaced. -/
theorem Numbered.sourced_readSkeletons (hp : p.Numbered) : p.readSkeletons.Sourced := by
  -- after `k` steps the documents below `k` hold analyses of their texts
  let Done (k : Nat) (q : Project) : Prop := q.documents.size = p.documents.size ∧
    ∀ j (d : Document), q.documents[j]? = some d → j < k →
      ∀ a, d.analysis = some a → a.Sourced (Token.lex d.text)
  suffices h : Done p.documents.size p.readSkeletons by
    obtain ⟨hsize, hdocs⟩ := h
    intro x hx
    obtain ⟨j, hj⟩ := Array.mem_iff_getElem?.1 hx
    exact hdocs j x hj (hsize ▸ (Array.getElem?_eq_some_iff.1 hj).1)
  unfold Project.readSkeletons
  refine Array.foldl_induction Done ⟨rfl, fun j d _ hj => absurd hj (Nat.not_lt_zero j)⟩
    fun i q hq => ?_
  obtain ⟨hsize, hdocs⟩ := hq
  have hid : p.documents[i].id = i := hp i _ (Array.getElem?_eq_getElem i.2)
  -- the document at `i` is replaced, the others are kept
  have hset : ∀ (x : Document) (r : Project),
      (∀ a, x.analysis = some a → a.Sourced (Token.lex x.text)) →
      r.documents = q.documents.set! i x → Done (i + 1) r := by
    intro x r hxa hr
    refine ⟨by simp [hr, hsize], fun j y hy hj => ?_⟩
    rw [hr, Array.set!_eq_setIfInBounds, Array.getElem?_setIfInBounds] at hy
    split at hy
    · next hij =>
      subst hij
      split at hy
      · cases hy
        exact hxa
      · cases hy
    · exact hdocs j y hy (by omega)
  split
  · split
    next a log heq =>
    have hskel := Analysis.sourced_skeleton (p.documents[i]).id (p.documents[i]).text {}
      ⟨{ file := (p.documents[i]).id, tokens := [] }, q.log⟩ trivial
    have ha : (runStep _ _ _ _).1 = a := congrArg Prod.fst heq
    refine hset { p.documents[i] with analysis := some a } _ (fun a' ha' => ?_)
      (by dsimp only; rw [hid])
    cases ha'
    rw [← ha]
    exact hskel
  · exact hset { p.documents[i] with analysis := none } _ (fun a ha => by cases ha)
      (by dsimp only; rw [hid])

/-- Rebuilding a project whose documents sit at their ids leaves only analyses of the
    documents' own texts. -/
theorem Numbered.sourced_rebuild (hp : p.Numbered) : p.rebuild.Sourced := by
  unfold Project.rebuild
  have h := ((hp.sourced_readSkeletons.resolveIncludes.runPhase fun _ =>
    Analysis.sourced_addMembers).runPhase fun _ => Analysis.sourced_link).runPhase
      fun _ => Analysis.sourced_addBodies
  dsimp only
  exact h.record _ _

/-! ## Reachable projects -/

theorem Filed.numbered (hp : p.Filed) : p.Numbered := fun i d hd => (hp i d hd).1

/-- A phase moves no document and keeps every id. -/
theorem Numbered.runPhase (hp : p.Numbered) (phase : Step Unit) : (p.runPhase phase).Numbered := by
  intro i d' hd'
  have h : Option.Rel (Document.Changed fun _ _ => True) p.documents[i]?
      (p.runPhase phase).documents[i]? :=
    runPhase_getElem? (fun _ _ _ => trivial) i
  rw [hd'] at h
  cases hd : p.documents[i]? with
  | none =>
    rw [hd] at h
    cases h
  | some d =>
    rw [hd, Option.rel_some_some] at h
    exact h.1.trans (hp i d hd)

theorem Numbered.record (hp : p.Numbered) (level : LogLevel) (message : String) :
    (p.record level message).Numbered := hp

theorem Numbered.rebuild (hp : p.Numbered) : p.rebuild.Numbered := by
  unfold Project.rebuild
  have h := ((hp.readSkeletons.1.resolveIncludes.numbered.runPhase Analysis.addMembers).runPhase
    Analysis.link).runPhase Analysis.addBodies
  dsimp only
  exact h.record _ _

/-- Giving a document a new text keeps it at its id. -/
theorem Numbered.setText (hp : p.Numbered) {id : Nat} {d : Document}
    (hd : p.documents[id]? = some d) (text : String) :
    ({ p with documents := p.documents.set! id { d with text, modified := true } } : Project).Numbered := by
  intro j x hx
  dsimp only at hx
  rw [Array.set!_eq_setIfInBounds, Array.getElem?_setIfInBounds] at hx
  split at hx
  · next hij =>
    subst hij
    split at hx
    · cases hx
      exact hp _ d hd
    · cases hx
  · exact hp j x hx

theorem numbered_sources (files : List (String × String)) :
    (files.foldl (fun (p : Project) (path, text) => (p.push path text (some .zscript)).2) {}).Numbered := by
  refine List.foldlRecOn (motive := Numbered) _ _ numbered_empty fun q hq f _ => ?_
  obtain ⟨path, text⟩ := f
  exact hq.push _ _ _

/-- Every reachable project is the rebuild of one whose documents sit at their ids, so what
    every such rebuild satisfies, every reachable project does. The induction carries that the
    project before each change was itself rebuilt so, and hence numbered. -/
theorem Reachable.rebuilt (h : p.Reachable) :
    ∀ R : Project → Prop, (∀ q : Project, q.Numbered → R q.rebuild) → R p := by
  induction h with
  | ofSources files =>
    intro R hR
    unfold Project.ofSources
    exact hR _ (numbered_sources files)
  | @addDocument q path text _ ih =>
    intro R hR
    have h := (ih _ fun q hq => hq.rebuild).push path text (some .zscript)
    unfold Project.addDocument
    generalize q.push path text (some .zscript) = r at h ⊢
    obtain ⟨id, r⟩ := r
    dsimp only at h ⊢
    exact hR _ h
  | setContents id text _ hset ih =>
    intro R hR
    unfold Project.setContents at hset
    split at hset
    · cases hset
    · next d hd =>
      rw [← Except.ok.inj hset]
      exact hR _ ((ih _ fun q hq => hq.rebuild).setText hd text)

/-- Every reachable project holds only analyses of its documents' own texts. -/
theorem Reachable.sourced (h : p.Reachable) : p.Sourced :=
  h.rebuilt _ fun _ hq => hq.sourced_rebuild

/-- In every reachable project, each range a document's analysis classifies is the range of a
    token of that document's text: so it is not empty, it ends inside the text, and both its
    ends are boundaries between characters. -/
theorem semanticRanges (hp : p.Reachable) :
    ∀ d ∈ p.documents, ∀ a, d.analysis = some a → ∀ s ∈ a.semantic,
      (∃ k ∈ Token.lex d.text, k.start = s.start ∧ k.stop = s.stop) ∧
      s.start < s.stop ∧ s.stop ≤ d.text.utf8ByteSize ∧
      (String.Pos.Raw.mk s.start).IsValid d.text ∧ (String.Pos.Raw.mk s.stop).IsValid d.text := by
  intro d hd a ha s hs
  obtain ⟨k, hk, hrange⟩ := List.mem_map.1 ((hp.sourced d hd a ha).semantic s hs)
  obtain ⟨hstart, hstop⟩ := Prod.mk.inj hrange
  rw [← hstart, ← hstop]
  exact ⟨⟨k, hk, rfl, rfl⟩, Lexer.lex_within hk⟩

/-- A file with a comment holding a two-byte character, a class, a field, and a method whose
    body declares a local. -/
theorem semanticRanges_ofSources :
    (ofSources [("a.zs",
      "// caf\u00e9\nclass Foo : Actor \x7b int x; void F() \x7b int y = x + 1; \x7d \x7d")]).Reachable ∧
    ∀ d ∈ (ofSources [("a.zs",
      "// caf\u00e9\nclass Foo : Actor \x7b int x; void F() \x7b int y = x + 1; \x7d \x7d")]).documents,
      ∀ a, d.analysis = some a → ∀ s ∈ a.semantic,
      (∃ k ∈ Token.lex d.text, k.start = s.start ∧ k.stop = s.stop) ∧
      s.start < s.stop ∧ s.stop ≤ d.text.utf8ByteSize ∧
      (String.Pos.Raw.mk s.start).IsValid d.text ∧ (String.Pos.Raw.mk s.stop).IsValid d.text :=
  ⟨.ofSources _, semanticRanges (.ofSources _)⟩

end Project

end ZScript
