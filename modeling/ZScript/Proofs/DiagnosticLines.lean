import ZScript.Proofs.LinedBodies
import ZScript.Proofs.SemanticRanges

/-!
# Diagnostics lie on the lines of their text

Every diagnostic of a document, whichever phase reports it, is on a line of the document's
text: between `1` and one more than the number of line breaks (`Project.diagnosticLines`).

Each phase of a rebuild keeps a file lined in its own tokens (`Analysis.Lined`): reading the
skeleton makes it so, the members, link and bodies phases keep it, and pointing the includes at
their documents warns only on the line of an include's node, which the invariant covers. What a
rebuild keeps holds in every reachable project (`Project.Reachable.every`), since texts are only
ever changed just before a rebuild. Each reachable analysis holds its text's tokens
(`Project.Reachable.sourced`), and the lexer numbers a token's line by the line breaks before it.
-/

namespace ZScript

/-! ## Lines of a text's tokens -/

namespace Lexer

/-- A token of a text is on one of its lines. -/
theorem lex_line {s : String} {t : Token} (ht : t ∈ Token.lex s) :
    1 ≤ t.line ∧ t.line ≤ 1 + s.toList.count '\n' := by
  obtain ⟨l, -, P, Q, hsplit, rfl⟩ := lex_pieces ht
  obtain ⟨-, -, -, hline⟩ := tokenOf_span l (String.utf8Len P) (1 + P.count '\n')
  -- the line breaks before the token are some of the text's
  have hbefore : P.count '\n' ≤ s.toList.count '\n' := by
    rw [hsplit, List.count_append, List.count_append]
    omega
  omega

/-- A line of a text's tokens, or the first line, is one of its lines. -/
theorem lineOf_lex {s : String} {n : Nat} (h : LineOf (· ∈ Token.lex s) n) :
    1 ≤ n ∧ n ≤ 1 + s.toList.count '\n' := by
  rcases h with rfl | ⟨t, ht, rfl⟩
  · omega
  · exact lex_line ht

end Lexer

/-! ## Files lined in their own tokens -/

/-- An analysis lined in some tokens is lined in its own. -/
theorem Analysis.Lined.self {T : List Token} {a : Analysis} (h : a.Lined T) : a.Lined a.tokens :=
  h.tokens ▸ h

/-- A step that keeps a file lined in any tokens keeps it lined in its own. -/
theorem Step.Lined.self {α : Type} {x : Step α} {V : α → Prop} (h : ∀ T, Step.Lined T x V) :
    Step.Triple (fun w => w.file.Lined w.file.tokens) x fun _ w => w.file.Lined w.file.tokens :=
  fun u w hw => (h _ u w hw).2.self

/-! ## Projects -/

namespace Project

variable {p : Project}

/-- What every rebuild keeps of the analyses holds in every reachable project: a project is
    rebuilt after each change, and a change adds a document without an analysis or gives a
    document a new text and keeps its analysis until the rebuild. -/
theorem Reachable.every {R : Analysis → Prop} (hrebuild : ∀ q : Project, Every R q → Every R q.rebuild)
    (h : p.Reachable) : Every R p := by
  induction h with
  | ofSources files =>
    unfold Project.ofSources
    refine hrebuild _ (List.foldlRecOn (motive := Every R) _ _ ?_ fun q hq f _ => ?_)
    · intro d hd
      simp at hd
    · obtain ⟨path, text⟩ := f
      exact hq.push _ _ _
  | @addDocument q path text _ ih =>
    unfold Project.addDocument
    have hpush := ih.push path text (some .zscript)
    generalize q.push path text (some .zscript) = r at hpush ⊢
    obtain ⟨id, r⟩ := r
    exact hrebuild _ hpush
  | setContents id text _ hset ih =>
    unfold Project.setContents at hset
    split at hset
    · cases hset
    · next d hd =>
      rw [← Except.ok.inj hset]
      exact hrebuild _ (ih.set id fun a ha => ih d (Array.mem_of_getElem? hd) a ha)

/-- Pointing the includes of one document at their documents keeps every file lined in its own
    tokens: an include keeps the line it lends, and a missing file is reported on that line. -/
theorem Every.resolveIn_lined (paths : List String) (i : Nat)
    (hp : Every (fun a => a.Lined a.tokens) p) :
    Every (fun a => a.Lined a.tokens) (p.resolveIn paths i) := by
  unfold Project.resolveIn
  split
  · next d hd =>
    split
    · exact hp
    · next a ha =>
      split
      · next a' p' hfold =>
        -- the fold changes the analysis and the log, never the documents
        have hinv : (fun s : Analysis × Project =>
            s.1.Lined s.1.tokens ∧ s.2.documents = p.documents) (a', p') :=
          hfold ▸ List.foldlRecOn (motive := fun s : Analysis × Project =>
            s.1.Lined s.1.tokens ∧ s.2.documents = p.documents) _ _
            ⟨hp d (Array.mem_of_getElem? hd) a ha, rfl⟩ fun s hs id _ => by
              obtain ⟨a₀, q⟩ := s
              obtain ⟨hs, hq⟩ := hs
              dsimp only
              split
              · next line location _ hg =>
                have hline : LineOf (· ∈ a₀.tokens) line := hs.nodes id _ hg rfl
                have hinc : ∀ target,
                    ({ a₀ with tree := a₀.tree.modifyKind id fun _ => .inclusion location target } :
                      Analysis).Lined a₀.tokens := fun _ =>
                  hs.withTree (hs.tree.modifyKind fun _ _ => List.nil_subset _)
                    (hs.nodes.modifyKind fun node hn hlined _ => by
                      rw [hg] at hn
                      cases hn
                      exact hlined rfl)
                split
                · exact ⟨hinc _, hq⟩
                · exact ⟨(hinc _).report hline, hq⟩
              · exact ⟨hs, hq⟩
        obtain ⟨hs, hdocs⟩ := hinv
        have hp' : Every (fun a => a.Lined a.tokens) p' := fun x hx => hp x (hdocs ▸ hx)
        exact hp'.set i fun a'' h'' => by
          cases h''
          exact hs
  · exact hp

/-- Rebuilding a project keeps every file lined in its own tokens. -/
theorem Every.rebuild_lined (hp : Every (fun a => a.Lined a.tokens) p) :
    Every (fun a => a.Lined a.tokens) p.rebuild := by
  unfold Project.rebuild
  have hskel := hp.readSkeletons fun file text =>
    (Analysis.lined_skeleton file text).post fun _ _ h => h.self
  have hres : Every (fun a => a.Lined a.tokens) p.readSkeletons.resolveIncludes := by
    unfold Project.resolveIncludes
    exact List.foldlRecOn (motive := Every fun a => a.Lined a.tokens) _ _ hskel
      fun q hq i _ => hq.resolveIn_lined _ i
  have h := ((hres.runPhase (Step.Lined.self fun _ => Analysis.lined_addMembers)).runPhase
    (Step.Lined.self fun _ => Analysis.lined_link)).runPhase
      (Step.Lined.self fun _ => Analysis.lined_addBodies)
  dsimp only
  exact h.record _ _

/-- In every reachable project, every diagnostic of every document is on a line of the
    document's text: its line is at least `1` and at most one more than the text's line
    breaks. -/
theorem diagnosticLines (hp : p.Reachable) :
    ∀ d ∈ p.documents, ∀ x ∈ d.diagnostics, 1 ≤ x.line ∧ x.line ≤ 1 + d.text.toList.count '\n' := by
  intro d hd x hx
  unfold Document.diagnostics at hx
  cases ha : d.analysis with
  | none =>
    rw [ha] at hx
    simp at hx
  | some a =>
    rw [ha] at hx
    -- the analysis is lined in its own tokens, which are the text's
    have hlined : a.Lined a.tokens := hp.every (fun _ hq => hq.rebuild_lined) d hd a ha
    rw [(hp.sourced d hd a ha).tokens] at hlined
    exact Lexer.lineOf_lex (hlined.diagnostics x hx)

/-- A file with a missing semicolon, whose error is reported on its second line. -/
theorem diagnosticLines_ofSources :
    (ofSources [("a.zs", "class Foo : Actor\n\x7b int x \x7d\n")]).Reachable ∧
    ∀ d ∈ (ofSources [("a.zs", "class Foo : Actor\n\x7b int x \x7d\n")]).documents,
      ∀ x ∈ d.diagnostics, 1 ≤ x.line ∧ x.line ≤ 1 + d.text.toList.count '\n' :=
  ⟨.ofSources _, diagnosticLines (.ofSources _)⟩

end Project

end ZScript
