import Mathlib
import ZScript.Proofs.ProjectSources

/-!
# Normal paths

A project path is normal when it has no `\` and never two `/` in a row (`Path.Normal`).
`Path.normalize` gives a normal path (`normal_normalizeChars`) and leaves a normal one as it is
(`normalizeChars_of_normal`), so it is a projection: normalizing twice is normalizing once, and a
file is given the same kind before and after.

A project built from sources stores each document under its normalized path
(`paths_ofSources`), and `findDocument` normalizes the path it is asked for; so the path a
document was given and the path it is stored under find the same document, the first whose
stored path is the same up to ASCII case.
-/

namespace ZScript

namespace Path

/-- Normal path characters: no `\`, and no `/` right after a `/`. -/
def Normal (cs : List Char) : Prop :=
  '\\' ∉ cs ∧ cs.IsChain fun a b => ¬(a = '/' ∧ b = '/')

theorem Normal.tail {c : Char} {cs : List Char} (h : Normal (c :: cs)) : Normal cs :=
  ⟨fun hm => h.1 (List.mem_cons_of_mem c hm), h.2.tail⟩

theorem normal_singleton (c : Char) (hc : c ≠ '\\') : Normal [c] := by
  refine ⟨?_, .singleton c⟩
  simpa using hc.symm

/-- Putting a character in front of normal characters: it is no `\`, and it is no `/` when they
    start with one. -/
theorem Normal.cons {c : Char} {cs : List Char} (hc : c ≠ '\\')
    (hs : ∀ d ∈ cs.head?, ¬(c = '/' ∧ d = '/')) (h : Normal cs) : Normal (c :: cs) := by
  refine ⟨?_, ?_⟩
  · rw [List.mem_cons, not_or]
    exact ⟨hc.symm, h.1⟩
  · cases cs with
    | nil => exact .singleton c
    | cons d ds => exact List.isChain_cons_cons.2 ⟨hs d rfl, h.2⟩

/-- A normal text contains no two `/` in a row anywhere. -/
theorem Normal.no_double_slash {cs : List Char} (h : Normal cs) : ¬['/', '/'] <:+: cs := by
  intro hin
  have hpair := List.IsChain.infix h.2 hin
  rw [List.isChain_pair] at hpair
  exact hpair ⟨rfl, rfl⟩

/-- One step of normalizing: the character is written with `\` as `/`, and skipped when it is a
    `/` after a `/`. -/
theorem normalizeChars_cons (prev : Option Char) (c : Char) (cs : List Char) :
    normalizeChars prev (c :: cs) =
      if (if c = '\\' then '/' else c) = '/' ∧ prev = some '/' then normalizeChars prev cs
      else (if c = '\\' then '/' else c) ::
        normalizeChars (some (if c = '\\' then '/' else c)) cs := by
  simp [normalizeChars]

/-- What normalizing writes after the last character it wrote, `prev`, is normal together with
    it. -/
theorem normal_normalizeChars (prev : Option Char) (hprev : ∀ c ∈ prev, c ≠ '\\')
    (cs : List Char) : Normal (prev.toList ++ normalizeChars prev cs) := by
  induction cs generalizing prev with
  | nil =>
    cases prev with
    | none => exact ⟨List.not_mem_nil, .nil⟩
    | some c => exact normal_singleton c (hprev c rfl)
  | cons c cs ih =>
    -- `w` is the character as it is written: a `\` becomes a `/`
    have hw : (if c = '\\' then '/' else c) ≠ '\\' := by split <;> simp_all
    rw [normalizeChars_cons]
    generalize (if c = '\\' then '/' else c) = w at hw
    split
    · exact ih prev hprev
    · next hskip =>
      have hrest := ih (some w) (by simpa using hw)
      cases prev with
      | none => simpa using hrest
      | some p =>
        refine Normal.cons (hprev p rfl) ?_ hrest
        rintro d hd ⟨rfl, rfl⟩
        have hw' : w = '/' := by simpa using hd
        exact hskip ⟨hw', rfl⟩

/-- Normalizing characters that are normal after `prev` writes them as they are. -/
theorem normalizeChars_of_normal (prev : Option Char) (cs : List Char)
    (h : Normal (prev.toList ++ cs)) : normalizeChars prev cs = cs := by
  induction cs generalizing prev with
  | nil => rfl
  | cons c cs ih =>
    have hsuffix : Normal (c :: cs) := by
      cases prev with
      | none => exact h
      | some p => exact h.tail
    have hc : c ≠ '\\' := fun hc => hsuffix.1 (hc ▸ List.mem_cons_self)
    -- `prev` and `c` are no two `/` in a row
    have hpair : ¬(c = '/' ∧ prev = some '/') := by
      rintro ⟨rfl, rfl⟩
      exact (List.isChain_cons_cons.1 h.2).1 ⟨rfl, rfl⟩
    rw [normalizeChars_cons, if_neg hc, if_neg hpair, ih (some c) hsuffix]

theorem toList_normalize (p : String) : (normalize p).toList = normalizeChars none p.toList := by
  simp [normalize]

theorem normal_normalize (p : String) : Normal (normalize p).toList := by
  rw [toList_normalize]
  exact normal_normalizeChars none (by simp) p.toList

/-- Normalizing is a projection. -/
theorem normalize_normalize (p : String) : normalize (normalize p) = normalize p := by
  have h := normalizeChars_of_normal none (normalize p).toList (by simpa using normal_normalize p)
  rw [normalize, h, String.ofList_toList]

end Path

/-- The kind of a file does not change when its path is normalized. -/
theorem FileKind.detect_normalize (p : String) :
    FileKind.detect (Path.normalize p) = FileKind.detect p := by
  simp only [FileKind.detect, Path.normalize_normalize]

namespace Project

/-- Pushing documents under the given paths appends their normalized paths. -/
theorem paths_foldl_push (files : List (String × String)) (q : Project) :
    (files.foldl (fun (p : Project) (path, text) => (p.push path text (some .zscript)).2)
      q).documents.toList.map Document.path =
      q.documents.toList.map Document.path ++ files.map fun f => Path.normalize f.1 := by
  induction files generalizing q with
  | nil => simp
  | cons f files ih =>
    obtain ⟨path, text⟩ := f
    simp only [List.foldl_cons]
    rw [ih]
    simp [push]

/-- Projects with the same sources have the same paths. -/
theorem SameSources.paths_eq {p q : Project} (h : p.SameSources q) :
    q.documents.toList.map Document.path = p.documents.toList.map Document.path := by
  apply List.ext_getElem?
  intro i
  rw [List.getElem?_map, List.getElem?_map, Array.getElem?_toList, Array.getElem?_toList]
  have hi := h i
  generalize p.documents[i]? = x at hi ⊢
  generalize q.documents[i]? = y at hi ⊢
  cases hi with
  | none => rfl
  | some hde => simp [hde.path]

/-- A project built from sources stores the `i`th source under its normalized path. -/
theorem paths_ofSources (files : List (String × String)) :
    (ofSources files).documents.toList.map Document.path =
      files.map fun f => Path.normalize f.1 := by
  unfold ofSources
  rw [(numbered_sources files).sameSources_rebuild.paths_eq, paths_foldl_push]
  simp

/-- The first of `xs` that passes `f`, when the `i`th does, stands at or before `i`. -/
theorem exists_find?_of_getElem? {α : Type} {xs : Array α} {f : α → Bool} {i : Nat} {x : α}
    (hx : xs[i]? = some x) (hf : f x = true) :
    ∃ j ≤ i, ∃ y, xs[j]? = some y ∧ f y = true ∧
      (∀ k < j, ∀ z, xs[k]? = some z → f z = false) ∧ xs.find? f = some y := by
  have hsome : (xs.find? f).isSome := by
    rw [Array.find?_isSome]
    exact ⟨x, Array.mem_of_getElem? hx, hf⟩
  obtain ⟨y, hy⟩ := Option.isSome_iff_exists.1 hsome
  obtain ⟨hfy, j, hj, rfl, hbefore⟩ := Array.find?_eq_some_iff_getElem.1 hy
  have hji : j ≤ i := by
    by_contra hlt
    have hlt : i < j := Nat.lt_of_not_le hlt
    obtain ⟨hi, rfl⟩ := Array.getElem?_eq_some_iff.1 hx
    simpa [hf] using hbefore i hlt
  refine ⟨j, hji, _, Array.getElem?_eq_getElem hj, hfy, ?_, hy⟩
  intro k hk z hz
  obtain ⟨hk', rfl⟩ := Array.getElem?_eq_some_iff.1 hz
  simpa using hbefore k hk

/-- Normalizing a path is a projection that writes no `\` and no `//` and keeps the kind of the
    file; in a project built from sources, the path a document was given and the path it is
    stored under find the same document: the first whose stored path is the same up to ASCII
    case. -/
theorem normalize_projection_findDocument :
    (∀ p : String, Path.normalize (Path.normalize p) = Path.normalize p ∧
      '\\' ∉ (Path.normalize p).toList ∧ ¬['/', '/'] <:+: (Path.normalize p).toList ∧
      FileKind.detect (Path.normalize p) = FileKind.detect p) ∧
    ∀ (files : List (String × String)) (i : Nat) (path text : String),
      files[i]? = some (path, text) →
      ∃ d, (ofSources files).documents[i]? = some d ∧ d.path = Path.normalize path ∧
        ∃ j ≤ i, ∃ e, (ofSources files).documents[j]? = some e ∧
          e.path.toLower = d.path.toLower ∧
          (∀ k < j, ∀ f, (ofSources files).documents[k]? = some f →
            f.path.toLower ≠ d.path.toLower) ∧
          (ofSources files).findDocument path = some e ∧
          (ofSources files).findDocument d.path = some e := by
  refine ⟨fun p => ⟨Path.normalize_normalize p, (Path.normal_normalize p).1,
    (Path.normal_normalize p).no_double_slash, FileKind.detect_normalize p⟩, ?_⟩
  intro files i path text hi
  -- the `i`th document is stored under the normalized path
  obtain ⟨d, hd, hdpath⟩ : ∃ d, (ofSources files).documents[i]? = some d ∧
      d.path = Path.normalize path := by
    have h := congrArg (·[i]?) (paths_ofSources files)
    simp only [List.getElem?_map, Array.getElem?_toList, hi, Option.map_some] at h
    obtain ⟨d, hd, hpath⟩ := Option.map_eq_some_iff.1 h
    exact ⟨d, hd, hpath⟩
  obtain ⟨j, hji, e, he, hfe, hbefore, hfind⟩ :=
    exists_find?_of_getElem? (f := fun e => e.path.toLower == d.path.toLower) hd (by simp)
  refine ⟨d, hd, hdpath, j, hji, e, he, by simpa using hfe, ?_, ?_, ?_⟩
  · intro k hk f hf
    simpa using hbefore k hk f hf
  · simp only [findDocument, ← hdpath]
    exact hfind
  · simp only [findDocument, hdpath, Path.normalize_normalize]
    rw [← hdpath]
    exact hfind

/-- Two sources whose paths differ in case and separators: the second is stored as `SRC/A.zs`,
    and looking it up by either path finds the first document, `src/a.zs`. -/
theorem normalize_projection_findDocument_caseBlind :
    let files := [("src/a.zs", ""), ("SRC\\\\A.zs", "")]
    files[1]? = some ("SRC\\\\A.zs", "") ∧
    ∃ d, (ofSources files).documents[1]? = some d ∧ d.path = Path.normalize "SRC\\\\A.zs" ∧
      ∃ j ≤ 1, ∃ e, (ofSources files).documents[j]? = some e ∧
        e.path.toLower = d.path.toLower ∧
        (∀ k < j, ∀ f, (ofSources files).documents[k]? = some f →
          f.path.toLower ≠ d.path.toLower) ∧
        (ofSources files).findDocument "SRC\\\\A.zs" = some e ∧
        (ofSources files).findDocument d.path = some e := by
  intro files
  exact ⟨rfl, normalize_projection_findDocument.2 files 1 _ _ rfl⟩

end Project

end ZScript
