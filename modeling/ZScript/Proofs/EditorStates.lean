import ZScript.Proofs.CursorMoves
import ZScript.Proofs.ProjectSources
import ZScript.Editor.App

/-!
# The states the editor reaches

The cursor is a byte offset into the open document, and every key either moves it or edits the
text around it. `App.Sound` is the invariant that keeps every such cut of the text on a boundary
between characters: the cursor is a boundary of the open document, the file selection is a
document and the problem selection a problem of the open document, and the project's ids are
its indices (so the rebuild after an edit keeps each document where it was).

It holds at the start (`sound_start`), each pane's keys keep it (`Sound.filesKey`,
`Sound.sourceKey`, `Sound.problemsKey`), saving keeps it whatever the file system answers
(`Sound.save`, in any lawful monad), and drawing a frame moves only scroll offsets
(`Sound.render`). So it holds in every state the editor reaches (`Reachable.sound`).
-/

namespace ZScript

namespace App

/-- The editor's invariant: the project's ids are its indices, the cursor is a boundary between
    characters of the open document, the file selection is a document (or `0` when there is
    none) and the problem selection is a problem of the open document (or `0`). -/
structure Sound (app : App) : Prop where
  numbered : app.project.Numbered
  cursor : ∀ d, app.document? = some d → (String.Pos.Raw.mk app.cursor).IsValid d.text
  files : app.fileSelected < max 1 app.project.documents.size
  problems : app.problemSelected ≤ (app.document?.map (·.diagnostics.size)).getD 0 - 1

theorem document?_eq (app : App) : app.document? = app.opened.bind app.project.document? := rfl

/-- The editor at its start on a project whose ids are its indices. -/
theorem sound_start {p : Project} (hp : p.Numbered) : (App.start p).Sound := by
  refine ⟨hp, fun d _ => Cursor.isValid_zero d.text, ?_, Nat.zero_le _⟩
  show ((p.documents.find? (·.kind == .zscript)).map (·.id)).getD 0 < max 1 p.documents.size
  cases hfind : p.documents.find? (·.kind == .zscript) with
  | none => simp
  | some d =>
    obtain ⟨i, hi⟩ := Array.mem_iff_getElem?.1 (Array.mem_of_find?_eq_some hfind)
    have hlt := (Array.getElem?_eq_some_iff.1 hi).1
    rw [Option.map_some, Option.getD_some, hp i d hi]
    omega

/-- The text after replacing the bytes between two boundaries has a boundary after the new
    text. -/
theorem isValid_replace {text : String} {start stop : Nat}
    (hstart : (String.Pos.Raw.mk start).IsValid text) (hstop : (String.Pos.Raw.mk stop).IsValid text)
    (insert : String) :
    (String.Pos.Raw.mk (start + insert.utf8ByteSize)).IsValid (Cursor.replace text start stop insert) := by
  obtain ⟨A, B, hAB, rfl⟩ := Cursor.isValid_iff_exists_append.1 hstart
  obtain ⟨A', B', hAB', rfl⟩ := Cursor.isValid_iff_exists_append.1 hstop
  refine Cursor.isValid_iff_exists_append.2 ⟨A ++ insert.toList, B', ?_, ?_⟩
  · rw [Cursor.toList_replace hAB hAB']
  · rw [String.utf8Len_append, Cursor.utf8ByteSize_eq_utf8Len]

/-- Replacing bytes between two boundaries of the open document keeps the invariant. -/
theorem Sound.replace {app : App} (h : app.Sound) {start stop : Nat} (insert : String)
    (hstart : ∀ d, app.document? = some d → (String.Pos.Raw.mk start).IsValid d.text)
    (hstop : ∀ d, app.document? = some d → (String.Pos.Raw.mk stop).IsValid d.text) :
    (app.replace start stop insert).Sound := by
  unfold App.replace
  split
  · next id d hopen hdoc =>
    have hd : app.project.documents[id]? = some d := by
      rw [document?_eq, hopen] at hdoc
      exact hdoc
    rw [Project.setContents_eq hd]
    dsimp only
    -- the document with its new text, then the rebuild, which keeps every source
    have hnum := h.numbered.setText hd (Cursor.replace d.text start stop insert)
    have hsrc := hnum.sameSources_rebuild
    have hnum' := hnum.rebuild
    generalize hp₀ : ({ app.project with documents := (app.project.documents.set! id
      { d with text := Cursor.replace d.text start stop insert, modified := true }) } : Project) = p₀
      at hnum hsrc hnum'
    generalize p₀.rebuild = p' at hsrc hnum' ⊢
    have hid : id < app.project.documents.size := (Array.getElem?_eq_some_iff.1 hd).1
    have hat : p₀.documents[id]? =
        some { d with text := Cursor.replace d.text start stop insert, modified := true } := by
      rw [← hp₀]
      simp [Array.set!_eq_setIfInBounds, hid]
    obtain ⟨d', hd', htext⟩ : ∃ d', p'.documents[id]? = some d' ∧
        d'.text = Cursor.replace d.text start stop insert := by
      have hrel := hsrc id
      rw [hat] at hrel
      cases hp' : p'.documents[id]? with
      | none => rw [hp'] at hrel; cases hrel
      | some d' => rw [hp', Option.rel_some_some] at hrel; exact ⟨d', rfl, hrel.text⟩
    have hsize : p'.documents.size = app.project.documents.size := by
      rw [hsrc.size_eq, ← hp₀, Array.size_set!]
    refine ⟨hnum', fun e he => ?_, ?_, Nat.min_le_right _ _⟩
    · change app.opened.bind p'.document? = some e at he
      rw [hopen, Option.bind_some, Project.document?, hd', Option.some.injEq] at he
      rw [← he, htext]
      exact isValid_replace (hstart d hdoc) (hstop d hdoc) insert
    · change app.fileSelected < max 1 p'.documents.size
      rw [hsize]
      exact h.files
  · exact h

/-- The invariant reads only the project, the open document, the cursor and the selections. -/
theorem Sound.congr {app app' : App} (h : app.Sound) (hp : app'.project = app.project)
    (ho : app'.opened = app.opened) (hc : app'.cursor = app.cursor)
    (hf : app'.fileSelected = app.fileSelected) (hs : app'.problemSelected = app.problemSelected) :
    app'.Sound := by
  have hd : app'.document? = app.document? := by rw [document?_eq, document?_eq, hp, ho]
  exact ⟨hp ▸ h.numbered, fun d h' => hc ▸ h.cursor d (hd ▸ h'), hp ▸ hf ▸ h.files,
    hs ▸ hd ▸ h.problems⟩

/-- Moving the cursor to a boundary of the open document. -/
theorem Sound.withCursor {app : App} (h : app.Sound) {c : Nat}
    (hc : ∀ d, app.document? = some d → (String.Pos.Raw.mk c).IsValid d.text) :
    { app with cursor := c }.Sound :=
  ⟨h.numbered, hc, h.files, h.problems⟩

theorem Sound.openDocument {app : App} (h : app.Sound) (id : Nat) : (app.openDocument id).Sound := by
  unfold App.openDocument
  split
  · exact ⟨h.numbered, fun d _ => Cursor.isValid_zero d.text, h.files, Nat.zero_le _⟩
  · exact h

/-- Selecting another document of the project. -/
theorem Sound.withFile {app : App} (h : app.Sound) {n : Nat}
    (hn : n < max 1 app.project.documents.size) : { app with fileSelected := n }.Sound :=
  ⟨h.numbered, h.cursor, hn, h.problems⟩

/-- Selecting another problem of the open document. -/
theorem Sound.withProblem {app : App} (h : app.Sound) {n : Nat}
    (hn : n ≤ (app.document?.map (·.diagnostics.size)).getD 0 - 1) :
    { app with problemSelected := n }.Sound :=
  ⟨h.numbered, h.cursor, h.files, hn⟩

theorem Sound.filesKey {app : App} (h : app.Sound) (code : KeyCode) : (app.filesKey code).Sound := by
  unfold App.filesKey
  dsimp only
  split
  · exact h.withFile (by have := h.files; omega)
  · split
    · exact h.withFile (by omega)
    · exact h
  · split
    · exact h.openDocument _
    · exact h
  · exact h

theorem Sound.problemsKey {app : App} (h : app.Sound) (code : KeyCode) :
    (app.problemsKey code).Sound := by
  unfold App.problemsKey
  split
  · exact h
  · next d hd =>
    have hcount : app.problemSelected ≤ d.diagnostics.size - 1 := by
      have := h.problems
      rwa [hd, Option.map_some, Option.getD_some] at this
    dsimp only
    split
    · exact h.withProblem (by rw [hd, Option.map_some, Option.getD_some]; omega)
    · split
      · exact h.withProblem (by rw [hd, Option.map_some, Option.getD_some]; omega)
      · exact h
    · split
      · next offset htarget =>
        rw [Option.map_eq_some_iff] at htarget
        obtain ⟨x, -, rfl⟩ := htarget
        refine (h.withCursor fun e he => ?_).congr rfl rfl rfl rfl rfl
        rw [hd, Option.some.injEq] at he
        rw [← he]
        exact Cursor.isValid_offsetAt _ _ _
      · exact h
    · exact h

/-- Moving the cursor to a boundary of the open document `d`. -/
theorem Sound.moveTo {app : App} (h : app.Sound) {d : Document} (hd : app.document? = some d)
    {c : Nat} (hc : (String.Pos.Raw.mk c).IsValid d.text) : { app with cursor := c }.Sound :=
  h.withCursor fun e he => by
    rw [hd, Option.some.injEq] at he
    exact he ▸ hc

theorem Sound.sourceKey {app : App} (h : app.Sound) (code : KeyCode) : (app.sourceKey code).Sound := by
  unfold App.sourceKey
  split
  · exact h
  · next d hd =>
    have hcursor := h.cursor d hd
    -- the boundaries next to the cursor are those of the open document
    have hat : ∀ {o : Nat}, (String.Pos.Raw.mk o).IsValid d.text →
        ∀ e, app.document? = some e → (String.Pos.Raw.mk o).IsValid e.text := fun ho e he => by
      rw [hd, Option.some.injEq] at he
      exact he ▸ ho
    cases code with
    | left => exact h.moveTo hd (Cursor.isValid_prevBoundary _ _).1
    | right => exact h.moveTo hd (Cursor.isValid_nextBoundary hcursor).1
    | up => exact h.moveTo hd (Cursor.isValid_moveVertical _ _ _)
    | down => exact h.moveTo hd (Cursor.isValid_moveVertical _ _ _)
    | home => exact h.moveTo hd (Cursor.isValid_offsetAt _ _ _)
    | «end» => exact h.moveTo hd (Cursor.isValid_offsetAt _ _ _)
    | char c => exact h.replace _ (hat hcursor) (hat hcursor)
    | enter => exact h.replace _ (hat hcursor) (hat hcursor)
    | backspace =>
      dsimp only
      split
      · exact h.replace _ (hat (Cursor.isValid_prevBoundary _ _).1) (hat hcursor)
      · exact h
    | delete =>
      dsimp only
      split
      · exact h.replace _ (hat hcursor) (hat (Cursor.isValid_nextBoundary hcursor).1)
      · exact h
    | esc | tab | backTab | pageUp | pageDown | insert | function _ => exact h

theorem Sound.paneKey {app : App} (h : app.Sound) (key : Key) : (app.paneKey key).Sound := by
  unfold App.paneKey
  split
  · exact h.filesKey _
  · split
    · exact h
    · exact h.sourceKey _
  · exact h.problemsKey _

end App

variable {m : Type → Type} [Monad m] [LawfulMonad m]

/-- Saving a document through any file system changes, when it succeeds, only whether that
    document counts as modified. -/
theorem Project.save_satisfies (fs : FileSystem m) (p : Project) (id : Nat) :
    SatisfiesM (fun r => ∀ p', r = .ok p' → ∃ d, p.documents[id]? = some d ∧
      p'.documents = p.documents.set! id { d with modified := false }) (Project.save fs p id) := by
  unfold Project.save
  split
  · split
    · next d hd =>
      refine SatisfiesM.bind_pre (SatisfiesM.of_true fun r => ?_)
      split
      · refine SatisfiesM.pure ?_
        intro p' h
        cases h
      · refine SatisfiesM.pure ?_
        intro p' h
        cases h
        exact ⟨d, hd, rfl⟩
    · refine SatisfiesM.pure ?_
      intro p' h
      cases h
  · refine SatisfiesM.pure ?_
    intro p' h
    cases h

namespace App

/-- Saving the open document keeps the invariant, whatever the file system does. -/
theorem Sound.save {app : App} (h : app.Sound) (fs : FileSystem m) :
    SatisfiesM Sound (app.save fs) := by
  unfold App.save
  split
  · exact SatisfiesM.pure (h.congr rfl rfl rfl rfl rfl)
  · next id hopen =>
    refine SatisfiesM.bind_pre ((Project.save_satisfies fs app.project id).imp fun {r} hr => ?_)
    split
    · next p' =>
      obtain ⟨d, hd, hdocs⟩ := hr p' rfl
      have hdoc : app.document? = some d := by rw [document?_eq, hopen]; exact hd
      have hid : id < app.project.documents.size := (Array.getElem?_eq_some_iff.1 hd).1
      have hat : p'.documents[id]? = some { d with modified := false } := by
        simp [hdocs, Array.set!_eq_setIfInBounds, hid]
      have hdoc' : (some id).bind p'.document? = some { d with modified := false } := hat
      refine SatisfiesM.pure ⟨fun j x hx => ?_, fun e he => ?_, ?_, ?_⟩
      · exact h.numbered.set (e := { d with modified := false }) hd rfl hdocs j x hx
      · change app.opened.bind p'.document? = some e at he
        rw [hopen, hdoc', Option.some.injEq] at he
        rw [← he]
        exact h.cursor d hdoc
      · change app.fileSelected < max 1 p'.documents.size
        rw [hdocs, Array.size_set!]
        exact h.files
      · have hp := h.problems
        rw [hdoc] at hp
        change app.problemSelected ≤ ((app.opened.bind p'.document?).map (·.diagnostics.size)).getD 0 - 1
        rw [hopen, hdoc']
        exact hp
    · exact SatisfiesM.pure (h.congr rfl rfl rfl rfl rfl)

/-- Handling a key keeps the invariant, whatever the file system does. -/
theorem Sound.handleKey {app : App} (h : app.Sound) (fs : FileSystem m) (key : Key) :
    SatisfiesM Sound (app.handleKey fs key) := by
  unfold App.handleKey
  split
  · exact SatisfiesM.pure (h.congr rfl rfl rfl rfl rfl)
  · split
    · exact SatisfiesM.pure (h.congr rfl rfl rfl rfl rfl)
    · exact SatisfiesM.pure (h.paneKey key)
  · split
    · exact h.save fs
    · exact SatisfiesM.pure (h.paneKey key)
  · exact SatisfiesM.pure (h.congr rfl rfl rfl rfl rfl)
  · exact SatisfiesM.pure (h.congr rfl rfl rfl rfl rfl)
  · exact SatisfiesM.pure (h.paneKey key)

/-- Drawing a frame moves only the panes' scroll offsets. -/
theorem Sound.render {app : App} (h : app.Sound) (area : Rect) : (app.render area).1.Sound :=
  h.congr rfl rfl rfl rfl rfl

/-- The states of the editor: its start on a built project whose ids are its indices, then, in
    any order, keys handled with any file system (one with a state of its own that each operation
    reads and changes) and frames drawn. -/
inductive Reachable : App → Prop
  | start {q : Project} : q.Numbered → Reachable (App.start q.rebuild)
  | key {app : App} {σ : Type} (fs : FileSystem (StateM σ)) (s : σ) (key : Key) :
      Reachable app → Reachable ((app.handleKey fs key).run s).1
  | render {app : App} (area : Rect) : Reachable app → Reachable (app.render area).1

/-- The invariant holds in every state the editor reaches: it holds at the start, and handling a
    key or drawing a frame keeps it. -/
theorem Reachable.sound {app : App} (h : app.Reachable) : app.Sound := by
  induction h with
  | start hq => exact sound_start hq.rebuild
  | key fs s key _ ih =>
    have hkey := ih.handleKey fs key
    rw [SatisfiesM_StateT_eq] at hkey
    simpa only [SatisfiesM_Id_eq] using hkey s
  | render area _ ih => exact ih.render area

/-- In every state the editor reaches, the cursor is a boundary between characters of the open
    document, and so are the boundaries left and right of it that the keys cut the text at; the
    file selection is a document (or `0`) and the problem selection a problem of the open
    document (or `0`). -/
theorem Reachable.cursor_onBoundary {app : App} (h : app.Reachable) :
    (∀ d, app.document? = some d →
      app.cursor ≤ d.text.utf8ByteSize ∧ (String.Pos.Raw.mk app.cursor).IsValid d.text ∧
      (String.Pos.Raw.mk (Cursor.prevBoundary d.text app.cursor)).IsValid d.text ∧
      (String.Pos.Raw.mk (Cursor.nextBoundary d.text app.cursor)).IsValid d.text) ∧
    app.fileSelected < max 1 app.project.documents.size ∧
    app.problemSelected ≤ (app.document?.map (·.diagnostics.size)).getD 0 - 1 := by
  have hsound := h.sound
  refine ⟨fun d hd => ?_, hsound.files, hsound.problems⟩
  have hcursor := hsound.cursor d hd
  exact ⟨hcursor.le_utf8ByteSize, hcursor, (Cursor.isValid_prevBoundary _ _).1,
    (Cursor.isValid_nextBoundary hcursor).1⟩

/-- One file, a two-byte letter typed at its start with an empty memory disk behind the
    editor. -/
theorem Reachable.cursor_onBoundary_typed :
    (((App.start ((({} : Project).push "a.zs" "class A \x7b \x7d" (some .zscript)).2.rebuild)).handleKey
      MemoryDisk.fileSystem ⟨.char 'é', false⟩).run {}).1.Reachable ∧
    let app := (((App.start ((({} : Project).push "a.zs" "class A \x7b \x7d" (some .zscript)).2.rebuild)).handleKey
      MemoryDisk.fileSystem ⟨.char 'é', false⟩).run {}).1
    (∀ d, app.document? = some d →
      app.cursor ≤ d.text.utf8ByteSize ∧ (String.Pos.Raw.mk app.cursor).IsValid d.text ∧
      (String.Pos.Raw.mk (Cursor.prevBoundary d.text app.cursor)).IsValid d.text ∧
      (String.Pos.Raw.mk (Cursor.nextBoundary d.text app.cursor)).IsValid d.text) ∧
    app.fileSelected < max 1 app.project.documents.size ∧
    app.problemSelected ≤ (app.document?.map (·.diagnostics.size)).getD 0 - 1 :=
  have hreach := Reachable.key MemoryDisk.fileSystem {} ⟨.char 'é', false⟩
    (Reachable.start (Project.numbered_empty.push "a.zs" "class A \x7b \x7d" (some .zscript)))
  ⟨hreach, Reachable.cursor_onBoundary hreach⟩

end App

end ZScript
