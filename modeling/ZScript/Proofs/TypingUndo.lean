import ZScript.Proofs.EditorStates
import ZScript.Proofs.RebuildInputs

/-!
# Typing a character and deleting it again

Every edit in the source pane rebuilds the whole project, so the editor's project is always
settled (`App.Reachable.settled`): its analyses are those a rebuild of its sources gives. Saving
changes only whether a document counts as modified, which no analysis reads.

Typing a character (or Enter) puts it at the cursor and moves the cursor over it; Backspace then
finds, scanning back from the cursor, exactly the boundary where the character starts, and cuts
it out. The text and the cursor are those before the two keys, and since the project was
settled, the second rebuild gives back every document's analysis
(`App.Reachable.backspace_undoes_typing`).
-/

namespace ZScript

namespace Project

variable {p q : Project}

theorem SameSources.exists_getElem? (h : p.SameSources q) {i : Nat} {d : Document}
    (hd : p.documents[i]? = some d) : ∃ e, q.documents[i]? = some e ∧ d.SameSource e := by
  have hi := h i
  rw [hd] at hi
  generalize q.documents[i]? = y at hi ⊢
  cases hi with
  | some hde => exact ⟨_, rfl, hde⟩

theorem getElem?_setText {id : Nat} {d : Document} (hd : p.documents[id]? = some d)
    (text : String) :
    ({ p with documents := p.documents.set! id { d with text, modified := true } } :
      Project).documents[id]? = some { d with text, modified := true } := by
  simp [Array.set!_eq_setIfInBounds, (Array.getElem?_eq_some_iff.1 hd).1]

/-- Marking a document as modified or saved leaves the documents in agreement. -/
theorem Agree.setModified {id : Nat} {d : Document} (hd : p.documents[id]? = some d) (b : Bool)
    {r : Project} (hr : r.documents = p.documents.set! id { d with modified := b }) :
    p.Agree r := by
  intro j
  rw [hr, Array.set!_eq_setIfInBounds, Array.getElem?_setIfInBounds]
  split
  · next hij =>
    subst hij
    rw [if_pos (Array.getElem?_eq_some_iff.1 hd).1, hd]
    exact .some ⟨⟨rfl, rfl, rfl, rfl⟩, rfl⟩
  · exact Agree.refl p j

/-- Whether a project is settled depends on its sources and analyses only. -/
theorem Settled.of_agree (hs : p.Settled) (hp : p.Numbered) (h : p.Agree q) : q.Settled :=
  h.symm.trans (hs.agree_rebuild hp h.sameSources)

/-- A change of text leaves the document at its index, with the new text. -/
theorem Numbered.getElem?_setContents (hp : p.Numbered) {id : Nat} {d : Document}
    (hd : p.documents[id]? = some d) {text : String} {p' : Project}
    (h : p.setContents id text = .ok p') :
    ∃ d', p'.documents[id]? = some d' ∧ { d with text, modified := true }.SameSource d' := by
  rw [setContents_eq hd, Except.ok.injEq] at h
  subst h
  exact (hp.setText hd text).sameSources_rebuild.exists_getElem? (getElem?_setText hd text)

/-- A change of text that succeeds rebuilds the project with the document's new text. -/
theorem eq_of_setContents {id : Nat} {text : String} {p' : Project}
    (h : p.setContents id text = .ok p') :
    ∃ d, p.documents[id]? = some d ∧
      p' = ({ p with documents := p.documents.set! id { d with text, modified := true } } :
        Project).rebuild := by
  unfold setContents at h
  split at h
  · cases h
  · next d hd => exact ⟨d, hd, (Except.ok.inj h).symm⟩

theorem Numbered.setContents (hp : p.Numbered) {id : Nat} {text : String} {p' : Project}
    (h : p.setContents id text = .ok p') : p'.Numbered := by
  obtain ⟨d, hd, hp'⟩ := eq_of_setContents h
  rw [hp']
  exact (hp.setText hd text).rebuild

theorem Numbered.settled_setContents (hp : p.Numbered) {id : Nat} {text : String} {p' : Project}
    (h : p.setContents id text = .ok p') : p'.Settled := by
  obtain ⟨d, hd, hp'⟩ := eq_of_setContents h
  rw [hp']
  exact (hp.setText hd text).settled_rebuild

/-- Changing the text of a document of a settled project and then writing the old text back
    gives back every analysis. -/
theorem Settled.agree_setContents_setContents (hs : p.Settled) (hp : p.Numbered) {id : Nat}
    {d : Document} (hd : p.documents[id]? = some d) {text : String} {p₁ p₂ : Project}
    (h₁ : p.setContents id text = .ok p₁) (h₂ : p₁.setContents id d.text = .ok p₂) :
    p.Agree p₂ := by
  rw [setContents_eq hd, Except.ok.injEq] at h₁
  subst h₁
  have hsrc := (hp.setText hd text).sameSources_rebuild
  obtain ⟨d₁, hd₁, hdd₁⟩ := hsrc.exists_getElem? (getElem?_setText hd text)
  rw [setContents_eq hd₁, Except.ok.injEq] at h₂
  subst h₂
  -- the document has its old source back, and every other one never changed its source
  refine hs.agree_rebuild hp fun j => ?_
  dsimp only
  rw [Array.set!_eq_setIfInBounds, Array.getElem?_setIfInBounds]
  split
  · next hij =>
    subst hij
    rw [if_pos (Array.getElem?_eq_some_iff.1 hd₁).1, hd]
    exact .some ⟨hdd₁.id, hdd₁.path, hdd₁.kind, rfl⟩
  · next hij =>
    have hj := hsrc j
    dsimp only at hj
    rwa [Array.set!_eq_setIfInBounds, Array.getElem?_setIfInBounds, if_neg hij] at hj

end Project

namespace App

/-! ## The editor's project is settled -/

theorem project_start (p : Project) : (App.start p).project = p := rfl

theorem project_openDocument (app : App) (id : Nat) :
    (app.openDocument id).project = app.project := by
  unfold App.openDocument
  split <;> rfl

theorem project_filesKey (app : App) (code : KeyCode) :
    (app.filesKey code).project = app.project := by
  unfold App.filesKey
  dsimp only
  split
  · rfl
  · split <;> rfl
  · split
    · exact project_openDocument app _
    · rfl
  · rfl

theorem project_problemsKey (app : App) (code : KeyCode) :
    (app.problemsKey code).project = app.project := by
  unfold App.problemsKey
  split
  · rfl
  · dsimp only
    split
    · rfl
    · split <;> rfl
    · split <;> rfl
    · rfl

/-- A key in the source pane moves the cursor, or replaces bytes of the open document. -/
theorem project_sourceKey (app : App) (code : KeyCode) :
    (app.sourceKey code).project = app.project ∨
      ∃ start stop insert, app.sourceKey code = app.replace start stop insert := by
  unfold App.sourceKey
  split
  · exact .inl rfl
  · cases code with
    | char c => exact .inr ⟨_, _, _, rfl⟩
    | enter => exact .inr ⟨_, _, _, rfl⟩
    | backspace | delete =>
      dsimp only
      split
      · exact .inr ⟨_, _, _, rfl⟩
      · exact .inl rfl
    | left | right | up | down | home | «end» | esc | tab | backTab | pageUp | pageDown
      | insert | function _ => exact .inl rfl

/-- A key in a pane leaves the project alone, or replaces bytes of the open document. -/
theorem project_paneKey (app : App) (key : Key) :
    (app.paneKey key).project = app.project ∨
      ∃ start stop insert, app.paneKey key = app.replace start stop insert := by
  unfold App.paneKey
  split
  · exact .inl (project_filesKey app key.code)
  · split
    · exact .inl rfl
    · exact project_sourceKey app key.code
  · exact .inl (project_problemsKey app key.code)

theorem Sound.settled_replace {app : App} (h : app.Sound) (hs : app.project.Settled)
    (start stop : Nat) (insert : String) : (app.replace start stop insert).project.Settled := by
  unfold App.replace
  split
  · split
    · next p hp => exact h.numbered.settled_setContents hp
    · exact hs
  · exact hs

theorem Sound.settled_paneKey {app : App} (h : app.Sound) (hs : app.project.Settled)
    (key : Key) : (app.paneKey key).project.Settled := by
  rcases project_paneKey app key with hkey | ⟨start, stop, insert, hkey⟩
  · rw [hkey]
    exact hs
  · rw [hkey]
    exact h.settled_replace hs start stop insert

section Lawful

variable {m : Type → Type} [Monad m] [LawfulMonad m]

theorem Sound.settled_save {app : App} (h : app.Sound) (hs : app.project.Settled)
    (fs : FileSystem m) : SatisfiesM (fun a : App => a.project.Settled) (app.save fs) := by
  unfold App.save
  split
  · exact SatisfiesM.pure hs
  · next id _ =>
    refine SatisfiesM.bind_pre ((Project.save_satisfies fs app.project id).imp fun {r} hr => ?_)
    split
    · next p' =>
      obtain ⟨d, hd, hdocs⟩ := hr p' rfl
      exact SatisfiesM.pure (hs.of_agree h.numbered (Project.Agree.setModified hd false hdocs))
    · exact SatisfiesM.pure hs

theorem Sound.settled_handleKey {app : App} (h : app.Sound) (hs : app.project.Settled)
    (fs : FileSystem m) (key : Key) :
    SatisfiesM (fun a : App => a.project.Settled) (app.handleKey fs key) := by
  unfold App.handleKey
  split
  · exact SatisfiesM.pure hs
  · split
    · exact SatisfiesM.pure hs
    · exact SatisfiesM.pure (h.settled_paneKey hs key)
  · split
    · exact h.settled_save hs fs
    · exact SatisfiesM.pure (h.settled_paneKey hs key)
  · exact SatisfiesM.pure hs
  · exact SatisfiesM.pure hs
  · exact SatisfiesM.pure (h.settled_paneKey hs key)

/-- In every state the editor reaches, the project's analyses are those a rebuild of its sources
    gives. -/
theorem Reachable.settled {app : App} (h : app.Reachable) : app.project.Settled := by
  induction h with
  | start hq =>
    rw [project_start]
    exact hq.settled_rebuild
  | key fs s key hreach ih =>
    have hkey := hreach.sound.settled_handleKey ih fs key
    rw [SatisfiesM_StateT_eq] at hkey
    simpa only [SatisfiesM_Id_eq] using hkey s
  | render area _ ih => exact ih

end Lawful

/-! ## Typing and Backspace -/

variable {m : Type → Type} [Monad m]

/-- Without `Ctrl`, every key but Esc, Tab and Shift-Tab goes to the focused pane. -/
theorem handleKey_of_plain (fs : FileSystem m) (app : App) (code : KeyCode)
    (hesc : code ≠ .esc) (htab : code ≠ .tab) (hback : code ≠ .backTab) :
    app.handleKey fs ⟨code, false⟩ = pure (app.paneKey ⟨code, false⟩) := by
  unfold App.handleKey
  split
  · next h => exact absurd h hesc
  · rfl
  · rfl
  · next h => exact absurd h htab
  · next h => exact absurd h hback
  · rfl

theorem paneKey_of_source {app : App} (hfocus : app.focus = .source) (code : KeyCode) :
    app.paneKey ⟨code, false⟩ = app.sourceKey code := by
  unfold App.paneKey
  rw [hfocus]
  rfl

/-- A character key, or Enter for a line break, puts the character at the cursor. -/
theorem sourceKey_typing {app : App} {d : Document} (hd : app.document? = some d)
    {code : KeyCode} {c : Char} (hcode : code = .char c ∨ code = .enter ∧ c = '\n') :
    app.sourceKey code = app.replace app.cursor app.cursor c.toString := by
  unfold App.sourceKey
  rw [hd]
  rcases hcode with rfl | ⟨rfl, rfl⟩ <;> rfl

/-- Backspace after the start cuts out the bytes from the boundary left of the cursor. -/
theorem sourceKey_backspace {app : App} {d : Document} (hd : app.document? = some d)
    (hpos : 0 < app.cursor) :
    app.sourceKey .backspace =
      app.replace (Cursor.prevBoundary d.text app.cursor) app.cursor "" := by
  unfold App.sourceKey
  rw [hd]
  dsimp only
  rw [if_pos hpos]

/-- Replacing bytes of the open document `d`: the project is the one its change of text gives,
    the cursor goes after the new text, and only the problem selection changes besides. -/
theorem replace_eq {app : App} {id : Nat} {d : Document} (hopen : app.opened = some id)
    (hd : app.project.documents[id]? = some d) (start stop : Nat) (insert : String) :
    ∃ p n, app.project.setContents id (Cursor.replace d.text start stop insert) = .ok p ∧
      app.replace start stop insert =
        { app with project := p, cursor := start + insert.utf8ByteSize, problemSelected := n } := by
  have hdoc : app.document? = some d := by rw [document?_eq, hopen]; exact hd
  unfold App.replace
  split
  · next id' d' hopen' hdoc' =>
    rw [hopen, Option.some.injEq] at hopen'
    rw [hdoc, Option.some.injEq] at hdoc'
    subst hopen' hdoc'
    obtain ⟨p, hp⟩ : ∃ p, app.project.setContents id (Cursor.replace d.text start stop insert) = .ok p :=
      ⟨_, Project.setContents_eq hd _⟩
    rw [hp]
    exact ⟨p, _, rfl, rfl⟩
  · next hnone => exact absurd hdoc (hnone id d hopen)

/-- The open document `d` sits at its id. -/
theorem getElem?_of_document? {app : App} (hp : app.project.Numbered) {d : Document}
    (hd : app.document? = some d) :
    app.opened = some d.id ∧ app.project.documents[d.id]? = some d := by
  rw [document?_eq, Option.bind_eq_some_iff] at hd
  obtain ⟨id, hopen, hdoc⟩ := hd
  rw [hp id d hdoc]
  exact ⟨hopen, hdoc⟩

/-- Replacing bytes of the open document `d` changes the text of `d` in the project, leaves the
    document open in the same pane, and puts the cursor after the new text. -/
theorem replace_spec {app : App} (hp : app.project.Numbered) {d : Document}
    (hd : app.document? = some d) (start stop : Nat) (insert : String) :
    app.project.setContents d.id (Cursor.replace d.text start stop insert) =
        .ok (app.replace start stop insert).project ∧
      (app.replace start stop insert).opened = app.opened ∧
      (app.replace start stop insert).focus = app.focus ∧
      (app.replace start stop insert).cursor = start + insert.utf8ByteSize ∧
      ∃ d', (app.replace start stop insert).document? = some d' ∧
        { d with text := Cursor.replace d.text start stop insert, modified := true }.SameSource d' := by
  obtain ⟨hopen, hdoc⟩ := getElem?_of_document? hp hd
  obtain ⟨p', n, hp', heq⟩ := replace_eq hopen hdoc start stop insert
  obtain ⟨d', hd', hdd'⟩ := hp.getElem?_setContents hdoc hp'
  rw [heq]
  refine ⟨hp', rfl, rfl, rfl, d', ?_, hdd'⟩
  show app.opened.bind p'.document? = some d'
  rw [hopen]
  exact hd'

/-- The editor starts on the first ZScript document, open in the source pane. -/
theorem start_opens {p : Project} (hp : p.Numbered) {i : Nat} {d : Document}
    (hd : p.documents[i]? = some d) (hk : d.kind = .zscript) :
    (App.start p).focus = .source ∧ (App.start p).document?.isSome := by
  have hsome : (p.documents.find? (·.kind == .zscript)).isSome :=
    Array.find?_isSome.2 ⟨d, Array.mem_of_getElem? hd, by rw [hk]; rfl⟩
  obtain ⟨e, he⟩ := Option.isSome_iff_exists.1 hsome
  obtain ⟨j, hj⟩ := Array.mem_iff_getElem?.1 (Array.mem_of_find?_eq_some he)
  have hfirst : (p.documents.find? (·.kind == .zscript)).map (·.id) = some j := by
    rw [he, Option.map_some, hp j e hj]
  unfold App.start
  dsimp only
  rw [hfirst]
  exact ⟨rfl, by rw [App.document?, Option.bind_some, Project.document?, hj]; rfl⟩

/-- Typing a character (Enter for a line break) in the source pane and then pressing Backspace
    is an undo: typing puts the character at the cursor and moves the cursor over it, and
    Backspace gives back the text, the cursor and every document's analysis of before. -/
theorem Reachable.backspace_undoes_typing {app : App} (h : app.Reachable)
    (hfocus : app.focus = .source) (hopen : app.document?.isSome) {code : KeyCode} {c : Char}
    (hcode : code = .char c ∨ code = .enter ∧ c = '\n') (fs : FileSystem m) :
    ∃ typed erased : App,
      app.handleKey fs ⟨code, false⟩ = pure typed ∧
      typed.handleKey fs ⟨.backspace, false⟩ = pure erased ∧
      (∃ A B, app.document?.map (·.text.toList) = some (A ++ B) ∧ app.cursor = String.utf8Len A ∧
        typed.document?.map (·.text.toList) = some (A ++ c :: B) ∧
        typed.cursor = app.cursor + c.utf8Size) ∧
      erased.opened = app.opened ∧ erased.document?.map (·.text) = app.document?.map (·.text) ∧
      erased.cursor = app.cursor ∧
      ∀ i : Nat, erased.project.documents[i]?.map Document.analysis =
        app.project.documents[i]?.map Document.analysis := by
  have hsound := h.sound
  obtain ⟨d, hd⟩ := Option.isSome_iff_exists.1 hopen
  -- the cursor cuts the text into `A` and `B`
  obtain ⟨A, B, hAB, hcur⟩ := Cursor.isValid_iff_exists_append.1 (hsound.cursor d hd)
  have hsize : c.toString.utf8ByteSize = c.utf8Size := String.utf8ByteSize_singleton
  -- typing puts `c` between `A` and `B`, with the cursor after it
  obtain ⟨hp₁, hopen₁, hfocus₁, hcursor₁, d₁, hd₁, hdd₁⟩ :=
    replace_spec hsound.numbered hd app.cursor app.cursor c.toString
  have hkey₁ :
      app.handleKey fs ⟨code, false⟩ = pure (app.replace app.cursor app.cursor c.toString) := by
    rw [← sourceKey_typing hd hcode, ← paneKey_of_source hfocus]
    rcases hcode with rfl | ⟨rfl, -⟩ <;> exact handleKey_of_plain fs _ _ nofun nofun nofun
  generalize app.replace app.cursor app.cursor c.toString = typed
    at hp₁ hopen₁ hfocus₁ hcursor₁ hd₁ hkey₁
  have htext₁ : d₁.text.toList = A ++ c :: B := by
    rw [hdd₁.text]
    show (Cursor.replace d.text app.cursor app.cursor c.toString).toList = _
    rw [hcur, Cursor.toList_replace hAB hAB, Char.toString_eq_singleton, String.toList_singleton,
      List.append_assoc, List.singleton_append]
  have hcursor₁' : typed.cursor = String.utf8Len A + c.utf8Size := by rw [hcursor₁, hsize, hcur]
  -- Backspace finds the boundary where `c` starts, and cutting from it gives back the text
  obtain ⟨hp₂, hopen₂, -, hcursor₂, d₂, hd₂, hdd₂⟩ :=
    replace_spec (hsound.numbered.setContents hp₁) hd₁ (String.utf8Len A)
      (String.utf8Len A + c.utf8Size) ""
  have hkey₂ : typed.handleKey fs ⟨.backspace, false⟩ =
      pure (typed.replace (String.utf8Len A) (String.utf8Len A + c.utf8Size) "") := by
    have hpos : 0 < typed.cursor := by
      rw [hcursor₁']
      exact Nat.add_pos_right _ c.utf8Size_pos
    rw [handleKey_of_plain fs typed .backspace nofun nofun nofun,
      paneKey_of_source (hfocus₁.trans hfocus), sourceKey_backspace hd₁ hpos, hcursor₁',
      Cursor.prevBoundary_append_cons htext₁]
  generalize typed.replace (String.utf8Len A) (String.utf8Len A + c.utf8Size) "" = erased
    at hp₂ hopen₂ hcursor₂ hd₂ hkey₂
  have hrestore :
      Cursor.replace d₁.text (String.utf8Len A) (String.utf8Len A + c.utf8Size) "" = d.text := by
    have hsplit : d₁.text.toList = (A ++ [c]) ++ B := by
      rw [htext₁, List.append_assoc, List.singleton_append]
    apply String.ext
    rw [show String.utf8Len A + c.utf8Size = String.utf8Len (A ++ [c]) by simp,
      Cursor.toList_replace htext₁ hsplit, String.toList_empty, List.append_nil, hAB]
  -- the project was settled, so the second rebuild gives back every analysis
  rw [hrestore, hdd₁.id] at hp₂
  have hagree := h.settled.agree_setContents_setContents hsound.numbered
    (getElem?_of_document? hsound.numbered hd).2 hp₁ hp₂
  refine ⟨typed, erased, hkey₁, hkey₂, ⟨A, B, ?_, hcur, ?_, ?_⟩, hopen₂.trans hopen₁, ?_, ?_,
    fun i => hagree.getElem?_analysis i⟩
  · rw [hd, Option.map_some, hAB]
  · rw [hd₁, Option.map_some, htext₁]
  · rw [hcursor₁', hcur]
  · rw [hd₂, hd, Option.map_some, Option.map_some, ← hrestore]
    exact congrArg some hdd₂.text
  · rw [hcursor₂, String.utf8ByteSize_empty, Nat.add_zero, hcur]

/-- A two-byte letter typed at the start of a one-file project and erased again. -/
theorem Reachable.backspace_undoes_typing_accent :
    let app := App.start
      ((({} : Project).push "a.zs" "class A \x7b \x7d" (some .zscript)).2.rebuild)
    app.Reachable ∧ app.focus = .source ∧ app.document?.isSome ∧
    (KeyCode.char 'é' = .char 'é' ∨ KeyCode.char 'é' = .enter ∧ 'é' = '\n') ∧
    ∃ typed erased : App,
      app.handleKey MemoryDisk.fileSystem ⟨.char 'é', false⟩ = pure typed ∧
      typed.handleKey MemoryDisk.fileSystem ⟨.backspace, false⟩ = pure erased ∧
      (∃ A B, app.document?.map (·.text.toList) = some (A ++ B) ∧ app.cursor = String.utf8Len A ∧
        typed.document?.map (·.text.toList) = some (A ++ 'é' :: B) ∧
        typed.cursor = app.cursor + 'é'.utf8Size) ∧
      erased.opened = app.opened ∧ erased.document?.map (·.text) = app.document?.map (·.text) ∧
      erased.cursor = app.cursor ∧
      ∀ i : Nat, erased.project.documents[i]?.map Document.analysis =
        app.project.documents[i]?.map Document.analysis := by
  intro app
  have hq := Project.numbered_empty.push "a.zs" "class A \x7b \x7d" (some .zscript)
  obtain ⟨e, he, hde⟩ := hq.sameSources_rebuild.exists_getElem? (i := 0)
    (d := { id := 0, path := Path.normalize "a.zs", kind := .zscript, text := "class A \x7b \x7d" })
    (by simp [Project.push])
  have hstart := start_opens hq.rebuild he hde.kind
  have hreach : app.Reachable := Reachable.start hq
  exact ⟨hreach, hstart.1, hstart.2, .inl rfl,
    hreach.backspace_undoes_typing hstart.1 hstart.2 (.inl rfl) MemoryDisk.fileSystem⟩

end App

end ZScript
