import ZScript.Proofs.TypeWritings

/-!
# Every type read has a writing

The converse of `Types.reads_written`: when the reader of a type succeeds, the tokens it moved over
write a text (`TypeText.WrittenAs`), and that text is plain: no builtin name in it has dotted
parts, since a builtin name is read alone (`TypeText.plain`). A plain text is read whole
(`TypeText.read_isSome_of_plain`), so the types that a reader followed by `{` accepts are exactly
the plain writings (`Types.compoundType_sound` and `Types.compoundType_plain`).
-/

namespace ZScript

namespace Parse.TripleAt

/-- A fact about the tokens read so far, known before a reader runs, may be used to prove it. -/
theorem of_prop {α : Type} {u : Universe} {ts : List Token} {x : Parse α}
    {Q : α → List Token → Work → Prop} {E : Work → Prop} {φ : Prop}
    (h : φ → TripleAt u ts (fun _ => True) x Q E) : TripleAt u ts (fun _ => φ) x Q E :=
  fun c w hc hw => h hw c w hc trivial

end Parse.TripleAt

namespace TypeText

mutual

/-- Whether no builtin name in the text has dotted parts. -/
def plain : TypeText → Bool
  | ⟨name, parts, args⟩ => ((Builtin.find? name).isNone || parts.isEmpty) && plainArgs args

/-- Whether every argument text is plain. -/
def plainArgs : List TypeText → Bool
  | [] => true
  | a :: as => plain a && plainArgs as

end

/-- A plain text is not read only up to its first dot. -/
theorem readsAlone_eq_false_of_plain {T : TypeText} (h : T.plain = true) : T.readsAlone = false := by
  obtain ⟨name, parts, args⟩ := T
  cases hf : Builtin.find? name <;> cases hp : parts.isEmpty <;>
    simp_all [plain, readsAlone]

mutual

/-- A plain text is read whole, whatever the view. -/
theorem read_isSome_of_plain (v : View) (context : Option Nat) :
    ∀ T : TypeText, T.plain = true → (T.read v context).isSome
  | ⟨name, parts, args⟩, h => by
    have hargs := readArgs_isSome_of_plain v context args (by simp_all [plain])
    rw [read]
    cases hf : Builtin.find? name with
    | some i =>
      have hp : parts = [] := by
        simp only [plain, hf, Option.isNone_some, Bool.false_or, Bool.and_eq_true,
          List.isEmpty_iff] at h
        exact h.1
      simpa [hp] using hargs
    | none => simpa using hargs

theorem readArgs_isSome_of_plain (v : View) (context : Option Nat) :
    ∀ as : List TypeText, plainArgs as = true → (readArgs v context as).isSome
  | [], _ => rfl
  | a :: as, h => by
    simp only [plainArgs, Bool.and_eq_true] at h
    obtain ⟨t, ht⟩ := Option.isSome_iff_exists.1 (read_isSome_of_plain v context a h.1)
    obtain ⟨ts, hts⟩ := Option.isSome_iff_exists.1 (readArgs_isSome_of_plain v context as h.2)
    simp [readArgs, ht, hts]

end

end TypeText

namespace Types

open Parse TripleAt

variable (context : Option Nat) {u : Universe}

/-- The dotted parts read after a declared name are written by the tokens moved over. -/
theorem dotted_sound (fuel : Nat) : ∀ (path : String) (resolved : Option DeclRef) (ts : List Token),
    TripleAt u ts (fun _ => True) (dotted context fuel path resolved)
      (fun _ ts' _ => ∃ parts ps, TypeText.PartsWrittenAs parts ps ∧ ts = ps ++ ts')
      fun _ => True := by
  induction fuel with
  | zero =>
    intro _ _ _
    rw [dotted]
    exact TripleAt.tooDeep
  | succ fuel ih =>
    intro path resolved ts
    rw [dotted]
    refine bind (check _) fun b ts₁ => of_fact fun hb => ?_
    refine bind (peekAt _) fun o ts₂ => of_fact fun ho => ?_
    obtain ⟨rfl, h₁⟩ := hb
    obtain ⟨rfl, h₂⟩ := ho
    subst ts₁ ts₂
    dsimp only
    split
    · exact pure fun _ _ => ⟨[], [], .nil, rfl⟩
    · -- a dot and an identifier come next
      next hmore =>
      obtain ⟨dot, t, rest, rfl, hdot, ht⟩ : ∃ dot t rest, ts = dot :: t :: rest ∧
          dot.kind = .dot ∧ t.kind = .identifier := by
        rcases ts with _ | ⟨dot, _ | ⟨t, rest⟩⟩
        · simp at hmore
        · simp at hmore
        · simp at hmore
          exact ⟨dot, t, rest, rfl, hmore⟩
      refine bind_eq next ?_
      simp only [List.head?_cons, List.tail_cons]
      refine lift_bind fun _ => bind_eq (expectIdent_hit ht) ?_
      refine lift_bind fun _ => lift_bind fun _ => ?_
      refine (ih _ _ rest).post fun _ ts' _ h => ?_
      obtain ⟨parts, ps, hps, rfl⟩ := h
      exact ⟨t.text :: parts, dot :: t :: ps, .cons hdot ht hps, rfl⟩

/-- With `fuel`, every type the reader reads is a plain text written by the tokens moved over;
    its second answer says whether the last token also closed the list around. -/
def SoundType (u : Universe) (context : Option Nat) (fuel : Nat) : Prop :=
  ∀ ts, TripleAt u ts (fun _ => True) (reference context fuel)
    (fun r ts' _ => ∃ (T : TypeText) (s : List Token), T.WrittenAs r.2 s ∧ T.plain = true ∧
      ts = s ++ ts') fun _ => True

/-- With `fuel`, the arguments read after a `<` are plain texts written by the tokens moved over,
    up to and with the token that closed the list. -/
def SoundArgs (u : Universe) (context : Option Nat) (fuel : Nat) : Prop :=
  ∀ ts, TripleAt u ts (fun _ => True) (arguments context fuel)
    (fun r ts' _ => ∃ (as : List TypeText) (s : List Token), TypeText.ArgsWrittenAs as r.2 s ∧
      TypeText.plainArgs as = true ∧ ts = s ++ ts') fun _ => True

/-- A name, its dotted parts unless it is builtin, and its argument list if a `<` follows. -/
theorem soundType_succ {fuel : Nat} (iha : SoundArgs u context fuel) :
    SoundType u context (fuel + 1) := by
  intro ts
  rw [reference]
  refine bind (expectIdent _) fun name ts₁ => of_fact fun hname => ?_
  obtain ⟨rfl, hident⟩ := hname
  extract_lets jp
  -- the argument list, if any, after the name and its parts
  have hjp : ∀ (base : Ty) (parts : List String) (ps ts₂ : List Token),
      TypeText.PartsWrittenAs parts ps →
      ((Builtin.find? name.text).isNone || parts.isEmpty) = true →
      TripleAt u ts₂ (fun _ => True) (jp base)
        (fun r ts' _ => ∃ (T : TypeText) (s : List Token), T.WrittenAs r.2 s ∧ T.plain = true ∧
          name :: ps ++ ts₂ = s ++ ts') fun _ => True := by
    intro base parts ps ts₂ hps hplain
    refine bind (accept _) fun o ts₃ => of_fact fun ho => ?_
    obtain ⟨hts, hkind, hnone⟩ := ho
    cases o with
    | none =>
      subst hts
      exact pure fun _ _ => ⟨⟨name.text, parts, []⟩, name :: ps,
        by simpa using TypeText.WrittenAs.mk hident hps .none, by simp [TypeText.plain, TypeText.plainArgs, hplain], by simp⟩
    | some lt =>
      refine lift_bind fun _ => ?_
      subst hts
      refine bind (iha ts₃) fun r ts₄ => of_prop fun hr => ?_
      obtain ⟨args, closes⟩ := r
      obtain ⟨as, body, hargs, hplainArgs, rfl⟩ := hr
      refine pure fun _ _ => ⟨⟨name.text, parts, as⟩, name :: ps ++ lt :: body,
        TypeText.WrittenAs.mk hident hps (.some ?_ hargs), ?_, by simp⟩
      · simpa using hkind lt rfl
      · simp [TypeText.plain, hplain, hplainArgs]
  split
  · -- a builtin name stands alone
    next i hi =>
    refine lift_bind fun _ => bind_eq (pure fun _ _ => ⟨⟨rfl, rfl⟩, trivial⟩) ?_
    exact hjp _ [] [] ts₁ .nil (by simp)
  · next hi =>
    refine lift_bind fun _ => lift_bind fun _ => bind_eq TripleAt.fuel ?_
    refine bind (dotted_sound context _ _ _ ts₁) fun r ts₂ => of_prop fun hr => ?_
    obtain ⟨path, resolved⟩ := r
    obtain ⟨parts, ps, hps, rfl⟩ := hr
    refine bind_eq (pure fun _ _ => ⟨⟨rfl, rfl⟩, trivial⟩) ?_
    exact (hjp _ parts ps ts₂ hps (by simp [hi])).post fun _ _ _ h => by simpa using h

/-- An argument read by `reference`, then `,` and the other arguments, or what closes the list. -/
theorem soundArgs_succ {fuel : Nat} (ihr : SoundType u context fuel)
    (iha : SoundArgs u context fuel) : SoundArgs u context (fuel + 1) := by
  intro ts
  rw [arguments]
  refine bind (ihr ts) fun r ts₁ => of_prop fun hr => ?_
  obtain ⟨arg, closed⟩ := r
  obtain ⟨T, s, hT, hplain, rfl⟩ := hr
  dsimp only
  split
  · -- a `>>` in the argument closed this list too
    next hclosed =>
    subst hclosed
    exact pure fun _ _ => ⟨[T], s, .inner hT, by simp [TypeText.plainArgs, hplain], rfl⟩
  · next hclosed =>
    simp only [Bool.not_eq_true] at hclosed
    subst hclosed
    refine bind (expect _ _) fun sep ts₂ => of_fact fun hsep => ?_
    obtain ⟨rfl, hk⟩ := hsep
    refine lift_bind fun _ => ?_
    split
    · next hcm =>
      refine bind (iha ts₂) fun r ts₃ => of_prop fun hr => ?_
      obtain ⟨more, closes⟩ := r
      obtain ⟨as, body, hargs, hplainArgs, rfl⟩ := hr
      exact pure fun _ _ => ⟨T :: as, s ++ sep :: body, .comma hT hcm hargs,
        by simp [TypeText.plainArgs, hplain, hplainArgs], by simp⟩
    · next hrs =>
      exact pure fun _ _ => ⟨[T], s ++ [sep], .last hT (by simpa using hrs),
        by simp [TypeText.plainArgs, hplain], by simp⟩
    · next hcm hrs =>
      have hgt : sep.kind = .greaterThan := by
        simp only [List.contains_cons, List.contains_nil, Bool.or_false, Bool.or_eq_true,
          beq_iff_eq] at hk
        rcases hk with h | h | h
        · exact absurd h hcm
        · exact h
        · exact absurd h hrs
      exact pure fun _ _ => ⟨[T], s ++ [sep], .last hT (by simpa using hgt),
        by simp [TypeText.plainArgs, hplain], by simp⟩

/-- Every type and argument list read, with any fuel, has a plain writing. -/
theorem sound (fuel : Nat) : SoundType u context fuel ∧ SoundArgs u context fuel := by
  induction fuel with
  | zero =>
    refine ⟨fun _ => ?_, fun _ => ?_⟩
    · rw [reference]
      exact TripleAt.tooDeep
    · rw [arguments]
      exact TripleAt.tooDeep
  | succ fuel ih => exact ⟨soundType_succ context ih.2, soundArgs_succ context ih.1 ih.2⟩

/-- A type read whole: the tokens moved over write a plain text, whose last token closes no list
    around it. -/
theorem compoundType_sound (ts : List Token) :
    TripleAt u ts (fun _ => True) (compoundType context)
      (fun _ ts' _ => ∃ (T : TypeText) (s : List Token), T.WrittenAs false s ∧ T.plain = true ∧
        ts = s ++ ts') fun _ => True := by
  unfold compoundType
  refine bind_eq TripleAt.fuel ?_
  refine bind ((sound context _).1 ts) fun r ts' => of_prop fun hr => ?_
  obtain ⟨ty, closed⟩ := r
  dsimp only
  cases closed
  · rw [if_neg Bool.false_ne_true]
    exact pure fun _ _ => hr
  · rw [if_pos rfl]
    exact bind (get (Q := fun _ _ _ => True) fun _ _ _ _ => trivial) fun _ _ =>
      bind (Q := fun _ _ _ => False) (TripleAt.throw fun _ _ => trivial) fun _ _ => of_false

/-- A plain writing followed by a token that cannot go on with a type name is read whole, and the
    reader stops before that token. -/
theorem compoundType_plain {v : View} {T : TypeText} {s rest : List Token}
    (hs : T.WrittenAs false s) (hp : T.plain = true) (hrest : EndsName rest) :
    TripleAt v.world (s ++ rest) v.Fits (compoundType context)
      (fun ty ts w => (T.read v context = some ty ∧ ts = rest) ∧ v.Fits w) fun _ => False := by
  refine (compoundType_written context hs (TypeText.readsAlone_eq_false_of_plain hp)
    fun _ => hrest).mono (fun _ hw => hw) (fun _ _ _ h => ⟨⟨h.1.2.1, h.1.2.2⟩, h.2⟩)
    fun _ h => ?_
  obtain ⟨ty, hty⟩ := Option.isSome_iff_exists.1 (TypeText.read_isSome_of_plain v context T hp)
  rcases h.1 with h | h
  · cases h
  · rw [hty] at h
    cases h

end Types

end ZScript
