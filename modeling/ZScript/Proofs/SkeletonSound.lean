import ZScript.Proofs.SkeletonGrammar

/-!
# What the first reading accepts is derived

Every success of a reader of the first phase moves over tokens that its production of the
skeleton grammar derives (`Skeleton`): a flag, the flags, a body, each declaration after its
keyword, a directive, and the items of a file up to the end of its tokens
(`Declarations.items_sound`). The proofs follow each reader line by line with the triples over the
tokens left; the steps of the analysis in between read no token (`TripleAt.lift_bind`).

Two leaves have exact rules, used here and for the converse: the balanced run
(`TripleAt.balanced`), and the expression reader, which succeeds exactly when its language
derives a prefix of the tokens (`TripleAt.expression`), from whatever cursor it starts.
-/

namespace ZScript

namespace Parse.TripleAt

variable {u : Universe} {ts : List Token} {P : Work → Prop} {E : Work → Prop}

/-- The balanced run up to a token of `stop` at depth zero. -/
theorem balanced (stop : List TokenKind) :
    TripleAt u ts P (Parse.balanced stop) (fun run ts' w =>
      (run = (balancedRun stop [] ts).1 ∧ ts' = (balancedRun stop [] ts).2) ∧ P w) E := by
  intro c w hc hw
  subst hc
  exact ⟨⟨rfl, rfl⟩, hw⟩

theorem discard {α : Type} {x : Parse α} {Q : PUnit → List Token → Work → Prop}
    (h : TripleAt u ts P x (fun _ => Q ()) E) : TripleAt u ts P (Functor.discard x) Q E := by
  rw [Functor.discard, LawfulFunctor.map_const, Function.comp_apply, map_eq_pure_bind]
  exact bind h fun _ _ => pure fun _ hw => hw

/-- An expression is read exactly when the tokens ahead start with one, and the reader stops
    where it ends. -/
theorem expression (stop : List TokenKind) :
    TripleAt u ts P (Parse.expression stop)
      (fun _ ts' w => Skeleton.ExprPhrase stop ts ts' ∧ P w)
      (fun w => (∀ ts', ¬ Skeleton.ExprPhrase stop ts ts') ∧ P w) := by
  intro c w hc hw
  unfold Parse.expression liftExpr
  cases he : (ExprParser.expression stop).run c with
  | ok p =>
    obtain ⟨e, c'⟩ := p
    obtain ⟨c'', h'', hrest⟩ := ExprParser.expression_alike stop c (Cursor.ofList ts) e c'
      hc he
    exact ⟨⟨e, c'', h'', hrest.symm⟩, hw⟩
  | error err =>
    refine ⟨fun ts' hphrase => ?_, hw⟩
    obtain ⟨e, c', h', -⟩ := hphrase
    obtain ⟨c'', h'', -⟩ := ExprParser.expression_alike stop (Cursor.ofList ts) c e c'
      hc.symm h'
    rw [show ExprParser.expression stop c = (ExprParser.expression stop).run c from rfl, he] at h''
    cases h''

end Parse.TripleAt

namespace Declarations

open Parse TripleAt Skeleton

variable {u : Universe}

theorem flagArgument_sound (flag : String) (ts : List Token) :
    TripleAt u ts (fun _ => True) (flagArgument flag) (fun _ ts' _ => ∃ op s close,
      ts = op :: s :: close :: ts' ∧ op.kind = .openParen ∧ s.kind = .string ∧
        close.kind = .closeParen) fun _ => True := by
  unfold flagArgument
  refine bind (expect _ _) fun op ts₁ => of_fact fun h₁ => ?_
  refine bind (expect _ _) fun s ts₂ => of_fact fun h₂ => ?_
  refine bind (expect _ _) fun close ts₃ => of_fact fun h₃ => ?_
  refine lift_bind fun _ => lift_bind fun _ => lift_bind fun _ => pure fun _ _ => ?_
  obtain ⟨rfl, hop⟩ := h₁
  obtain ⟨rfl, hs⟩ := h₂
  obtain ⟨rfl, hclose⟩ := h₃
  exact ⟨op, s, close, rfl, by simpa using hop, by simpa using hs, by simpa using hclose⟩

/-- A flag word already read, with its argument when it takes one. -/
theorem flag_sound {t : Token} (ht : t.kind = .identifier)
    (hword : typeFlagWords.any t.isKeyword = true) (mods : Modifiers) (ts : List Token) :
    TripleAt u ts (fun _ => True) (flag t mods) (fun _ ts' _ => Flag (t :: ts) ts')
      fun _ => True := by
  unfold flag
  split
  · next hv =>
    refine bind (flagArgument_sound _ ts) fun _ ts' => of_prop fun h => pure fun _ _ => ?_
    obtain ⟨op, s, close, rfl, hop, hs, hclose⟩ := h
    exact .argument (by simp [hv]) hop hs hclose
  split
  · next hv hd =>
    refine bind (flagArgument_sound _ ts) fun _ ts' => of_prop fun h => pure fun _ _ => ?_
    obtain ⟨op, s, close, rfl, hop, hs, hclose⟩ := h
    exact .argument (by simp [hd]) hop hs hclose
  · next hv hd =>
    exact pure fun _ _ => .word ht hword (by simpa using hv) (by simpa using hd)

theorem typeFlags_sound (fuel : Nat) : ∀ (mods : Modifiers) (ts : List Token),
    TripleAt u ts (fun _ => True) (typeFlags fuel mods) (fun _ ts' _ => Flags ts ts')
      fun _ => True := by
  induction fuel with
  | zero =>
    intro _ _
    rw [typeFlags]
    exact TripleAt.tooDeep
  | succ fuel ih =>
    intro mods ts
    rw [typeFlags]
    refine bind (accept _) fun o ts₁ => of_fact fun ho => ?_
    obtain ⟨hts, hkind, hnone⟩ := ho
    cases o with
    | none =>
      -- no identifier next: the flags end here
      subst hts
      refine pure fun _ _ => .nil fun t' ht' => ?_
      simpa using hnone rfl t' ht'
    | some t =>
      subst hts
      have ht : t.kind = .identifier := by simpa using hkind t rfl
      dsimp only
      split
      · next hword =>
        refine lift_bind fun _ => ?_
        refine bind (flag_sound ht hword mods ts₁) fun _ ts₂ => of_prop fun hf => ?_
        exact (ih _ ts₂).post fun _ ts' _ h => .cons hf h
      · exact bind (Q := fun _ _ _ => False) (TripleAt.throw fun _ _ => trivial) fun _ _ => of_false

/-- A body: `{`, the balanced run, `}`. -/
theorem bracedBody_sound (what : String) (ts : List Token) :
    TripleAt u ts (fun _ => True) (bracedBody what) (fun _ ts' _ => Body ts ts') fun _ => True := by
  unfold bracedBody
  refine bind (expect _ _) fun o tail => of_fact fun ho => ?_
  refine lift_bind fun _ => bind_eq (balanced _) ?_
  refine bind (expect _ _) fun close ts' => of_fact fun hclose => ?_
  refine lift_bind fun _ => pure fun _ _ => ?_
  obtain ⟨rfl, hok⟩ := ho
  obtain ⟨hrun, hck⟩ := hclose
  exact ⟨o, tail, close, rfl, by simpa using hok, hrun, by simpa using hck⟩

theorem structDecl_sound (keyword : Token) (parent : Nat) (ts : List Token) :
    TripleAt u ts (fun _ => True) (structDecl keyword parent)
      (fun _ ts' _ => ∃ name, StructTail ts ts' name) fun _ => True := by
  unfold structDecl
  refine lift_bind fun _ => bind (expectIdent _) fun name ts₁ => of_fact fun hname => ?_
  refine bind_eq TripleAt.fuel ?_
  refine bind (typeFlags_sound _ _ ts₁) fun _ ts₂ => of_prop fun hflags => ?_
  refine bind (bracedBody_sound _ ts₂) fun _ ts₃ => of_prop fun hbody => ?_
  refine lift_bind fun _ => lift_bind fun _ => lift_bind fun _ => lift_bind fun _ => ?_
  obtain ⟨rfl, hident⟩ := hname
  exact pure fun _ _ => ⟨_, .mk hident hflags hbody⟩

/-- The members of an enum, up to and with its `}`. -/
theorem enumMembers_sound (enum fuel : Nat) : ∀ ts : List Token,
    TripleAt u ts (fun _ => True) (enumMembers enum fuel) (fun _ ts' _ => Members ts ts')
      fun _ => True := by
  induction fuel with
  | zero =>
    intro _
    rw [enumMembers]
    exact TripleAt.tooDeep
  | succ fuel ih =>
    intro ts
    rw [enumMembers]
    refine bind (expect _ _) fun t ts₁ => of_fact fun ht => ?_
    obtain ⟨rfl, hkind⟩ := ht
    split
    · next hclose =>
      exact lift_bind fun _ => pure fun _ _ => .close (by simpa using hclose)
    have hident : t.kind = .identifier := by
      simp only [List.contains_cons, List.contains_nil, Bool.or_false, Bool.or_eq_true,
        beq_iff_eq] at hkind
      rcases hkind with h | h
      · exact h
      · next hclose => exact absurd (by simp [h]) hclose
    refine lift_bind fun _ => lift_bind fun _ => lift_bind fun _ => lift_bind fun _ => ?_
    refine bind (expect _ _) fun sep ts₂ => of_fact fun hsep => ?_
    obtain ⟨rfl, hsepk⟩ := hsep
    extract_lets jp
    -- after the value, if any: `}` ends the members, `,` goes on to the next
    have hjp : ∀ (sep' : Token) (ts₃ : List Token),
        Optional (·.kind == .assign) (ExprPhrase [.comma, .closeCurly]) (sep :: ts₂) (sep' :: ts₃) →
        [TokenKind.comma, .closeCurly].contains sep'.kind = true →
        TripleAt u ts₃ (fun _ => True) (jp sep') (fun _ ts' _ => Members (t :: sep :: ts₂) ts')
          fun _ => True := by
      intro sep' ts₃ hvalue hk
      dsimp only [jp]
      refine lift_bind fun _ => ?_
      split
      · next hclose => exact pure fun _ _ => .last hident hvalue (by simpa using hclose)
      · next hclose =>
        have hcomma : sep'.kind = .comma := by
          simp only [List.contains_cons, List.contains_nil, Bool.or_false, Bool.or_eq_true,
            beq_iff_eq] at hk
          rcases hk with h | h
          · exact h
          · exact absurd (by simp [h]) hclose
        exact (ih ts₃).post fun _ ts' _ h => .more hident hvalue hcomma h
    split
    · -- `=` and a value, then `,` or `}`
      next hassign =>
      refine lift_bind fun _ => ?_
      refine bind ((TripleAt.expression _).mono (fun _ h => h) (fun _ _ _ h => h)
        fun _ _ => trivial) fun _ ts₃ => of_fact fun hexpr => ?_
      refine lift_bind fun _ => bind (expect _ _) fun sep' ts₄ => of_fact fun hsep' => ?_
      obtain ⟨rfl, hk⟩ := hsep'
      exact hjp sep' ts₄ (.take hassign hexpr) hk
    · next hassign =>
      refine bind_eq (pure fun _ _ => ⟨⟨rfl, rfl⟩, trivial⟩) ?_
      refine hjp sep ts₂ (.skip fun t' ht' => ?_) ?_
      · obtain rfl := Option.some.inj ht'
        simpa using hassign
      · simp only [List.contains_cons, List.contains_nil, Bool.or_false, Bool.or_eq_true,
          beq_iff_eq] at hsepk ⊢
        rcases hsepk with h | h | h
        · exact .inl h
        · exact absurd (by simp [h]) hassign
        · exact .inr h

/-- What follows an optional part read by `accept`-like readers: the part taken, or skipped when
    its first token is not there. -/
theorem optional_of_accept {lead : Token → Bool} {G : List Token → List Token → Prop}
    {o : Option Token} {ts ts₁ ts₂ : List Token} (hts : ts = o.toList ++ ts₁)
    (hlead : ∀ t ∈ o, lead t = true) (hnone : o = none → ∀ t ∈ ts.head?, lead t = false)
    (hsome : o.isSome → G ts₁ ts₂) (hskip : o = none → ts₂ = ts₁) : Optional lead G ts ts₂ := by
  cases o with
  | none =>
    subst hts
    rw [hskip rfl]
    exact .skip (hnone rfl)
  | some t =>
    subst hts
    exact .take (hlead t rfl) (hsome rfl)

theorem enumDecl_sound (keyword : Token) (parent : Nat) (ts : List Token) :
    TripleAt u ts (fun _ => True) (enumDecl keyword parent)
      (fun _ ts' _ => ∃ name, EnumTail ts ts' name) fun _ => True := by
  unfold enumDecl
  refine lift_bind fun _ => bind (expectIdent _) fun name ts₁ => of_fact fun hname => ?_
  obtain ⟨rfl, hident⟩ := hname
  refine bind (accept _) fun o ts₂ => of_fact fun ho => ?_
  obtain ⟨hts, hkind, hnone⟩ := ho
  extract_lets jp
  -- the body after the base type, if any
  have hjp : ∀ base ts₃, Optional (·.kind == .colon) TypePhrase ts₁ ts₃ →
      TripleAt u ts₃ (fun _ => True) (jp base)
        (fun _ ts' _ => ∃ name', EnumTail (name :: ts₁) ts' name') fun _ => True := by
    intro base ts₃ hbase
    dsimp only [jp]
    refine bind (expect _ _) fun o' ts₄ => of_fact fun ho' => ?_
    obtain ⟨rfl, hopen⟩ := ho'
    refine lift_bind fun _ => lift_bind fun _ => lift_bind fun _ => lift_bind fun _ => ?_
    refine lift_bind fun _ => bind_eq TripleAt.fuel ?_
    refine bind (enumMembers_sound _ _ ts₄) fun _ ts₅ => of_prop fun hmembers => ?_
    exact lift_bind fun _ => pure fun _ _ => ⟨_, .mk hident hbase (by simpa using hopen) hmembers⟩
  have hlead : ∀ t ∈ o, (t.kind == .colon) = true := fun t ht => by simpa using hkind t ht
  have hmiss : o = none → ∀ t ∈ (name :: ts₁).tail.head?, (t.kind == .colon) = false :=
    fun h t ht => by simpa using hnone h t ht
  cases o with
  | some colon =>
    refine lift_bind fun _ => bind (Types.compoundType_sound none ts₂) fun _ ts₃ =>
      of_prop fun hty => ?_
    exact bind_eq (pure fun _ _ => ⟨⟨rfl, rfl⟩, trivial⟩)
      (hjp _ ts₃ (optional_of_accept hts hlead hmiss (fun _ => hty) fun h => by cases h))
  | none =>
    exact bind_eq (pure fun _ _ => ⟨⟨rfl, rfl⟩, trivial⟩)
      (hjp _ ts₂ (optional_of_accept hts hlead hmiss (fun h => by cases h) fun _ => rfl))

theorem constantDecl_sound (keyword : Token) (parent : Nat) (ts : List Token) :
    TripleAt u ts (fun _ => True) (constantDecl keyword parent)
      (fun _ ts' _ => ∃ name, ConstTail ts ts' name) fun _ => True := by
  unfold constantDecl
  refine lift_bind fun _ => bind (expectIdent _) fun name ts₁ => of_fact fun hname => ?_
  refine bind (expect _ _) fun eq ts₂ => of_fact fun heq => ?_
  refine lift_bind fun _ => bind ((TripleAt.expression _).mono (fun _ h => h) (fun _ _ _ h => h)
    fun _ _ => trivial) fun _ ts₃ => of_fact fun hexpr => ?_
  refine bind (expect _ _) fun semi ts₄ => of_fact fun hsemi => ?_
  refine lift_bind fun _ => lift_bind fun _ => lift_bind fun _ => lift_bind fun _ => ?_
  refine lift_bind fun _ => pure fun _ _ => ?_
  obtain ⟨rfl, hident⟩ := hname
  obtain ⟨rfl, heqk⟩ := heq
  obtain ⟨rfl, hsemik⟩ := hsemi
  exact ⟨_, .mk hident (by simpa using heqk) hexpr (by simpa using hsemik)⟩

theorem classDecl_sound (keyword : Token) (extend : Option Token) (ts : List Token) :
    TripleAt u ts (fun _ => True) (classDecl keyword extend)
      (fun _ ts' _ => ∃ name, ClassTail ts ts' name) fun _ => True := by
  unfold classDecl
  extract_lets afterExtend
  suffices h : ∀ r, TripleAt u ts (fun _ => True) (afterExtend r)
      (fun _ ts' _ => ∃ name, ClassTail ts ts' name) fun _ => True by
    split
    · exact lift_bind h
    · exact h ()
  intro r
  dsimp -zeta only [afterExtend]
  refine lift_bind fun _ => bind (expectIdent _) fun name ts₁ => of_fact fun hname => ?_
  obtain ⟨rfl, hident⟩ := hname
  refine bind (accept _) fun o ts₂ => of_fact fun ho => ?_
  obtain ⟨hts, hkind, hnone⟩ := ho
  extract_lets extendName afterParent
  -- the rest, once the parent is read or skipped
  suffices h : ∀ parentName ts₃, Optional (·.kind == .colon) Ident ts₁ ts₃ →
      TripleAt u ts₃ (fun _ => True) (afterParent parentName)
        (fun _ ts' _ => ∃ name', ClassTail (name :: ts₁) ts' name') fun _ => True by
    cases o with
    | some colon =>
      dsimp only
      refine lift_bind fun _ => bind (expectIdent _) fun p ts₃ => of_fact fun hp => ?_
      refine lift_bind fun _ => bind_eq (pure fun _ _ => ⟨⟨rfl, rfl⟩, trivial⟩) (h _ ts₃ ?_)
      obtain ⟨rfl, hpk⟩ := hp
      exact optional_of_accept hts (fun t ht => by simpa using hkind t ht)
        (fun h t ht => by simpa using hnone h t ht) (fun _ => ⟨p, rfl, hpk⟩) fun h => by cases h
    | none =>
      dsimp only
      exact bind_eq (pure fun _ _ => ⟨⟨rfl, rfl⟩, trivial⟩)
        (h _ ts₂ (optional_of_accept hts (fun t ht => by simpa using hkind t ht)
          (fun h t ht => by simpa using hnone h t ht) (fun h => by cases h) fun _ => rfl))
  intro parentName ts₃ hparent
  dsimp -zeta only [afterParent]
  refine bind (acceptKeyword _) fun o ts₄ => of_fact fun ho => ?_
  obtain ⟨hts₃, hword, hnone₃⟩ := ho
  extract_lets afterReplace
  suffices h : ∀ replaceName ts₅, Optional (·.isKeyword "replaces") Ident ts₃ ts₅ →
      TripleAt u ts₅ (fun _ => True) (afterReplace replaceName)
        (fun _ ts' _ => ∃ name', ClassTail (name :: ts₁) ts' name') fun _ => True by
    cases o with
    | some rw_ =>
      dsimp only
      refine lift_bind fun _ => bind (expectIdent _) fun other ts₅ => of_fact fun hother => ?_
      refine lift_bind fun _ => bind_eq (pure fun _ _ => ⟨⟨rfl, rfl⟩, trivial⟩) (h _ ts₅ ?_)
      obtain ⟨rfl, hok⟩ := hother
      exact optional_of_accept hts₃ hword hnone₃ (fun _ => ⟨other, rfl, hok⟩) (fun h => by cases h)
    | none =>
      dsimp only
      exact bind_eq (pure fun _ _ => ⟨⟨rfl, rfl⟩, trivial⟩)
        (h _ ts₄ (optional_of_accept hts₃ hword hnone₃ (fun h => by cases h) fun _ => rfl))
  intro replaceName ts₅ hreplace
  dsimp only [afterReplace]
  refine bind_eq TripleAt.fuel ?_
  refine bind (typeFlags_sound _ _ ts₅) fun _ ts₆ => of_prop fun hflags => ?_
  refine bind (bracedBody_sound _ ts₆) fun _ ts₇ => of_prop fun hbody => ?_
  refine lift_bind fun _ => ?_
  have hclass : ∃ name', ClassTail (name :: ts₁) ts₇ name' :=
    ⟨_, .mk hident hparent hreplace hflags hbody⟩
  split
  · exact TripleAt.lift fun _ _ => hclass
  · exact lift_bind fun _ => TripleAt.lift fun _ _ => hclass

/-- A token picked out of the tokens ahead by `filter` is the next one. -/
theorem eq_cons_of_filter {p : Token → Bool} {ts : List Token} {d : Token}
    (h : ts.head?.filter p = some d) : ∃ rest, ts = d :: rest ∧ p d = true := by
  cases ts with
  | nil => simp at h
  | cons t rest =>
    simp only [List.head?_cons, Option.filter_eq_some_iff] at h
    obtain ⟨ht, hp⟩ := h
    obtain rfl := Option.some.inj ht
    exact ⟨rest, rfl, hp⟩

theorem directive_sound (hash : Token) (ts : List Token) :
    TripleAt u ts (fun _ => True) (directive hash)
      (fun _ ts' _ => ∃ path, IncludeTail hash ts ts' path) fun _ => True := by
  unfold directive
  refine bind peek fun o ts₁ => of_fact fun ho => ?_
  obtain ⟨rfl, rfl⟩ := ho
  split
  · next d hd =>
    obtain ⟨ts₁, rfl, hdk⟩ := eq_cons_of_filter hd
    simp only [Bool.and_eq_true, beq_iff_eq] at hdk
    refine bind_eq next ?_
    extract_lets afterWord
    suffices h : ∀ r, d.isKeyword "include" = true → TripleAt u ts₁ (fun _ => True) (afterWord r)
        (fun _ ts' _ => ∃ path, IncludeTail hash (d :: ts₁) ts' path) fun _ => True by
      split
      · next hinc => exact h () hinc
      · exact bind (Q := fun _ _ _ => False) (TripleAt.throw fun _ _ => trivial) fun _ _ => of_false
    intro r hinc
    dsimp only [afterWord]
    refine bind peek fun o ts₂ => of_fact fun ho => ?_
    obtain ⟨rfl, rfl⟩ := ho
    split
    · next path hpath =>
      obtain ⟨ts₂, rfl, hpk⟩ := eq_cons_of_filter hpath
      simp only [Bool.and_eq_true, beq_iff_eq] at hpk
      refine bind_eq next ?_
      refine lift_bind fun _ => lift_bind fun _ => lift_bind fun _ => lift_bind fun _ => ?_
      exact pure fun _ _ => ⟨_, .mk hinc hdk.2 hpk.1 hpk.2⟩
    · exact TripleAt.throw fun _ _ => trivial
  · exact TripleAt.throw fun _ _ => trivial

theorem version_sound (word : Token) (ts : List Token) :
    TripleAt u ts (fun _ => True) (version word) (fun _ ts' _ => ∃ value, ts = value :: ts' ∧
      value.kind = .string ∧ value.line = word.line) fun _ => True := by
  unfold version
  refine bind peek fun o ts₁ => of_fact fun ho => ?_
  obtain ⟨rfl, rfl⟩ := ho
  split
  · next value hvalue =>
    obtain ⟨ts₁, rfl, hvk⟩ := eq_cons_of_filter hvalue
    simp only [Bool.and_eq_true, beq_iff_eq] at hvk
    refine bind_eq next ?_
    refine lift_bind fun _ => lift_bind fun _ => TripleAt.lift fun _ _ => ?_
    exact ⟨value, rfl, hvk⟩
  · exact TripleAt.unexpected

/-- The items read up to the end of the tokens are derived: as items, or as a whole file with its
    version when they are the first. -/
theorem items_sound (fuel : Nat) : ∀ (leading : Bool) (ts : List Token),
    TripleAt u ts (fun _ => True) (items fuel leading)
      (fun _ _ _ => ∃ is, Items ts is ∨ (leading = true ∧ Root ts is)) fun _ => True := by
  induction fuel with
  | zero =>
    intro _ _
    rw [items]
    exact TripleAt.tooDeep
  | succ fuel ih =>
    intro leading ts
    rw [items]
    refine bind next fun o ts₁ => of_fact fun ho => ?_
    obtain ⟨rfl, rfl⟩ := ho
    cases ts with
    | nil => exact pure fun _ _ => ⟨[], .inl .nil⟩
    | cons t ts =>
    dsimp only [List.head?_cons, List.tail_cons]
    -- after an item, the items that follow
    have item : ∀ {α : Type} {x : Parse α} {ts₀ : List Token} (R : List Token → Prop),
        (∀ ts', R ts' → ∃ o, Skeleton.Item (t :: ts) ts' o) →
        TripleAt u ts₀ (fun _ => True) x (fun _ ts' _ => R ts') (fun _ => True) →
        TripleAt u ts₀ (fun _ => True) (x >>= fun _ => items fuel false)
          (fun _ _ _ => ∃ is, Items (t :: ts) is ∨ (leading = true ∧ Root (t :: ts) is))
          fun _ => True := by
      intro α x ts₀ R hitem hx
      refine bind hx fun _ ts' => of_prop fun hG => ?_
      refine (ih false ts').post fun _ _ _ h => ?_
      obtain ⟨o, hitem⟩ := hitem ts' hG
      obtain ⟨is, h⟩ := h
      rcases h with h | ⟨h, -⟩
      · exact ⟨_, .inl (.cons hitem h)⟩
      · cases h
    have fails : ∀ {α : Type} (e : ParseError), TripleAt u ts (fun _ => True)
        ((MonadExcept.throw e : Parse α) >>= fun _ => items fuel false)
          (fun _ _ _ => ∃ is, Items (t :: ts) is ∨ (leading = true ∧ Root (t :: ts) is))
          fun _ => True :=
      fun _ => bind (Q := fun _ _ _ => False) (TripleAt.throw fun _ _ => trivial) fun _ _ => of_false
    split
    · next hsemi =>
      refine item (fun ts' => ts' = ts) (fun ts' h => ⟨none, ?_⟩) (TripleAt.lift fun _ _ => rfl)
      subst h
      exact .semicolon hsemi
    · next hhash =>
      refine item (fun ts' => ∃ path, IncludeTail t ts ts' path) (fun ts' h => ?_)
        (directive_sound t ts)
      obtain ⟨path, h⟩ := h
      exact ⟨_, .include hhash h⟩
    · split
      · -- a version first: the rest are items
        next hversion =>
        simp only [Bool.and_eq_true] at hversion
        refine bind (version_sound t ts) fun _ ts' => of_prop fun hv => ?_
        refine (ih false ts').post fun _ _ _ h => ?_
        obtain ⟨value, rfl, hvk, hvl⟩ := hv
        obtain ⟨is, h⟩ := h
        rcases h with h | ⟨h, -⟩
        · exact ⟨is, .inr ⟨hversion.1, .versioned hversion.2 hvk hvl h⟩⟩
        · cases h
      split
      · next hclass =>
        refine item (fun ts' => ∃ name, ClassTail ts ts' name) (fun ts' h => ?_)
          (classDecl_sound t none ts)
        obtain ⟨name, h⟩ := h
        exact ⟨_, .classDecl hclass h⟩
      split
      · next hextend =>
        refine bind (acceptKeyword _) fun o ts₁ => of_fact fun ho => ?_
        obtain ⟨hts, hkw, -⟩ := ho
        cases o with
        | some kw =>
          refine item (fun ts' => ∃ name, ClassTail ts₁ ts' name) (fun ts' h => ?_)
            (classDecl_sound kw (some t) ts₁)
          obtain ⟨name, h⟩ := h
          rw [show ts = kw :: ts₁ from hts]
          exact ⟨_, .extendClass hextend (hkw kw rfl) h⟩
        | none => exact bind (Q := fun _ _ _ => False) TripleAt.unexpected fun _ _ => of_false
      split
      · next hstruct =>
        refine item (fun ts' => ∃ name, StructTail ts ts' name) (fun ts' h => ?_)
          (TripleAt.discard (structDecl_sound t 0 ts))
        obtain ⟨name, h⟩ := h
        exact ⟨_, .structDecl hstruct h⟩
      split
      · next henum =>
        refine item (fun ts' => ∃ name, EnumTail ts ts' name) (fun ts' h => ?_)
          (TripleAt.discard (enumDecl_sound t 0 ts))
        obtain ⟨name, h⟩ := h
        exact ⟨_, .enumDecl henum h⟩
      split
      · next hconst =>
        refine item (fun ts' => ∃ name, ConstTail ts ts' name) (fun ts' h => ?_)
          (TripleAt.discard (constantDecl_sound t 0 ts))
        obtain ⟨name, h⟩ := h
        exact ⟨_, .constant hconst h⟩
      · exact fails _
    · exact fails _

end Declarations

end ZScript
