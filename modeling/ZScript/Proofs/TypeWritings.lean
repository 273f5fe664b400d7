import ZScript.Proofs.TokenTriples
import ZScript.Proofs.TagOnly

/-!
# Writings of a type

A type is written as a name, maybe dotted, with type arguments between `<` and `>`. Nested
argument lists may end together, and one `>>` token then closes two of them. `TypeText` is a type
as written and `TypeText.WrittenAs T closes ts` says that the tokens `ts` write it: every argument
list is closed by `>`, or together with the list around it by the first half of a `>>`; `closes`
says whether the last token also closes a list around `T` itself.

What the reader answers depends on the text and the view only, never on which closers were merged
(`Types.reads_written`): `TypeText.read` computes it. The one exception is a builtin type name with
dotted parts. A builtin name is read alone, as the grammar of types has it, so a dot after one
ends the reading there: at the outermost name the reader answers the builtin type and stops before
the dot (`Types.reference_readsAlone`); inside an argument list the list cannot go on, and reading
it fails.

The main statement, `Parse.compoundType_writings_agree`, compares two writings of one text followed
by a name: they read the same type and stop before the name, or both fail; a writing whose last
`>>` closes one list more than is open fails, so that a caller catching the failure is back where
it started; and at a builtin name with dotted parts both answer that builtin type.
`Parse.compoundType_reads_builtin_before_dot` is such a text whose `>>` closes one list more than
is open: it reads `int` and never gets to the `>>`.
-/

namespace ZScript

/-- A type as written: its name, the further parts of a dotted name, and its type arguments. -/
structure TypeText where
  name : String
  parts : List String
  args : List TypeText

namespace TypeText

/-- `ts` writes the dotted parts `parts` of a name: a `.` and an identifier for each. -/
inductive PartsWrittenAs : List String → List Token → Prop
  | nil : PartsWrittenAs [] []
  | cons {dot t : Token} {parts : List String} {ts : List Token} :
      dot.kind = .dot → t.kind = .identifier → PartsWrittenAs parts ts →
      PartsWrittenAs (t.text :: parts) (dot :: t :: ts)

mutual

/-- `ts` writes the type `T`: its name, its dotted parts, and its argument list if it has one. The
    list is closed by `>`, or by the first half of a `>>` whose second half closes the list
    around `T`; `closes` says which. -/
inductive WrittenAs : TypeText → Bool → List Token → Prop
  | mk {t : Token} {parts : List String} {ps : List Token} {args : List TypeText} {closes : Bool}
      {list : List Token} :
      t.kind = .identifier → PartsWrittenAs parts ps → ListWrittenAs args closes list →
      WrittenAs ⟨t.text, parts, args⟩ closes (t :: ps ++ list)

/-- `ts` writes the argument list `args` of a type: nothing when there are none, else `<`, the
    arguments, and what closes the list. -/
inductive ListWrittenAs : List TypeText → Bool → List Token → Prop
  | none : ListWrittenAs [] false []
  | some {lt : Token} {args : List TypeText} {closes : Bool} {body : List Token} :
      lt.kind = .lessThan → ArgsWrittenAs args closes body → ListWrittenAs args closes (lt :: body)

/-- `ts` writes the arguments `args` of a list after its `<`, up to the token that closes it;
    `closes` holds when that token is a `>>` that closes the list around as well. -/
inductive ArgsWrittenAs : List TypeText → Bool → List Token → Prop
  | last {a : TypeText} {ts : List Token} {gt : Token} {closes : Bool} :
      WrittenAs a false ts → gt.kind = (if closes then .rightShift else .greaterThan) →
      ArgsWrittenAs [a] closes (ts ++ [gt])
  | inner {a : TypeText} {ts : List Token} :
      WrittenAs a true ts → ArgsWrittenAs [a] false ts
  | comma {a : TypeText} {as : List TypeText} {ts more : List Token} {cm : Token} {closes : Bool} :
      WrittenAs a false ts → cm.kind = .comma → ArgsWrittenAs as closes more →
      ArgsWrittenAs (a :: as) closes (ts ++ cm :: more)

end

/-- Each dotted part takes two tokens. -/
theorem PartsWrittenAs.length_eq {parts : List String} {ps : List Token}
    (h : PartsWrittenAs parts ps) : ps.length = 2 * parts.length := by
  induction h with
  | nil => rfl
  | cons _ _ _ ih => simp [ih]; omega

/-- Only a type with an argument list can close the list around it. -/
theorem WrittenAs.args_ne_nil {T : TypeText} {s : List Token} (h : T.WrittenAs true s) :
    T.args ≠ [] := by
  obtain ⟨_, _, hlist⟩ := h
  cases hlist with
  | some _ hargs => cases hargs <;> simp

/-- Past the name of a type whose outermost name has dotted parts comes a dot. -/
theorem WrittenAs.tail_of_parts {T : TypeText} {closes : Bool} {s : List Token}
    (h : T.WrittenAs closes s) (hp : T.parts ≠ []) : ∃ dot s', s.tail = dot :: s' ∧ dot.kind = .dot := by
  obtain ⟨_, hps, _⟩ := h
  cases hps with
  | nil => exact absurd rfl hp
  | cons hdot _ _ => exact ⟨_, _, rfl, hdot⟩

end TypeText

namespace View

/-- One more part of a dotted type name: the path grows by the part, which names a type nested in
    the one found so far, or else the whole path names a type. -/
def dottedStep (v : View) (context : Option Nat) (p : String × Option DeclRef) (part : String) :
    String × Option DeclRef :=
  (p.1 ++ "." ++ part, (p.2.bind (v.findNestedType · part)).orElse fun _ =>
    v.resolveType (p.1 ++ "." ++ part) (context.map (⟨v.file, ·⟩)))

/-- The work is one that `v` sees: its file and its tree are `v`'s. -/
def Fits (v : View) (w : Work) : Prop := w.file.file = v.file ∧ w.file.tree = v.tree

theorem Fits.of_extends {v : View} {w w' : Work} (h : v.Fits w) (he : w.file.Extends w'.file) :
    v.Fits w' :=
  ⟨he.file.trans h.1, he.tree.trans h.2⟩

theorem Fits.view_run {v : View} {w : Work} (h : v.Fits w) : Step.view v.world w = (v, w) := by
  rw [Step.view_run, h.1, h.2]

end View

namespace Parse.TripleAt

variable {v : View} {ts : List Token} {E : Work → Prop}

/-- A step that only tags keeps the work one that `v` sees. -/
theorem fits_tags {x : Step Unit} (h : Step.Tags x) :
    TripleAt v.world ts v.Fits (monadLift x : Parse Unit)
      (fun b ts' w => (b = () ∧ ts' = ts) ∧ v.Fits w) E :=
  lift fun w hw => ⟨⟨rfl, rfl⟩, hw.of_extends (h v.world w)⟩

/-- The view of a work that `v` sees is `v`. -/
theorem fits_view :
    TripleAt v.world ts v.Fits (monadLift Step.view : Parse View)
      (fun v' ts' w => (v' = v ∧ ts' = ts) ∧ v.Fits w) E :=
  lift fun w hw => by rw [hw.view_run]; exact ⟨⟨rfl, rfl⟩, hw⟩

end Parse.TripleAt

namespace TypeText

/-- Whether the outermost name is a builtin type name with dotted parts. A builtin name is read
    alone, so such a text is read only up to its first dot. -/
def readsAlone (T : TypeText) : Bool := (Builtin.find? T.name).isSome && !T.parts.isEmpty

mutual

/-- The type read from any writing of `T`, as seen from `context` in `v`: a builtin name stands
    for its catalog entry, lowercased; another name and its dotted parts are looked up as the
    reader looks them up. `none` when a builtin name with dotted parts stops the reading. -/
def read (v : View) (context : Option Nat) : TypeText → Option Ty
  | ⟨name, parts, args⟩ =>
    match Builtin.find? name with
    | some i =>
      if parts.isEmpty then
        (readArgs v context args).map fun as => ⟨name.toLower, some (.builtin i), as, []⟩
      else none
    | none =>
      let p := parts.foldl (v.dottedStep context)
        (name, v.resolveType name (context.map (⟨v.file, ·⟩)))
      (readArgs v context args).map fun as => ⟨p.1, p.2.map .decl, as, []⟩

/-- The types read from the arguments of a list, or `none` when one cannot be read. -/
def readArgs (v : View) (context : Option Nat) : List TypeText → Option (List Ty)
  | [] => some []
  | a :: as => (read v context a).bind fun t => (readArgs v context as).map (t :: ·)

end

/-- A text that is read only up to its first dot has no whole reading. -/
theorem read_eq_none_of_readsAlone {T : TypeText} (h : T.readsAlone = true) (v : View)
    (context : Option Nat) : T.read v context = none := by
  obtain ⟨name, parts, args⟩ := T
  simp only [readsAlone, Bool.and_eq_true, Option.isSome_iff_exists, Bool.not_eq_true',
    List.isEmpty_eq_false_iff] at h
  obtain ⟨⟨i, hi⟩, hp⟩ := h
  simp [read, hi, hp]

end TypeText

namespace Types

open Parse TripleAt

variable (context : Option Nat) {v : View}

/-- The dotted parts after a declared name: each is read and looked up in turn, and the walk stops
    where no dot follows. -/
theorem dotted_written {parts : List String} {ps : List Token} (h : TypeText.PartsWrittenAs parts ps)
    {E : Work → Prop} :
    ∀ (fuel : Nat) (path : String) (resolved : Option DeclRef) (rest : List Token),
      parts.length < fuel → (∀ t ∈ rest.head?, t.kind ≠ .dot) →
      TripleAt v.world (ps ++ rest) v.Fits (dotted context fuel path resolved)
        (fun r ts w => (r = parts.foldl (v.dottedStep context) (path, resolved) ∧ ts = rest) ∧
          v.Fits w) E := by
  induction h with
  | nil =>
    intro fuel path resolved rest hfuel hrest
    obtain ⟨fuel, rfl⟩ : ∃ f, fuel = f + 1 := ⟨fuel - 1, by simp at hfuel; omega⟩
    have hdot : rest.head?.any (·.kind == .dot) = false := by
      cases rest with
      | nil => rfl
      | cons t _ => simpa using hrest t rfl
    rw [dotted]
    refine bind_eq (check _) (bind_eq (peekAt _) ?_)
    simp only [List.nil_append, hdot, Bool.false_and, Bool.not_false, if_true]
    exact pure fun _ hw => ⟨⟨rfl, rfl⟩, hw⟩
  | @cons dot t parts ps hdot ht hps ih =>
    intro fuel path resolved rest hfuel hrest
    obtain ⟨fuel, rfl⟩ : ∃ f, fuel = f + 1 := ⟨fuel - 1, by simp at hfuel; omega⟩
    rw [dotted]
    refine bind_eq (check _) (bind_eq (peekAt _) ?_)
    simp only [List.cons_append, List.head?_cons, Option.any_some, hdot, beq_self_eq_true,
      List.getElem?_cons_succ, List.getElem?_cons_zero, ht, Bool.and_self, Bool.not_true,
      Bool.false_eq_true, if_false]
    refine bind_eq next ?_
    simp only [List.head?_cons, List.tail_cons]
    refine bind_eq (fits_tags (Step.tags_emit _ _)) (bind_eq (expectIdent_hit ht) ?_)
    refine bind_eq fits_view (bind_eq (fits_tags (tags_emitTypeName _ _ _)) ?_)
    exact ih fuel _ _ rest (by simpa using hfuel) hrest

/-- A builtin type name with dotted parts is read alone: the reader answers the builtin type and
    stops before the first dot. -/
theorem reference_readsAlone {T : TypeText} {closes : Bool} {s rest : List Token}
    (hs : T.WrittenAs closes s) (halone : T.readsAlone = true) (fuel : Nat) {E : Work → Prop} :
    TripleAt v.world (s ++ rest) v.Fits (reference context (fuel + 1))
      (fun r ts w => ((∃ i, Builtin.find? T.name = some i ∧
        r = (Ty.named T.name.toLower (some (.builtin i)), false)) ∧ ts = s.tail ++ rest) ∧ v.Fits w)
      E := by
  cases hs with
  | @mk t parts ps args closes list ht hps hlist =>
  simp only [TypeText.readsAlone, Bool.and_eq_true, Option.isSome_iff_exists, Bool.not_eq_true',
    List.isEmpty_eq_false_iff] at halone
  obtain ⟨⟨i, hi⟩, hp⟩ := halone
  cases hps with
  | nil => exact absurd rfl hp
  | @cons dot t' parts' ps' hdot ht' hps' =>
  simp only [List.cons_append, List.append_assoc, List.tail_cons]
  rw [reference]
  refine bind_eq (expectIdent_hit ht) ?_
  extract_lets jp
  simp only [hi]
  refine bind_eq (fits_tags (Step.tags_emitRef _ _ _ _)) (bind_eq (pure fun _ hw => ⟨⟨rfl, rfl⟩, hw⟩) ?_)
  exact bind_eq (accept_miss (by simp [hdot])) (pure fun _ hw => ⟨⟨⟨i, rfl, rfl⟩, rfl⟩, hw⟩)

/-- An argument list cannot go on after a builtin type name with dotted parts: it fails there. -/
theorem arguments_readsAlone {a : TypeText} {closes : Bool} {ts rest : List Token}
    (ha : a.WrittenAs closes ts) (halone : a.readsAlone = true) (fuel : Nat)
    {Q : List Ty × Bool → List Token → Work → Prop} :
    TripleAt v.world (ts ++ rest) v.Fits (arguments context (fuel + 2)) Q v.Fits := by
  obtain ⟨dot, ts', htail, hdot⟩ := ha.tail_of_parts (by
    simp only [TypeText.readsAlone, Bool.and_eq_true, Bool.not_eq_true',
      List.isEmpty_eq_false_iff] at halone
    exact halone.2)
  rw [arguments]
  refine bind (reference_readsAlone context ha halone fuel) fun r ts'' => ?_
  refine of_fact fun h => ?_
  obtain ⟨⟨i, -, rfl⟩, rfl⟩ := h
  rw [htail]
  exact bind (Q := fun _ _ _ => False) (expect_miss (by simp [hdot])) fun _ _ => of_false

/-- Tokens that do not go on with a type name just read: the next one, if any, is neither `.`
    nor `<`. -/
def EndsName (ts : List Token) : Prop := ∀ t ∈ ts.head?, t.kind ≠ .dot ∧ t.kind ≠ .lessThan

/-- With `fuel`, the reader of a type answers what its text reads: the type, and whether its last
    `>>` closes the list around, leaving the tokens that follow; or it fails when the text cannot
    be read. The tokens that follow a type without arguments must not go on with its name. -/
def ReadsType (v : View) (context : Option Nat) (fuel : Nat) : Prop :=
  ∀ {T : TypeText} {closes : Bool} {s rest : List Token}, T.WrittenAs closes s →
    T.readsAlone = false → s.length ≤ fuel → (T.args = [] → EndsName rest) →
    TripleAt v.world (s ++ rest) v.Fits (reference context fuel)
      (fun r ts w => (T.read v context = some r.1 ∧ r.2 = closes ∧ ts = rest) ∧ v.Fits w)
      fun w => T.read v context = none ∧ v.Fits w

/-- With `fuel`, the reader of the arguments after a `<` answers what they read, up to and with
    the token that closes the list. -/
def ReadsArgs (v : View) (context : Option Nat) (fuel : Nat) : Prop :=
  ∀ {as : List TypeText} {closes : Bool} {s rest : List Token},
    TypeText.ArgsWrittenAs as closes s → s.length < fuel →
    TripleAt v.world (s ++ rest) v.Fits (arguments context fuel)
      (fun r ts w => (TypeText.readArgs v context as = some r.1 ∧ r.2 = closes ∧ ts = rest) ∧
        v.Fits w)
      fun w => TypeText.readArgs v context as = none ∧ v.Fits w

/-- A name, its dotted parts, then its argument list read by `arguments`. -/
theorem readsType_succ {fuel : Nat} (iha : ReadsArgs v context fuel) :
    ReadsType v context (fuel + 1) := by
  intro T closes s rest hs halone hlen hrest
  cases hs with
  | @mk t parts ps args closes list ht hps hlist =>
  simp only [List.cons_append, List.append_assoc]
  rw [reference]
  refine bind_eq (expectIdent_hit ht) ?_
  extract_lets jp
  -- the argument list, if any, after the name: what it reads does not depend on the name
  have hjp : ∀ base : Ty, base.args = [] → TripleAt v.world (list ++ rest) v.Fits (jp base)
      (fun r ts w => ((TypeText.readArgs v context args).map
          (fun as => { base with args := as }) = some r.1 ∧ r.2 = closes ∧ ts = rest) ∧ v.Fits w)
      fun w => TypeText.readArgs v context args = none ∧ v.Fits w := by
    intro base hbase
    cases hlist with
    | none =>
      refine bind_eq (accept_miss fun t' ht' => by simpa using (hrest rfl t' ht').2) ?_
      refine pure fun _ hw => ⟨⟨?_, rfl, rfl⟩, hw⟩
      cases base
      simp_all [TypeText.readArgs]
    | @some lt args closes body hlt hargs =>
      refine bind_eq (accept_hit (by simp [hlt])) (bind_eq (fits_tags (Step.tags_emit _ _)) ?_)
      refine bind (iha hargs (by simp at hlen; omega)) fun r ts' => ?_
      obtain ⟨args', closes'⟩ := r
      refine of_fact fun h => ?_
      obtain ⟨hra, rfl, rfl⟩ := h
      exact pure fun _ hw => ⟨⟨by simp [hra], rfl, rfl⟩, hw⟩
  -- the dotted parts of a name end where the argument list, or what follows the type, begins
  have hfollow : ∀ t' ∈ (list ++ rest).head?, t'.kind ≠ .dot := by
    cases hlist with
    | none => exact fun t' ht' => (hrest rfl t' ht').1
    | some hlt _ =>
      intro t' ht'
      obtain rfl := Option.some.inj ht'
      simp [hlt]
  split
  · next i hi =>
    -- a builtin name stands alone
    have hparts : parts = [] := by simpa [TypeText.readsAlone, hi] using halone
    subst hparts
    cases hps
    refine bind_eq (fits_tags (Step.tags_emitRef _ _ _ _))
      (bind_eq (pure fun _ hw => ⟨⟨rfl, rfl⟩, hw⟩) ?_)
    refine mono (hjp _ rfl) (fun _ hw => hw) (fun r ts w h => ⟨⟨?_, h.1.2⟩, h.2⟩)
      fun w h => ⟨?_, h.2⟩
    · simpa [TypeText.read, hi, Ty.named] using h.1.1
    · simp [TypeText.read, hi, h.1]
  · next hi =>
    refine bind_eq fits_view (bind_eq (fits_tags (tags_emitTypeName _ _ _))
      (bind_eq TripleAt.fuel ?_))
    refine bind (dotted_written context hps _ _ _ _ ?_ hfollow) fun r ts' => ?_
    · have := hps.length_eq
      simp at hlen ⊢
      omega
    obtain ⟨path, resolved⟩ := r
    refine of_fact fun h => ?_
    obtain ⟨hr, rfl⟩ := h
    refine bind_eq (pure fun _ hw => ⟨⟨rfl, rfl⟩, hw⟩) ?_
    refine mono (hjp _ rfl) (fun _ hw => hw) (fun r ts w h => ⟨⟨?_, h.1.2⟩, h.2⟩)
      fun w h => ⟨?_, h.2⟩
    · simpa [TypeText.read, hi, ← hr, Ty.named] using h.1.1
    · simp [TypeText.read, hi, h.1]

/-- An argument read by `reference`, then `,` and the other arguments, or what closes the list. -/
theorem readsArgs_succ {fuel : Nat} (ihr : ReadsType v context fuel)
    (iha : ReadsArgs v context fuel) : ReadsArgs v context (fuel + 1) := by
  intro as closes s rest hs hlen
  -- an argument whose builtin name has dotted parts ends the reading in failure
  have alone : ∀ {a : TypeText} {c : Bool} {ts X : List Token}, a.WrittenAs c ts →
      a.readsAlone = true → ts.length ≤ fuel →
      ∀ {as : List TypeText} {c' : Bool} {rest' : List Token},
      TripleAt v.world (ts ++ X) v.Fits (arguments context (fuel + 1))
        (fun r ts' w => (TypeText.readArgs v context (a :: as) = some r.1 ∧ r.2 = c' ∧
          ts' = rest') ∧ v.Fits w)
        fun w => TypeText.readArgs v context (a :: as) = none ∧ v.Fits w := by
    intro a c ts X ha halone hle as c' rest'
    obtain ⟨f, rfl⟩ : ∃ f, fuel = f + 1 := by
      obtain ⟨_, _, _⟩ := ha
      exact ⟨fuel - 1, by simp at hle; omega⟩
    exact mono (arguments_readsAlone context ha halone f) (fun _ hw => hw) (fun _ _ _ h => h)
      fun w hw => ⟨by simp [TypeText.readArgs, TypeText.read_eq_none_of_readsAlone halone], hw⟩
  -- a failure to read the first argument is a failure to read the list
  have first : ∀ {a : TypeText} {as : List TypeText} {w : Work},
      TypeText.read v context a = none ∧ v.Fits w →
      TypeText.readArgs v context (a :: as) = none ∧ v.Fits w :=
    fun h => ⟨by simp [TypeText.readArgs, h.1], h.2⟩
  cases hs with
  | @last a ts gt closes ha hgt =>
    cases halone : a.readsAlone
    · simp only [List.append_assoc, List.singleton_append]
      rw [arguments]
      refine bind (mono (ihr ha halone (by simp at hlen; omega) fun _ t' ht' => ?_)
        (fun _ hw => hw) (fun _ _ _ h => h) fun _ => first) fun r ts' => ?_
      · obtain rfl := Option.some.inj ht'
        cases closes <;> simp [hgt]
      obtain ⟨arg, closed⟩ := r
      refine of_fact fun h => ?_
      obtain ⟨hra, rfl, rfl⟩ := h
      simp only [Bool.false_eq_true, if_false]
      refine bind_eq (expect_hit (by cases closes <;> simp [hgt]))
        (bind_eq (fits_tags (Step.tags_emit _ _)) ?_)
      -- `>` ends the list, `>>` the list around too
      cases closes <;> simp only [hgt, if_true, Bool.false_eq_true, if_false] <;>
        exact pure fun _ hw => ⟨⟨by simp [TypeText.readArgs, hra], rfl, rfl⟩, hw⟩
    · rw [List.append_assoc]
      exact alone ha halone (by simp at hlen; omega)
  | @inner a ts ha =>
    cases halone : a.readsAlone
    · rw [arguments]
      refine bind (mono (ihr ha halone (by omega) fun h => absurd h ha.args_ne_nil)
        (fun _ hw => hw) (fun _ _ _ h => h) fun _ => first) fun r ts' => ?_
      obtain ⟨arg, closed⟩ := r
      refine of_fact fun h => ?_
      obtain ⟨hra, rfl, rfl⟩ := h
      simp only [if_true]
      exact pure fun _ hw => ⟨⟨by simp [TypeText.readArgs, hra], rfl, rfl⟩, hw⟩
    · exact alone ha halone (by omega)
  | @comma a as ts more cm closes ha hcm hmore =>
    cases halone : a.readsAlone
    · simp only [List.append_assoc, List.cons_append]
      rw [arguments]
      refine bind (mono (ihr ha halone (by simp at hlen; omega) fun _ t' ht' => ?_)
        (fun _ hw => hw) (fun _ _ _ h => h) fun _ => first) fun r ts' => ?_
      · obtain rfl := Option.some.inj ht'
        simp [hcm]
      obtain ⟨arg, closed⟩ := r
      refine of_fact fun h => ?_
      obtain ⟨hra, rfl, rfl⟩ := h
      simp only [Bool.false_eq_true, if_false]
      refine bind_eq (expect_hit (by simp [hcm])) (bind_eq (fits_tags (Step.tags_emit _ _)) ?_)
      simp only [hcm]
      refine bind (mono (iha hmore (by simp at hlen; omega)) (fun _ hw => hw)
        (fun _ _ _ h => h) fun w h => ⟨by simp [TypeText.readArgs, hra, h.1], h.2⟩)
        fun r ts' => ?_
      obtain ⟨more', closes'⟩ := r
      refine of_fact fun h => ?_
      obtain ⟨hrm, rfl, rfl⟩ := h
      exact pure fun _ hw => ⟨⟨by simp [TypeText.readArgs, hra, hrm], rfl, rfl⟩, hw⟩
    · rw [List.append_assoc]
      exact alone ha halone (by simp at hlen; omega)

/-- Every writing is read as its text says, by induction on the fuel: a type takes one round
    more than its arguments, the arguments one more than each of their types. -/
theorem reads_written (fuel : Nat) : ReadsType v context fuel ∧ ReadsArgs v context fuel := by
  induction fuel with
  | zero =>
    refine ⟨fun hs _ hlen _ => ?_, fun _ hlen => absurd hlen (Nat.not_lt_zero _)⟩
    cases hs
    simp at hlen
  | succ fuel ih => exact ⟨readsType_succ context ih.2, readsArgs_succ context ih.1 ih.2⟩

/-- A type whose outermost name is not a builtin name with dotted parts reads as its text, when
    its last token closes no list around it; when it does, the reading fails. -/
theorem compoundType_written {T : TypeText} {closes : Bool} {s rest : List Token}
    (hs : T.WrittenAs closes s) (halone : T.readsAlone = false) (hrest : T.args = [] → EndsName rest) :
    TripleAt v.world (s ++ rest) v.Fits (compoundType context)
      (fun ty ts w => (closes = false ∧ T.read v context = some ty ∧ ts = rest) ∧ v.Fits w)
      fun w => (closes = true ∨ T.read v context = none) ∧ v.Fits w := by
  unfold compoundType
  refine bind_eq TripleAt.fuel ?_
  refine bind (mono ((reads_written context _).1 hs halone (by simp only [List.length_append]; omega)
    hrest) (fun _ hw => hw)
    (fun _ _ _ h => h) fun _ h => ⟨Or.inr h.1, h.2⟩) fun r ts' => ?_
  obtain ⟨ty, closed⟩ := r
  refine of_fact fun h => ?_
  obtain ⟨hty, rfl, rfl⟩ := h
  dsimp only
  cases closed
  · rw [if_neg Bool.false_ne_true]
    exact TripleAt.pure fun _ hw => ⟨⟨rfl, hty, rfl⟩, hw⟩
  · -- a `>>` closed one list more than is open
    rw [if_pos rfl]
    exact bind (get (Q := fun _ _ => v.Fits) fun _ _ _ hw => hw) fun _ _ =>
      bind (TripleAt.throw fun _ hw => ⟨Or.inl rfl, hw⟩) fun _ _ => of_false

/-- A type whose outermost name is a builtin name with dotted parts reads as that builtin type. -/
theorem compoundType_readsAlone {T : TypeText} {closes : Bool} {s rest : List Token}
    (hs : T.WrittenAs closes s) (halone : T.readsAlone = true) {E : Work → Prop} :
    TripleAt v.world (s ++ rest) v.Fits (compoundType context)
      (fun ty ts w => ((∃ i, Builtin.find? T.name = some i ∧
        ty = Ty.named T.name.toLower (some (.builtin i))) ∧ ts = s.tail ++ rest) ∧ v.Fits w) E := by
  unfold compoundType
  refine bind_eq TripleAt.fuel ?_
  refine bind (reference_readsAlone context hs halone _) fun r ts' => ?_
  refine of_fact fun h => ?_
  obtain ⟨⟨i, hi, rfl⟩, rfl⟩ := h
  dsimp only
  rw [if_neg Bool.false_ne_true]
  exact TripleAt.pure fun _ hw => ⟨⟨⟨i, hi, rfl⟩, rfl⟩, hw⟩

end Types

namespace Parse

open TripleAt ZScript.Types

/-- Two writings of one type, followed by a name, read alike in one context: a `>>` that closes
    two lists reads as `> >`. When the outermost name is not a builtin type name with dotted
    parts, a writing whose lists all close inside the type reads as any other such writing, the
    fully spaced one among them: both read the same type and stop before the name, or both fail;
    and a writing whose last `>>` closes one list more than is open fails, so that a caller
    catching the failure is back where it started. A builtin type name is read alone, so when
    dotted parts follow it every writing reads that builtin type and stops before the first
    dot. -/
theorem compoundType_writings_agree {T : TypeText} {closes : Bool} {s₁ s₂ : List Token}
    {name : Token} {more : List Token} (h₁ : T.WrittenAs closes s₁) (h₂ : T.WrittenAs false s₂)
    (hname : name.kind = .identifier) (context : Option Nat) {c₁ c₂ : Cursor}
    (hc₁ : c₁.rest = s₁ ++ name :: more) (hc₂ : c₂.rest = s₂ ++ name :: more) (u : Universe)
    (w : Work) :
    (T.readsAlone = false →
      (closes = false →
        (∃ ty, (∃ c, ((compoundType context c₁).run u w).1 = .ok (ty, c) ∧ c.rest = name :: more) ∧
          ∃ c, ((compoundType context c₂).run u w).1 = .ok (ty, c) ∧ c.rest = name :: more) ∨
        (∃ e, ((compoundType context c₁).run u w).1 = .error e) ∧
          ∃ e, ((compoundType context c₂).run u w).1 = .error e) ∧
      (closes = true → ((Bodies.attempt (compoundType context) c₁).run u w).1 = .ok (none, c₁))) ∧
    (T.readsAlone = true → ∃ ty, ty.name = T.name.toLower ∧
      (∃ c, ((compoundType context c₁).run u w).1 = .ok (ty, c) ∧ c.rest = s₁.tail ++ name :: more) ∧
      ∃ c, ((compoundType context c₂).run u w).1 = .ok (ty, c) ∧ c.rest = s₂.tail ++ name :: more) := by
  have hw : (⟨w.file.file, w.file.tree, u⟩ : View).Fits w := ⟨rfl, rfl⟩
  have hrest : T.args = [] → EndsName (name :: more) := by
    intro _ t ht
    obtain rfl := Option.some.inj ht
    simp [hname]
  refine ⟨fun halone => ⟨fun hcl => ?_, fun hcl => ?_⟩, fun halone => ?_⟩
  · subst hcl
    have r₁ := (compoundType_written (v := ⟨w.file.file, w.file.tree, u⟩) context h₁ halone
      hrest).run_cases hc₁ hw
    have r₂ := (compoundType_written (v := ⟨w.file.file, w.file.tree, u⟩) context h₂ halone
      hrest).run_cases hc₂ hw
    -- both writings read the text, so one fails exactly when the other does
    rcases r₁ with ⟨ty₁, c₁', hr₁, ⟨-, hty₁, hts₁⟩, -⟩ | ⟨e₁, hr₁, hn₁, -⟩ <;>
      rcases r₂ with ⟨ty₂, c₂', hr₂, ⟨-, hty₂, hts₂⟩, -⟩ | ⟨e₂, hr₂, hn₂, -⟩
    · obtain rfl : ty₁ = ty₂ := Option.some.inj (hty₁.symm.trans hty₂)
      exact Or.inl ⟨ty₁, ⟨c₁', hr₁, hts₁⟩, c₂', hr₂, hts₂⟩
    · simp [hty₁] at hn₂
    · simp [hty₂] at hn₁
    · exact Or.inr ⟨⟨e₁, hr₁⟩, e₂, hr₂⟩
  · subst hcl
    have r₁ := (compoundType_written (v := ⟨w.file.file, w.file.tree, u⟩) context h₁ halone
      hrest).run_cases hc₁ hw
    rw [Bodies.attempt_run]
    rcases r₁ with ⟨ty, c', -, ⟨habsurd, -⟩, -⟩ | ⟨e, hr, -⟩
    · exact absurd habsurd (by decide)
    · generalize (compoundType context c₁).run u w = r at hr ⊢
      obtain ⟨r, w'⟩ := r
      dsimp only at hr
      subst hr
      rfl
  · have r₁ := (compoundType_readsAlone (v := ⟨w.file.file, w.file.tree, u⟩) (E := fun _ => False)
      context h₁ halone).run_cases hc₁ hw
    have r₂ := (compoundType_readsAlone (v := ⟨w.file.file, w.file.tree, u⟩) (E := fun _ => False)
      context h₂ halone).run_cases hc₂ hw
    rcases r₁ with ⟨ty₁, c₁', hr₁, ⟨⟨i, hi, rfl⟩, hts₁⟩, -⟩ | ⟨_, _, hf⟩
    · rcases r₂ with ⟨ty₂, c₂', hr₂, ⟨⟨j, hj, rfl⟩, hts₂⟩, -⟩ | ⟨_, _, hf⟩
      · obtain rfl : i = j := Option.some.inj (hi.symm.trans hj)
        exact ⟨_, rfl, ⟨c₁', hr₁, hts₁⟩, c₂', hr₂, hts₂⟩
      · exact hf.elim
    · exact hf.elim

/-- `A<B<C>>` written with one `>>`, and spaced. -/
theorem compoundType_writings_agree_nested :
    let tok : TokenKind → String → Nat → Token := fun kind text start =>
      { kind, text, start, stop := start + text.length, line := 1 }
    let T : TypeText := ⟨"A", [], [⟨"B", [], [⟨"C", [], []⟩]⟩]⟩
    let s₁ := [tok .identifier "A" 0, tok .lessThan "<" 1, tok .identifier "B" 2,
      tok .lessThan "<" 3, tok .identifier "C" 4, tok .rightShift ">>" 5]
    let s₂ := [tok .identifier "A" 0, tok .lessThan "<" 1, tok .identifier "B" 2,
      tok .lessThan "<" 3, tok .identifier "C" 4, tok .greaterThan ">" 5, tok .greaterThan ">" 7]
    let y := tok .identifier "y" 9
    let c₁ := Cursor.ofList (s₁ ++ [y])
    let c₂ := Cursor.ofList (s₂ ++ [y])
    T.WrittenAs false s₁ ∧ T.WrittenAs false s₂ ∧
    (T.readsAlone = false →
      (false = false →
        (∃ ty, (∃ c, ((compoundType none c₁).run {} default).1 = .ok (ty, c) ∧ c.rest = [y]) ∧
          ∃ c, ((compoundType none c₂).run {} default).1 = .ok (ty, c) ∧ c.rest = [y]) ∨
        (∃ e, ((compoundType none c₁).run {} default).1 = .error e) ∧
          ∃ e, ((compoundType none c₂).run {} default).1 = .error e) ∧
      (false = true → ((Bodies.attempt (compoundType none) c₁).run {} default).1 = .ok (none, c₁))) ∧
    (T.readsAlone = true → ∃ ty, ty.name = T.name.toLower ∧
      (∃ c, ((compoundType none c₁).run {} default).1 = .ok (ty, c) ∧ c.rest = s₁.tail ++ [y]) ∧
      ∃ c, ((compoundType none c₂).run {} default).1 = .ok (ty, c) ∧ c.rest = s₂.tail ++ [y]) := by
  intro tok T s₁ s₂ y c₁ c₂
  -- `C`, then `B<C>` closing `A`'s list too, or `B<C>` alone
  have hC := @TypeText.WrittenAs.mk (tok .identifier "C" 4) [] [] [] false [] rfl .nil .none
  have hBshift := @TypeText.WrittenAs.mk (tok .identifier "B" 2) [] [] [⟨"C", [], []⟩] true _ rfl .nil
    (@TypeText.ListWrittenAs.some (tok .lessThan "<" 3) _ _ _ rfl (@TypeText.ArgsWrittenAs.last _ _ (tok .rightShift ">>" 5) _ hC rfl))
  have hB := @TypeText.WrittenAs.mk (tok .identifier "B" 2) [] [] [⟨"C", [], []⟩] false _ rfl .nil
    (@TypeText.ListWrittenAs.some (tok .lessThan "<" 3) _ _ _ rfl (@TypeText.ArgsWrittenAs.last _ _ (tok .greaterThan ">" 5) _ hC rfl))
  have h₁ : T.WrittenAs false s₁ := @TypeText.WrittenAs.mk (tok .identifier "A" 0) [] [] _ false _
    rfl .nil (@TypeText.ListWrittenAs.some (tok .lessThan "<" 1) _ _ _ rfl (.inner hBshift))
  have h₂ : T.WrittenAs false s₂ := @TypeText.WrittenAs.mk (tok .identifier "A" 0) [] [] _ false _
    rfl .nil (@TypeText.ListWrittenAs.some (tok .lessThan "<" 1) _ _ _ rfl (@TypeText.ArgsWrittenAs.last _ _ (tok .greaterThan ">" 7) _ hB rfl))
  exact ⟨h₁, h₂, compoundType_writings_agree h₁ h₂ rfl none rfl rfl {} default⟩

/-- `int.x<B>> y`: its `>>` closes one list more than is open, yet the reading stops before it,
    at the first dot, and answers the builtin `int`. -/
theorem compoundType_reads_builtin_before_dot :
    let tok : TokenKind → String → Nat → Token := fun kind text start =>
      { kind, text, start, stop := start + text.length, line := 1 }
    let s := [tok .identifier "int" 0, tok .dot "." 3, tok .identifier "x" 4, tok .lessThan "<" 5,
      tok .identifier "B" 6, tok .rightShift ">>" 7]
    let y := tok .identifier "y" 10
    TypeText.WrittenAs ⟨"int", ["x"], [⟨"B", [], []⟩]⟩ true s ∧
      ∃ ty c, ((compoundType none (Cursor.ofList (s ++ [y]))).run {} default).1 = .ok (ty, c) ∧
        ty.name = "int" ∧ c.rest = s.tail ++ [y] := by
  intro tok s y
  have hB := @TypeText.WrittenAs.mk (tok .identifier "B" 6) [] [] [] false [] rfl .nil .none
  have hs : TypeText.WrittenAs ⟨"int", ["x"], [⟨"B", [], []⟩]⟩ true s :=
    @TypeText.WrittenAs.mk (tok .identifier "int" 0) ["x"] _ _ true _ rfl
      (@TypeText.PartsWrittenAs.cons (tok .dot "." 3) (tok .identifier "x" 4) _ _ rfl rfl .nil)
      (@TypeText.ListWrittenAs.some (tok .lessThan "<" 5) _ _ _ rfl (@TypeText.ArgsWrittenAs.last _ _ (tok .rightShift ">>" 7) _ hB rfl))
  have halone : TypeText.readsAlone ⟨"int", ["x"], [⟨"B", [], []⟩]⟩ = true := by decide +kernel
  refine ⟨hs, ?_⟩
  rcases (compoundType_readsAlone (v := ⟨(default : Work).file.file, (default : Work).file.tree, {}⟩)
    (E := fun _ => False) none hs
    halone).run_cases (c := Cursor.ofList (s ++ [y])) (w := default) rfl ⟨rfl, rfl⟩ with
    ⟨ty, c, hr, ⟨⟨i, -, rfl⟩, hc⟩, -⟩ | ⟨_, _, hf⟩
  · exact ⟨_, c, hr, by show "int".toLower = "int"; decide +kernel, hc⟩
  · exact hf.elim

end Parse

end ZScript
