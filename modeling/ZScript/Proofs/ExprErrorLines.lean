import ZScript.Proofs.ReaderTokens

/-!
# The lines an expression is reported on

Reading an expression fails on the line of one of the tokens it was given, on the line its
caller names, or on line `1` for an empty input: it never makes a line up. `ExprParser.Lined Q m V`
says so of a reader `m`, for any property `Q` of tokens: from a cursor whose tokens, read or not,
all satisfy `Q`, it fails on line `1` or on the line of a token satisfying `Q` (`LineOf Q`), or
answers a value satisfying `V` and leaves such a cursor.

The precedence passes only fold and move the operator tokens they are given, so the errors of
`Item.reduce` are on their lines or on the line the reader names (`Item.reduce_lined`). The
readers are one mutual recursion on their fuel; `ExprParser.LinedAt n` bundles the fact of each
at fuel `n`, and `linedAt_succ` proves them at `n + 1` from those at `n`.
-/

namespace ZScript

/-- Line `1`, or the line of a token satisfying `Q`: where an error on such tokens may be. -/
def LineOf (Q : Token → Prop) (n : Nat) : Prop := n = 1 ∨ ∃ t, Q t ∧ t.line = n

theorem LineOf.one {Q : Token → Prop} : LineOf Q 1 := .inl rfl

theorem LineOf.of {Q : Token → Prop} {t : Token} (ht : Q t) : LineOf Q t.line := .inr ⟨t, ht, rfl⟩

/-- Every token of the cursor, read or still to read, satisfies `Q`. -/
def Cursor.Holds (Q : Token → Prop) (c : Cursor) : Prop := ∀ t ∈ c.done ++ c.rest, Q t

/-- Every operator token among the items satisfies `Q`. -/
def Item.OpsHold (Q : Token → Prop) (items : List Item) : Prop := ∀ t, Item.op t ∈ items → Q t

namespace Cursor

variable {Q : Token → Prop} {c c' : Cursor} {t : Token}

theorem Holds.ofList {ts : List Token} (h : ∀ t ∈ ts, Q t) : (ofList ts).Holds Q :=
  fun t ht => h t ht

theorem Holds.rest (hc : c.Holds Q) (ht : t ∈ c.rest) : Q t :=
  hc t (List.mem_append_right _ ht)

theorem Holds.peek? (hc : c.Holds Q) (h : c.peek? = some t) : Q t :=
  hc.rest (List.mem_of_head? h)

/-- An error at the end of the input is on the line of a token of the cursor, or on line `1`. -/
theorem Holds.lastLine (hc : c.Holds Q) : LineOf Q c.lastLine := by
  unfold Cursor.lastLine
  cases hd : c.done with
  | cons t tl => exact .of (hc t (by simp [hd]))
  | nil =>
    cases hr : c.rest with
    | cons t tl => exact .of (hc.rest (by simp [hr]))
    | nil => exact .one

/-- Moving the next token over to the tokens read keeps every token of the cursor. -/
theorem Holds.step (hc : c.Holds Q) {ts : List Token} (hr : c.rest = t :: ts) :
    Q t ∧ ({ done := t :: c.done, rest := ts } : Cursor).Holds Q := by
  refine ⟨hc.rest (hr ▸ List.mem_cons_self), fun x hx => hc x ?_⟩
  rw [hr]
  simp only [List.cons_append, List.mem_cons, List.mem_append] at hx ⊢
  tauto

theorem Holds.read? (hc : c.Holds Q) (h : c.read? = some (t, c')) : Q t ∧ c'.Holds Q := by
  unfold Cursor.read? at h
  split at h
  · cases h
  · next t' ts hr =>
    cases h
    exact hc.step hr

theorem Holds.accept? (hc : c.Holds Q) {kinds : List TokenKind}
    (h : c.accept? kinds = some (t, c')) : Q t ∧ c'.Holds Q := by
  unfold Cursor.accept? at h
  split at h
  · next t' ts hr =>
    split at h
    · cases h
      exact hc.step hr
    · cases h
  · cases h

theorem Holds.acceptKeyword? (hc : c.Holds Q) {word : String}
    (h : c.acceptKeyword? word = some (t, c')) : Q t ∧ c'.Holds Q := by
  unfold Cursor.acceptKeyword? at h
  split at h
  · next t' ts hr =>
    split at h
    · cases h
      exact hc.step hr
    · cases h
  · cases h

/-- The balanced run and the cursor after it hold the tokens of the cursor. -/
theorem Holds.balanced (hc : c.Holds Q) (stop : List TokenKind) :
    (∀ t ∈ (c.balanced stop).1, Q t) ∧ (c.balanced stop).2.Holds Q := by
  have happ := balancedRun_append stop [] c.rest
  refine ⟨fun t ht => hc.rest (happ ▸ List.mem_append_left _ ht), fun t ht => ?_⟩
  simp only [Cursor.balanced, List.mem_append, List.mem_reverse] at ht
  rcases ht with (ht | ht) | ht
  · exact hc.rest (happ ▸ List.mem_append_left _ ht)
  · exact hc t (List.mem_append_left _ ht)
  · exact hc.rest (happ ▸ List.mem_append_right _ ht)

end Cursor

namespace ExprParser

/-- How a run may end: failing on a line of `Q`, or with a value satisfying `V` and a cursor
    whose tokens satisfy `Q`. -/
def Landed {α : Type} (Q : Token → Prop) (V : α → Prop) : Except ParseError (α × Cursor) → Prop
  | .ok (a, c) => V a ∧ c.Holds Q
  | .error e => LineOf Q e.line

/-- Every run of `m` from a cursor of tokens satisfying `Q` ends so. -/
def Lined {α : Type} (Q : Token → Prop) (m : M α) (V : α → Prop) : Prop :=
  ∀ c, c.Holds Q → Landed Q V (m c)

/-- A computation that cannot move the cursor fails on a line of `Q`, or answers a value
    satisfying `V`. -/
def LinedRun {α : Type} (Q : Token → Prop) (V : α → Prop) : Except ParseError α → Prop
  | .ok a => V a
  | .error e => LineOf Q e.line

section Rules

variable {α β : Type} {Q : Token → Prop} {V V' : α → Prop}

theorem run_bind (x : M α) (f : α → M β) (c : Cursor) :
    (x >>= f) c = (x c).bind fun p => f p.1 p.2 := rfl

theorem Lined.pure {a : α} (h : V a) : Lined Q (Pure.pure a : M α) V := fun _ hc => ⟨h, hc⟩

theorem Lined.bind {x : M α} {f : α → M β} {W : β → Prop} (hx : Lined Q x V)
    (hf : ∀ a, V a → Lined Q (f a) W) : Lined Q (x >>= f) W := by
  intro c hc
  rw [run_bind]
  have h := hx c hc
  revert h
  cases x c with
  | error e => exact id
  | ok p => exact fun ⟨ha, hc'⟩ => hf p.1 ha p.2 hc'

theorem Lined.mono {m : M α} (h : Lined Q m V) (hV : ∀ a, V a → V' a) : Lined Q m V' := by
  intro c hc
  have h' := h c hc
  revert h'
  cases m c with
  | error e => exact id
  | ok p => exact fun ⟨ha, hc'⟩ => ⟨hV p.1 ha, hc'⟩

theorem Lined.throw {e : ParseError} (he : LineOf Q e.line) :
    Lined Q (MonadExcept.throw e : M α) V :=
  fun _ _ => he

/-- A reader that starts by looking at the cursor. -/
theorem Lined.get_bind {f : Cursor → M β} {W : β → Prop}
    (h : ∀ c, c.Holds Q → Lined Q (f c) W) : Lined Q (get >>= f) W :=
  fun c hc => h c hc c hc

theorem Lined.set {c' : Cursor} (hc' : c'.Holds Q) :
    Lined Q (MonadStateOf.set c' : M PUnit) fun _ => True :=
  fun _ _ => ⟨trivial, hc'⟩

theorem Lined.lift {x : Except ParseError α} (h : LinedRun Q V x) : Lined Q (lift x) V := by
  intro c hc
  cases x with
  | error e => exact h
  | ok a => exact ⟨h, hc⟩

theorem LinedRun.bind {x : Except ParseError α} {f : α → Except ParseError β} {W : β → Prop}
    (hx : LinedRun Q V x) (hf : ∀ a, V a → LinedRun Q W (f a)) : LinedRun Q W (x >>= f) := by
  cases x with
  | error e => exact hx
  | ok a => exact hf a hx

end Rules

/-! ## The readers of the cursor -/

section Cursor

variable {α : Type} {Q : Token → Prop}

theorem lined_accept (kinds : List TokenKind) : Lined Q (accept kinds) fun o => ∀ t ∈ o, Q t := by
  refine Lined.get_bind fun c hc => ?_
  cases h : c.accept? kinds with
  | none => exact Lined.pure fun _ ht => nomatch ht
  | some p =>
    obtain ⟨t, c'⟩ := p
    obtain ⟨ht, hc'⟩ := hc.accept? h
    exact Lined.bind (Lined.set hc') fun _ _ => Lined.pure fun _ hx => by
      cases hx
      exact ht

theorem lined_unexpected {expected : String} : Lined Q (unexpected expected : M α) fun _ => False := by
  refine Lined.get_bind fun c hc => ?_
  cases hp : c.peek? with
  | some t => exact Lined.throw (.of (hc.peek? hp))
  | none => exact Lined.throw hc.lastLine

theorem lined_expect (kinds : List TokenKind) (expected : String) :
    Lined Q (expect kinds expected) Q := by
  refine Lined.bind (lined_accept kinds) fun o ho => ?_
  cases o with
  | some t => exact Lined.pure (ho t rfl)
  | none => exact lined_unexpected.mono fun _ => False.elim

theorem lined_tooDeep : Lined Q (tooDeep : M α) fun _ => False :=
  Lined.get_bind fun _ hc => Lined.throw hc.lastLine

theorem lined_balanced (stop : List TokenKind) : Lined Q (balanced stop) fun run => ∀ t ∈ run, Q t :=
  fun _ hc => hc.balanced stop

theorem lined_skip : Lined Q skip fun _ => True := by
  intro c hc
  refine ⟨trivial, ?_⟩
  show ((c.read?.map (·.2)).getD c).Holds Q
  cases h : c.read? with
  | none => exact hc
  | some p => exact (hc.read? h).2

theorem lined_popOperand (items : List Item) {at_ : Token} (hat : Q at_) :
    Lined Q (popOperand items at_) fun r => items = .operand r.1 :: r.2 := by
  unfold popOperand
  split
  · exact Lined.pure rfl
  · exact Lined.throw (.of hat)

theorem lined_memberNames : ∀ fuel, Lined Q (memberNames fuel) fun _ => True
  | 0 => lined_tooDeep.mono fun _ => False.elim
  | fuel + 1 => by
    rw [memberNames]
    refine Lined.bind (lined_expect _ _) fun _ _ => ?_
    refine Lined.bind (lined_accept _) fun o _ => ?_
    cases o with
    | some _ => exact Lined.bind (lined_memberNames fuel) fun _ _ => Lined.pure trivial
    | none => exact Lined.pure trivial

/-- Splitting a run fails only at one of its tokens, and its parts hold tokens of the run. -/
theorem splitArgs_lined {ts : List Token} (hts : ∀ t ∈ ts, Q t) :
    LinedRun Q (fun r => ∀ p ∈ r.1, ∀ t ∈ p, Q t) (splitArgs ts) := by
  fun_induction splitArgs ts with
  | case1 ts run hrun =>
    have happ := balancedRun_append [.comma] [] ts
    rw [hrun] at happ
    intro p hp t ht
    rw [List.mem_singleton.1 hp] at ht
    exact hts t (happ ▸ by simp [ht])
  | case2 ts run t rest hrun hcomma parts commas hsplit ih =>
    have happ := balancedRun_append [.comma] [] ts
    rw [hrun] at happ
    have hrest : ∀ x ∈ rest, Q x := fun x hx => hts x (happ ▸ by simp [hx])
    have hparts := ih hrest
    rw [hsplit] at hparts
    intro p hp x hx
    rcases List.mem_cons.1 hp with rfl | hp
    · exact hts x (happ ▸ by simp [hx])
    · exact hparts p hp x hx
  | case3 ts run t rest hrun hcomma e hsplit ih =>
    have happ := balancedRun_append [.comma] [] ts
    rw [hrun] at happ
    have hrest : ∀ x ∈ rest, Q x := fun x hx => hts x (happ ▸ by simp [hx])
    simpa [hsplit] using ih hrest
  | case4 ts run t rest hrun hcomma =>
    have happ := balancedRun_append [.comma] [] ts
    rw [hrun] at happ
    exact .of (hts t (happ ▸ by simp))

end Cursor

end ExprParser

/-! ## The precedence passes -/

namespace Item

variable {Q : Token → Prop}

/-- The item is an operand, or an operator token satisfying `Q`. -/
def OpHolds (Q : Token → Prop) : Item → Prop
  | .op t => Q t
  | .operand _ => True

@[simp] theorem opHolds_op {t : Token} : (Item.op t).OpHolds Q ↔ Q t := Iff.rfl

@[simp] theorem opHolds_operand {l : Leaf} : (Item.operand l).OpHolds Q ↔ True := Iff.rfl

@[simp] theorem opsHold_nil : OpsHold Q [] := fun _ h => nomatch h

@[simp] theorem opsHold_cons {x : Item} {items : List Item} :
    OpsHold Q (x :: items) ↔ x.OpHolds Q ∧ OpsHold Q items := by
  constructor
  · intro h
    refine ⟨?_, fun t ht => h t (List.mem_cons_of_mem _ ht)⟩
    cases x with
    | op t => exact h t List.mem_cons_self
    | operand l => trivial
  · rintro ⟨hx, hi⟩ t ht
    rcases List.mem_cons.1 ht with rfl | ht
    · exact hx
    · exact hi t ht

@[simp] theorem opsHold_append {xs ys : List Item} :
    OpsHold Q (xs ++ ys) ↔ OpsHold Q xs ∧ OpsHold Q ys := by
  simp only [OpsHold, List.mem_append]
  constructor
  · intro h
    exact ⟨fun t ht => h t (.inl ht), fun t ht => h t (.inr ht)⟩
  · rintro ⟨hx, hy⟩ t (ht | ht)
    · exact hx t ht
    · exact hy t ht

@[simp] theorem opsHold_reverse {items : List Item} : OpsHold Q items.reverse ↔ OpsHold Q items := by
  simp [OpsHold]

/-- The line of the first operator left, or `line`. -/
theorem OpsHold.firstOpLine {items : List Item} (hi : OpsHold Q items) {line : Nat}
    (hl : LineOf Q line) : LineOf Q ((Reduce.firstOpLine? items).getD line) := by
  induction items with
  | nil => exact hl
  | cons x items ih =>
    cases x with
    | operand l => exact ih (opsHold_cons.1 hi).2
    | op t => exact .of (opsHold_cons.1 hi).1

end Item

namespace Reduce

variable {Q : Token → Prop}

theorem opsHold_binaryPass (family : List Operator) (done items : List Item)
    (hd : Item.OpsHold Q done) (hi : Item.OpsHold Q items) :
    Item.OpsHold Q (binaryPass family done items) := by
  fun_induction binaryPass family done items <;> simp_all

theorem opsHold_postfixPass (done items : List Item) (hd : Item.OpsHold Q done)
    (hi : Item.OpsHold Q items) : Item.OpsHold Q (postfixPass done items) := by
  fun_induction postfixPass done items <;> simp_all

theorem opsHold_prefixPass (pick : Token → Option Operator) (todo done : List Item)
    (ht : Item.OpsHold Q todo) (hd : Item.OpsHold Q done) :
    Item.OpsHold Q (prefixPass pick todo done) := by
  fun_induction prefixPass pick todo done <;> simp_all

theorem opsHold_assignRight {op : Operator} {done rest : List Item} {eqs : List Token}
    {compound : Bool} {r : Leaf} (h : assignRight op done = some (eqs, compound, r, rest))
    (hd : Item.OpsHold Q done) : Item.OpsHold Q rest := by
  unfold assignRight at h
  split at h
  · split at h
    · cases h
      simp_all
    · cases h
  · split at h
    · cases h
      simp_all
    · cases h
  · cases h

theorem opsHold_assignPass (todo done : List Item) (ht : Item.OpsHold Q todo)
    (hd : Item.OpsHold Q done) : Item.OpsHold Q (assignPass todo done) := by
  fun_induction assignPass todo done with
  | case2 t l todo' done op eqs compound r rest hfold ih =>
    -- the right operand and the `=` of a compound assignment come off the front of `done`
    obtain ⟨op', -, hright⟩ := Option.bind_eq_some_iff.1 hfold
    obtain ⟨⟨eqs', compound', r', rest'⟩, hright, heq⟩ := Option.map_eq_some_iff.1 hright
    cases heq
    exact ih (by simp_all) (by simpa using opsHold_assignRight hright hd)
  | _ => simp_all

/-- A `?` without its shape is reported on its own line. -/
theorem ternaryPass_lined (todo done : List Item) (ht : Item.OpsHold Q todo)
    (hd : Item.OpsHold Q done) :
    ExprParser.LinedRun Q (Item.OpsHold Q) (ternaryPass todo done) := by
  fun_induction ternaryPass todo done <;> simp_all [ExprParser.LinedRun, LineOf.of]

theorem opsHold_families (items : List Item) (hi : Item.OpsHold Q items) :
    Item.OpsHold Q (families.foldl (fun acc fam => binaryPass fam [] acc) items) := by
  generalize families = fams
  induction fams generalizing items with
  | nil => exact hi
  | cons fam fams ih => exact ih _ (opsHold_binaryPass fam [] items Item.opsHold_nil hi)

end Reduce

open Reduce in
/-- Folding the items fails on the line of an operator token left over, or on `line`. -/
theorem Item.reduce_lined {Q : Token → Prop} {items : List Item} {line : Nat}
    (hi : Item.OpsHold Q items) (hl : LineOf Q line) :
    ExprParser.LinedRun Q (fun _ => True) (Item.reduce items line) := by
  unfold Item.reduce
  have h₁ := opsHold_binaryPass [.vectorDot, .vectorCross] [] items Item.opsHold_nil hi
  have h₂ := opsHold_postfixPass [] _ Item.opsHold_nil h₁
  have h₃ := opsHold_prefixPass incrementOf _ [] (Item.opsHold_reverse.2 h₂) Item.opsHold_nil
  have h₄ := opsHold_prefixPass unaryOf _ [] (Item.opsHold_reverse.2 h₃) Item.opsHold_nil
  have h₅ := opsHold_families _ h₄
  refine ExprParser.LinedRun.bind (ternaryPass_lined _ [] (Item.opsHold_reverse.2 h₅)
    Item.opsHold_nil) fun folded hf => ?_
  have h₆ := opsHold_assignPass _ [] (Item.opsHold_reverse.2 hf) Item.opsHold_nil
  dsimp only
  split
  · exact trivial
  · exact h₆.firstOpLine hl

namespace ExprParser

/-! ## The readers of expressions -/

/-- The facts of the readers at fuel `n`: each fails on the line of one of its tokens, of the
    items it was handed, or of the line it is given. -/
structure LinedAt (Q : Token → Prop) (n : Nat) : Prop where
  parseExpr : ∀ stop, Lined Q (parseExpr n stop) fun _ => True
  parseRun : ∀ ts line, (∀ t ∈ ts, Q t) → LineOf Q line →
    LinedRun Q (fun _ => True) (parseRun n ts line)
  collect : ∀ stop want acc, Item.OpsHold Q acc → Lined Q (collect n stop want acc) (Item.OpsHold Q)
  primary : ∀ t, Q t → Lined Q (primary n t) fun _ => True
  arrayParts : ∀ parts line, (∀ p ∈ parts, ∀ t ∈ p, Q t) → LineOf Q line →
    LinedRun Q (fun _ => True) (arrayParts n parts line)
  vectorParts : ∀ parts line, (∀ p ∈ parts, ∀ t ∈ p, Q t) → LineOf Q line →
    LinedRun Q (fun _ => True) (vectorParts n parts line)
  cast : ∀ t, Lined Q (cast n t) fun _ => True
  callArgs : ∀ count, Lined Q (callArgs n count) fun _ => True
  subscripts : Lined Q (subscripts n) fun _ => True

variable {Q : Token → Prop}

/-- With no fuel every reader fails at the end of what it was given. -/
theorem linedAt_zero : LinedAt Q 0 where
  parseExpr _ := by rw [parseExpr.eq_1]; exact lined_tooDeep.mono fun _ => False.elim
  parseRun _ _ _ hl := by rw [parseRun.eq_1]; exact hl
  collect _ _ _ _ := by rw [collect.eq_1]; exact lined_tooDeep.mono fun _ => False.elim
  primary _ _ := by rw [primary.eq_1]; exact lined_tooDeep.mono fun _ => False.elim
  arrayParts _ _ _ hl := by rw [arrayParts.eq_1]; exact hl
  vectorParts _ _ _ hl := by rw [vectorParts.eq_1]; exact hl
  cast _ := by rw [cast.eq_1]; exact lined_tooDeep.mono fun _ => False.elim
  callArgs _ := by rw [callArgs.eq_1]; exact lined_tooDeep.mono fun _ => False.elim
  subscripts := by rw [subscripts.eq_1]; exact lined_tooDeep.mono fun _ => False.elim

section Step

variable {n : Nat} (h : LinedAt Q n)
include h

theorem lined_parseExpr (stop : List TokenKind) :
    Lined Q (parseExpr (n + 1) stop) fun _ => True := by
  rw [parseExpr.eq_2]
  refine Lined.bind (h.collect stop true [] Item.opsHold_nil) fun items hi => ?_
  exact Lined.get_bind fun c hc => Lined.lift (Item.reduce_lined hi hc.lastLine)

theorem lined_parseRun (ts : List Token) (line : Nat) (hts : ∀ t ∈ ts, Q t)
    (hl : LineOf Q line) : LinedRun Q (fun _ => True) (parseRun (n + 1) ts line) := by
  rw [parseRun.eq_2]
  split
  · exact hl
  · -- the run is read from its start, and must be read to its end
    have hrun : Landed Q (fun _ => True) ((parseExpr n []).run (Cursor.ofList ts)) :=
      h.parseExpr [] (Cursor.ofList ts) (Cursor.Holds.ofList hts)
    revert hrun
    cases (parseExpr n []).run (Cursor.ofList ts) with
    | error e => exact id
    | ok p =>
      obtain ⟨e, c⟩ := p
      rintro ⟨-, hc⟩
      dsimp only
      cases hp : c.peek? with
      | some t => exact .of (hc.peek? hp)
      | none => exact trivial

/-- An operand built by a postfix form at `t`, pushed back before collecting on. -/
theorem lined_collect_postfix (stop : List TokenKind) {acc : List Item} {t : Token}
    (ht : Q t) (hacc : Item.OpsHold Q acc) (op : Operator) (suffix : M (List Leaf × List Token))
    (hsuffix : Lined Q suffix fun _ => True) :
    Lined Q (do
        let (target, rest) ← popOperand acc t
        let (xs, sp) ← suffix
        let m : Expr := { Expr.node op (target :: xs) with special := t :: sp }
        collect n stop false (.operand (.expr m) :: rest)) (Item.OpsHold Q) := by
  refine Lined.bind (lined_popOperand acc ht) fun r hr => ?_
  obtain ⟨target, rest⟩ := r
  refine Lined.bind hsuffix fun r _ => ?_
  obtain ⟨xs, sp⟩ := r
  exact h.collect stop false _ (by simp_all)

theorem lined_collect (stop : List TokenKind) (want : Bool) (acc : List Item)
    (hacc : Item.OpsHold Q acc) : Lined Q (collect (n + 1) stop want acc) (Item.OpsHold Q) := by
  rw [collect.eq_2]
  refine Lined.get_bind fun c hc => ?_
  -- at the end of the input or at a stop token the items collected are the result
  have hend : Lined Q (if acc.isEmpty = true then unexpected "expression"
      else Pure.pure acc.reverse) (Item.OpsHold Q) := by
    split
    · exact lined_unexpected.mono fun _ => False.elim
    · exact Lined.pure (Item.opsHold_reverse.2 hacc)
  cases hp : c.peek? with
  | none => exact hend
  | some t =>
    have ht := hc.peek? hp
    dsimp only
    split
    · exact hend
    · refine Lined.bind lined_skip fun _ _ => ?_
      split
      · -- an operand is wanted: a prefix operator, or an operand read whole
        split
        · exact h.collect stop true _ (by simp [ht, hacc])
        · exact Lined.bind (h.primary t ht) fun leaf _ => h.collect stop false _ (by simp [hacc])
      · -- an operator or a postfix form is wanted
        split
        · exact lined_collect_postfix h stop ht hacc .member _ (lined_memberNames n)
        · exact lined_collect_postfix h stop ht hacc .call _ (h.callArgs 0)
        · exact lined_collect_postfix h stop ht hacc .arraySubscript _ h.subscripts
        · exact h.collect stop false _ (by simp [ht, hacc])
        · exact h.collect stop false _ (by simp [ht, hacc])
        · exact h.collect stop true _ (by simp [ht, hacc])
        · exact h.collect stop true _ (by simp [ht, hacc])
        · split
          · exact Lined.throw (.of ht)
          · split
            · refine Lined.bind (lined_accept _) fun o ho => ?_
              cases o with
              | some a => exact h.collect stop true _ (by simp [ht, hacc, ho a rfl])
              | none => exact h.collect stop true _ (by simp [ht, hacc])
            · exact h.collect stop true _ (by simp [ht, hacc])

theorem lined_primary (t : Token) (ht : Q t) : Lined Q (primary (n + 1) t) fun _ => True := by
  rw [primary.eq_2]
  split
  · exact Lined.pure trivial
  · exact Lined.pure trivial
  · exact Lined.pure trivial
  · exact Lined.pure trivial
  · -- an array initializer: its parts are read on the line of its brace
    refine Lined.bind (lined_balanced _) fun inner hinner => ?_
    refine Lined.bind (lined_expect _ _) fun close _ => ?_
    refine Lined.bind (Lined.lift (splitArgs_lined hinner)) fun r hparts => ?_
    obtain ⟨parts, commas⟩ := r
    exact Lined.bind (Lined.lift (h.arrayParts parts t.line hparts (.of ht))) fun _ _ =>
      Lined.pure trivial
  · -- a bracketed expression or a vector, read on the line of its bracket
    refine Lined.bind (lined_balanced _) fun inner hinner => ?_
    refine Lined.bind (lined_expect _ _) fun close _ => ?_
    refine Lined.bind (Lined.lift (splitArgs_lined hinner)) fun r hparts => ?_
    obtain ⟨parts, commas⟩ := r
    dsimp only
    split
    · exact Lined.bind (Lined.lift (h.vectorParts parts t.line hparts (.of ht))) fun _ _ =>
        Lined.bind (V := fun _ => True) (Lined.pure trivial) fun _ _ => Lined.pure trivial
    · exact Lined.bind (Lined.lift (h.parseRun inner t.line hinner (.of ht))) fun _ _ =>
        Lined.pure trivial
  · -- a literal `true` or `false`, a cast, or an identifier
    split
    · exact Lined.pure trivial
    · refine Lined.get_bind fun c hc => ?_
      split
      · refine Lined.get_bind fun saved hsaved => ?_
        have hcast : Landed Q (fun _ => True) ((cast n t).run saved) := h.cast t saved hsaved
        revert hcast
        cases (cast n t).run saved with
        | ok p =>
          obtain ⟨leaf, c'⟩ := p
          intro hcast
          dsimp only
          exact Lined.bind (Lined.set hcast.2) fun _ _ => Lined.pure trivial
        | error e => exact fun _ => Lined.pure trivial
      · exact Lined.pure trivial
  · exact Lined.throw (.of ht)

theorem lined_arrayParts (parts : List (List Token)) (line : Nat)
    (hparts : ∀ p ∈ parts, ∀ t ∈ p, Q t) (hl : LineOf Q line) :
    LinedRun Q (fun _ => True) (arrayParts (n + 1) parts line) := by
  cases parts with
  | nil => rw [arrayParts.eq_2]; exact trivial
  | cons p ps =>
    rw [arrayParts.eq_3]
    split
    · exact trivial
    · refine LinedRun.bind (h.parseRun p line (hparts p List.mem_cons_self) hl) fun _ _ => ?_
      exact LinedRun.bind (h.arrayParts ps line (fun q hq => hparts q (List.mem_cons_of_mem _ hq))
        hl) fun _ _ => trivial

theorem lined_vectorParts (parts : List (List Token)) (line : Nat)
    (hparts : ∀ p ∈ parts, ∀ t ∈ p, Q t) (hl : LineOf Q line) :
    LinedRun Q (fun _ => True) (vectorParts (n + 1) parts line) := by
  cases parts with
  | nil => rw [vectorParts.eq_2]; exact trivial
  | cons p ps =>
    rw [vectorParts.eq_3]
    refine LinedRun.bind (h.parseRun p line (hparts p List.mem_cons_self) hl) fun _ _ => ?_
    exact LinedRun.bind (h.vectorParts ps line (fun q hq => hparts q (List.mem_cons_of_mem _ hq))
      hl) fun _ _ => trivial

theorem lined_cast (t : Token) : Lined Q (cast (n + 1) t) fun _ => True := by
  rw [cast.eq_2]
  refine Lined.bind (lined_expect _ _) fun o ho => ?_
  refine Lined.bind (lined_balanced _) fun inner hinner => ?_
  refine Lined.bind (lined_expect _ _) fun close _ => ?_
  exact Lined.bind (Lined.lift (h.parseRun inner o.line hinner (.of ho))) fun _ _ =>
    Lined.pure trivial

theorem lined_callArgs (count : Nat) : Lined Q (callArgs (n + 1) count) fun _ => True := by
  rw [callArgs.eq_2]
  refine Lined.bind (lined_balanced _) fun arg harg => ?_
  refine Lined.bind (lined_expect _ _) fun sep hsep => ?_
  extract_lets jp
  -- after one argument, the list ends at `)` or reads the next argument
  have hjp : ∀ r, Lined Q (jp r) fun _ => True := by
    intro r
    obtain ⟨leaves, labels⟩ := r
    dsimp only [jp]
    split
    · exact Lined.pure trivial
    · refine Lined.bind (h.callArgs _) fun r _ => ?_
      obtain ⟨more, special⟩ := r
      exact Lined.pure trivial
  split
  · -- an empty argument is reported on its separator
    split
    · exact Lined.bind (V := fun _ => True) (Lined.throw (.of hsep)) fun r _ => hjp r
    · exact Lined.bind (V := fun _ => True) (Lined.pure trivial) fun r _ => hjp r
  · -- a labelled argument's value is part of the argument
    rcases hsplit : splitLabel arg with ⟨labels, value⟩
    have hback := splitLabel_append arg
    rw [hsplit] at hback
    have hvalue : ∀ t ∈ value, Q t := fun t ht => harg t (hback ▸ List.mem_append_right _ ht)
    exact Lined.bind (Lined.lift (h.parseRun value sep.line hvalue (.of hsep))) fun _ _ =>
      Lined.bind (V := fun _ => True) (Lined.pure trivial) fun r _ => hjp r

theorem lined_subscripts : Lined Q (subscripts (n + 1)) fun _ => True := by
  rw [subscripts.eq_2]
  refine Lined.bind (lined_balanced _) fun idx hidx => ?_
  refine Lined.bind (lined_expect _ _) fun close hclose => ?_
  refine Lined.bind (Lined.lift (h.parseRun idx close.line hidx (.of hclose))) fun _ _ => ?_
  refine Lined.bind (lined_accept _) fun o _ => ?_
  cases o with
  | some o => exact Lined.bind h.subscripts fun _ _ => Lined.pure trivial
  | none => exact Lined.pure trivial

end Step

theorem linedAt_succ {n : Nat} (h : LinedAt Q n) : LinedAt Q (n + 1) where
  parseExpr := lined_parseExpr h
  parseRun := lined_parseRun h
  collect := lined_collect h
  primary := lined_primary h
  arrayParts := lined_arrayParts h
  vectorParts := lined_vectorParts h
  cast := lined_cast h
  callArgs := lined_callArgs h
  subscripts := lined_subscripts h

theorem linedAt (n : Nat) : LinedAt Q n := by
  induction n with
  | zero => exact linedAt_zero
  | succ n ih => exact linedAt_succ ih

/-- Reading an expression fails on line `1` or on the line of a token of the cursor, and leaves
    a cursor over the same tokens. -/
theorem lined_expression (stop : List TokenKind) : Lined Q (expression stop) fun _ => True :=
  Lined.get_bind fun _ _ => (linedAt _).parseExpr stop

/-- Reading a run as one expression fails on the line of one of its tokens, on `line`, or on
    line `1`. -/
theorem run_lined {ts : List Token} {line : Nat} (hts : ∀ t ∈ ts, Q t) (hl : LineOf Q line) :
    LinedRun Q (fun _ => True) (run ts line) :=
  (linedAt _).parseRun ts line hts hl

end ExprParser

end ZScript
