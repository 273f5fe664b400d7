import ZScript.Token.Basic

/-!
# Token cursors

A cursor splits a token list into the part already read (most recent first) and the part still
to read. Its position is the number of tokens read.

`balancedRun stop` cuts the run of tokens up to the first token of a kind in `stop` at bracket
depth zero: `(`, `[`, `{` open a level, the matching closer ends it, a closer that does not
match the innermost opener counts as a plain token, and a closer with no level open ends the run.
Neither the stop token nor such a closer is taken. `balancedRun_append` says the run and the rest
put together are the input.
-/

namespace ZScript

/-- A position in a token list: the tokens read, most recent first, and those still to read. -/
structure Cursor where
  done : List Token := []
  rest : List Token
  deriving Inhabited

/-- The opener that a closing bracket kind matches. -/
def TokenKind.opener? : TokenKind → Option TokenKind
  | .closeParen => some .openParen
  | .closeCurly => some .openCurly
  | .closeSquare => some .openSquare
  | _ => none

/-- Whether the kind opens a bracket level. -/
def TokenKind.isOpener : TokenKind → Bool
  | .openParen | .openCurly | .openSquare => true
  | _ => false

/-- The balanced run at the front of `ts` with the open brackets `open_` (innermost first), and
    what follows it. -/
def balancedRun (stop : List TokenKind) : List TokenKind → List Token → List Token × List Token
  | _, [] => ([], [])
  | open_, t :: ts =>
    if open_.isEmpty && stop.contains t.kind then ([], t :: ts)
    else if t.kind.isOpener then
      let (run, rest) := balancedRun stop (t.kind :: open_) ts
      (t :: run, rest)
    else match t.kind.opener? with
      | some o =>
        match open_ with
        | [] => ([], t :: ts)
        | top :: inner =>
          let (run, rest) := balancedRun stop (if top == o then inner else open_) ts
          (t :: run, rest)
      | none =>
        let (run, rest) := balancedRun stop open_ ts
        (t :: run, rest)

/-- A balanced run and what follows it put together give the input back. -/
theorem balancedRun_append (stop : List TokenKind) (open_ : List TokenKind) (ts : List Token) :
    (balancedRun stop open_ ts).1 ++ (balancedRun stop open_ ts).2 = ts := by
  fun_induction balancedRun stop open_ ts <;> simp_all

namespace Cursor

/-- A cursor at the start of `ts`. -/
def ofList (ts : List Token) : Cursor := { rest := ts }

/-- The number of tokens read. -/
def position (c : Cursor) : Nat := c.done.length

/-- The next token. -/
def peek? (c : Cursor) : Option Token := c.rest.head?

/-- The token `n` places after the next one. -/
def peekAt? (c : Cursor) (n : Nat) : Option Token := c.rest[n]?

/-- Whether everything has been read. -/
def atEnd (c : Cursor) : Bool := c.rest.isEmpty

/-- Read the next token. -/
def read? (c : Cursor) : Option (Token × Cursor) :=
  match c.rest with
  | [] => none
  | t :: ts => some (t, { done := t :: c.done, rest := ts })

/-- Whether the next token has kind `k`. -/
def check (c : Cursor) (k : TokenKind) : Bool := c.peek?.any (·.kind == k)

/-- Read the next token if its kind is one of `kinds`. -/
def accept? (c : Cursor) (kinds : List TokenKind) : Option (Token × Cursor) :=
  match c.rest with
  | t :: ts => if kinds.contains t.kind then some (t, { done := t :: c.done, rest := ts }) else none
  | [] => none

/-- Read the next token if it is the identifier `word`, in any case. -/
def acceptKeyword? (c : Cursor) (word : String) : Option (Token × Cursor) :=
  match c.rest with
  | t :: ts => if t.isKeyword word then some (t, { done := t :: c.done, rest := ts }) else none
  | [] => none

/-- The line used for an error at the end of the input: that of the last token read, of the first
    token when none has been read, and `1` for an empty list. -/
def lastLine (c : Cursor) : Nat :=
  match c.done, c.rest with
  | t :: _, _ => t.line
  | [], t :: _ => t.line
  | [], [] => 1

/-- Move to position `n` (at most the length of the list). -/
def seek (c : Cursor) (n : Nat) : Cursor :=
  let all := c.done.reverse ++ c.rest
  { done := (all.take n).reverse, rest := all.drop n }

/-- Read the balanced run up to the first token of a kind in `stop` at depth zero. -/
def balanced (c : Cursor) (stop : List TokenKind) : List Token × Cursor :=
  let (run, rest) := balancedRun stop [] c.rest
  (run, { done := run.reverse ++ c.done, rest })

end Cursor

end ZScript
