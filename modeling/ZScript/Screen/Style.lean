/-!
# Colours, attributes and styles

A terminal cell has a foreground and a background colour and a set of text attributes. A
`Style` says what to change about a cell: the colours it sets (`none` leaves a colour as it
is), the attributes it adds and those it removes. Styles are layered with `Style.patch`: the
later style wins where it says something.
-/

namespace ZScript

/-- A terminal colour: the terminal's own default, black, or a 24-bit colour. -/
inductive Color where
  | reset
  | black
  | rgb (r g b : Nat)
  deriving DecidableEq, Inhabited

/-- Two lowercase hexadecimal digits. -/
def Color.hexByte (n : Nat) : String :=
  let d := Nat.toDigits 16 (n % 256)
  String.ofList (if d.length < 2 then '0' :: d else d)

/-- The colour's name: `reset`, `black`, or `#rrggbb`. -/
def Color.name : Color → String
  | .reset => "reset"
  | .black => "black"
  | .rgb r g b => "#" ++ Color.hexByte r ++ Color.hexByte g ++ Color.hexByte b

/-- A text attribute. -/
inductive Attr where
  | bold
  | dim
  | italic
  | underlined
  | slowBlink
  | rapidBlink
  | reversed
  | hidden
  | crossedOut
  deriving DecidableEq, Inhabited

namespace Attr

/-- Every attribute, in their customary order. -/
def all : List Attr :=
  [.bold, .dim, .italic, .underlined, .slowBlink, .rapidBlink, .reversed, .hidden, .crossedOut]

/-- The attribute's name in capitals. -/
def name : Attr → String
  | .bold => "BOLD"
  | .dim => "DIM"
  | .italic => "ITALIC"
  | .underlined => "UNDERLINED"
  | .slowBlink => "SLOW_BLINK"
  | .rapidBlink => "RAPID_BLINK"
  | .reversed => "REVERSED"
  | .hidden => "HIDDEN"
  | .crossedOut => "CROSSED_OUT"

end Attr

/-- A set of attributes, listed in the order of `Attr.all` and without repeats. -/
structure Modifier where
  attrs : List Attr := []
  deriving DecidableEq, Inhabited

namespace Modifier

/-- The set of the attributes that satisfy `p`. -/
def ofPred (p : Attr → Bool) : Modifier := ⟨Attr.all.filter p⟩

/-- Whether the set holds `a`. -/
def has (m : Modifier) (a : Attr) : Bool := m.attrs.contains a

/-- The set of one attribute. -/
def single (a : Attr) : Modifier := ofPred (· == a)

/-- The attributes of either set. -/
def union (m n : Modifier) : Modifier := ofPred fun a => m.has a || n.has a

/-- The attributes of `m` not in `n`. -/
def diff (m n : Modifier) : Modifier := ofPred fun a => m.has a && !n.has a

/-- The names of the attributes joined by `|`, or the empty string. -/
def names (m : Modifier) : String := "|".intercalate (m.attrs.map Attr.name)

end Modifier

/-- A change to a cell's look. -/
structure Style where
  fg : Option Color := none
  bg : Option Color := none
  add : Modifier := {}
  sub : Modifier := {}
  deriving DecidableEq, Inhabited

namespace Style

/-- The style with foreground `c`. -/
def withFg (s : Style) (c : Color) : Style := { s with fg := some c }

/-- The style with background `c`. -/
def withBg (s : Style) (c : Color) : Style := { s with bg := some c }

/-- The style that also adds attribute `a`. -/
def withAttr (s : Style) (a : Attr) : Style :=
  { s with add := s.add.union (.single a), sub := s.sub.diff (.single a) }

/-- `s` overlaid by `t`: `t`'s colours where it sets them, and its attribute changes applied
    after `s`'s. -/
def patch (s t : Style) : Style :=
  { fg := t.fg.orElse fun _ => s.fg, bg := t.bg.orElse fun _ => s.bg,
    add := (s.add.diff t.sub).union t.add, sub := (s.sub.diff t.add).union t.sub }

end Style

/-- One terminal cell: the text it shows and how. -/
structure Cell where
  symbol : String := " "
  fg : Color := .reset
  bg : Color := .reset
  modifier : Modifier := {}
  deriving DecidableEq, Inhabited

namespace Cell

/-- Apply a style to the cell. -/
def setStyle (c : Cell) (s : Style) : Cell :=
  { c with fg := s.fg.getD c.fg, bg := s.bg.getD c.bg, modifier := (c.modifier.union s.add).diff s.sub }

/-- The cell's look as a style that sets everything. -/
def style (c : Cell) : Style := { fg := some c.fg, bg := some c.bg, add := c.modifier }

end Cell

end ZScript
