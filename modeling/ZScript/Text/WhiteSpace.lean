/-!
# Unicode white space

The Unicode `White_Space` property: 25 code points, from the ASCII tab to the ideographic space.
Source text is split on this class, so a no-break space or an em space separates tokens just as a
plain space does.
-/

namespace ZScript.Text

/-- The code points with the Unicode `White_Space` property, in increasing order. -/
def whiteSpaceCodes : List Nat :=
  [0x09, 0x0A, 0x0B, 0x0C, 0x0D, 0x20, 0x85, 0xA0, 0x1680, 0x2000, 0x2001, 0x2002, 0x2003, 0x2004,
   0x2005, 0x2006, 0x2007, 0x2008, 0x2009, 0x200A, 0x2028, 0x2029, 0x202F, 0x205F, 0x3000]

/-- Whether `c` has the Unicode `White_Space` property. -/
def isWhiteSpace (c : Char) : Bool := whiteSpaceCodes.contains c.toNat

end ZScript.Text
