/-!
# Padding

Text is padded to a number of characters with spaces, on the left (as numbers are set) or on
the right (as words are). Text already as long stays as it is.
-/

namespace ZScript

/-- `s` padded with spaces on the left to `n` characters. -/
def Pad.left (s : String) (n : Nat) : String := String.ofList (List.replicate (n - s.length) ' ') ++ s

/-- `s` padded with spaces on the right to `n` characters. -/
def Pad.right (s : String) (n : Nat) : String := s ++ String.ofList (List.replicate (n - s.length) ' ')

end ZScript
