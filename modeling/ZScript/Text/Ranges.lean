/-!
# Sets of code points

Unicode properties are kept as sorted arrays of disjoint, inclusive ranges of code points;
`Ranges.contains` looks a code point up by binary search.
-/

namespace ZScript

namespace Ranges

/-- Whether `n` lies in one of the sorted, disjoint, inclusive ranges `rs[lo:hi]`. -/
def within (rs : Array (Nat × Nat)) (n : Nat) (lo hi : Nat) : Bool :=
  if _h : lo < hi then
    let mid := (lo + hi) / 2
    match rs[mid]? with
    | none => false
    | some (a, b) =>
      if n < a then within rs n lo mid
      else if b < n then within rs n (mid + 1) hi
      else true
  else false
termination_by hi - lo

/-- Whether `n` lies in one of the sorted, disjoint, inclusive ranges `rs`. -/
def contains (rs : Array (Nat × Nat)) (n : Nat) : Bool := within rs n 0 rs.size

end Ranges

end ZScript
