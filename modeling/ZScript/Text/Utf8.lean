/-!
# Reading UTF-8 leniently

`decodeLossy` reads bytes as UTF-8 and never fails: every ill-formed part becomes one U+FFFD
replacement character. An ill-formed part is a byte that cannot start a character, or the
longest prefix of a character that a following byte breaks off; in the second case the breaking
byte is read again as the start of what follows. This is the substitution of maximal subparts
that the Unicode standard recommends.

A lead byte announces how many continuation bytes follow, and the first continuation byte has a
narrower range after `E0`, `ED`, `F0` and `F4`, which rules out overlong forms, surrogates and
code points past U+10FFFF.
-/

namespace ZScript

namespace Utf8

/-- The number of continuation bytes a lead byte announces; nothing for a byte that cannot start
    a character. -/
def width (lead : Nat) : Option Nat :=
  if lead < 0x80 then some 0
  else if 0xC2 ≤ lead && lead ≤ 0xDF then some 1
  else if 0xE0 ≤ lead && lead ≤ 0xEF then some 2
  else if 0xF0 ≤ lead && lead ≤ 0xF4 then some 3
  else none

/-- The bits a lead byte contributes to its code point. -/
def leadBits (lead : Nat) : Nat → Nat
  | 0 => lead
  | 1 => lead % 0x20
  | 2 => lead % 0x10
  | _ => lead % 0x08

/-- The range of the first continuation byte after `lead`. -/
def firstRange (lead : Nat) : Nat × Nat :=
  if lead == 0xE0 then (0xA0, 0xBF)
  else if lead == 0xED then (0x80, 0x9F)
  else if lead == 0xF0 then (0x90, 0xBF)
  else if lead == 0xF4 then (0x80, 0x8F)
  else (0x80, 0xBF)

/-- Read up to `n` continuation bytes, the first in `first`'s range: how many fit, and the
    code point built so far. -/
def continuation (first : Nat × Nat) : Nat → Nat → List UInt8 → Nat × Nat
  | 0, acc, _ => (0, acc)
  | _, acc, [] => (0, acc)
  | n + 1, acc, b :: bs =>
    if first.1 ≤ b.toNat && b.toNat ≤ first.2 then
      let (k, v) := continuation (0x80, 0xBF) n (acc * 64 + b.toNat % 64) bs
      (k + 1, v)
    else (0, acc)

/-- The replacement character. -/
def replacement : Char := '�'

/-- Decode bytes, replacing each ill-formed part by U+FFFD. -/
def decodeLossy : List UInt8 → List Char
  | [] => []
  | b :: rest =>
    match width b.toNat with
    | none => replacement :: decodeLossy rest
    | some n =>
      let (k, v) := continuation (firstRange b.toNat) n (leadBits b.toNat n) rest
      (if k == n then Char.ofNat v else replacement) :: decodeLossy (rest.drop k)
termination_by bytes => bytes.length
decreasing_by
  all_goals
    simp only [List.length_cons, List.length_drop]
    omega

end Utf8

/-- Read bytes as UTF-8 text, replacing each ill-formed part by U+FFFD. -/
def String.ofUtf8Lossy (bytes : ByteArray) : String := String.ofList (Utf8.decodeLossy bytes.toList)

end ZScript
