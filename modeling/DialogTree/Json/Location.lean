import DialogTree.Position
/-!
# Places of JSON faults

A fault is known by a number of bytes of the strict text. Line and byte column of the last of these bytes
are the same in the source; the position is that of the character there.
-/

namespace DialogTree

namespace Json

/-- The line of a byte index and the bytes between the start of that line and the index. -/
def lineColumn (text : List Char) (index : Nat) : Nat × Nat :=
  go text index 1 0
where
  go : List Char → Nat → Nat → Nat → Nat × Nat
    | [], _, line, column => (line, column)
    | c :: rest, index, line, column =>
      if index < c.utf8Size then (line, column + index)
      else if c = '\n' then go rest (index - c.utf8Size) (line + 1) 0
      else go rest (index - c.utf8Size) line (column + c.utf8Size)

/-- The text behind so many lines, with the bytes in front of it. -/
def dropLines : Nat → Nat → List Char → Nat × List Char
  | 0, offset, text => (offset, text)
  | _ + 1, offset, [] => (offset, [])
  | lines + 1, offset, c :: rest =>
    dropLines (if c = '\n' then lines else lines + 1) (offset + c.utf8Size) rest

/-- The whole characters within so many bytes. -/
def takeBytes : Nat → List Char → List Char
  | _, [] => []
  | count, c :: rest =>
    if c.utf8Size ≤ count then c :: takeBytes (count - c.utf8Size) rest else []

/-- The position of the character that holds the last byte before a line and byte column. -/
def positionAt (source : List Char) (line column : Nat) : Position :=
  let (offset, rest) := dropLines (line - 1) 0 source
  let passed := takeBytes (column - 1) rest
  ⟨offset + byteLength passed, max line 1, passed.length + 1⟩

end Json

end DialogTree
