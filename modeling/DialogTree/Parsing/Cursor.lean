import DialogTree.Position
/-!
# Cursors

A cursor is the rest of a text together with the position where the rest begins. Cursors move forward by
whole characters, and the position always follows the characters passed.
-/

namespace DialogTree

structure Cursor where
  rest : List Char
  position : Position
deriving DecidableEq, Repr

namespace Cursor

def ofText (text : String) : Cursor := ⟨text.toList, .start⟩

def offset (cursor : Cursor) : Nat := cursor.position.offset

def isEmpty (cursor : Cursor) : Bool := cursor.rest.isEmpty

def peek? (cursor : Cursor) : Option Char := cursor.rest.head?

def skip (cursor : Cursor) (count : Nat) : Cursor :=
  ⟨cursor.rest.drop count, cursor.position.after (cursor.rest.take count)⟩

def bump? (cursor : Cursor) : Option (Char × Cursor) :=
  match cursor.rest with
  | [] => none
  | c :: rest => some (c, ⟨rest, cursor.position.step c⟩)

def takeWhile (cursor : Cursor) (p : Char → Bool) : List Char :=
  cursor.rest.takeWhile p

def skipWhile (cursor : Cursor) (p : Char → Bool) : Cursor :=
  ⟨cursor.rest.dropWhile p, cursor.position.after (cursor.rest.takeWhile p)⟩

/-- The cursor behind `count` bytes, when these are whole characters of the text. -/
def skipBytes? (cursor : Cursor) (count : Nat) : Option Cursor :=
  go cursor.rest cursor.position count
where
  go : List Char → Position → Nat → Option Cursor
    | rest, position, 0 => some ⟨rest, position⟩
    | [], _, _ + 1 => none
    | c :: rest, position, count + 1 =>
      if c.utf8Size ≤ count + 1 then go rest (position.step c) (count + 1 - c.utf8Size) else none

def textTo (cursor later : Cursor) : List Char :=
  cursor.rest.take (cursor.rest.length - later.rest.length)

@[simp] theorem rest_skip (cursor : Cursor) (count : Nat) :
    (cursor.skip count).rest = cursor.rest.drop count := rfl

@[simp] theorem skip_zero (cursor : Cursor) : cursor.skip 0 = cursor := by
  simp [skip]

/-- One cursor lies at or behind another of the same text. -/
def Reaches (cursor later : Cursor) : Prop :=
  ∃ passed, cursor.rest = passed ++ later.rest ∧ later.position = cursor.position.after passed

theorem Reaches.refl (cursor : Cursor) : cursor.Reaches cursor := ⟨[], rfl, rfl⟩

theorem Reaches.trans {a b c : Cursor} (hab : a.Reaches b) (hbc : b.Reaches c) : a.Reaches c := by
  obtain ⟨s, hs, hp⟩ := hab
  obtain ⟨t, ht, hq⟩ := hbc
  exact ⟨s ++ t, by rw [hs, ht, List.append_assoc], by rw [hq, hp, Position.after_append]⟩

theorem reaches_skip (cursor : Cursor) (count : Nat) : cursor.Reaches (cursor.skip count) :=
  ⟨cursor.rest.take count, (List.take_append_drop count cursor.rest).symm, rfl⟩

end Cursor

end DialogTree
