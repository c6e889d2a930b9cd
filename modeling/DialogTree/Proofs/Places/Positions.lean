import DialogTree.Proofs.Passing

/-!
# Places of a source

A cursor of a source stands behind a beginning of the source, and its position tells how many bytes, lines
and characters that beginning has. What is left in front of the cursor is a slice of whole characters.
-/

namespace DialogTree

theorem byteLength_eq_utf8ByteSize (text : List Char) : byteLength text = (String.ofList text).utf8ByteSize := by
  induction text with
  | nil => rfl
  | cons c text ih =>
    have hCons : String.ofList (c :: text) = String.ofList [c] ++ String.ofList text := by
      rw [← String.ofList_append, List.singleton_append]
    rw [hCons, String.utf8ByteSize_append, ← String.singleton_eq_ofList, String.utf8ByteSize_singleton, byteLength, ih]

/-- The position behind a beginning of the source: the offset counts its bytes, the line its line feeds, and
the column the characters behind the last line feed or from the start. -/
def Position.PlacedIn (source : String) (position : Position) : Prop :=
  ∃ before behind : String, source = before ++ behind ∧ position.offset = before.utf8ByteSize ∧
    position.line = 1 + before.toList.count '\n' ∧
    position.column = 1 + (before.toList.reverse.takeWhile (· ≠ '\n')).length

/-- The bytes from one offset of a source up to another are whole characters, which are the given text. -/
def IsSlice (source : String) (first last : Nat) (slice : String) : Prop :=
  ∃ before behind : String, source = before ++ slice ++ behind ∧ first = before.utf8ByteSize ∧
    last = first + slice.utf8ByteSize

namespace Position

variable {source : String} {position : Position}

theorem PlacedIn.offset_le (h : position.PlacedIn source) : position.offset ≤ source.utf8ByteSize := by
  obtain ⟨before, behind, rfl, hOffset, -, -⟩ := h
  rw [hOffset, String.utf8ByteSize_append]
  exact Nat.le_add_right _ _

theorem PlacedIn.isValid (h : position.PlacedIn source) : String.Pos.Raw.IsValid source ⟨position.offset⟩ := by
  obtain ⟨before, behind, rfl, hOffset, -, -⟩ := h
  exact String.Pos.Raw.isValid_iff_exists_append.mpr ⟨before, behind, rfl, congrArg _ hOffset⟩

end Position

namespace Cursor

variable {source : String} {c : Cursor}

theorem Reaches.exists_before (h : (ofText source).Reaches c) : ∃ before : String,
    source = before ++ .ofList c.rest ∧ c.position = Position.start.after before.toList ∧
      c.offset = before.utf8ByteSize := by
  obtain ⟨before, hText, hPosition⟩ := h
  refine ⟨.ofList before, ?_, by rw [String.toList_ofList]; exact hPosition, ?_⟩
  · rw [← String.ofList_append, ← hText, ofText, String.ofList_toList]
  · rw [offset, hPosition, Position.offset_after, ← byteLength_eq_utf8ByteSize]
    exact Nat.zero_add _

theorem Reaches.placedIn (h : (ofText source).Reaches c) : c.position.PlacedIn source := by
  obtain ⟨before, hSource, hPosition, hOffset⟩ := h.exists_before
  refine ⟨before, _, hSource, hOffset, ?_, ?_⟩
  · rw [hPosition, Position.line_after]
    rfl
  · rw [hPosition]
    exact Position.column_after_start before.toList

theorem Reaches.isSlice_rest (h : (ofText source).Reaches c) :
    IsSlice source c.offset source.utf8ByteSize (.ofList c.rest) := by
  obtain ⟨before, hSource, -, hOffset⟩ := h.exists_before
  refine ⟨before, "", ?_, hOffset, ?_⟩
  · rw [String.append_empty]
    exact hSource
  · rw [hOffset, ← String.utf8ByteSize_append, ← hSource]

end Cursor

end DialogTree
