import DialogTree.Document
import DialogTree.Proofs.Json.Encoding
import DialogTree.Proofs.Places.Offsets

/-!
# Faults of JSON in their places

A fault is known by the line and the byte column of a number of bytes of the strict text. Relaxing moves no line end,
so that the same bytes of the source have this line and column. The position made of them is that of the character
that holds the last of these bytes, or the start of the line where none of them is on the line.
-/

namespace DialogTree

namespace Json

variable {text : List Char}

/-! ## Lines and byte columns -/

/-- The line and the byte column of a number of bytes: one more than the line feeds among them, and how many of them
stand behind the last line feed. -/
structure IsLineColumn (text : List UInt8) (index line column : Nat) : Prop where
  within : index ≤ text.length
  line : line = 1 + (text.take index).count '\n'.toUInt8
  column : column = ((text.take index).reverse.takeWhile (· ≠ '\n'.toUInt8)).length

/-- Lines and columns depend on the length and the line feeds alone. -/
theorem IsLineColumn.congr {text text' : List UInt8} {index line column : Nat}
    (hLines : text.map (· == '\n'.toUInt8) = text'.map (· == '\n'.toUInt8)) (h : IsLineColumn text index line column) :
    IsLineColumn text' index line column := by
  have hCount : ∀ bytes : List UInt8, bytes.count '\n'.toUInt8 = (bytes.map (· == '\n'.toUInt8)).countP id := by
    intro bytes
    rw [List.countP_map]
    rfl
  have hBehind : ∀ bytes : List UInt8, (bytes.reverse.takeWhile (· ≠ '\n'.toUInt8)).length =
      ((bytes.map (· == '\n'.toUInt8)).reverse.takeWhile (!·)).length := by
    intro bytes
    rw [← List.map_reverse, List.takeWhile_map, List.length_map]
    congr 2
    funext b
    exact decide_not
  refine ⟨?_, ?_, ?_⟩
  · rw [← List.length_map (· == '\n'.toUInt8), ← hLines, List.length_map]
    exact h.within
  · rw [h.line, hCount, hCount, List.map_take, List.map_take, hLines]
  · rw [h.column, hBehind, hBehind, List.map_take, List.map_take, hLines]

theorem KeepsLayout.lines {regions : List Region} {before after : List UInt8} (h : KeepsLayout regions before after) :
    after.map (· == '\n'.toUInt8) = before.map (· == '\n'.toUInt8) := by
  apply List.ext_getElem
  · rw [List.length_map, List.length_map, h.length]
  · intro i hAfter hBefore
    rw [List.length_map] at hAfter hBefore
    have hLine := h.line i
    rw [List.getElem?_eq_getElem hAfter, List.getElem?_eq_getElem hBefore, Option.some.injEq,
      Option.some.injEq] at hLine
    rw [List.getElem_map, List.getElem_map, Bool.eq_iff_iff, beq_iff_eq, beq_iff_eq]
    exact hLine

/-- Where a number of bytes ends in a text: the lines in front of its line, the characters in front of it on the line,
and how many bytes of the next character are among them. -/
structure EndsAt (text : List Char) (index : Nat) (above before behind : List Char) (inside : Nat) : Prop where
  text_eq : text = above ++ (before ++ behind)
  index_eq : index = byteLength above + (byteLength before + inside)
  above : above = [] ∨ ∃ lines, above = lines ++ ['\n']
  before : '\n' ∉ before
  inside : inside = 0 ∨ ∃ c more, behind = c :: more ∧ inside < c.utf8Size

namespace EndsAt

variable {index inside : Nat} {above before behind : List Char}

end EndsAt

/-! ## The line and column of a fault -/

theorem lineColumn_line {before : List Char} (h : '\n' ∉ before) (rest : List Char) (count line column : Nat) :
    lineColumn.go (before ++ rest) (byteLength before + count) line column =
      lineColumn.go rest count line (column + byteLength before) := by
  induction before generalizing column with
  | nil => rw [byteLength, Nat.zero_add, List.nil_append, Nat.add_zero]
  | cons c before ih =>
    rw [List.mem_cons, not_or] at h
    rw [List.cons_append, lineColumn.go, if_neg (Nat.not_lt.mpr (utf8Size_le_byteLength c before count)),
      if_neg (Ne.symm h.1), byteLength_cons_sub, ih h.2, byteLength, Nat.add_assoc]

theorem lineColumn_above (lines rest : List Char) (count line column : Nat) :
    lineColumn.go (lines ++ ['\n'] ++ rest) (byteLength (lines ++ ['\n']) + count) line column =
      lineColumn.go rest count (line + (lines ++ ['\n']).count '\n') 0 := by
  induction lines generalizing line column with
  | nil =>
    rw [List.nil_append, List.singleton_append, lineColumn.go,
      if_neg (Nat.not_lt.mpr (utf8Size_le_byteLength _ [] count)), if_pos rfl, byteLength_cons_sub, byteLength,
      Nat.zero_add]
    rfl
  | cons c lines ih =>
    simp only [List.cons_append] at ih ⊢
    rw [lineColumn.go, if_neg (Nat.not_lt.mpr (utf8Size_le_byteLength c _ count)), byteLength_cons_sub]
    split
    · rename_i hLine
      rw [ih, hLine, List.count_cons_self, Nat.add_assoc, Nat.add_comm 1]
    · rename_i hLine
      rw [ih, List.count_cons_of_ne hLine]

theorem dropLines_above (lines rest : List Char) (offset : Nat) :
    dropLines ((lines ++ ['\n']).count '\n') offset (lines ++ ['\n'] ++ rest) =
      (offset + byteLength (lines ++ ['\n']), rest) := by
  induction lines generalizing offset with
  | nil => rw [List.nil_append, List.count_singleton_self, List.singleton_append, dropLines, if_pos rfl, dropLines]; rfl
  | cons c lines ih =>
    simp only [List.cons_append] at ih ⊢
    by_cases hLine : c = '\n'
    · rw [hLine, List.count_cons_self, dropLines, if_pos rfl, ih, byteLength, Nat.add_assoc]
    · have hCount : (lines ++ ['\n']).count '\n' = lines.count '\n' + 1 := List.count_append
      rw [List.count_cons_of_ne hLine]
      rw [hCount] at ih ⊢
      rw [dropLines, if_neg hLine, ih, byteLength, Nat.add_assoc]

namespace EndsAt

variable {index inside : Nat} {above before behind : List Char}

theorem lineColumn (h : EndsAt text index above before behind inside) :
    Json.lineColumn text index = (1 + above.count '\n', byteLength before + inside) := by
  have hInside : ∀ line column, lineColumn.go behind inside line column = (line, column + inside) := by
    intro line column
    rcases h.inside with rfl | ⟨c, more, rfl, hInside⟩
    · cases behind with
      | nil => rfl
      | cons c more => rw [lineColumn.go, if_pos c.utf8Size_pos]
    · rw [lineColumn.go, if_pos hInside]
  have hLine : ∀ line, lineColumn.go (before ++ behind) (byteLength before + inside) line 0 =
      (line, byteLength before + inside) := by
    intro line
    rw [lineColumn_line h.before, hInside, Nat.zero_add]
  rw [Json.lineColumn, h.text_eq, h.index_eq]
  rcases h.above with rfl | ⟨lines, rfl⟩
  · rw [List.nil_append, byteLength, Nat.zero_add, hLine]
    rfl
  · rw [lineColumn_above, hLine]

/-- What the cut in front of a byte column takes: all in front of the character that holds the last byte. -/
theorem exists_passed (h : EndsAt text index above before behind inside) :
    ∃ passed rest, before ++ behind = passed ++ rest ∧ '\n' ∉ passed ∧
      takeBytes (byteLength before + inside - 1) (before ++ behind) = passed ∧
      (byteLength before + inside = 0 ∧ passed = [] ∨ ∃ c, rest.head? = some c ∧
        byteLength passed < byteLength before + inside ∧
        byteLength before + inside ≤ byteLength passed + c.utf8Size) := by
  rcases Nat.eq_zero_or_pos inside with rfl | hPos
  · rcases List.eq_nil_or_concat before with rfl | ⟨passed, c, rfl⟩
    · exact ⟨[], behind, rfl, List.not_mem_nil, takeBytes_zero _, .inl ⟨rfl, rfl⟩⟩
    · have hSize := c.utf8Size_pos
      have hBytes : byteLength (passed.concat c) = byteLength passed + c.utf8Size := by
        rw [List.concat_eq_append, byteLength_append, byteLength, byteLength, Nat.add_zero]
      have hCount : byteLength passed + c.utf8Size + 0 - 1 = byteLength passed + (c.utf8Size - 1) := by omega
      have hText : passed.concat c ++ behind = passed ++ c :: behind := by
        rw [List.concat_eq_append, List.append_assoc, List.singleton_append]
      have hLine : '\n' ∉ passed := fun hMem => h.before (by simp [hMem])
      refine ⟨passed, c :: behind, hText, hLine, ?_, .inr ⟨c, rfl, by omega, by omega⟩⟩
      rw [hText, hBytes, hCount, takeBytes_append, takeBytes_inside (by omega), List.append_nil]
  · obtain ⟨c, more, rfl, hInside⟩ := h.inside.resolve_left (Nat.ne_of_gt hPos)
    have hCount : byteLength before + inside - 1 = byteLength before + (inside - 1) := by omega
    refine ⟨before, c :: more, rfl, h.before, ?_, .inr ⟨c, rfl, by omega, by omega⟩⟩
    rw [hCount, takeBytes_append, takeBytes_inside (by omega), List.append_nil]

/-- The position made of a line and a byte column is one that a cursor comes to. -/
theorem positionAt (h : EndsAt text index above before behind inside) : ∃ passed rest,
    text = passed ++ rest ∧
      Json.positionAt text (1 + above.count '\n') (byteLength before + inside) = Position.start.after passed ∧
      passed.count '\n' = above.count '\n' ∧
      (byteLength before + inside = 0 ∧ byteLength passed = index ∨ ∃ c, rest.head? = some c ∧
        byteLength passed < index ∧ index ≤ byteLength passed + c.utf8Size) := by
  obtain ⟨passed, rest, hText, hLine, hTake, hLast⟩ := h.exists_passed
  have hDrop : dropLines (above.count '\n') 0 (above ++ (before ++ behind)) = (byteLength above, before ++ behind) := by
    rcases h.above with rfl | ⟨lines, rfl⟩
    · rw [List.count_nil, dropLines, List.nil_append, byteLength]
    · rw [dropLines_above, Nat.zero_add]
  have hCount : (above ++ passed).count '\n' = above.count '\n' := by
    rw [List.count_append, List.count_eq_zero.mpr hLine, Nat.add_zero]
  -- The lines in front end in a line feed and no further one is passed, so the column counts what is passed.
  have hColumn : ((above ++ passed).reverse.takeWhile (· ≠ '\n')).length = passed.length := by
    have hPassed : ∀ c ∈ passed.reverse, (c ≠ '\n' : Bool) = true := by
      intro c hMem
      refine decide_eq_true ?_
      rintro rfl
      exact hLine (List.mem_reverse.mp hMem)
    rw [List.reverse_append, List.takeWhile_append_of_pos hPassed]
    rcases h.above with rfl | ⟨lines, rfl⟩
    · simp
    · simp
  refine ⟨above ++ passed, rest, ?_, ?_, hCount, ?_⟩
  · rw [h.text_eq, hText, List.append_assoc]
  · have hOffset := Position.offset_after .start (above ++ passed)
    have hAfter := Position.line_after .start (above ++ passed)
    have hBehind := Position.column_after_start (above ++ passed)
    rw [hCount] at hAfter
    rw [hColumn] at hBehind
    rw [Json.positionAt, Nat.add_sub_cancel_left, h.text_eq, hDrop]
    simp only [hTake]
    generalize Position.start.after (above ++ passed) = position at *
    obtain ⟨offset, line, column⟩ := position
    simp_all [Position.start, byteLength_append, Nat.add_comm]
  · rw [byteLength_append, h.index_eq]
    rcases hLast with ⟨hNone, rfl⟩ | ⟨c, hHead, hFrom, hTo⟩
    · rw [hNone]
      exact .inl ⟨rfl, rfl⟩
    · exact .inr ⟨c, hHead, by omega, by omega⟩

end EndsAt

end Json

end DialogTree
