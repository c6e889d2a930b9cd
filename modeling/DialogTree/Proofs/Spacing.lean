import DialogTree.Parsing.Spacing
import DialogTree.Proofs.Passing

/-!
# Spacing runs

A spacing run is a mix of whitespace and of comments that ends where neither begins. The relation is given
by its text and the text behind it, so that it is the longest such mix; the length that the reader counts is
the length of the run.
-/

namespace DialogTree

def startsSpacing (c : Char) : Bool :=
  isBlank c || c == '#'

inductive SpacingRun : List Char → List Char → Prop where
  | done {rest : List Char} (hStop : ∀ x ∈ rest.head?, startsSpacing x = false) : SpacingRun [] rest
  | blank {c : Char} {run rest : List Char} (hBlank : isBlank c = true)
      (hRun : SpacingRun run rest) : SpacingRun (c :: run) rest
  /-- A comment goes on up to the end of its line or of the text. -/
  | comment {line run rest : List Char} (hLine : '\n' ∉ line)
      (hEnd : ∀ x ∈ (run ++ rest).head?, x = '\n') (hRun : SpacingRun run rest) :
      SpacingRun ('#' :: line ++ run) rest

theorem not_isBlank_hash : isBlank '#' = false := by decide

theorem isBlank_newline : isBlank '\n' = true := by decide

theorem spacingLength_blank {c : Char} (h : isBlank c = true) (rest : List Char) :
    spacingLength false (c :: rest) = 1 + spacingLength false rest := by
  have hHash : c ≠ '#' := by
    rintro rfl
    simp [not_isBlank_hash] at h
  simp [spacingLength, hHash, h]

theorem spacingLength_stop {text : List Char} (h : ∀ x ∈ text.head?, startsSpacing x = false) :
    spacingLength false text = 0 := by
  cases text with
  | nil => rfl
  | cons c rest =>
    have hc := h c rfl
    simp only [startsSpacing, Bool.or_eq_false_iff, beq_eq_false_iff_ne] at hc
    simp [spacingLength, hc.1, hc.2]

theorem spacingLength_line {line text : List Char} (hLine : '\n' ∉ line)
    (hEnd : ∀ x ∈ text.head?, x = '\n') :
    spacingLength true (line ++ text) = line.length + spacingLength false text := by
  induction line with
  | nil =>
    cases text with
    | nil => rfl
    | cons c rest =>
      obtain rfl : c = '\n' := hEnd c rfl
      simp [spacingLength, isBlank_newline]
  | cons c line ih =>
    simp only [List.mem_cons, not_or] at hLine
    have hc : (c != '\n') = true := by simpa using Ne.symm hLine.1
    simp [spacingLength, hc, ih hLine.2]
    omega

theorem spacingLength_comment {line text : List Char} (hLine : '\n' ∉ line)
    (hEnd : ∀ x ∈ text.head?, x = '\n') :
    spacingLength false ('#' :: line ++ text) = 1 + line.length + spacingLength false text := by
  simp [spacingLength, spacingLength_line hLine hEnd]
  omega

theorem SpacingRun.length_eq {run rest : List Char} (h : SpacingRun run rest) :
    spacingLength false (run ++ rest) = run.length := by
  induction h with
  | done hStop => exact spacingLength_stop hStop
  | blank hBlank _ ih =>
    rw [List.cons_append, spacingLength_blank hBlank, ih, List.length_cons]
    omega
  | comment hLine hEnd _ ih =>
    rw [List.append_assoc, spacingLength_comment hLine hEnd, ih]
    simp
    omega

theorem exists_line (text : List Char) :
    ∃ line rest, text = line ++ rest ∧ '\n' ∉ line ∧ ∀ x ∈ rest.head?, x = '\n' := by
  refine ⟨text.takeWhile (· != '\n'), text.dropWhile (· != '\n'),
    List.takeWhile_append_dropWhile.symm, ?_, ?_⟩
  · intro hMem
    have h := List.all_eq_true.mp (List.all_takeWhile (p := (· != '\n')) (l := text)) _ hMem
    simp at h
  · intro x hx
    have h := List.head?_dropWhile_not (· != '\n') text
    simp only [Option.mem_def] at hx
    simpa [hx] using h

theorem exists_spacingRun (text : List Char) :
    ∃ run rest, text = run ++ rest ∧ SpacingRun run rest := by
  induction text using (measure List.length).wf.induction with
  | h text ih =>
    cases text with
    | nil => exact ⟨[], [], rfl, .done (by simp)⟩
    | cons c text =>
      by_cases hBlank : isBlank c = true
      · obtain ⟨run, rest, hText, hRun⟩ := ih text (Nat.lt_succ_self text.length)
        exact ⟨c :: run, rest, by rw [hText]; rfl, .blank hBlank hRun⟩
      · by_cases hHash : c = '#'
        · subst hHash
          obtain ⟨line, after, hText, hLine, hEnd⟩ := exists_line text
          obtain ⟨run, rest, hAfter, hRun⟩ := ih after (by
            change after.length < ('#' :: text).length
            rw [List.length_cons, hText, List.length_append]
            omega)
          subst hAfter
          exact ⟨'#' :: line ++ run, rest, by simp [hText], .comment hLine hEnd hRun⟩
        · refine ⟨[], c :: text, rfl, .done ?_⟩
          intro x hx
          obtain rfl : c = x := by simpa using hx
          simp [startsSpacing, hBlank, hHash]

theorem spacingRun_iff {run rest : List Char} :
    SpacingRun run rest ↔ spacingLength false (run ++ rest) = run.length := by
  constructor
  · exact SpacingRun.length_eq
  · intro h
    obtain ⟨run', rest', hText, hRun⟩ := exists_spacingRun (run ++ rest)
    have hLength : run'.length = run.length := by rw [← hRun.length_eq, ← hText, h]
    obtain ⟨rfl, rfl⟩ := List.append_inj hText hLength.symm
    exact hRun

theorem SpacingRun.stops {run rest : List Char} (h : SpacingRun run rest) :
    ∀ x ∈ rest.head?, startsSpacing x = false := by
  induction h with
  | done hStop => exact hStop
  | blank _ _ ih => exact ih
  | comment _ _ _ ih => exact ih

namespace Cursor

/-- The spacing between a cursor and a later one, as long as it can be. -/
structure SpacingTo (cursor : Cursor) (run : List Char) (later : Cursor) : Prop where
  passes : cursor.Passes run later
  run : SpacingRun run later.rest

variable {c d : Cursor} {s : List Char}

theorem spacingTo_skipSpacing (c : Cursor) :
    c.SpacingTo (c.rest.take (spacingLength false c.rest)) c.skipSpacing := by
  refine ⟨passes_take c _, spacingRun_iff.mpr ?_⟩
  obtain ⟨run, rest, hText, hRun⟩ := exists_spacingRun c.rest
  have hLength := hRun.length_eq
  rw [← hText] at hLength
  simp [skipSpacing, hText, hRun.length_eq]

theorem spacingTo_iff :
    c.SpacingTo s d ↔ s = c.rest.take (spacingLength false c.rest) ∧ d = c.skipSpacing := by
  constructor
  · rintro ⟨hPasses, hRun⟩
    have hLength : spacingLength false c.rest = s.length := by rw [hPasses.1, hRun.length_eq]
    refine ⟨?_, ?_⟩
    · rw [hLength, hPasses.1]
      simp
    · rw [skipSpacing, hLength, hPasses.eq_skip]
  · rintro ⟨rfl, rfl⟩
    exact spacingTo_skipSpacing c

theorem SpacingTo.eq (h : c.SpacingTo s d) : d = c.skipSpacing :=
  (spacingTo_iff.mp h).2

theorem SpacingTo.consumed (h : c.SpacingTo s d) : c.spacing.consumed = !s.isEmpty := by
  rw [(spacingTo_iff.mp h).1]
  rfl

theorem SpacingTo.newline (h : c.SpacingTo s d) : c.spacing.newline = s.contains '\n' := by
  rw [(spacingTo_iff.mp h).1]
  rfl

theorem skipSpacing_of_stops (h : ∀ x ∈ c.rest.head?, startsSpacing x = false) :
    c.skipSpacing = c := by
  rw [skipSpacing, spacingLength_stop h, skip_zero]

theorem spacingTo_self (h : ∀ x ∈ c.rest.head?, startsSpacing x = false) : c.SpacingTo [] c :=
  ⟨Passes.refl c, .done h⟩

end Cursor

end DialogTree
