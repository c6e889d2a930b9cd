import DialogTree.Proofs.Recovery.Lexemes
import DialogTree.Proofs.Strings

/-!
# Strings in a chunk

The reader of strings decodes escapes, and the lexer of chunks passes one character behind a backslash. Both
find the same closing mark, and an escape that is refused is refused wherever the chunk stands.
-/

namespace DialogTree

variable {origin c d : Cursor} {stack text : List Char} {n : Nat} {m : Move}

/-! ## Escapes do not look behind the line -/

theorem not_isDigitIn_newline : isDigitIn 16 '\n' = false := by decide

theorem hexEscape?_append (hLine : '\n' ∈ text) (count : Nat) (tail : List Char) :
    hexEscape? count (text ++ tail) = hexEscape? count text := by
  by_cases hLength : count ≤ text.length
  · simp only [hexEscape?, List.take_append_of_le_length hLength]
  · have hMem : '\n' ∈ (text ++ tail).take count := by
      rw [List.take_append, List.take_of_length_le (by omega)]
      exact List.mem_append_left _ hLine
    have hDigits : ((text ++ tail).take count).all (isDigitIn 16) = false :=
      List.all_eq_false.mpr ⟨'\n', hMem, by simp [not_isDigitIn_newline]⟩
    have hShort : (text.take count).length ≠ count := by
      rw [List.length_take]
      omega
    simp only [hexEscape?, hDigits, decide_eq_false hShort, Bool.and_false, Bool.false_and,
      Bool.false_eq_true, if_false]

theorem octalEscape?_append (hLine : '\n' ∈ text) (tail : List Char) :
    octalEscape? (text ++ tail) = octalEscape? text := by
  have hDigits : ((text ++ tail).take 3).takeWhile isOctal = (text.take 3).takeWhile isOctal := by
    by_cases hLength : 3 ≤ text.length
    · rw [List.take_append_of_le_length hLength]
    · rw [List.take_append, List.take_of_length_le (by omega)]
      exact Move.takeWhile_append_of_stop (exists_of_line (by decide) hLine)
  simp only [octalEscape?, hDigits]

theorem unescape?_append {x : Char} (hLine : '\n' ∈ text) (tail : List Char) :
    unescape? (x :: text ++ tail) = unescape? (x :: text) := by
  rw [List.cons_append, unescape?, unescape?, hexEscape?_append hLine, hexEscape?_append hLine,
    hexEscape?_append hLine, ← List.cons_append, octalEscape?_append (List.mem_cons_of_mem x hLine)]

/-! ## Escapes and the lexer of chunks -/

/-- The character means nothing to the lexer in a string, and does not end a line. -/
def isInert (c : Char) : Bool :=
  c != '"' && c != '\\' && c != '\n'

theorem isInert_of_class {p : Char → Bool} {x : Char} (hMarks : p '"' = false ∧ p '\\' = false ∧ p '\n' = false)
    (h : p x = true) : isInert x = true := by
  have hNot : ∀ y : Char, p y = false → x ≠ y := by
    rintro y hy rfl
    simp [h] at hy
  simp [isInert, hNot _ hMarks.1, hNot _ hMarks.2.1, hNot _ hMarks.2.2]

/-- Behind a backslash stands one character that is no line end, and inert ones behind it. -/
theorem Spells.letters {written after : List Char} {x : Char} (h : Spells ('\\' :: written) x after) :
    ∃ letter more, written = letter :: more ∧ letter ≠ '\n' ∧ ∀ y ∈ more, isInert y = true := by
  cases h with
  | itself _ hBackslash => exact absurd rfl hBackslash
  | named hLetter =>
    refine ⟨_, [], rfl, ?_, by simp⟩
    rintro rfl
    exact absurd (simpleEscape?_eq_some_iff.mpr hLetter) (by simp [simpleEscape?])
  | octal hDigits hRun =>
    cases written with
    | nil => exact absurd rfl hDigits
    | cons letter more =>
      have hOctal : ∀ y ∈ letter :: more, isInert y = true := fun y hy =>
        isInert_of_class (by decide) (hRun.all y hy)
      refine ⟨letter, more, rfl, ?_, fun y hy => hOctal y (List.mem_cons_of_mem _ hy)⟩
      rintro rfl
      exact absurd (hOctal _ List.mem_cons_self) (by decide)
  | hex hMark hAll =>
    refine ⟨_, _, rfl, ?_, fun y hy => isInert_of_class (by decide) (hAll y hy)⟩
    rintro rfl
    simp [hexEscapes] at hMark

theorem Closes.inert {front : List Char} (h : Closes .string stack (front ++ text))
    (hFront : ∀ x ∈ front, isInert x = true) : Closes .string stack text := by
  induction front with
  | nil => exact h
  | cons x front ih =>
    have hx := hFront x List.mem_cons_self
    simp only [isInert, Bool.and_eq_true, bne_iff_ne] at hx
    have hStep : chunkStep ⟨.string, stack⟩ x = some ⟨.string, stack⟩ := by
      simp [chunkStep, hx]
    exact ih (h.step_to hStep) fun y hy => hFront y (List.mem_cons_of_mem x hy)

/-! ## Strings -/

theorem quotedBody_cons {x : Char} {rest : List Char} (hRest : c.rest = x :: rest) (start : Position) :
    quotedBody start c =
      if x = '"' then .ok (c.skip 1, [])
      else if x = '\\' then
        match unescape? rest with
        | none => .error ⟨c.position, .invalidEscape rest.head?⟩
        | some (spelled, count) =>
          (quotedBody start (c.skip (count + 1))).map fun (next, text) => (next, spelled :: text)
      else (quotedBody start (c.skip 1)).map fun (next, text) => (next, x :: text) := by
  rw [quotedBody.eq_def]
  split
  · rename_i hNil
    simp [hNil] at hRest
  · rename_i y rest' hCons
    rw [hCons] at hRest
    cases hRest
    rfl

theorem outcome_map {α β : Type} {P : Cursor → Prop} {o o' : Outcome α} (f : α → β)
    (h : o' = m.outcome id o ∧ ∀ d a, o = .ok (d, a) → P d) :
    (o'.map fun (next, a) => (next, f a)) = m.outcome id (o.map fun (next, a) => (next, f a)) ∧
      ∀ d b, (o.map fun (next, a) => (next, f a)) = .ok (d, b) → P d := by
  obtain ⟨rfl, hEnds⟩ := h
  cases o with
  | error failure => exact ⟨rfl, by rintro d b ⟨⟩⟩
  | ok result =>
    refine ⟨rfl, fun d b hOk => ?_⟩
    cases hOk
    exact hEnds result.1 result.2 rfl

/-- Behind an escape that is read the string of the chunk goes on, and the escape moves with the text. -/
theorem At.escape {rest : List Char} {spelled : Char} {count : Nat} (h : At origin .string stack n text c)
    (hRest : c.rest = '\\' :: rest) (hRead : unescape? rest = some (spelled, count)) :
    (∃ left, left.length < text.length ∧ At origin .string stack n left (c.skip (count + 1))) ∧
      (m.cursor c).skip (count + 1) = m.cursor (c.skip (count + 1)) := by
  obtain ⟨written, after, rfl, rfl, hSpells⟩ := unescape?_eq_some_iff.mp hRead
  obtain ⟨letter, more, rfl, hLetter, hMore⟩ := hSpells.letters
  have hPasses : c.Passes ('\\' :: letter :: more) (c.skip (more.length + 2)) :=
    Cursor.passes_skip (s := '\\' :: letter :: more) ⟨after, hRest.symm⟩
  have hLine : '\n' ∉ '\\' :: letter :: more := by
    simp only [List.mem_cons, not_or]
    exact ⟨by decide, hLetter.symm, fun hMem => absurd (hMore _ hMem) (by decide)⟩
  obtain ⟨left, rfl⟩ := h.split hPasses hLine
  -- The lexer of chunks passes the letter behind the backslash, and stays in the string at the others.
  have hLetterRead : Closes .escape stack (letter :: (more ++ left)) := h.closes.step_to rfl
  have hString : Closes .string stack (more ++ left) := hLetterRead.step_to rfl
  refine ⟨⟨left, ?_, h.passes rfl hPasses (hString.inert hMore) (Nat.le_add_right n _)⟩, ?_⟩
  · simp only [List.cons_append, List.length_cons, List.length_append]
    omega
  · apply m.cursor_skip
    rw [hPasses.length_eq, List.length_cons, List.length_cons, List.length_cons]
    omega

/-- In a string that the chunk closes. -/
theorem quotedBody_natural {start : Position} (h : At origin .string stack n text c) :
    quotedBody (start.movedBy m.before) (m.cursor c) = m.outcome id (quotedBody start c) ∧
      ∀ d letters, quotedBody start c = .ok (d, letters) → Inside origin stack n d := by
  -- The reader passes an escape at once, so the induction is on the length of what is left of the chunk.
  induction hSize : text.length using Nat.strongRecOn generalizing text c with
  | ind size ih =>
    cases text with
    | nil => cases h.closes.mode_of_nil.1
    | cons x text =>
      have hRest : c.rest = x :: (text ++ ['\n']) := h.rest
      have hMoved : (m.cursor c).rest = x :: ((text ++ ['\n']) ++ m.tail) := by
        simp [Move.cursor, hRest]
      have hFirst : c.Passes [x] (c.skip 1) := Cursor.passes_cons hRest
      have hOne : (m.cursor c).skip 1 = m.cursor (c.skip 1) := m.cursor_skip (by simp [hRest])
      rw [quotedBody_cons hMoved, quotedBody_cons hRest, hOne]
      by_cases hQuote : x = '"'
      · subst hQuote
        have hNext : Closes .code stack text := h.closes.step_to rfl
        refine ⟨by rw [if_pos rfl, if_pos rfl]; rfl, ?_⟩
        intro d letters hOk
        rw [if_pos rfl] at hOk
        cases hOk
        exact ⟨text, h.closes.rest_ne_nil (by decide), h.passes rfl hFirst hNext (Nat.le_add_right n _)⟩
      rw [if_neg hQuote, if_neg hQuote]
      by_cases hEscape : x = '\\'
      · subst hEscape
        have hNext : Closes .escape stack text := h.closes.step_to rfl
        rw [if_pos rfl, if_pos rfl]
        cases text with
        | nil => cases hNext.mode_of_nil.1
        | cons letter text =>
          rw [List.cons_append, unescape?_append (by simp) m.tail]
          rcases hRead : unescape? (letter :: (text ++ ['\n'])) with - | ⟨spelled, count⟩
          · exact ⟨rfl, by rintro d letters ⟨⟩⟩
          · obtain ⟨⟨left, hShorter, hAt⟩, hSkip⟩ := h.escape (m := m) hRest hRead
            simp only [hSkip]
            exact outcome_map (fun text => spelled :: text) (ih left.length (hSize ▸ hShorter) hAt rfl)
      · have hStep : chunkStep ⟨.string, stack⟩ x = some ⟨.string, stack⟩ := by
          simp [chunkStep, hQuote, hEscape]
        have hAt := h.passes rfl hFirst (h.closes.step_to hStep) (Nat.le_add_right n _)
        have hShorter : text.length < size := by
          rw [← hSize, List.length_cons]
          exact Nat.lt_succ_self _
        rw [if_neg hEscape, if_neg hEscape]
        exact outcome_map (fun text => x :: text) (ih text.length hShorter hAt rfl)

theorem quotedString_quote {rest : List Char} (hRest : c.rest = '"' :: rest) :
    quotedString c = (quotedBody c.position (c.skip 1)).map fun (next, text) => (next, String.ofList text) := by
  rw [quotedString, hRest]
  rfl

theorem quotedString_other (hPeek : c.peek? ≠ some '"') :
    quotedString c = .error ⟨c.position, .literal "\""⟩ := by
  rw [quotedString]
  split
  · rename_i hRest
    exact absurd (by rw [Cursor.peek?, hRest]; rfl) hPeek
  · rfl

theorem rawString_other (hPeek : c.peek? ≠ some '\x60') :
    rawString c = .error ⟨c.position, .literal "\x60"⟩ := by
  rw [rawString]
  split
  · rename_i hRest
    exact absurd (by rw [Cursor.peek?, hRest]; rfl) hPeek
  · rfl

theorem quotedString_natural : quotedString.Natural m (Inside origin stack n) (Inside origin stack n) := by
  apply Lexeme.natural_of
  intro c hc
  have hPeek := m.cursor_peek? (ne_nil_of_line hc.line_mem)
  obtain ⟨text, hSome, hAt⟩ := hc
  by_cases hQuote : c.peek? = some '"'
  · cases text with
    | nil => exact absurd rfl hSome
    | cons x text =>
      have hRest : c.rest = x :: (text ++ ['\n']) := hAt.rest
      obtain rfl : x = '"' := by simpa [Cursor.peek?, hRest] using hQuote
      have hMoved : (m.cursor c).rest = '"' :: ((text ++ ['\n']) ++ m.tail) := by
        simp [Move.cursor, hRest]
      have hNext : Closes .string stack text := hAt.closes.step_to rfl
      have hString := hAt.passes rfl (Cursor.passes_cons hRest) hNext (Nat.le_add_right n _)
      rw [quotedString_quote hMoved, quotedString_quote hRest, m.cursor_skip (by simp [hRest])]
      exact outcome_map String.ofList (@quotedBody_natural _ _ _ _ _ m c.position hString)
  · rw [quotedString_other hQuote, quotedString_other (hPeek ▸ hQuote)]
    exact ⟨rfl, by rintro d text ⟨⟩⟩

theorem rawString_natural : rawString.Natural m (Inside origin stack n) (Inside origin stack n) := by
  apply Lexeme.natural_of
  intro c hc
  have hPeek := m.cursor_peek? (ne_nil_of_line hc.line_mem)
  obtain ⟨text, hSome, hAt⟩ := hc
  by_cases hQuote : c.peek? = some '\x60'
  · cases text with
    | nil => exact absurd rfl hSome
    | cons x text =>
      have hRest : c.rest = x :: (text ++ ['\n']) := hAt.rest
      obtain rfl : x = '\x60' := by simpa [Cursor.peek?, hRest] using hQuote
      have hNext : Closes .raw stack text := hAt.closes.step_to rfl
      obtain ⟨inside, rest, rfl, hInside, hSome, hCloses⟩ := hNext.raw
      have hWhole : '\x60' :: (inside ++ '\x60' :: rest) = ('\x60' :: inside ++ ['\x60']) ++ rest := by simp
      have hPasses : c.Passes ('\x60' :: inside ++ ['\x60']) (c.skip ('\x60' :: inside ++ ['\x60']).length) :=
        Cursor.passes_skip ⟨rest ++ ['\n'], by simp [hRest]⟩
      have hMoved : (m.cursor c).Passes ('\x60' :: inside ++ ['\x60'])
          (m.cursor (c.skip ('\x60' :: inside ++ ['\x60']).length)) := by
        rw [← m.cursor_skip (by rw [hPasses.length_eq]; omega)]
        exact Cursor.passes_skip ⟨rest ++ ['\n'] ++ m.tail, by simp [Move.cursor, hRest]⟩
      rw [rawString_ok_iff.mpr (.intro hMoved hInside), rawString_ok_iff.mpr (.intro hPasses hInside)]
      refine ⟨rfl, fun d text hOk => ?_⟩
      cases hOk
      exact ⟨rest, hSome, hAt.passes hWhole hPasses hCloses (Nat.le_add_right n _)⟩
  · rw [rawString_other hQuote, rawString_other (hPeek ▸ hQuote)]
    exact ⟨rfl, by rintro d text ⟨⟩⟩

end DialogTree
