import DialogTree.Proofs.Numerals
import DialogTree.Proofs.Recovery.Chunks
import DialogTree.Proofs.Recovery.Moves
import DialogTree.Proofs.Words

/-!
# Words, numbers and spacing in a chunk

Where a cursor stands in a chunk is told by the brackets that are open there. Each lexeme goes from one such
place to another and does not look behind the line that the chunk ends.
-/

namespace DialogTree

/-! ## Places in a chunk -/

/-- The cursor stands in front of the rest of a chunk and the end of its line. The lexer of chunks is in the
given state there, and at most so much is left. -/
structure At (origin : Cursor) (mode : ChunkMode) (stack : List Char) (bound : Nat) (text : List Char)
    (c : Cursor) : Prop where
  reaches : origin.Reaches c
  bound : c.rest.length ≤ bound
  rest : c.rest = text ++ ['\n']
  closes : Closes mode stack text

/-- In a chunk, in front of its last bracket. -/
def Inside (origin : Cursor) (stack : List Char) (bound : Nat) (c : Cursor) : Prop :=
  ∃ text, text ≠ [] ∧ At origin .code stack bound text c

/-- In a chunk or right behind it. -/
def Within (origin : Cursor) (stack : List Char) (bound : Nat) (c : Cursor) : Prop :=
  ∃ text, At origin .code stack bound text c

/-- In a chunk or behind the line that it ends. -/
def Past (origin : Cursor) (stack : List Char) (bound : Nat) (c : Cursor) : Prop :=
  Inside origin stack bound c ∨ (stack = [] ∧ c.rest = [] ∧ origin.Reaches c)

variable {origin c d : Cursor} {mode mode' : ChunkMode} {stack stack' text : List Char} {n n' : Nat}

theorem At.line_mem (h : At origin mode stack n text c) : '\n' ∈ c.rest := by
  simp [h.rest]

theorem Inside.past (h : Inside origin stack n c) : Past origin stack n c := .inl h

theorem Inside.line_mem (h : Inside origin stack n c) : '\n' ∈ c.rest := by
  obtain ⟨text, -, hAt⟩ := h
  exact hAt.line_mem

theorem Within.inside_or (h : Within origin stack n c) :
    Inside origin stack n c ∨ (stack = [] ∧ c.rest = ['\n'] ∧ origin.Reaches c) := by
  obtain ⟨text, hAt⟩ := h
  by_cases hSome : text = []
  · subst hSome
    exact .inr ⟨hAt.closes.mode_of_nil.2, hAt.rest, hAt.reaches⟩
  · exact .inl ⟨text, hSome, hAt⟩

theorem Within.inside (h : Within origin stack n c) (hStack : stack ≠ []) : Inside origin stack n c := by
  rcases h.inside_or with hInside | ⟨hNil, -⟩
  · exact hInside
  · exact absurd hNil hStack

theorem Past.inside (h : Past origin stack n c) (hStack : stack ≠ []) : Inside origin stack n c := by
  rcases h with hInside | ⟨hNil, -⟩
  · exact hInside
  · exact absurd hNil hStack

theorem Inside.mono (h : Inside origin stack n c) (hBound : c.rest.length ≤ n') :
    Inside origin stack n' c := by
  obtain ⟨text, hSome, hAt⟩ := h
  exact ⟨text, hSome, { hAt with bound := hBound }⟩

theorem Inside.length_le (h : Inside origin stack n c) : c.rest.length ≤ n := by
  obtain ⟨text, -, hAt⟩ := h
  exact hAt.bound

theorem At.passes {passed rest : List Char} (h : At origin mode stack n text c) (hText : text = passed ++ rest)
    (hPasses : c.Passes passed d) (hCloses : Closes mode' stack' rest) (hBound : n ≤ n' + passed.length) :
    At origin mode' stack' n' rest d := by
  have hLength := h.bound
  refine ⟨h.reaches.trans hPasses.reaches, ?_, ?_, hCloses⟩
  · rw [hPasses.length_eq] at hLength
    omega
  · have hRest := hPasses.1
    rw [h.rest, hText, List.append_assoc] at hRest
    exact (List.append_cancel_left hRest).symm

/-- What is passed without the end of a line is a part of the chunk. -/
theorem At.split {passed : List Char} (h : At origin mode stack n text c) (hPasses : c.Passes passed d)
    (hLine : '\n' ∉ passed) : ∃ rest, text = passed ++ rest := by
  have hRest := hPasses.1
  rw [h.rest] at hRest
  rcases List.append_eq_append_iff.mp hRest with ⟨more, rfl, hMore⟩ | ⟨more, rfl, -⟩
  · cases more with
    | nil => exact ⟨[], by simp⟩
    | cons x more =>
      rw [List.cons_append, List.cons.injEq] at hMore
      exact absurd (by simp [← hMore.1]) hLine
  · exact ⟨more, rfl⟩

/-- Plain characters change nothing, and the chunk does not end in one. -/
theorem Inside.passes_plain {passed : List Char} (h : Inside origin stack n c) (hPasses : c.Passes passed d)
    (hPlain : ∀ x ∈ passed, isPlain x = true) (hBound : n ≤ n' + passed.length) :
    Inside origin stack n' d := by
  obtain ⟨text, hSome, hAt⟩ := h
  have hLine : '\n' ∉ passed := by
    intro hMem
    exact absurd (hPlain _ hMem) (by decide)
  obtain ⟨rest, rfl⟩ := hAt.split hPasses hLine
  refine ⟨rest, ?_, hAt.passes rfl hPasses (hAt.closes.plain_append hPlain) hBound⟩
  rintro rfl
  rw [List.append_nil] at hAt hSome
  have hFinal := hAt.closes.final (passed.getLast hSome) (List.getLast?_eq_some_getLast hSome)
  have hNot := isPlain_ne_final (hPlain _ (List.getLast_mem hSome))
  exact hFinal.elim hNot.1 hNot.2

variable (m : Move)

/-! ## Spacing -/

theorem Inside.spacing (h : Inside origin stack n c) :
    (m.cursor c).skipSpacing = m.cursor c.skipSpacing ∧ (m.cursor c).spacing = c.spacing ∧
      Inside origin stack n c.skipSpacing ∧ (stack = [] → c.spacing.newline = false) := by
  obtain ⟨text, hSome, hAt⟩ := h
  obtain ⟨run, rest, ⟨rfl, hRest, hCloses, hLength⟩, hLine⟩ := @Closes.spacing _ _ false hAt.closes hSome
  have hCount : spacingLength false c.rest = run.length := by rw [hAt.rest, hLength]
  have hMoved : spacingLength false (m.cursor c).rest = run.length := by
    change spacingLength false (c.rest ++ m.tail) = _
    rw [hAt.rest, List.append_assoc, hLength]
  have hLess : run.length ≤ c.rest.length := by simp [hAt.rest]
  have hTake : c.rest.take run.length = run := by simp [hAt.rest]
  refine ⟨?_, ?_, ?_, ?_⟩
  · rw [Cursor.skipSpacing, hMoved, m.cursor_skip hLess, Cursor.skipSpacing, hCount]
  · have hSame : (m.cursor c).rest.take run.length = c.rest.take run.length :=
      List.take_append_of_le_length hLess
    simp only [Cursor.spacing, hMoved, hCount, hSame]
  · have hPasses : c.Passes run c.skipSpacing := by
      have hTo := Cursor.passes_take c run.length
      rwa [hTake, ← hCount] at hTo
    exact ⟨rest, hRest, hAt.passes rfl hPasses hCloses (Nat.le_add_right n _)⟩
  · intro hStack
    simpa [Cursor.spacing, hCount, hTake] using hLine hStack

/-- Behind the chunk, the end of its line is all the spacing there is. -/
theorem spacing_line (hRest : c.rest = ['\n']) :
    (m.cursor c).skipSpacing = m.cursor c.skipSpacing ∧ (m.cursor c).spacing = c.spacing ∧
      c.skipSpacing.rest = [] ∧ c.spacing.newline = true := by
  have hCount : spacingLength false c.rest = 1 := by
    rw [hRest]
    rfl
  have hStop : ∀ x ∈ m.tail.head?, startsSpacing x = false := by
    intro x hx
    have hName := m.name_tail x hx
    simp only [isNameChar, Bool.and_eq_true, Bool.not_eq_true'] at hName
    have hHash : x ≠ '#' := by
      rintro rfl
      exact absurd hName.2 (by decide)
    simp [startsSpacing, hName.1.1, hHash]
  have hMoved : spacingLength false (m.cursor c).rest = 1 := by
    change spacingLength false (c.rest ++ m.tail) = 1
    rw [hRest, List.singleton_append, spacingLength_blank isBlank_newline, spacingLength_stop hStop]
  refine ⟨?_, ?_, ?_, ?_⟩
  · rw [Cursor.skipSpacing, hMoved, m.cursor_skip (by simp [hRest]), Cursor.skipSpacing, hCount]
  · simp only [Cursor.spacing, hMoved, hCount]
    simp [Move.cursor, hRest]
  · rw [Cursor.skipSpacing, hCount, Cursor.rest_skip, hRest]
    rfl
  · simp only [Cursor.spacing, hRest]
    rfl

theorem Within.spacing (h : Within origin stack n c) :
    (m.cursor c).skipSpacing = m.cursor c.skipSpacing ∧ (m.cursor c).spacing = c.spacing ∧
      Past origin stack n c.skipSpacing := by
  rcases h.inside_or with hInside | ⟨rfl, hRest, hReaches⟩
  · obtain ⟨hSkip, hSpacing, hEnd, -⟩ := hInside.spacing m
    exact ⟨hSkip, hSpacing, hEnd.past⟩
  · obtain ⟨hSkip, hSpacing, hEnd, -⟩ := spacing_line m hRest
    exact ⟨hSkip, hSpacing, .inr ⟨rfl, hEnd, hReaches.trans (Cursor.reaches_skip c _)⟩⟩

variable {m}

theorem spacing_natural : spacing.Natural m (Inside origin stack n) (Inside origin stack n) := by
  refine ⟨fun c hc => ?_, fun c d a hc hOk => ?_⟩
  · obtain ⟨hSkip, hSpacing, -⟩ := hc.spacing m
    rw [spacing, hSkip, hSpacing]
    rfl
  · cases hOk
    exact (hc.spacing m).2.2.1

theorem spacing_natural_past : spacing.Natural m (Within origin stack n) (Past origin stack n) := by
  refine ⟨fun c hc => ?_, fun c d a hc hOk => ?_⟩
  · obtain ⟨hSkip, hSpacing, -⟩ := hc.spacing m
    rw [spacing, hSkip, hSpacing]
    rfl
  · cases hOk
    exact (hc.spacing m).2.2

theorem requiredSpacing_natural :
    requiredSpacing.Natural m (Inside origin stack n) (Inside origin stack n) := by
  refine ⟨fun c hc => ?_, fun c d a hc hOk => ?_⟩
  · obtain ⟨hSkip, hSpacing, -⟩ := hc.spacing m
    rw [requiredSpacing, hSkip, hSpacing, requiredSpacing]
    split <;> rfl
  · unfold requiredSpacing at hOk
    split at hOk
    · cases hOk
      exact (hc.spacing m).2.2.1
    · cases hOk

theorem lineBreak_natural : lineBreak.Natural m (Within origin stack n) (Past origin stack n) := by
  refine ⟨fun c hc => ?_, fun c d a hc hOk => ?_⟩
  · obtain ⟨hSkip, hSpacing, -⟩ := hc.spacing m
    rw [lineBreak, hSkip, hSpacing, lineBreak]
    split <;> rfl
  · unfold lineBreak at hOk
    split at hOk
    · cases hOk
      exact (hc.spacing m).2.2
    · cases hOk

/-! ## Fixed texts -/

theorem isPrefixOf_append_of_line {word tail : List Char} (hWord : '\n' ∉ word) (hLine : '\n' ∈ text) :
    word.isPrefixOf (text ++ tail) = word.isPrefixOf text := by
  induction word generalizing text with
  | nil => simp
  | cons x word ih =>
    cases text with
    | nil => cases hLine
    | cons y text =>
      simp only [List.mem_cons, not_or] at hWord
      rw [List.cons_append, List.isPrefixOf_cons_cons, List.isPrefixOf_cons_cons]
      by_cases hSame : x = y
      · subst hSame
        have hRest : '\n' ∈ text := by simpa [hWord.1] using hLine
        rw [ih hWord.2 hRest]
      · rw [beq_false_of_ne hSame, Bool.false_and, Bool.false_and]

theorem literal_moves {word : String} (hWord : '\n' ∉ word.toList) (hLine : '\n' ∈ c.rest) :
    literal word (m.cursor c) = m.outcome id (literal word c) := by
  have hPrefix : word.toList.isPrefixOf (m.cursor c).rest = word.toList.isPrefixOf c.rest :=
    isPrefixOf_append_of_line hWord hLine
  rw [literal, hPrefix, literal]
  split
  · rename_i hIs
    rw [m.cursor_skip (List.isPrefixOf_iff_prefix.mp hIs).length_le]
    rfl
  · rfl

theorem literal_at {word a : String} {k : Char} (hWord : word.toList = [k])
    (h : At origin mode stack n text c) (hText : text ≠ []) (hOk : literal word c = .ok (d, a)) :
    ∃ rest, text = k :: rest ∧ c.Passes [k] d := by
  have hPasses := (literal_ok_iff.mp hOk).1
  rw [hWord] at hPasses
  cases text with
  | nil => exact absurd rfl hText
  | cons x text =>
    have hRest := hPasses.1
    rw [h.rest, List.cons_append, List.cons_append, List.cons.injEq] at hRest
    exact ⟨text, by rw [hRest.1], hPasses⟩

theorem literal_plain {word : String} {k : Char} (hWord : word.toList = [k]) (hPlain : isPlain k = true) :
    (literal word).Natural m (Inside origin stack n) (Inside origin stack n) := by
  have hLine : '\n' ∉ word.toList := by
    rw [hWord, List.mem_singleton]
    rintro rfl
    exact absurd hPlain (by decide)
  refine ⟨fun c hc => literal_moves hLine hc.line_mem, fun c d a hc hOk => ?_⟩
  have hPasses := (literal_ok_iff.mp hOk).1
  rw [hWord] at hPasses
  exact hc.passes_plain hPasses (by simpa using hPlain) (Nat.le_add_right n _)

theorem literal_opening {word : String} {k close : Char} (hWord : word.toList = [k])
    (hOpening : closingOf? k = some close) (hBound : n ≤ n' + 1) :
    (literal word).Natural m (Inside origin stack n) (Inside origin (close :: stack) n') := by
  have hLine : '\n' ∉ word.toList := by
    rw [hWord, List.mem_singleton]
    rintro rfl
    cases hOpening
  refine ⟨fun c hc => literal_moves hLine hc.line_mem, fun c d a hc hOk => ?_⟩
  obtain ⟨text, hSome, hAt⟩ := hc
  obtain ⟨rest, rfl, hPasses⟩ := literal_at hWord hAt hSome hOk
  have hStep : chunkStep ⟨.code, stack⟩ k = some ⟨.code, close :: stack⟩ := by
    have hNot : k ≠ '"' ∧ k ≠ '\x60' ∧ k ≠ '#' := by
      refine ⟨?_, ?_, ?_⟩ <;>
      · rintro rfl
        cases hOpening
    simp [chunkStep, codeStep, hNot, hOpening]
  have hCloses := hAt.closes.step_to hStep
  refine ⟨rest, ?_, hAt.passes rfl hPasses hCloses hBound⟩
  rintro rfl
  cases hCloses.mode_of_nil.2

theorem literal_closing {word : String} {k : Char} (hWord : word.toList = [k]) (hClosing : isClosing k = true) :
    (literal word).Natural m (Inside origin (k :: stack) n) (Within origin stack n) := by
  have hLine : '\n' ∉ word.toList := by
    rw [hWord, List.mem_singleton]
    rintro rfl
    exact absurd hClosing (by decide)
  refine ⟨fun c hc => literal_moves hLine hc.line_mem, fun c d a hc hOk => ?_⟩
  obtain ⟨text, hSome, hAt⟩ := hc
  obtain ⟨rest, rfl, hPasses⟩ := literal_at hWord hAt hSome hOk
  have hStep : chunkStep ⟨.code, k :: stack⟩ k = some ⟨.code, stack⟩ := by
    simp only [isClosing, Bool.or_eq_true, beq_iff_eq] at hClosing
    rcases hClosing with (rfl | rfl) | rfl <;> simp [chunkStep, codeStep, closingOf?, isClosing]
  exact ⟨rest, hAt.passes rfl hPasses (hAt.closes.step_to hStep) (Nat.le_add_right n _)⟩

/-- Behind the chunk a mark of the grammar stands on neither side: there is nothing, or a name. -/
theorem literal_moves_past {word : String} {k : Char} (hWord : word.toList = [k]) (hLine : k ≠ '\n')
    (hName : isNameChar k = false) (h : Past origin stack n c) :
    literal word (m.cursor c) = m.outcome id (literal word c) := by
  rcases h with hInside | ⟨-, hRest, -⟩
  · exact literal_moves (by simpa [hWord] using Ne.symm hLine) hInside.line_mem
  · have hAlone : word.toList.isPrefixOf c.rest = false := by
      rw [hWord, hRest]
      rfl
    have hMoved : word.toList.isPrefixOf (m.cursor c).rest = false := by
      change word.toList.isPrefixOf (c.rest ++ m.tail) = false
      rw [hWord, hRest, List.nil_append]
      cases hTail : m.tail with
      | nil => rfl
      | cons x tail =>
        have hx := m.name_tail x (by simp [hTail])
        have hNe : k ≠ x := by
          rintro rfl
          simp [hName] at hx
        rw [List.isPrefixOf_cons_cons, beq_false_of_ne hNe, Bool.false_and]
    rw [literal, hMoved, literal, hAlone]
    rfl

theorem semicolon_natural {word : String} (hWord : word.toList = [';']) :
    (literal word).Natural m (Past origin stack n) (Inside origin stack n) := by
  refine ⟨fun c hc => literal_moves_past hWord (by decide) (by decide) hc, fun c d a hc hOk => ?_⟩
  rcases hc with ⟨text, hSome, hAt⟩ | ⟨-, hRest, -⟩
  · obtain ⟨rest, rfl, hPasses⟩ := literal_at hWord hAt hSome hOk
    obtain ⟨next, hStep, hNext⟩ := hAt.closes.step
    have hCloses : Closes .code stack rest := by
      by_cases hStack : stack = []
      · simp [chunkStep, codeStep, closingOf?, isClosing, hStack] at hStep
      · simp [chunkStep, codeStep, closingOf?, isClosing, hStack] at hStep
        rwa [← hStep] at hNext
    exact ⟨rest, hAt.closes.rest_ne_nil (by decide), hAt.passes rfl hPasses hCloses (Nat.le_add_right n _)⟩
  · have hPasses := (literal_ok_iff.mp hOk).1.1
    rw [hRest, hWord] at hPasses
    cases hPasses

/-! ## Words -/

theorem isPlain_of_isNameChar {x : Char} (h : isNameChar x = true) : isPlain x = true :=
  isPlain_of_class (by decide) h

theorem isPlain_of_isKeyChar {x : Char} (h : isKeyChar x = true) : isPlain x = true :=
  isPlain_of_class (by decide) h

theorem exists_of_line {p : Char → Bool} (hp : p '\n' = false) (hLine : '\n' ∈ text) :
    ∃ x ∈ text, p x = false := ⟨'\n', hLine, hp⟩

theorem identifier_natural {lead body : Char → Bool} (hLead : ∀ x, lead x = true → isPlain x = true)
    (hBody : ∀ x, body x = true → isPlain x = true) (hBound : n ≤ n' + 1) :
    (identifier lead body).Natural m (Inside origin stack n) (Inside origin stack n') := by
  have hStop : body '\n' = false := by
    rw [Bool.eq_false_iff]
    intro hLine
    exact absurd (hBody _ hLine) (by decide)
  refine ⟨fun c hc => ?_, fun c d a hc hOk => ?_⟩
  · have hLine := hc.line_mem
    obtain ⟨rest, position⟩ := c
    cases rest with
    | nil => cases hLine
    | cons x rest =>
      by_cases hx : lead x = true
      · have hRest : '\n' ∈ rest := by
          have hOther : '\n' ≠ x := by
            rintro rfl
            exact absurd (hLead _ hx) (by decide)
          simpa [hOther] using hLine
        -- The word ends on its line, whatever is put behind the line.
        have hRun : (rest ++ m.tail).takeWhile body = rest.takeWhile body :=
          Move.takeWhile_append_of_stop (exists_of_line hStop hRest)
        have hLength : (x :: rest.takeWhile body).length ≤ (x :: rest).length :=
          Nat.succ_le_succ (List.takeWhile_prefix body).length_le
        have hSkip := m.cursor_skip (c := ⟨x :: rest, position⟩) hLength
        simp only [identifier, Move.cursor, List.cons_append, hx, if_true, hRun] at hSkip ⊢
        rw [hSkip]
        rfl
      · simp only [identifier, Move.cursor, List.cons_append, hx]
        rfl
  · obtain ⟨hFirst, hLeads, hRun⟩ := identifier_ok_iff.mp hOk
    refine hc.passes_plain (hFirst.trans hRun.passes) ?_ (by simp; omega)
    intro x hx
    rcases List.mem_append.mp hx with hx | hx
    · obtain rfl := List.mem_singleton.mp hx
      exact hLead x hLeads
    · exact hBody x (hRun.all x hx)

theorem name_natural (hBound : n ≤ n' + 1) :
    (identifier isNameChar isNameChar).Natural m (Inside origin stack n) (Inside origin stack n') :=
  identifier_natural (fun _ => isPlain_of_isNameChar) (fun _ => isPlain_of_isNameChar) hBound

theorem key_natural :
    (identifier isKeyStart isKeyChar).Natural m (Inside origin stack n) (Inside origin stack n) :=
  identifier_natural (fun _ hx => isPlain_of_isKeyChar (isKeyChar_of_isKeyStart hx))
    (fun _ => isPlain_of_isKeyChar) (Nat.le_succ n)

theorem boolean_natural : boolean.Natural m (Inside origin stack n) (Inside origin stack n) := by
  refine ⟨fun c hc => ?_, fun c d b hc hOk => ?_⟩
  · -- Whether a word stands at the cursor is decided on its line.
    have hWord : ∀ word : List Char, '\n' ∉ word →
        (word.isPrefixOf (m.cursor c).rest && !((m.cursor c).rest.drop word.length).head?.any isKeyChar) =
          (word.isPrefixOf c.rest && !(c.rest.drop word.length).head?.any isKeyChar) := by
      intro word hNo
      have hPrefix : word.isPrefixOf (m.cursor c).rest = word.isPrefixOf c.rest :=
        isPrefixOf_append_of_line hNo hc.line_mem
      rw [hPrefix]
      by_cases hIs : word.isPrefixOf c.rest = true
      · obtain ⟨after, hAfter⟩ := List.isPrefixOf_iff_prefix.mp hIs
        have hLine : '\n' ∈ after := by
          have hMem := hc.line_mem
          rw [← hAfter] at hMem
          exact (List.mem_append.mp hMem).resolve_left hNo
        cases after with
        | nil => cases hLine
        | cons x after => simp [Move.cursor, ← hAfter]
      · rw [Bool.eq_false_iff.mpr hIs, Bool.false_and, Bool.false_and]
    have hTrue := hWord ['t', 'r', 'u', 'e'] (by decide)
    have hFalse := hWord ['f', 'a', 'l', 's', 'e'] (by decide)
    simp only [boolean, hTrue, hFalse]
    split
    · rename_i hIs
      have hLength := (wholeWord_iff.mp hIs).1.length_eq
      rw [m.cursor_skip (by simp at hLength ⊢; omega)]
      rfl
    · split
      · rename_i hIs
        have hLength := (wholeWord_iff.mp hIs).1.length_eq
        rw [m.cursor_skip (by simp at hLength ⊢; omega)]
        rfl
      · rfl
  · obtain ⟨hPasses, -⟩ := boolean_ok_iff.mp hOk
    have hPlain : ∀ x ∈ (toString b).toList, isPlain x = true := by
      cases b <;> exact List.all_eq_true.mp (by decide)
    exact hc.passes_plain hPasses hPlain (Nat.le_add_right n _)

/-! ## Numbers -/

theorem isPlain_of_isDigit {x : Char} (h : x.isDigit = true) : isPlain x = true :=
  isPlain_of_class (by decide) h

theorem IsSign.plain {sign : List Char} (h : IsSign sign) : ∀ x ∈ sign, isPlain x = true := by
  cases h <;> exact List.all_eq_true.mp (by decide)

theorem ne_nil_of_line (hLine : '\n' ∈ c.rest) : c.rest ≠ [] := List.ne_nil_of_mem hLine

theorem Cursor.Passes.line_mem {passed : List Char} (h : c.Passes passed d)
    (hPlain : ∀ x ∈ passed, isPlain x = true) (hLine : '\n' ∈ c.rest) : '\n' ∈ d.rest := by
  rw [h.1] at hLine
  refine (List.mem_append.mp hLine).resolve_left fun hMem => ?_
  exact absurd (hPlain _ hMem) (by decide)

theorem skipSign_eq (c : Cursor) :
    c.skipSign = if c.peek? = some '+' ∨ c.peek? = some '-' then c.skip 1 else c := by
  obtain ⟨rest, position⟩ := c
  unfold Cursor.skipSign Cursor.peek?
  split
  · rename_i hRest
    rw [if_pos (.inl (by rw [hRest]; rfl))]
  · rename_i hRest
    rw [if_pos (.inr (by rw [hRest]; rfl))]
  · rename_i hPlus hMinus
    rw [if_neg]
    cases rest with
    | nil => simp
    | cons x rest =>
      rintro (hx | hx) <;> cases hx
      · exact hPlus rest rfl
      · exact hMinus rest rfl

theorem cursor_skipSign (hLine : '\n' ∈ c.rest) :
    (m.cursor c).skipSign = m.cursor c.skipSign ∧ '\n' ∈ c.skipSign.rest := by
  constructor
  · have hLength := List.length_pos_of_mem hLine
    rw [skipSign_eq, skipSign_eq, m.cursor_peek? (ne_nil_of_line hLine), m.cursor_skip hLength]
    split <;> rfl
  · obtain ⟨sign, hSign, hPasses, -⟩ := c.exists_sign
    exact hPasses.line_mem hSign.plain hLine

theorem cursor_digits (hLine : '\n' ∈ c.rest) :
    (m.cursor c).takeWhile Char.isDigit = c.takeWhile Char.isDigit ∧
      (m.cursor c).skipWhile Char.isDigit = m.cursor (c.skipWhile Char.isDigit) ∧
        '\n' ∈ (c.skipWhile Char.isDigit).rest := by
  have hStop := exists_of_line (p := Char.isDigit) (by decide) hLine
  have hRun := Cursor.passesRun_takeWhile c Char.isDigit
  exact ⟨m.cursor_takeWhile hStop, m.cursor_skipWhile hStop,
    hRun.passes.line_mem (fun x hx => isPlain_of_isDigit (hRun.all x hx)) hLine⟩

theorem cursor_point (hPoint : c.peek? = some '.') (hLine : '\n' ∈ c.rest) :
    (m.cursor c).skip 1 = m.cursor (c.skip 1) ∧ '\n' ∈ (c.skip 1).rest := by
  refine ⟨m.cursor_skip (List.length_pos_of_mem hLine), ?_⟩
  obtain ⟨⟨⟩ | ⟨x, rest⟩, position⟩ := c
  · cases hLine
  · obtain rfl : x = '.' := by simpa [Cursor.peek?] using hPoint
    simpa using hLine

theorem floatLiteral_natural : floatLiteral.Natural m (Inside origin stack n) (Inside origin stack n) := by
  refine ⟨fun c hc => ?_, fun c d a hc hOk => ?_⟩
  · obtain ⟨hSign, hUnsigned⟩ := @cursor_skipSign c m hc.line_mem
    obtain ⟨hWhole, hAfter, hLine⟩ := @cursor_digits _ m hUnsigned
    have hPeek := m.cursor_peek? (ne_nil_of_line hLine)
    have hFirst := m.cursor_peek? (ne_nil_of_line hc.line_mem)
    simp only [floatLiteral, hSign, hWhole, hAfter, hPeek, hFirst]
    split
    · rfl
    · split
      · rfl
      · rename_i hPoint
        obtain ⟨hBehind, hRest⟩ := @cursor_point _ m (Decidable.not_not.mp hPoint) hLine
        obtain ⟨hFraction, hEnd, -⟩ := @cursor_digits _ m hRest
        simp only [hBehind, hFraction, hEnd]
        split <;> rfl
  · obtain ⟨hSign, hPasses, hWhole, -, hPoint, hFraction, -⟩ := floatLiteral_ok_iff.mp hOk
    have hAll := ((hPasses.trans hWhole.passes).trans hPoint).trans hFraction.passes
    refine hc.passes_plain hAll ?_ (Nat.le_add_right n _)
    intro x hx
    simp only [List.append_assoc, List.mem_append, List.mem_singleton] at hx
    rcases hx with hx | hx | rfl | hx
    · exact hSign.plain x hx
    · exact isPlain_of_isDigit (hWhole.all x hx)
    · decide
    · exact isPlain_of_isDigit (hFraction.all x hx)

theorem cursor_textTo (c d : Cursor) : (m.cursor c).textTo (m.cursor d) = c.textTo d := by
  simp only [Cursor.textTo, Move.cursor, List.length_append, Nat.add_sub_add_right]
  exact List.take_append_of_le_length (Nat.sub_le _ _)

theorem integerLiteral_natural :
    integerLiteral.Natural m (Inside origin stack n) (Inside origin stack n) := by
  refine ⟨fun c hc => ?_, fun c d a hc hOk => ?_⟩
  · obtain ⟨hSign, hUnsigned⟩ := @cursor_skipSign c m hc.line_mem
    obtain ⟨hDigits, hNext, -⟩ := @cursor_digits _ m hUnsigned
    simp only [integerLiteral, hSign, hDigits, hNext, cursor_textTo]
    split
    · rfl
    · split <;> rfl
  · obtain ⟨hSign, hPasses, hRun, -, -⟩ := integerLiteral_ok_iff.mp hOk
    refine hc.passes_plain (hPasses.trans hRun.passes) ?_ (Nat.le_add_right n _)
    intro x hx
    rcases List.mem_append.mp hx with hx | hx
    · exact hSign.plain x hx
    · exact isPlain_of_isDigit (hRun.all x hx)

end DialogTree
