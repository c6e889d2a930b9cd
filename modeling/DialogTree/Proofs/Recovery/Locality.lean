import DialogTree.Proofs.Acceptance
import DialogTree.Proofs.Recovery.Commands
import DialogTree.Proofs.Written.Commands

/-!
# Chunks are read on their own

A document of chunks gives, in order, what each chunk gives alone, with positions shifted by the text that
precedes the chunk. So a broken command never hides, breaks or repeats what is said about another one.
-/

namespace DialogTree

open DialogTree.Parser Grammar

/-! ## Documents of chunks -/

def linesOf (chunks : List (List Char)) : List Char :=
  chunks.flatMap (· ++ ['\n'])

def sourceOf (chunks : List (List Char)) : String :=
  String.ofList ("version 1\n".toList ++ linesOf chunks)

def placed (before : List Char) : List (List Char) → List (List Char × List Char)
  | [] => []
  | chunk :: rest => (before, chunk) :: placed (before ++ (chunk ++ ['\n'])) rest

def firstPlace : Position := Position.start.after "version 1\n".toList

variable {chunks : List (List Char)} {chunk before : List Char}

theorem IsChunk.closes (h : IsChunk chunk) : Closes .code [] chunk := by
  refine ⟨h.closed, fun c hc => ?_⟩
  have hFinal := h.final
  rw [Option.mem_def.mp hc] at hFinal
  simpa using hFinal

theorem IsChunk.cons (h : IsChunk chunk) : ∃ c rest, chunk = c :: rest ∧ isNameChar c = true := by
  have hStart := h.start
  cases chunk with
  | nil => cases hStart
  | cons c rest => exact ⟨c, rest, rfl, hStart⟩

theorem linesOf_cons (chunk : List Char) (rest : List (List Char)) :
    linesOf (chunk :: rest) = (chunk ++ ['\n']) ++ linesOf rest := by
  rw [linesOf, List.flatMap_cons]
  rfl

theorem linesOf_start (hChunks : ∀ chunk ∈ chunks, IsChunk chunk) :
    ∀ c ∈ (linesOf chunks).head?, isNameChar c = true := by
  cases chunks with
  | nil => simp [linesOf]
  | cons chunk rest =>
    obtain ⟨x, front, rfl, hx⟩ := (hChunks chunk List.mem_cons_self).cons
    intro c hc
    obtain rfl : x = c := by simpa [linesOf] using hc
    exact hx

theorem versionLine_text : "version 1\n".toList = "version 1".toList ++ ['\n'] := by decide

theorem version_text : "version 1".toList = 'v' :: "ersion 1".toList := by decide

theorem toList_sourceOf (chunks : List (List Char)) :
    (sourceOf chunks).toList = "version 1\n".toList ++ linesOf chunks := String.toList_ofList

theorem header_sourceOf (hChunks : ∀ chunk ∈ chunks, IsChunk chunk) :
    ∃ x, header (Cursor.ofText (sourceOf chunks)).skipSpacing .empty = (⟨linesOf chunks, firstPlace⟩, x) ∧
      x.errors = [] := by
  generalize hStart : Cursor.ofText (sourceOf chunks) = start
  have hRest : start.rest = "version 1\n".toList ++ linesOf chunks := by
    rw [← hStart]
    exact toList_sourceOf chunks
  have hPlace : firstPlace = start.position.after "version 1\n".toList := by
    rw [← hStart, Cursor.ofText, firstPlace]
  rw [versionLine_text] at hRest hPlace
  have hPasses : start.Passes ("version 1".toList ++ ['\n']) ⟨linesOf chunks, firstPlace⟩ := ⟨hRest, hPlace⟩
  have hFirst := hPasses
  rw [version_text, List.cons_append] at hFirst
  have hName := linesOf_start hChunks
  have hHeader := header_written hPasses (by simp) fun c hc => startsSpacing_of_isNameChar (hName c hc)
  have hSemicolon : ∀ e, ¬ Cursor.Passes ⟨linesOf chunks, firstPlace⟩ [';'] e := by
    intro e hMark
    have hLines : linesOf chunks = ';' :: e.rest := hMark.1
    exact absurd (hName ';' (by rw [hLines]; rfl)) (by decide)
  rw [Cursor.skipSpacing_of_stops (hFirst.head (by decide))]
  exact hHeader.header_eq hSemicolon .empty

/-! ## The loop over chunks -/

variable {inBody : Bool} {c : Cursor} {x y : Context} {n : Nat}

/-- Only the reports made before matter to a loop that has a command to read. -/
theorem commandsWithin_forget (hEnd : ¬ atEnd inBody c = true) (hSame : x.errors = y.errors) (n : Nat) :
    commandsWithin (n + 1) inBody c x = commandsWithin (n + 1) inBody c y := by
  have hForget : x.forget = y.forget := by rw [Context.forget, Context.forget, hSame]
  unfold commandsWithin
  rw [if_neg hEnd, if_neg hEnd, hForget]

theorem commandsWithin_some (hEnd : ¬ atEnd inBody c = true) (n : Nat) (x : Context) :
    (commandsWithin (n + 1) inBody c x).1.2 ≠ [] ∨
      (commandsWithin (n + 1) inBody c x).2.errors.length ≠ x.errors.length := by
  have hCommand := command_grows (scopeOf_grows (commandsWithin_grows n true)) c x.forget
  rcases hEq : command (scopeOf (commandsWithin n true)) c x.forget with ⟨⟨failure⟩ | ⟨next, declaration⟩, y⟩
  · rw [hEq] at hCommand
    rw [commandsWithin_failure hEnd hEq]
    have hAfter := afterFailure_grows inBody c (reportBroken failure y)
    have hRest := commandsWithin_grows n inBody (afterFailure inBody c (reportBroken failure y)).1
      (afterFailure inBody c (reportBroken failure y)).2
    have hReport : (reportBroken failure y).errors.length = y.errors.length + 1 := by
      rw [reportBroken, Context.errors_report, List.length_append]
      rfl
    have hBefore : x.errors.length ≤ y.errors.length := hCommand.length_le
    have hBehind := (hAfter.trans hRest).length_le
    right
    simp only
    omega
  · rw [commandsWithin_command hEnd hEq]
    exact .inl (List.cons_ne_nil _ _)

theorem not_atEnd_linesOf (hSome : chunks ≠ []) (position : Position) :
    ¬ atEnd false ⟨linesOf chunks, position⟩ = true := by
  cases chunks with
  | nil => exact absurd rfl hSome
  | cons chunk rest => simp [atEnd, Cursor.isEmpty, linesOf]

theorem document_sourceOf (hSome : chunks ≠ []) (hChunks : ∀ chunk ∈ chunks, IsChunk chunk)
    (hEmpty : x.errors = []) :
    document (sourceOf chunks) =
      ((commandsWithin ((linesOf chunks).length + 1) false ⟨linesOf chunks, firstPlace⟩ x).1.2,
        (commandsWithin ((linesOf chunks).length + 1) false ⟨linesOf chunks, firstPlace⟩ x).2.errors) := by
  obtain ⟨y, hHeader, hy⟩ := header_sourceOf hChunks
  have hEnd := not_atEnd_linesOf hSome firstPlace
  have hStart : Cursor.skipSpacing ⟨linesOf chunks, firstPlace⟩ = ⟨linesOf chunks, firstPlace⟩ :=
    Cursor.skipSpacing_of_stops fun c hc => startsSpacing_of_isNameChar (linesOf_start hChunks c hc)
  have hLoop := commandsWithin_forget hEnd (hy.trans hEmpty.symm) (linesOf chunks).length
  have hFound := commandsWithin_some hEnd (linesOf chunks).length x
  rw [hEmpty, ← hy] at hFound
  rw [document_eq, hHeader]
  simp only [scope]
  rw [scopeOf_eq, hStart, hLoop, if_neg]
  rw [Bool.and_eq_true, List.isEmpty_iff, beq_iff_eq]
  rintro ⟨hNone, hSame⟩
  exact hFound.elim (absurd hNone) (absurd hSame)

/-- What a chunk gives alone, put behind the lines that precede it. -/
def declaredAt (place : List Char × List Char) : List Declaration :=
  (document (sourceOf [place.2])).1.map (·.movedBy place.1)

def reportedAt (place : List Char × List Char) : List Diagnostic :=
  (document (sourceOf [place.2])).2.map (·.movedBy place.1)

/-- The loop reads a chunk to the end of its line, and goes on there where the chunk is moved. -/
theorem commandsWithin_chunk (h : IsChunk chunk) (m : Move) (x : Context)
    (hBound : (chunk ++ ['\n']).length + m.tail.length < n) :
    (commandsWithin ((chunk ++ ['\n']).length + 1) false ⟨chunk ++ ['\n'], firstPlace⟩ x).1.1 =
        ⟨[], firstPlace.movedBy (chunk ++ ['\n'])⟩ ∧
      Resumes m false (commandsWithin ((chunk ++ ['\n']).length + 1) false ⟨chunk ++ ['\n'], firstPlace⟩ x)
        (commandsWithin n false (m.cursor ⟨chunk ++ ['\n'], firstPlace⟩) (m.context x)) := by
  have hSome : chunk ≠ [] := by
    obtain ⟨first, rest, rfl, -⟩ := h.cons
    exact List.cons_ne_nil first rest
  have hInside : Inside ⟨chunk ++ ['\n'], firstPlace⟩ [] (chunk ++ ['\n']).length ⟨chunk ++ ['\n'], firstPlace⟩ :=
    ⟨chunk, hSome, .refl _, Nat.le_refl _, rfl, h.closes⟩
  obtain ⟨hLast, hPast, hResumes⟩ :=
    commandsWithin_continues .document (Nat.lt_succ_self _) hBound _ x hInside.past
  refine ⟨?_, hResumes⟩
  have hNone : (commandsWithin ((chunk ++ ['\n']).length + 1) false ⟨chunk ++ ['\n'], firstPlace⟩ x).1.1.rest = [] := by
    simpa [atEnd, Cursor.isEmpty] using hLast
  rcases hPast with hMore | ⟨-, -, passed, hPassed, hPlace⟩
  · exact absurd hNone (ne_nil_of_line hMore.line_mem)
  · rw [hNone, List.append_nil] at hPassed
    rw [← hPassed] at hPlace
    exact Cursor.ext_of hNone (hPlace.trans (Position.after_line rfl chunk))

theorem commandsWithin_chunks (hChunks : ∀ chunk ∈ chunks, IsChunk chunk)
    (hBound : (linesOf chunks).length < n) :
    (commandsWithin n false ⟨linesOf chunks, firstPlace.movedBy before⟩ x).1.2 =
        (placed before chunks).flatMap declaredAt ∧
      (commandsWithin n false ⟨linesOf chunks, firstPlace.movedBy before⟩ x).2.errors =
        x.errors ++ (placed before chunks).flatMap reportedAt := by
  induction chunks generalizing before n x with
  | nil =>
    rw [commandsWithin_atEnd rfl]
    simp [placed]
  | cons chunk rest ih =>
    have hChunk := hChunks chunk List.mem_cons_self
    have hRest : ∀ other ∈ rest, IsChunk other := fun other hMem => hChunks other (List.mem_cons_of_mem _ hMem)
    have hAlone := document_sourceOf (x := .empty) (List.cons_ne_nil chunk [])
      (fun other hMem => by rwa [List.mem_singleton.mp hMem]) rfl
    have hLine : linesOf [chunk] = chunk ++ ['\n'] := by simp [linesOf]
    rw [hLine] at hAlone
    rw [linesOf_cons, List.length_append] at hBound
    obtain ⟨k, rfl⟩ : ∃ k, n = k + 1 := ⟨n - 1, by omega⟩
    -- The chunk is moved behind the lines and the reports in front of it, and in front of the other chunks.
    generalize hm : (⟨before, linesOf rest, x.errors, linesOf_start hRest⟩ : Move) = m
    have hTail : m.tail = linesOf rest := by rw [← hm]
    have hBefore : m.before = before := by rw [← hm]
    have hErrors : x.errors = (m.context .empty).errors := by rw [← hm]; simp [Move.context, Context.empty]
    obtain ⟨hEnd, left, hLeft, hMoved⟩ := commandsWithin_chunk hChunk m .empty (hTail ▸ hBound)
    have hStart : m.cursor ⟨chunk ++ ['\n'], firstPlace⟩ =
        ⟨linesOf (chunk :: rest), firstPlace.movedBy before⟩ := by
      rw [Move.cursor, hTail, hBefore, linesOf_cons]
    have hNext : m.cursor ⟨[], firstPlace.movedBy (chunk ++ ['\n'])⟩ =
        ⟨linesOf rest, firstPlace.movedBy (before ++ (chunk ++ ['\n']))⟩ := by
      have hShift := @Position.movedBy_append before firstPlace (chunk ++ ['\n'])
      rw [Move.cursor, hTail, hBefore, hShift]
      rfl
    generalize commandsWithin ((chunk ++ ['\n']).length + 1) false ⟨chunk ++ ['\n'], firstPlace⟩ .empty = alone
      at hAlone hEnd hMoved
    have hDeclaredAt : declaredAt (before, chunk) = alone.1.2.map (·.movedBy before) := by
      rw [declaredAt, hAlone]
    have hReportedAt : reportedAt (before, chunk) = alone.2.errors.map (·.movedBy before) := by
      rw [reportedAt, hAlone]
    obtain ⟨hDeclared, hReported⟩ :=
      @ih (before ++ (chunk ++ ['\n'])) (m.context alone.2) left hRest (hTail ▸ hLeft)
    rw [hEnd, hStart, hNext] at hMoved
    rw [commandsWithin_forget (not_atEnd_linesOf (List.cons_ne_nil chunk rest) _) hErrors, hMoved]
    simp only [hDeclared, hReported, placed, List.flatMap_cons, hDeclaredAt, hReportedAt, hBefore]
    refine ⟨trivial, ?_⟩
    rw [← List.append_assoc, ← hm]
    simp [Move.context]

/-- A document of chunks gives the commands and the reports of each chunk alone, one chunk after another, with
positions shifted by the lines that precede the chunk. -/
theorem document_chunks (hSome : chunks ≠ []) (hChunks : ∀ chunk ∈ chunks, IsChunk chunk) :
    document (sourceOf chunks) =
      ((placed [] chunks).flatMap declaredAt, (placed [] chunks).flatMap reportedAt) := by
  have hDocument := document_sourceOf (x := .empty) hSome hChunks rfl
  obtain ⟨hDeclared, hReported⟩ :=
    @commandsWithin_chunks chunks [] .empty _ hChunks (Nat.lt_succ_self (linesOf chunks).length)
  have hPlace : firstPlace.movedBy [] = firstPlace := by
    simp [Position.movedBy, byteLength]
  rw [hPlace] at hDeclared hReported
  rw [hDocument, hDeclared, hReported]
  rfl

/-- A command with a separator in a string. -/
def greetChunk : List Char := "greet action(text = \"a;b\")".toList

/-- An unknown escape in front of a body with an unfinished command. -/
def askChunk : List Char := "ask dialog(title = \"\\q\") \x7b\n  yes\n\x7d".toList

theorem document_greet_ask :
    (∀ chunk ∈ [greetChunk, askChunk], IsChunk chunk) ∧
      document (sourceOf [greetChunk, askChunk]) =
        (declaredAt ([], greetChunk) ++ declaredAt (greetChunk ++ ['\n'], askChunk),
          reportedAt ([], greetChunk) ++ reportedAt (greetChunk ++ ['\n'], askChunk)) := by
  have hChunks : ∀ chunk ∈ [greetChunk, askChunk], IsChunk chunk := by decide
  refine ⟨hChunks, (document_chunks (List.cons_ne_nil _ _) hChunks).trans ?_⟩
  simp only [placed, List.flatMap_cons, List.flatMap_nil, List.append_nil, List.nil_append]

end DialogTree
