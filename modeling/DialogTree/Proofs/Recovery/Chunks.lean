import DialogTree.Parsing.Recovery
import DialogTree.Proofs.Spacing

/-!
# Chunks

A chunk is a text whose strings, comments and brackets are closed within it, and which holds no separator
outside brackets. The lexer of chunks reads one character after another and keeps the brackets that are
still to be closed.
-/

namespace DialogTree

/-! ## The lexer -/

inductive ChunkMode where
  | code
  | string
  /-- Behind a backslash in a string. -/
  | escape
  | raw
  | comment
deriving DecidableEq

/-- Where the lexer stands, and the brackets that close what is open, the innermost first. -/
structure ChunkState where
  mode : ChunkMode
  stack : List Char
deriving DecidableEq

def closingOf? (c : Char) : Option Char :=
  if c = '(' then some ')'
  else if c = '\x7b' then some '\x7d'
  else if c = '[' then some ']'
  else none

def isClosing (c : Char) : Bool :=
  c == ')' || c == '\x7d' || c == ']'

/-- One character outside strings and comments. A bracket must close the innermost open one, and a
separator must stand inside brackets. -/
def codeStep (stack : List Char) (c : Char) : Option ChunkState :=
  if c = '"' then some ⟨.string, stack⟩
  else if c = '\x60' then some ⟨.raw, stack⟩
  else if c = '#' then some ⟨.comment, stack⟩
  else match closingOf? c with
    | some close => some ⟨.code, close :: stack⟩
    | none =>
      if isClosing c then
        match stack with
        | [] => none
        | close :: rest => if c = close then some ⟨.code, rest⟩ else none
      else if c = ';' ∨ c = '\n' then if stack = [] then none else some ⟨.code, stack⟩
      else some ⟨.code, stack⟩

def chunkStep : ChunkState → Char → Option ChunkState
  | ⟨.code, stack⟩, c => codeStep stack c
  | ⟨.string, stack⟩, c =>
    if c = '\\' then some ⟨.escape, stack⟩
    else if c = '"' then some ⟨.code, stack⟩
    else some ⟨.string, stack⟩
  | ⟨.escape, stack⟩, _ => some ⟨.string, stack⟩
  | ⟨.raw, stack⟩, c => if c = '\x60' then some ⟨.code, stack⟩ else some ⟨.raw, stack⟩
  | ⟨.comment, stack⟩, c => if c = '\n' then codeStep stack c else some ⟨.comment, stack⟩

def chunkRun : ChunkState → List Char → Option ChunkState
  | state, [] => some state
  | state, c :: rest => (chunkStep state c).bind fun next => chunkRun next rest

/-- A text that begins like a command, ends in a bracket, and is closed in itself. -/
structure IsChunk (text : List Char) : Prop where
  start : text.head?.any isNameChar = true
  final : text.getLast?.any (fun c => c == ')' || c == '\x7d') = true
  closed : chunkRun ⟨.code, []⟩ text = some ⟨.code, []⟩

instance (text : List Char) : Decidable (IsChunk text) :=
  decidable_of_iff
    (text.head?.any isNameChar = true ∧ text.getLast?.any (fun c => c == ')' || c == '\x7d') = true ∧
      chunkRun ⟨.code, []⟩ text = some ⟨.code, []⟩)
    ⟨fun ⟨hStart, hFinal, hClosed⟩ => ⟨hStart, hFinal, hClosed⟩,
      fun ⟨hStart, hFinal, hClosed⟩ => ⟨hStart, hFinal, hClosed⟩⟩

/-! ## Closed texts -/

/-- The text closes the open brackets and everything that it opens, and nothing follows its last bracket. -/
structure Closes (mode : ChunkMode) (stack text : List Char) : Prop where
  run : chunkRun ⟨mode, stack⟩ text = some ⟨.code, []⟩
  final : ∀ c ∈ text.getLast?, c = ')' ∨ c = '\x7d'

variable {mode : ChunkMode} {stack text : List Char} {c : Char}

theorem Closes.mode_of_nil (h : Closes mode stack []) : mode = .code ∧ stack = [] := by
  have hRun := h.run
  simp only [chunkRun, Option.some.injEq, ChunkState.mk.injEq] at hRun
  exact hRun

theorem Closes.step (h : Closes mode stack (c :: text)) :
    ∃ next, chunkStep ⟨mode, stack⟩ c = some next ∧ Closes next.mode next.stack text := by
  have hRun := h.run
  rw [chunkRun] at hRun
  obtain ⟨next, hStep, hRest⟩ := Option.bind_eq_some_iff.mp hRun
  refine ⟨next, hStep, hRest, ?_⟩
  intro last hLast
  apply h.final
  cases text with
  | nil => cases hLast
  | cons d text => simpa using hLast

theorem Closes.step_to {next : ChunkState} (h : Closes mode stack (c :: text))
    (hStep : chunkStep ⟨mode, stack⟩ c = some next) : Closes next.mode next.stack text := by
  obtain ⟨other, hOther, hCloses⟩ := h.step
  rw [hStep] at hOther
  cases hOther
  exact hCloses

theorem Closes.rest_ne_nil (h : Closes mode stack (c :: text)) (hc : c ≠ ')' ∧ c ≠ '\x7d') : text ≠ [] := by
  rintro rfl
  exact (h.final c rfl).elim hc.1 hc.2

/-- The characters that mean something to the lexer outside strings and comments. -/
def chunkMarks : List Char :=
  ['"', '\x60', '#', '(', '\x7b', '[', ')', '\x7d', ']', ';', '\n']

def isPlain (c : Char) : Bool := !chunkMarks.contains c

theorem codeStep_plain (h : isPlain c = true) (stack : List Char) : codeStep stack c = some ⟨.code, stack⟩ := by
  simp only [isPlain, chunkMarks, Bool.not_eq_true', List.contains_eq_mem, decide_eq_false_iff_not, List.mem_cons,
    List.not_mem_nil, or_false, not_or] at h
  simp [codeStep, closingOf?, isClosing, h]

theorem isPlain_of_class {p : Char → Bool} (hMarks : chunkMarks.any p = false) (h : p c = true) :
    isPlain c = true := by
  have hMark : c ∉ chunkMarks := by
    intro hMem
    exact List.any_eq_false.mp hMarks c hMem h
  simpa [isPlain] using hMark

theorem isPlain_ne_final (h : isPlain c = true) : c ≠ ')' ∧ c ≠ '\x7d' := by
  constructor <;>
  · rintro rfl
    exact absurd h (by decide)

theorem Closes.plain (h : Closes .code stack (c :: text)) (hc : isPlain c = true) : Closes .code stack text :=
  h.step_to (codeStep_plain hc stack)

theorem Closes.plain_append {front : List Char} (h : Closes .code stack (front ++ text))
    (hFront : ∀ x ∈ front, isPlain x = true) : Closes .code stack text := by
  induction front with
  | nil => exact h
  | cons x front ih =>
    exact ih (h.plain (hFront x List.mem_cons_self)) fun y hy => hFront y (List.mem_cons_of_mem x hy)

/-! ## Runs at the start of a closed text -/

/-- The text begins with a run that ends within the text, however the text goes on. -/
structure Leads (length : List Char → Nat) (stack text run rest : List Char) : Prop where
  split : text = run ++ rest
  left : rest ≠ []
  closes : Closes .code stack rest
  length_eq : ∀ after, length (text ++ after) = run.length

theorem Leads.cons {length length' : List Char → Nat} {run rest : List Char}
    (h : Leads length stack text run rest) (hLength : ∀ after, length' (c :: after) = 1 + length after) :
    Leads length' stack (c :: text) (c :: run) rest where
  split := by rw [h.split, List.cons_append]
  left := h.left
  closes := h.closes
  length_eq after := by
    rw [List.cons_append, hLength, h.length_eq, List.length_cons, Nat.add_comm]

theorem Closes.rest_of_mode (h : Closes mode stack text) (hMode : mode ≠ .code) : text ≠ [] := by
  rintro rfl
  exact hMode h.mode_of_nil.1

/-! ## Spacing in a closed text -/

def spacingMode (inComment : Bool) : ChunkMode := if inComment then .comment else .code

theorem isPlain_blank (h : isBlank c = true) (hLine : c ≠ '\n') : isPlain c = true :=
  isPlain_of_class (p := fun x => isBlank x && x != '\n') (by decide) (by simp [h, hLine])

theorem isBlank_ne_final (h : isBlank c = true) : c ≠ ')' ∧ c ≠ '\x7d' := by
  constructor <;>
  · rintro rfl
    exact absurd h (by decide)

theorem codeStep_newline {next : ChunkState} (h : codeStep stack '\n' = some next) :
    next = ⟨.code, stack⟩ ∧ stack ≠ [] := by
  simp only [codeStep] at h
  by_cases hStack : stack = []
  · simp [closingOf?, isClosing, hStack] at h
  · simp [closingOf?, isClosing, hStack] at h
    exact ⟨h.symm, hStack⟩

/-- A line end outside strings stands inside brackets, and changes nothing there. -/
theorem Closes.newline {inComment : Bool} (h : Closes (spacingMode inComment) stack ('\n' :: text)) :
    Closes .code stack text ∧ stack ≠ [] := by
  obtain ⟨next, hStep, hNext⟩ := h.step
  have hCode : codeStep stack '\n' = some next := by
    cases inComment with
    | true => exact hStep
    | false => exact hStep
  obtain ⟨rfl, hStack⟩ := codeStep_newline hCode
  exact ⟨hNext, hStack⟩

/-- The spacing at the start of a closed text ends within the text, whatever follows; outside brackets it
holds no line end. -/
theorem Closes.spacing {inComment : Bool} (h : Closes (spacingMode inComment) stack text) (hSome : text ≠ []) :
    ∃ run rest, Leads (spacingLength inComment) stack text run rest ∧ (stack = [] → '\n' ∉ run) := by
  -- Comments begin and end within the run, so the induction is for either mode.
  induction text generalizing inComment with
  | nil => exact absurd rfl hSome
  | cons c text ih =>
    cases inComment with
    | true =>
      by_cases hLine : c = '\n'
      · subst hLine
        obtain ⟨hNext, hStack⟩ := h.newline
        obtain ⟨run, rest, hLeads, -⟩ := @ih false hNext (h.rest_ne_nil (by decide))
        exact ⟨'\n' :: run, rest, hLeads.cons fun after => rfl, fun hOutside => absurd hOutside hStack⟩
      · have hStep : chunkStep ⟨spacingMode true, stack⟩ c = some ⟨.comment, stack⟩ := if_neg hLine
        have hNext : Closes (spacingMode true) stack text := h.step_to hStep
        obtain ⟨run, rest, hLeads, hNo⟩ := ih hNext (hNext.rest_of_mode (by decide))
        refine ⟨c :: run, rest, hLeads.cons fun after => ?_, fun hOutside => ?_⟩
        · rw [spacingLength, bne_iff_ne.mpr hLine]
        · simp [hNo hOutside, Ne.symm hLine]
    | false =>
      by_cases hHash : c = '#'
      · subst hHash
        have hNext : Closes (spacingMode true) stack text := h.step_to rfl
        obtain ⟨run, rest, hLeads, hNo⟩ := ih hNext (h.rest_ne_nil (by decide))
        refine ⟨'#' :: run, rest, hLeads.cons fun after => ?_, fun hOutside => ?_⟩
        · rw [spacingLength, if_pos rfl]
        · simp [hNo hOutside]
      by_cases hBlank : isBlank c = true
      · have hNext : Closes (spacingMode false) stack text ∧ (stack = [] → c ≠ '\n') := by
          by_cases hLine : c = '\n'
          · subst hLine
            obtain ⟨hNext, hStack⟩ := h.newline
            exact ⟨hNext, fun hOutside => absurd hOutside hStack⟩
          · exact ⟨h.plain (isPlain_blank hBlank hLine), fun _ => hLine⟩
        obtain ⟨run, rest, hLeads, hNo⟩ := ih hNext.1 (h.rest_ne_nil (isBlank_ne_final hBlank))
        refine ⟨c :: run, rest, hLeads.cons (spacingLength_blank hBlank), fun hOutside => ?_⟩
        simp [hNo hOutside, Ne.symm (hNext.2 hOutside)]
      · refine ⟨[], c :: text, ⟨rfl, hSome, h, fun after => ?_⟩, fun _ => List.not_mem_nil⟩
        simp [spacingLength, hHash, hBlank]

/-! ## Strings in a closed text -/

def stringMode (escaped : Bool) : ChunkMode := if escaped then .escape else .string

/-- A string that is open at the start of a closed text is closed within the text. -/
theorem Closes.quoted {escaped : Bool} (h : Closes (stringMode escaped) stack text) :
    ∃ inside rest, Leads (quotedLength '"' escaped) stack text inside rest := by
  induction text generalizing escaped with
  | nil => exact absurd rfl (h.rest_of_mode (by cases escaped <;> decide))
  | cons c text ih =>
    cases escaped with
    | true =>
      have hNext : Closes (stringMode false) stack text := h.step_to rfl
      obtain ⟨inside, rest, hLeads⟩ := ih hNext
      exact ⟨c :: inside, rest, hLeads.cons fun after => rfl⟩
    | false =>
      by_cases hEscape : c = '\\'
      · subst hEscape
        have hNext : Closes (stringMode true) stack text := h.step_to rfl
        obtain ⟨inside, rest, hLeads⟩ := ih hNext
        exact ⟨'\\' :: inside, rest, hLeads.cons fun after => rfl⟩
      by_cases hQuote : c = '"'
      · subst hQuote
        have hNext : Closes .code stack text := h.step_to rfl
        exact ⟨['"'], text, rfl, h.rest_ne_nil (by decide), hNext, fun after => rfl⟩
      · have hStep : chunkStep ⟨stringMode false, stack⟩ c = some ⟨.string, stack⟩ := by
          rw [stringMode, if_neg Bool.false_ne_true, chunkStep, if_neg hEscape, if_neg hQuote]
        have hNext : Closes (stringMode false) stack text := h.step_to hStep
        obtain ⟨inside, rest, hLeads⟩ := ih hNext
        refine ⟨c :: inside, rest, hLeads.cons fun after => ?_⟩
        simp [quotedLength, hEscape, hQuote]

theorem Closes.raw (h : Closes .raw stack text) :
    ∃ inside rest, text = inside ++ '\x60' :: rest ∧ '\x60' ∉ inside ∧ rest ≠ [] ∧ Closes .code stack rest := by
  induction text with
  | nil => exact absurd rfl (h.rest_of_mode (by decide))
  | cons c text ih =>
    by_cases hQuote : c = '\x60'
    · subst hQuote
      exact ⟨[], text, rfl, List.not_mem_nil, h.rest_ne_nil (by decide), h.step_to rfl⟩
    · have hStep : chunkStep ⟨.raw, stack⟩ c = some ⟨.raw, stack⟩ := if_neg hQuote
      obtain ⟨inside, rest, rfl, hInside, hSome, hCloses⟩ := ih (h.step_to hStep)
      exact ⟨c :: inside, rest, rfl, by simp [hInside, Ne.symm hQuote], hSome, hCloses⟩

theorem quotedLength_raw {inside after : List Char} (h : '\x60' ∉ inside) :
    quotedLength '\x60' false (inside ++ '\x60' :: after) = inside.length + 1 := by
  induction inside with
  | nil => rfl
  | cons c inside ih =>
    simp only [List.mem_cons, not_or] at h
    simp [quotedLength, Ne.symm h.1, ih h.2, Nat.add_comm]

theorem Closes.commented (h : Closes .comment stack text) :
    ∃ line rest, text = line ++ '\n' :: rest ∧ '\n' ∉ line ∧ Closes .code stack ('\n' :: rest) := by
  induction text with
  | nil => exact absurd rfl (h.rest_of_mode (by decide))
  | cons c text ih =>
    by_cases hLine : c = '\n'
    · subst hLine
      exact ⟨[], text, rfl, List.not_mem_nil, h.run, h.final⟩
    · have hStep : chunkStep ⟨.comment, stack⟩ c = some ⟨.comment, stack⟩ := if_neg hLine
      obtain ⟨line, rest, rfl, hOutside, hCloses⟩ := ih (h.step_to hStep)
      exact ⟨c :: line, rest, rfl, by simp [hOutside, Ne.symm hLine], hCloses⟩

theorem commentLength_of_line {line after : List Char} (hLine : '\n' ∉ line) (hEnd : ∀ x ∈ after.head?, x = '\n') :
    commentLength (line ++ after) = line.length := by
  have hRun : (line ++ after).takeWhile (· != '\n') = line := by
    apply Cursor.takeWhile_append_of_stops
    · intro x hx
      exact bne_iff_ne.mpr fun hSame => hLine (hSame ▸ hx)
    · intro x hx
      simp [hEnd x hx]
  rw [commentLength, hRun]

/-! ## Recovery in a closed text -/

/-- The brackets around the commands of a scope: none around the document, and a brace around a body. -/
inductive Scoped : Bool → List Char → Prop where
  | document : Scoped false []
  | body {outer : List Char} : Scoped true ('\x7d' :: outer)

variable {inBody : Bool} {base inner : List Char}

/-- What a character of code outside strings and comments does to the open brackets. -/
inductive BracketStep (c : Char) (stack : List Char) : List Char → Prop where
  | opening {close : Char} (hOpening : closingOf? c = some close) : BracketStep c stack (close :: stack)
  | closing {rest : List Char} (hClosing : isClosing c = true) (hStack : stack = c :: rest) :
      BracketStep c stack rest
  | other (hOpening : closingOf? c = none) (hClosing : isClosing c = false) : BracketStep c stack stack

theorem codeStep_cases {next : ChunkState} (h : codeStep stack c = some next) :
    (c = '"' ∧ next = ⟨.string, stack⟩) ∨ (c = '\x60' ∧ next = ⟨.raw, stack⟩) ∨
      (c = '#' ∧ next = ⟨.comment, stack⟩) ∨
      (c ≠ '"' ∧ c ≠ '\x60' ∧ c ≠ '#' ∧ next.mode = .code ∧ BracketStep c stack next.stack) := by
  unfold codeStep at h
  split at h
  · cases h
    exact .inl ⟨‹_›, rfl⟩
  split at h
  · cases h
    exact .inr (.inl ⟨‹_›, rfl⟩)
  split at h
  · cases h
    exact .inr (.inr (.inl ⟨‹_›, rfl⟩))
  refine .inr (.inr (.inr ⟨‹_›, ‹_›, ‹_›, ?_⟩))
  split at h
  · rename_i close hOpening
    cases h
    exact ⟨rfl, .opening hOpening⟩
  rename_i hOpening
  split at h
  · rename_i hClosing
    cases stack with
    | nil => cases h
    | cons close rest =>
      simp only at h
      split at h
      · rename_i hSame
        cases h
        exact ⟨rfl, .closing hClosing (by rw [hSame])⟩
      · cases h
  · rename_i hClosing
    have hOther : BracketStep c stack stack := .other hOpening (by simpa using hClosing)
    split at h
    · split at h
      · cases h
      · cases h
        exact ⟨rfl, hOther⟩
    · cases h
      exact ⟨rfl, hOther⟩

theorem bracketDepth_opening {close : Char} (h : closingOf? c = some close) (depth : Nat) :
    bracketDepth depth c = depth + 1 := by
  unfold closingOf? at h
  split at h
  · simp_all [bracketDepth]
  split at h
  · simp_all [bracketDepth]
  split at h
  · simp_all [bracketDepth]
  · cases h

theorem bracketDepth_closing (h : isClosing c = true) (depth : Nat) : bracketDepth depth c = depth - 1 := by
  simp only [isClosing, Bool.or_eq_true, beq_iff_eq] at h
  rcases h with (rfl | rfl) | rfl <;> simp [bracketDepth]

theorem bracketDepth_other (hOpening : closingOf? c = none) (hClosing : isClosing c = false) (depth : Nat) :
    bracketDepth depth c = depth := by
  simp only [isClosing, Bool.or_eq_false_iff, beq_eq_false_iff_ne] at hClosing
  have hNot : c ≠ '(' ∧ c ≠ '\x7b' ∧ c ≠ '[' := by
    refine ⟨?_, ?_, ?_⟩ <;>
    · rintro rfl
      exact absurd hOpening (by decide)
  simp [bracketDepth, hClosing, hNot]

/-! What is skipped is a string, a comment, or one character more than what is skipped behind it. -/

theorem recoveryLength_quote (inBody : Bool) {quote : Char} (hQuote : quote = '"' ∨ quote = '\x60') (depth : Nat)
    (rest : List Char) : recoveryLength inBody depth (quote :: rest) =
      1 + quotedLength quote false rest + recoveryLength inBody depth (rest.drop (quotedLength quote false rest)) := by
  have hGo : endsCommand inBody quote = false := by
    rcases hQuote with rfl | rfl <;> cases inBody <;> rfl
  rw [recoveryLength, hGo, if_neg (by simp), if_pos (by simpa using hQuote)]

theorem recoveryLength_quoted (inBody : Bool) {quote : Char} (hQuote : quote = '"' ∨ quote = '\x60') (depth : Nat)
    {inside rest : List Char} (hLength : quotedLength quote false (inside ++ rest) = inside.length) :
    recoveryLength inBody depth (quote :: (inside ++ rest)) =
      (quote :: inside).length + recoveryLength inBody depth rest := by
  rw [recoveryLength_quote inBody hQuote, hLength, List.drop_left, List.length_cons, Nat.add_comm 1]

theorem recoveryLength_comment (inBody : Bool) (depth : Nat) {line rest : List Char}
    (hLength : commentLength (line ++ rest) = line.length) :
    recoveryLength inBody depth ('#' :: (line ++ rest)) =
      ('#' :: line).length + recoveryLength inBody depth rest := by
  have hGo : endsCommand inBody '#' = false := by cases inBody <;> rfl
  rw [recoveryLength, hGo]
  simp only [hLength, List.drop_left, Bool.and_false, Bool.false_eq_true, if_false, List.length_cons]
  rw [if_neg (by decide), if_pos trivial]
  omega

theorem recoveryLength_code {depth : Nat} (hGo : ¬ (depth = 0 ∧ endsCommand inBody c = true))
    (hQuote : c ≠ '"') (hRaw : c ≠ '\x60') (hHash : c ≠ '#') (rest : List Char) :
    recoveryLength inBody depth (c :: rest) = 1 + recoveryLength inBody (bracketDepth depth c) rest := by
  rw [recoveryLength, if_neg (by simpa using hGo), if_neg (by simp [hQuote, hRaw]), if_neg hHash]

/-- At the brackets around its scope a broken command ends at the brace behind it; another closing bracket
cannot stand there. -/
theorem Scoped.closing_ends (hScoped : Scoped inBody base) (hBase : base = c :: inner) :
    endsCommand inBody c = true := by
  cases hScoped with
  | document => cases hBase
  | body =>
    cases hBase
    rfl

/-- Recovery with brackets of a broken command open passes a run, whatever follows the line of the text. The
rest closes the brackets around the scope. -/
structure Recovers (inBody : Bool) (base : List Char) (depth : Nat) (text run rest : List Char) : Prop where
  split : text = run ++ rest
  closes : Closes .code base rest
  ends : ∀ c ∈ rest.head?, endsCommand inBody c = true
  length_eq : ∀ after, recoveryLength inBody depth (text ++ '\n' :: after) = run.length

theorem Recovers.skip {depth depth' : Nat} {run rest : List Char}
    (h : Recovers inBody base depth' text run rest) (front : List Char)
    (hSkip : ∀ after, recoveryLength inBody depth (front ++ (text ++ '\n' :: after)) =
      front.length + recoveryLength inBody depth' (text ++ '\n' :: after)) :
    Recovers inBody base depth (front ++ text) (front ++ run) rest where
  split := by rw [h.split, List.append_assoc]
  closes := h.closes
  ends := h.ends
  length_eq after := by rw [List.append_assoc, hSkip, h.length_eq, List.length_append]

/-- A character of code that does not end the command leaves the brackets around the scope in place. -/
theorem BracketStep.inside {next : List Char} (h : BracketStep c (inner ++ base) next)
    (hScoped : Scoped inBody base) (hStop : ¬ (inner = [] ∧ endsCommand inBody c = true)) :
    ∃ inner', next = inner' ++ base ∧ bracketDepth inner.length c = inner'.length := by
  cases h with
  | @opening close hOpening => exact ⟨close :: inner, rfl, bracketDepth_opening hOpening _⟩
  | closing hClosing hStack =>
    cases inner with
    | nil => exact absurd ⟨rfl, hScoped.closing_ends hStack⟩ hStop
    | cons close inner =>
      have hRest := (List.cons.inj hStack).2
      exact ⟨inner, hRest.symm, bracketDepth_closing hClosing _⟩
  | other hOpening hClosing => exact ⟨inner, rfl, bracketDepth_other hOpening hClosing _⟩

/-- Recovery from inside a scope ends in front of a separator of the scope, or of the brace that closes it,
with the same brackets open as where the scope began. -/
theorem Closes.recovery (hScoped : Scoped inBody base) (h : Closes .code (inner ++ base) text) :
    ∃ run rest, Recovers inBody base inner.length text run rest := by
  -- Strings and comments are passed as wholes, so the induction is on the length of what is left.
  induction hSize : text.length using Nat.strongRecOn generalizing text inner with
  | ind size ih =>
    cases text with
    | nil =>
      obtain ⟨rfl, rfl⟩ := List.append_eq_nil_iff.mp h.mode_of_nil.2
      refine ⟨[], [], rfl, h, by simp, fun after => ?_⟩
      rw [List.nil_append, recoveryLength]
      rfl
    | cons c text =>
      by_cases hStop : inner = [] ∧ endsCommand inBody c = true
      · obtain ⟨rfl, hEnds⟩ := hStop
        refine ⟨[], c :: text, rfl, h, by simpa using hEnds, fun after => ?_⟩
        rw [List.cons_append, recoveryLength]
        simp [hEnds]
      rw [List.length_cons] at hSize
      obtain ⟨next, hStep, hNext⟩ := h.step
      rcases codeStep_cases hStep with ⟨rfl, rfl⟩ | ⟨rfl, rfl⟩ | ⟨rfl, rfl⟩ | ⟨hQuote, hRaw, hHash, hMode, hBrackets⟩
      · obtain ⟨inside, rest, hLeads⟩ := @Closes.quoted _ _ false hNext
        obtain rfl := hLeads.split
        rw [List.length_append] at hSize
        obtain ⟨run, left, hRecovers⟩ := ih rest.length (by omega) hLeads.closes rfl
        refine ⟨_, left, hRecovers.skip ('"' :: inside) fun after => ?_⟩
        have hLength := hLeads.length_eq ('\n' :: after)
        rw [List.append_assoc] at hLength
        exact recoveryLength_quoted inBody (.inl rfl) _ hLength
      · obtain ⟨inside, rest, rfl, hInside, -, hCloses⟩ := Closes.raw hNext
        rw [List.length_append, List.length_cons] at hSize
        obtain ⟨run, left, hRecovers⟩ := ih rest.length (by omega) hCloses rfl
        have hText : '\x60' :: (inside ++ '\x60' :: rest) = '\x60' :: (inside ++ ['\x60']) ++ rest := by simp
        rw [hText]
        refine ⟨_, left, hRecovers.skip _ fun after => ?_⟩
        apply recoveryLength_quoted inBody (.inr rfl)
        rw [List.append_assoc, List.singleton_append, quotedLength_raw hInside, List.length_append]
        rfl
      · obtain ⟨line, rest, rfl, hLine, hCloses⟩ := Closes.commented hNext
        rw [List.length_append] at hSize
        obtain ⟨run, left, hRecovers⟩ := ih ('\n' :: rest).length (by omega) hCloses rfl
        refine ⟨_, left, hRecovers.skip ('#' :: line) fun after => ?_⟩
        exact recoveryLength_comment inBody _ (commentLength_of_line hLine (by simp))
      · obtain ⟨inner', hStack, hDepth⟩ := hBrackets.inside hScoped hStop
        rw [hMode, hStack] at hNext
        obtain ⟨run, left, hRecovers⟩ := ih text.length (by omega) hNext rfl
        refine ⟨_, left, hRecovers.skip [c] fun after => ?_⟩
        have hGo : ¬ (inner.length = 0 ∧ endsCommand inBody c = true) := by
          rwa [List.length_eq_zero_iff]
        rw [← hDepth]
        exact recoveryLength_code hGo hQuote hRaw hHash _

end DialogTree
