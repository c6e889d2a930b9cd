import DialogTree.Proofs.Completeness.Commands
import DialogTree.Proofs.Places.Parsers
import DialogTree.Proofs.Recovery.Values

/-!
# Commands in a chunk

A body is closed within the chunk, and a broken command is skipped within its scope. So the loop over the
commands of a body stays in the chunk, and the loop over a document goes on behind it as if it began there.
-/

namespace DialogTree

open DialogTree.Parser Grammar

variable {origin c d : Cursor} {stack : List Char} {n n' : Nat} {m : Move} {x y : Context} {inBody : Bool}

/-! ## Scopes and bodies -/

/-- The same for two scopes, the second of which reads the moved text. -/
structure Grammar.Scope.Natural (m : Move) (P : Cursor → Prop) (scope scope' : Scope) (Q : Cursor → Prop) :
    Prop where
  moves : ∀ c x, P c → scope' (m.cursor c) (m.context x) =
    ((m.cursor (scope c x).1.1, (scope c x).1.2.map (·.movedBy m.before)), m.context (scope c x).2)
  ends : ∀ c x, P c → Q (scope c x).1.1

/-- In front of the brace that closes the body. -/
def AtBrace (origin : Cursor) (stack : List Char) (n : Nat) (c : Cursor) : Prop :=
  Inside origin ('\x7d' :: stack) n c ∧ c.peek? = some '\x7d'

theorem AtBrace.skip (h : AtBrace origin stack n c) : Within origin stack n (c.skip 1) := by
  obtain ⟨⟨text, hSome, hAt⟩, hPeek⟩ := h
  cases text with
  | nil => exact absurd rfl hSome
  | cons z text =>
    have hRest : c.rest = z :: (text ++ ['\n']) := hAt.rest
    obtain rfl : z = '\x7d' := by simpa [Cursor.peek?, hRest] using hPeek
    have hNext : Closes .code stack text := hAt.closes.step_to rfl
    exact ⟨text, hAt.passes rfl (Cursor.passes_cons hRest) hNext (Nat.le_add_right n _)⟩

theorem brace_natural : (literal "\x7b").Natural m (Past origin stack n) (Inside origin ('\x7d' :: stack) n) := by
  refine ⟨fun c hc => literal_moves_past (k := '\x7b') rfl (by decide) (by decide) hc, fun c d a hc hOk => ?_⟩
  rcases hc with hInside | ⟨-, hRest, -⟩
  · exact (literal_opening (m := m) (k := '\x7b') rfl rfl (Nat.le_succ n)).ends c d a hInside hOk
  · have hPasses := (literal_ok_iff.mp hOk).1.1
    rw [hRest] at hPasses
    cases hPasses

section Body

variable {scope scope' : Scope}

theorem body_natural
    (hScope : scope.Natural m (Inside origin ('\x7d' :: stack) n) scope' (AtBrace origin stack n)) :
    Parser.Natural m (Past origin stack n) (body scope) (body scope') (List.map (·.movedBy m.before))
      (Within origin stack n) := by
  have hBrace := @natural_lexeme _ m _ _ _ (@brace_natural origin stack n m)
  constructor
  · intro c x hc
    unfold body
    rw [hBrace.moves c x hc]
    rcases hEq : (literal "\x7b").parser c x with ⟨⟨failure⟩ | ⟨inner, word⟩, y⟩
    · rfl
    · have hInner := hBrace.ends c x inner word y hc hEq
      obtain ⟨hInside, hPeek⟩ := hScope.ends inner y hInner
      have hRest := ne_nil_of_line hInside.line_mem
      have hSkip := m.cursor_skip (List.length_pos_iff.mpr hRest)
      simp only [Move.outcome, hScope.moves inner y hInner, m.cursor_peek? hRest, hPeek, if_true, hSkip]
  · intro c x d items z hc hOk
    unfold body at hOk
    rcases hEq : (literal "\x7b").parser c x with ⟨⟨failure⟩ | ⟨inner, word⟩, y⟩
    · rw [hEq] at hOk
      cases hOk
    · have hLast := hScope.ends inner y (hBrace.ends c x inner word y hc hEq)
      rw [hEq] at hOk
      simp only [hLast.2, if_true] at hOk
      cases hOk
      exact hLast.skip

theorem spacedBody_natural
    (hScope : scope.Natural m (Inside origin ('\x7d' :: stack) n) scope' (AtBrace origin stack n)) :
    Parser.Natural m (Within origin stack n) (spacedBody scope) (spacedBody scope')
      (List.map (·.movedBy m.before)) (Within origin stack n) :=
  (natural_lexeme spacing_natural_past).bind fun _ => body_natural hScope

theorem scopeOf_natural {loop loop' : Scope} {Q : Cursor → Prop}
    (hLoop : loop.Natural m (Inside origin stack n) loop' Q) :
    (scopeOf loop).Natural m (Inside origin stack n) (scopeOf loop') Q := by
  constructor
  · intro c x hc
    obtain ⟨hSkip, -, hNext, -⟩ := hc.spacing m
    have hMoves := hLoop.moves c.skipSpacing x hNext
    have hCount : ((m.context (loop c.skipSpacing x).2).errors.length == (m.context x).errors.length) =
        ((loop c.skipSpacing x).2.errors.length == x.errors.length) := by
      rw [Bool.eq_iff_iff, beq_iff_eq, beq_iff_eq]
      simp [Move.context]
    rw [scopeOf_eq, scopeOf_eq, hSkip, hMoves]
    simp only [List.isEmpty_map, hCount]
    split
    · exact congrArg (Prod.mk _) (m.context_report (.grammar ⟨_, .noCommand⟩))
    · rfl
  · intro c x hc
    have hEnds := hLoop.ends c.skipSpacing x (hc.spacing m).2.2.1
    rw [scopeOf_eq]
    split <;> exact hEnds

/-! ## Commands -/

theorem commandHead_natural (hBound : n ≤ n' + 1) :
    Parser.Natural m (Inside origin stack n) commandHead commandHead (·.movedBy m.before)
      (Within origin stack n') :=
  ((natural_lexeme (name_natural hBound)).labeled _).located.bind fun (_, _) =>
    (natural_lexeme requiredSpacing_natural).bind fun _ =>
      ((natural_lexeme key_natural).labeled _).bind fun _ => (natural_lexeme spacing_natural).bind fun _ =>
        (attributes_natural.labeled _).bind fun _ => natural_pure (by
          rw [Declaration.movedBy_eq]
          rfl)

theorem command_natural (hBound : n ≤ n' + 1)
    (hScope : scope.Natural m (Inside origin ('\x7d' :: stack) n') scope' (AtBrace origin stack n')) :
    Parser.Natural m (Inside origin stack n) (command scope) (command scope') (·.movedBy m.before)
      (Within origin stack n') :=
  (commandHead_natural hBound).bind fun head =>
    ((spacedBody_natural hScope).optional fun _ hc => hc).bind fun body =>
      natural_pure (by rw [Declaration.movedBy_eq, Declaration.movedBy_eq])

end Body

/-! ## Separators -/

theorem separator_natural :
    Parser.Natural m (Within origin stack n) separator separator id (Past origin stack n) := by
  have hSemicolon : Parser.Natural m (Within origin stack n) semicolon semicolon id (Inside origin stack n) :=
    (natural_lexeme spacing_natural_past).bind fun _ => (natural_lexeme (semicolon_natural rfl)).bind fun _ =>
      (natural_lexeme spacing_natural).bind fun _ => natural_pure rfl
  exact (hSemicolon.weaken (fun _ hc => hc) fun _ => Inside.past).orElse (natural_lexeme lineBreak_natural)

theorem separator_of_mark (hMark : c.peek? = some ';' ∨ c.peek? = some '\n') (x : Context) :
    ∃ next y, separator c x = (.ok next, y) := by
  obtain ⟨⟨⟩ | ⟨mark, rest⟩, position⟩ := c
  · rcases hMark with hMark | hMark <;> cases hMark
  · rcases hMark with hMark | hMark
    · obtain rfl : mark = ';' := by simpa [Cursor.peek?] using hMark
      have hBefore : Cursor.SpacingTo ⟨';' :: rest, position⟩ [] ⟨';' :: rest, position⟩ :=
        Cursor.spacingTo_self (by simp; decide)
      have hRead : separator.Yields _ () _ :=
        (semicolon_yields hBefore (Cursor.passes_cons rfl) (Cursor.spacingTo_skipSpacing _)).orElse
      obtain ⟨y, hOk, -⟩ := hRead x
      exact ⟨_, y, hOk⟩
    · obtain rfl : mark = '\n' := by simpa [Cursor.peek?] using hMark
      have hLine : '\n' ∈ ('\n' :: rest).take (spacingLength false ('\n' :: rest)) := by
        rw [spacingLength_blank isBlank_newline, Nat.add_comm]
        exact List.mem_cons_self
      have hBreak := lineBreak_yields (Cursor.spacingTo_skipSpacing ⟨'\n' :: rest, position⟩) hLine
      change ∃ next y, Parser.orElse semicolon (fun _ => lineBreak.parser) _ x = _
      unfold Parser.orElse
      rcases semicolon ⟨'\n' :: rest, position⟩ x with ⟨⟨failure⟩ | result, y⟩
      · obtain ⟨z, hOk, -⟩ := hBreak y
        refine ⟨(Cursor.skipSpacing ⟨'\n' :: rest, position⟩, ()), z, ?_⟩
        simp only [hOk]
      · exact ⟨result, y, rfl⟩

theorem SeparatorTo.length_lt (h : SeparatorTo c d) : d.rest.length < c.rest.length := by
  cases h with
  | semicolon hBefore hSemicolon hBehind =>
    have hFirst := hBefore.reaches.length_le
    have hMark := hSemicolon.length_eq
    have hLast := hBehind.reaches.length_le
    simp at hMark
    omega
  | line hSpacing hLine =>
    have hLength := hSpacing.passes.length_eq
    have hSome := List.length_pos_of_mem hLine
    omega

theorem Within.inside_of_refused {failure : Failure} (h : Within origin stack n c)
    (hRefused : separator c x = (.error failure, y)) : Inside origin stack n c := by
  rcases h.inside_or with hInside | ⟨-, hRest, -⟩
  · exact hInside
  · obtain ⟨next, z, hOk⟩ := separator_of_mark (c := c) (.inr (by rw [Cursor.peek?, hRest]; rfl)) x
    rw [hOk] at hRefused
    cases hRefused

theorem atEnd_moves (h : c.rest ≠ []) : atEnd inBody (m.cursor c) = atEnd inBody c := by
  rw [atEnd, m.cursor_isEmpty h, m.cursor_peek? h, atEnd]

theorem afterCommand_natural (hc : Within origin stack n c) :
    afterCommand inBody (m.cursor c) (m.context x) =
        (m.cursor (afterCommand inBody c x).1, m.context (afterCommand inBody c x).2) ∧
      Past origin stack n (afterCommand inBody c x).1 := by
  have hMoves := (@separator_natural origin stack n m).moves c x hc
  have hEnds := (@separator_natural origin stack n m).ends c x
  unfold afterCommand
  rw [hMoves]
  rcases hEq : separator c x with ⟨⟨failure⟩ | ⟨next, u⟩, y⟩
  · obtain ⟨hSkip, -, hNext, -⟩ := (hc.inside_of_refused hEq).spacing m
    refine ⟨?_, hNext.past⟩
    simp only [Move.outcome, hSkip, atEnd_moves (ne_nil_of_line hNext.line_mem)]
    split
    · rfl
    · exact congrArg (Prod.mk _) (m.context_report (.grammar failure))
  · exact ⟨rfl, hEnds next u y hc hEq⟩

/-! ## Recovery -/

theorem endsCommand_cases {mark : Char} (h : endsCommand inBody mark = true) :
    mark = ';' ∨ mark = '\n' ∨ (inBody = true ∧ mark = '\x7d') := by
  simpa [endsCommand, or_assoc] using h

theorem reportBroken_moves (failure : Failure) (x : Context) :
    reportBroken (failure.movedBy m.before) (m.context x) = m.context (reportBroken failure x) := by
  obtain ⟨errors, furthest⟩ := x
  have hFurthest : (furthest.map (·.movedBy m.before)).getD (failure.movedBy m.before) =
      (furthest.getD failure).movedBy m.before := by
    cases furthest <;> rfl
  simp only [reportBroken, Move.context, Context.report, hFurthest, Option.map_none, List.map_append]
  rw [List.append_assoc]
  rfl

/-- In a chunk recovery stops at what ends a command of the scope, whatever follows the chunk. -/
theorem Inside.recover (hScoped : Scoped inBody stack) (hc : Inside origin stack n c) :
    (∀ tail, recoveryLength inBody 0 (c.rest ++ tail) = recoveryLength inBody 0 c.rest) ∧
      recoveryLength inBody 0 c.rest ≤ c.rest.length ∧ Within origin stack n (c.recover inBody) ∧
        ∀ z ∈ (c.recover inBody).peek?, endsCommand inBody z = true := by
  obtain ⟨text, -, hAt⟩ := hc
  obtain ⟨run, rest, rfl, hCloses, hEnds, hLength⟩ :=
    @Closes.recovery _ _ _ [] hScoped hAt.closes
  have hCount : recoveryLength inBody 0 c.rest = run.length := by
    rw [hAt.rest]
    exact hLength []
  have hPasses : c.Passes run (c.recover inBody) := by
    rw [Cursor.recover, hCount]
    exact Cursor.passes_skip ⟨rest ++ ['\n'], by simp [hAt.rest]⟩
  have hNext := hAt.passes rfl hPasses hCloses (Nat.le_add_right n _)
  refine ⟨fun tail => ?_, ?_, ⟨rest, hNext⟩, ?_⟩
  · rw [hCount, hAt.rest, List.append_assoc]
    exact hLength tail
  · rw [hCount, hPasses.length_eq]
    omega
  · rw [Cursor.peek?, hNext.rest]
    cases rest with
    | nil =>
      intro z hz
      obtain rfl : '\n' = z := by simpa using hz
      cases inBody <;> rfl
    | cons z rest => simpa using hEnds

theorem cursor_recover (hScoped : Scoped inBody stack) (hc : Inside origin stack n c) :
    (m.cursor c).recover inBody = m.cursor (c.recover inBody) := by
  obtain ⟨hMoved, hLength, -⟩ := hc.recover hScoped
  have hSame : recoveryLength inBody 0 (m.cursor c).rest = recoveryLength inBody 0 c.rest := hMoved m.tail
  rw [Cursor.recover, hSame, m.cursor_skip hLength]
  rfl

theorem afterFailure_natural (hScoped : Scoped inBody stack) (hc : Inside origin stack n c) :
    afterFailure inBody (m.cursor c) (m.context x) =
        (m.cursor (afterFailure inBody c x).1, m.context (afterFailure inBody c x).2) ∧
      Past origin stack n (afterFailure inBody c x).1 := by
  have hRecover := @cursor_recover _ _ _ _ m _ hScoped hc
  obtain ⟨-, -, hSkipped, -⟩ := hc.recover hScoped
  have hMoves := (@separator_natural origin stack n m).moves (c.recover inBody) x hSkipped
  have hPast := (@separator_natural origin stack n m).ends (c.recover inBody) x
  unfold afterFailure
  simp only [hRecover]
  rw [hMoves]
  rcases hEq : separator (c.recover inBody) x with ⟨⟨failure⟩ | ⟨next, u⟩, y⟩
  · obtain ⟨hSkip, -, hNext, -⟩ := (hSkipped.inside_of_refused hEq).spacing m
    exact ⟨by simp only [Move.outcome, hSkip], hNext.past⟩
  · exact ⟨rfl, hPast next u y hSkipped hEq⟩

/-! ## Behind a broken command -/

theorem recoveryLength_pos {k : Char} {rest : List Char} (hEnds : ¬ endsCommand inBody k = true) :
    0 < recoveryLength inBody 0 (k :: rest) := by
  rw [recoveryLength]
  simp only [hEnds, Bool.and_false, Bool.false_eq_true, if_false]
  split
  · omega
  · split
    · omega
    · omega

/-- Recovery passes something, or it stands at a separator. -/
theorem recover_advances (hEnd : ¬ atEnd inBody c = true) :
    (c.recover inBody).rest.length < c.rest.length ∨
      (c.recover inBody).peek? = some ';' ∨ (c.recover inBody).peek? = some '\n' := by
  cases hRest : c.rest with
  | nil => exact absurd (by simp [atEnd, Cursor.isEmpty, hRest]) hEnd
  | cons k rest =>
    have hPeek : c.peek? = some k := by rw [Cursor.peek?, hRest, List.head?_cons]
    by_cases hEnds : endsCommand inBody k = true
    · have hStays : c.recover inBody = c := by
        rw [Cursor.recover, hRest, recoveryLength]
        simp [hEnds]
      rw [hStays, hPeek]
      rcases endsCommand_cases hEnds with rfl | rfl | ⟨rfl, rfl⟩
      · exact .inr (.inl rfl)
      · exact .inr (.inr rfl)
      · exact absurd (by simp [atEnd, hPeek]) hEnd
    · have hPast := @recoveryLength_pos inBody k rest hEnds
      left
      rw [Cursor.recover, Cursor.rest_skip, hRest, List.length_drop, List.length_cons]
      omega

/-- Behind a broken command the scope goes on further ahead, also where recovery stays at a separator. -/
theorem afterFailure_advances (hEnd : ¬ atEnd inBody c = true) (x : Context) :
    c.Reaches (afterFailure inBody c x).1 ∧ (afterFailure inBody c x).1.rest.length < c.rest.length := by
  have hSkipped := c.reaches_recover inBody
  have hForward := hSkipped.length_le
  unfold afterFailure
  simp only
  split
  · rename_i hEq
    have hSeparator := separator_sound hEq
    exact ⟨hSkipped.trans hSeparator.reaches, Nat.lt_of_lt_of_le hSeparator.length_lt hForward⟩
  · rename_i failure y hEq
    have hSpacing := (c.recover inBody).reaches_skipSpacing
    refine ⟨hSkipped.trans hSpacing, ?_⟩
    rcases recover_advances hEnd with hLess | hMark
    · exact Nat.lt_of_le_of_lt hSpacing.length_le hLess
    · obtain ⟨result, y, hOk⟩ := separator_of_mark hMark x
      rw [hOk] at hEq
      cases hEq

/-! ## The loop over commands -/

theorem Past.inside_of_not_atEnd (h : Past origin stack n c) (hEnd : ¬ atEnd inBody c = true) :
    Inside origin stack n c := by
  rcases h with hInside | ⟨-, hRest, -⟩
  · exact hInside
  · exact absurd (by simp [atEnd, Cursor.isEmpty, hRest]) hEnd

theorem Past.mono (h : Past origin stack n c) (hBound : n ≤ n') : Past origin stack n' c := by
  rcases h with hInside | hEnd
  · exact (hInside.mono (Nat.le_trans hInside.length_le hBound)).past
  · exact .inr hEnd

theorem Past.of_length (h : Past origin stack n c) (hBound : c.rest.length ≤ n') : Past origin stack n' c := by
  rcases h with hInside | hEnd
  · exact (hInside.mono hBound).past
  · exact .inr hEnd

theorem Past.atBrace (h : Past origin ('\x7d' :: stack) n c) (hEnd : atEnd true c = true) :
    AtBrace origin stack n c := by
  have hInside := h.inside (List.cons_ne_nil _ _)
  have hSome := ne_nil_of_line hInside.line_mem
  refine ⟨hInside, ?_⟩
  simpa [atEnd, Cursor.isEmpty, hSome] using hEnd

/-- Behind the place where one loop has ended, the loop over the moved text goes on. -/
def Resumes (m : Move) (inBody : Bool) (result moved : (Cursor × List Declaration) × Context) : Prop :=
  ∃ left, m.tail.length < left ∧
    moved =
      let more := commandsWithin left inBody (m.cursor result.1.1) (m.context result.2)
      ((more.1.1, result.1.2.map (·.movedBy m.before) ++ more.1.2), more.2)

theorem Resumes.cons {next : (Cursor × List Declaration) × Context} {moved : (Cursor × List Declaration) × Context}
    (h : Resumes m inBody next moved) (declaration : Declaration) :
    Resumes m inBody ((next.1.1, declaration :: next.1.2), next.2)
      ((moved.1.1, declaration.movedBy m.before :: moved.1.2), moved.2) := by
  obtain ⟨left, hLeft, rfl⟩ := h
  exact ⟨left, hLeft, rfl⟩

/-- From places in the scope on, the loop ends where the scope ends in the chunk, and the loop over the moved
text resumes there. -/
def Continues (m : Move) (origin : Cursor) (stack : List Char) (inBody : Bool) (n bound bound' : Nat) : Prop :=
  ∀ c x, Past origin stack n c →
    atEnd inBody (commandsWithin bound inBody c x).1.1 = true ∧
      Past origin stack n (commandsWithin bound inBody c x).1.1 ∧
        Resumes m inBody (commandsWithin bound inBody c x)
          (commandsWithin bound' inBody (m.cursor c) (m.context x))

/-- In a body nothing is left to resume. -/
theorem Continues.natural {bound bound' : Nat} (h : Continues m origin ('\x7d' :: stack) true n bound bound') :
    (commandsWithin bound true).Natural m (Inside origin ('\x7d' :: stack) n) (commandsWithin bound' true)
      (AtBrace origin stack n) := by
  constructor
  · intro c x hc
    obtain ⟨hLast, hPast, left, -, hMoved⟩ := h c x hc.past
    have hSome := ne_nil_of_line (hPast.atBrace hLast).1.line_mem
    rw [hMoved, commandsWithin_atEnd (by rwa [atEnd_moves hSome])]
    simp only [List.append_nil]
  · intro c x hc
    obtain ⟨hLast, hPast, -⟩ := h c x hc.past
    exact hPast.atBrace hLast

/-- The loop over a scope does the same where the chunk is moved, with bounds that outweigh the text. -/
theorem commandsWithin_continues {bound bound' : Nat} (hScoped : Scoped inBody stack) (hBound : n < bound)
    (hBound' : n + m.tail.length < bound') : Continues m origin stack inBody n bound bound' := by
  induction bound generalizing bound' inBody stack n with
  | zero => omega
  | succ bound ih =>
    intro c x hc
    by_cases hEnd : atEnd inBody c = true
    · rw [commandsWithin_atEnd hEnd]
      exact ⟨hEnd, hc, bound', by omega, rfl⟩
    · have hInside := hc.inside_of_not_atEnd hEnd
      obtain ⟨n, rfl⟩ : ∃ k, n = k + 1 := by
        cases n with
        | zero => exact absurd hInside (not_inside_zero c)
        | succ n => exact ⟨n, rfl⟩
      obtain ⟨bound', rfl⟩ : ∃ k, bound' = k + 1 := ⟨bound' - 1, by omega⟩
      -- A command takes a character at least, so that bodies and the rest of the scope need one less of either bound.
      have hBody : Continues m origin ('\x7d' :: stack) true n bound bound' :=
        ih .body (by omega) (by omega)
      have hRest : Continues m origin stack inBody n bound bound' := ih hScoped (by omega) (by omega)
      have hCommand := command_natural (Nat.le_refl (n + 1)) (scopeOf_natural hBody.natural)
      have hMoves := hCommand.moves c x.forget hInside
      have hEnds := hCommand.ends c x.forget
      have hGoes : ¬ atEnd inBody (m.cursor c) = true := by
        rwa [atEnd_moves (ne_nil_of_line hInside.line_mem)]
      rcases hEq : command (scopeOf (commandsWithin bound true)) c x.forget with ⟨⟨failure⟩ | ⟨next, declaration⟩, y⟩
      · rw [hEq] at hMoves
        have hRead := commandsWithin_failure (x := m.context x) hGoes hMoves
        rw [commandsWithin_failure hEnd hEq, hRead, reportBroken_moves]
        obtain ⟨hAfter, hPast⟩ :=
          @afterFailure_natural origin c stack (n + 1) m (reportBroken failure y) inBody hScoped hInside
        have hLess := (afterFailure_advances hEnd (reportBroken failure y)).2
        have hLength := hInside.length_le
        obtain ⟨hLast, hNext, hResumes⟩ := hRest _ (afterFailure inBody c (reportBroken failure y)).2
          (hPast.of_length (by omega))
        simp only [hAfter]
        exact ⟨hLast, hNext.mono (Nat.le_succ n), hResumes⟩
      · rw [hEq] at hMoves
        have hRead := commandsWithin_command (x := m.context x) hGoes hMoves
        rw [commandsWithin_command hEnd hEq, hRead]
        obtain ⟨hAfter, hPast⟩ :=
          @afterCommand_natural origin next stack n m y inBody (hEnds next declaration y hInside hEq)
        obtain ⟨hLast, hNext, hResumes⟩ := hRest _ (afterCommand inBody next y).2 hPast
        simp only [hAfter]
        exact ⟨hLast, hNext.mono (Nat.le_succ n), hResumes.cons declaration⟩

end DialogTree
