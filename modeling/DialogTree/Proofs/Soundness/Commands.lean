import DialogTree.Proofs.Reports
import DialogTree.Proofs.Soundness.Values

/-!
# What is read without a report derives

A command, a scope or a document may be read although something in it is broken, so that a derivation
exists only when nothing was reported. Reports are never taken back: when there is none in the end there was
none on the way.
-/

namespace DialogTree

open DialogTree.Parser

variable {c d b : Cursor} {x y z : Context} {declarations rest : List Declaration}

open Grammar

variable {scope : Scope}

/-! ## Commands -/

theorem requiredSpacing_parsed {found : Spacing} (h : requiredSpacing.parser c x = (.ok (d, found), z)) :
    ∃ s, c.SpacingTo s d ∧ s ≠ [] := by
  have hOk := (lexeme_ok_iff.mp h).1
  unfold requiredSpacing at hOk
  split at hOk
  · rename_i hConsumed
    cases hOk
    have hSpacing := Cursor.spacingTo_skipSpacing c
    rw [hSpacing.consumed] at hConsumed
    exact ⟨_, hSpacing, by simpa using hConsumed⟩
  · cases hOk

theorem semicolon_parsed {u : Unit} (h : semicolon c x = (.ok (d, u), z)) : SeparatorTo c d := by
  unfold semicolon at h
  obtain ⟨b₁, _, _, hBefore, h⟩ := bind_ok h
  obtain ⟨b₂, _, _, hSemicolon, h⟩ := bind_ok h
  obtain ⟨b₃, _, _, hBehind, h⟩ := bind_ok h
  obtain ⟨-, rfl, rfl⟩ := pure_ok h
  obtain ⟨s, hBefore⟩ := spacing_parsed hBefore
  obtain ⟨t, hBehind⟩ := spacing_parsed hBehind
  exact .semicolon hBefore (literal_parsed hSemicolon) hBehind

theorem separator_sound {u : Unit} (h : separator c x = (.ok (d, u), z)) : SeparatorTo c d := by
  unfold separator at h
  rcases orElse_ok h with h | ⟨_, h⟩
  · exact semicolon_parsed h
  · have hOk := (lexeme_ok_iff.mp h).1
    unfold lineBreak at hOk
    split at hOk
    · rename_i hNewline
      cases hOk
      have hSpacing := Cursor.spacingTo_skipSpacing c
      rw [hSpacing.newline] at hNewline
      exact .line hSpacing (by simpa using hNewline)
    · cases hOk

theorem SeparatorTo.reaches (h : SeparatorTo c d) : c.Reaches d := by
  cases h with
  | semicolon hBefore hSemicolon hBehind =>
    exact hBefore.reaches.trans (hSemicolon.reaches.trans hBehind.reaches)
  | line hSpacing _ => exact hSpacing.reaches

theorem WordTo.length_lt {lead body : Char → Bool} {word : String} (h : WordTo lead body word c d) :
    d.rest.length < c.rest.length := by
  cases h with
  | intro hFirst _ hRun =>
    have hPast := hFirst.length_eq
    have hForward := hRun.passes.reaches.length_le
    simp at hPast
    omega

theorem HeadTo.length_lt {name keyword : String} {attributes : List DeclaredAttribute}
    (h : HeadTo name keyword attributes c d) : d.rest.length < c.rest.length := by
  cases h with
  | intro hName hSpacing _ hKeyword hBefore hAttributes =>
    have hFirst := hName.length_lt
    have hRest := (hSpacing.reaches.trans (hKeyword.reaches.trans hBefore.reaches)).length_le
    have hList := (hAttributes.reaches fun _ _ _ _ h => AttributeTo.reaches h).length_le
    omega

theorem commandHead_sound {head : Declaration} (h : commandHead c x = (.ok (d, head), z)) :
    HeadTo head.name head.keyword head.attributes c d ∧ head.position = some c.position := by
  unfold commandHead at h
  obtain ⟨b₁, ⟨position, name⟩, _, hName, h⟩ := bind_ok h
  obtain ⟨b₂, _, _, hSpacing, h⟩ := bind_ok h
  obtain ⟨b₃, keyword, _, hKeyword, h⟩ := bind_ok h
  obtain ⟨b₄, _, _, hBefore, h⟩ := bind_ok h
  obtain ⟨b₅, attributes, _, hAttributes, h⟩ := bind_ok h
  obtain ⟨rfl, rfl, rfl⟩ := pure_ok h
  obtain ⟨name', hPair, hName⟩ := located_ok hName
  cases hPair
  obtain ⟨s, hSpacing, hRequired⟩ := requiredSpacing_parsed hSpacing
  obtain ⟨t, hBefore⟩ := spacing_parsed hBefore
  have hName := identifier_ok_iff.mp (lexeme_ok_iff.mp (labeled_ok hName)).1
  have hKeyword := identifier_ok_iff.mp (lexeme_ok_iff.mp (labeled_ok hKeyword)).1
  exact ⟨.intro hName hSpacing hRequired hKeyword hBefore (attributes_sound (labeled_ok hAttributes)), rfl⟩

/-- Every scope behind the cursor derives when it is read without a report. -/
def SoundBehind (scope : Scope) (cursor : Cursor) : Prop :=
  ∀ c x, c.rest.length < cursor.rest.length → (scope c x).2.errors = x.errors →
    ScopeTo (scope c x).1.2 c (scope c x).1.1

theorem body_sound (hGrows : scope.Grows) (hScope : SoundBehind scope c)
    (h : body scope c x = (.ok (d, declarations), z)) (hSilent : z.errors = x.errors) :
    ∃ b₁ b₂, c.Passes ['\x7b'] b₁ ∧ ScopeTo declarations b₁ b₂ ∧ b₂.Passes ['\x7d'] d := by
  unfold body at h
  split at h
  · cases h
  · rename_i inner _ y hLiteral
    obtain ⟨hOk, rfl⟩ := lexeme_ok_iff.mp hLiteral
    have hOpening : c.Passes ['\x7b'] inner := (literal_ok_iff.mp hOk).1
    have hPast := hOpening.length_eq
    simp only at h
    split at h
    · rename_i hLast
      cases h
      obtain ⟨rest, hRest⟩ := List.head?_eq_some_iff.mp hLast
      exact ⟨_, _, hOpening, hScope _ _ (by simp at hPast; omega) hSilent, Cursor.passes_cons hRest⟩
    · cases h
      exact absurd hSilent (report_not_silent (hGrows inner y) _)

theorem command_sound {declaration : Declaration} (hGrows : scope.Grows) (hScope : SoundBehind scope c)
    (h : command scope c x = (.ok (d, declaration), z)) (hSilent : z.errors = x.errors) :
    CommandTo declaration c d := by
  unfold command at h
  obtain ⟨b, head, y, hRead, h⟩ := bind_ok h
  obtain ⟨e, body, w, hBody, h⟩ := bind_ok h
  obtain ⟨rfl, rfl, rfl⟩ := pure_ok h
  obtain ⟨hHead, hPosition⟩ := commandHead_sound hRead
  -- The head of a command reports nothing, so that the body is read without a report too.
  have hQuiet : y.errors = x.errors := by
    have hSame := commandHead_silent c x
    rw [hRead] at hSame
    exact hSame.symm
  obtain ⟨name, keyword, position, attributes, none'⟩ := head
  cases hPosition
  rcases optional_ok hBody with ⟨declarations, rfl, hSome⟩ | ⟨rfl, rfl⟩
  · unfold spacedBody at hSome
    obtain ⟨b₂, _, y', hRun, hInner⟩ := bind_ok hSome
    obtain ⟨s, hSpacing⟩ := spacing_parsed hRun
    obtain ⟨-, rfl⟩ := lexeme_ok_iff.mp hRun
    have hShorter : SoundBehind scope b₂ := by
      intro c' x' hLength
      have hForward := hSpacing.reaches.length_le
      have hPast := hHead.length_lt
      exact hScope c' x' (by omega)
    obtain ⟨b₃, b₄, hOpening, hBody, hClosing⟩ :=
      body_sound hGrows hShorter hInner (hSilent.trans hQuiet.symm)
    exact .body hHead hSpacing hOpening hBody hClosing
  · exact .bare hHead

mutual

theorem CommandTo.length_lt {declaration : Declaration} {c d : Cursor}
    (h : CommandTo declaration c d) : d.rest.length < c.rest.length := by
  cases h with
  | bare hHead => exact hHead.length_lt
  | body hHead hSpacing hOpening hBody hClosing =>
    have hPast := hHead.length_lt
    have hForward := (hSpacing.reaches.trans hOpening.reaches).length_le
    have hInner := ScopeTo.length_lt hBody
    have hEnd := hClosing.reaches.length_le
    omega
termination_by sizeOf declaration

theorem ScopeTo.length_lt {declarations : List Declaration} {c d : Cursor}
    (h : ScopeTo declarations c d) : d.rest.length < c.rest.length := by
  cases h with
  | intro hSpacing hFirst hRest =>
    have hForward := hSpacing.reaches.length_le
    have hCommand := CommandTo.length_lt hFirst
    have hTail := TailTo.length_le hRest
    omega
termination_by sizeOf declarations

theorem TailTo.length_le {declarations : List Declaration} {c d : Cursor}
    (h : TailTo declarations c d) : d.rest.length ≤ c.rest.length := by
  cases h with
  | next hSeparator hCommand hRest =>
    have hForward := hSeparator.reaches.length_le
    have hFirst := CommandTo.length_lt hCommand
    have hTail := TailTo.length_le hRest
    omega
  | separator hSeparator => exact hSeparator.reaches.length_le
  | spacing hSpacing => exact hSpacing.reaches.length_le
termination_by sizeOf declarations

end

/-! ## Scopes -/

inductive ListTo : List Declaration → Cursor → Cursor → Prop where
  | none {c : Cursor} : ListTo [] c c
  | commands {c b d : Cursor} {first : Declaration} {rest : List Declaration}
      (hFirst : CommandTo first c b) (hRest : TailTo rest b d) : ListTo (first :: rest) c d

/-- Behind a command that was read, a separator leads on, or the scope ends. -/
theorem afterCommand_sound {inBody : Bool} (hSilent : (afterCommand inBody c x).2.errors = x.errors) :
    let d := (afterCommand inBody c x).1
    SeparatorTo c d ∨ (∃ s, c.SpacingTo s d) ∧ atEnd inBody d = true := by
  unfold afterCommand at hSilent ⊢
  have hQuiet := separator_silent c x
  split
  · rename_i hEq
    exact .inl (separator_sound hEq)
  · rename_i failure y hEq
    simp only [hEq] at hSilent hQuiet
    refine .inr ⟨⟨_, Cursor.spacingTo_skipSpacing c⟩, ?_⟩
    by_cases hEnd : atEnd inBody c.skipSpacing = true
    · exact hEnd
    · simp only [hEnd] at hSilent
      rw [hQuiet] at hSilent
      exact absurd hSilent (report_not_silent (List.prefix_refl _) _)

theorem scopeOf_of_silent {loop : Scope} (hGrows : loop.Grows)
    (hSilent : (scopeOf loop c x).2.errors = x.errors) :
    scopeOf loop c x = loop c.skipSpacing x ∧ (loop c.skipSpacing x).1.2 ≠ [] := by
  have hPrefix := hGrows c.skipSpacing x
  rw [scopeOf_eq] at hSilent ⊢
  split at hSilent
  · exact absurd hSilent (report_not_silent hPrefix _)
  · rename_i hFound
    rw [if_neg hFound]
    rw [hSilent, beq_self_eq_true, Bool.and_true, List.isEmpty_iff] at hFound
    exact ⟨rfl, hFound⟩

theorem scopeOf_sound {loop : Scope} {inBody : Bool} (hGrows : loop.Grows)
    (hLoop : (loop c.skipSpacing x).2.errors = x.errors →
      ListTo (loop c.skipSpacing x).1.2 c.skipSpacing (loop c.skipSpacing x).1.1 ∧
        atEnd inBody (loop c.skipSpacing x).1.1 = true)
    (hSilent : (scopeOf loop c x).2.errors = x.errors) :
    ScopeTo (scopeOf loop c x).1.2 c (scopeOf loop c x).1.1 ∧
      atEnd inBody (scopeOf loop c x).1.1 = true := by
  obtain ⟨hSame, hSome⟩ := scopeOf_of_silent hGrows hSilent
  rw [hSame] at hSilent ⊢
  obtain ⟨hList, hEnd⟩ := hLoop hSilent
  refine ⟨?_, hEnd⟩
  cases hCommands : (loop c.skipSpacing x).1.2 with
  | nil => exact absurd hCommands hSome
  | cons first rest =>
    rw [hCommands] at hList
    cases hList with
    | commands hFirst hRest => exact .intro (Cursor.spacingTo_skipSpacing c) hFirst hRest

theorem ListTo.behind {declarations : List Declaration} (hSeparator : SeparatorTo c b)
    (h : ListTo declarations b d) : TailTo declarations c d := by
  cases h with
  | none => exact .separator hSeparator
  | commands hFirst hRest => exact .next hSeparator hFirst hRest

section Loop

variable {n : Nat} {inBody : Bool}

theorem command_prefix {result : Except Failure (Cursor × Declaration)}
    (hRead : command (scopeOf (commandsWithin n true)) c x.forget = (result, y)) : x.errors <+: y.errors := by
  have hCommand := command_grows (scopeOf_grows (commandsWithin_grows n true)) c x.forget
  rwa [hRead] at hCommand

/-- A command that fails is reported, and the report stays. -/
theorem commandsWithin_reports {failure : Failure} (hEnd : ¬ atEnd inBody c = true)
    (hRead : command (scopeOf (commandsWithin n true)) c x.forget = (.error failure, y)) :
    (commandsWithin (n + 1) inBody c x).2.errors ≠ x.errors := by
  intro hSilent
  have hFirst := command_prefix hRead
  rw [commandsWithin_failure hEnd hRead] at hSilent
  have hReport := (afterFailure_grows inBody c (reportBroken failure y)).trans
    (commandsWithin_grows n inBody (afterFailure inBody c (reportBroken failure y)).1 _)
  rw [hSilent] at hReport
  have hSame := List.IsPrefix.eq_of_length_le hReport
    (hFirst.trans (report_grows { y with furthest := none } _)).length_le
  exact absurd hSame (report_not_silent hFirst _)

/-- When the loop reports nothing, neither does the command, what follows it, or the rest of the scope. -/
theorem commandsWithin_quiet {next : Cursor} {declaration : Declaration}
    (hRead : command (scopeOf (commandsWithin n true)) c x.forget = (.ok (next, declaration), y))
    (hSilent : (commandsWithin n inBody (afterCommand inBody next y).1 (afterCommand inBody next y).2).2.errors =
      x.errors) :
    y.errors = x.errors ∧ (afterCommand inBody next y).2.errors = x.errors := by
  have hFirst := command_prefix hRead
  have hAfter := afterCommand_grows inBody next y
  have hRest := commandsWithin_grows n inBody (afterCommand inBody next y).1 (afterCommand inBody next y).2
  rw [hSilent] at hRest
  have hQuietAfter := List.IsPrefix.eq_of_length_le hRest (hFirst.trans hAfter).length_le
  rw [hQuietAfter] at hAfter
  exact ⟨List.IsPrefix.eq_of_length_le hAfter hFirst.length_le, hQuietAfter⟩

end Loop

theorem commandsWithin_sound (n : Nat) {inBody : Bool} {c : Cursor} {x : Context}
    (hLength : c.rest.length < n) (hSilent : (commandsWithin n inBody c x).2.errors = x.errors) :
    ListTo (commandsWithin n inBody c x).1.2 c (commandsWithin n inBody c x).1.1 ∧
      atEnd inBody (commandsWithin n inBody c x).1.1 = true := by
  -- The bound drops with every command and for every body, so one induction covers what follows and what is inside.
  induction n generalizing inBody c x with
  | zero => omega
  | succ n ih =>
    by_cases hEnd : atEnd inBody c = true
    · rw [commandsWithin_atEnd hEnd]
      exact ⟨.none, hEnd⟩
    have hScope : SoundBehind (scopeOf (commandsWithin n true)) c := by
      intro b y hShorter hQuiet
      have hForward := (Cursor.spacingTo_skipSpacing b).reaches.length_le
      exact (scopeOf_sound (commandsWithin_grows n true) (fun h => ih (by omega) h) hQuiet).1
    cases hRead : command (scopeOf (commandsWithin n true)) c x.forget with
    | mk result y =>
      cases result with
      | error failure => exact absurd hSilent (commandsWithin_reports hEnd hRead)
      | ok result =>
        obtain ⟨next, declaration⟩ := result
        rw [commandsWithin_command hEnd hRead] at hSilent ⊢
        obtain ⟨hQuiet, hQuietAfter⟩ := commandsWithin_quiet hRead hSilent
        have hCommand := command_sound (scopeOf_grows (commandsWithin_grows n true)) hScope hRead hQuiet
        have hPast := hCommand.length_lt
        rcases afterCommand_sound (hQuietAfter.trans hQuiet.symm) with hSeparator | ⟨⟨s, hSpacing⟩, hLast⟩
        · have hForward := hSeparator.reaches.length_le
          obtain ⟨hList, hLast⟩ := ih (by omega) (hSilent.trans hQuietAfter.symm)
          exact ⟨.commands hCommand (hList.behind hSeparator), hLast⟩
        · rw [commandsWithin_atEnd hLast]
          exact ⟨.commands hCommand (.spacing hSpacing), hLast⟩

end DialogTree
