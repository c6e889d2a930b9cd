import DialogTree.Proofs.Completeness.Values
import DialogTree.Proofs.Soundness.Commands

/-!
# Commands that derive are read

The text behind a command decides what the reader does there: a semicolon, a name or the end of the scope
stands behind the spacing, so that no body is begun by mistake and no line end is passed over that separates
two commands.
-/

namespace DialogTree

open DialogTree.Parser Grammar

variable {c d b : Cursor} {declarations rest : List Declaration}

/-! ## Where a command begins -/

def Cursor.AtName (cursor : Cursor) : Prop :=
  ∃ x rest, cursor.rest = x :: rest ∧ isNameChar x = true

theorem CommandTo.head {declaration : Declaration} (h : CommandTo declaration c d) : c.AtName := by
  have hName : ∀ {name keyword attributes e}, HeadTo name keyword attributes c e → c.AtName := by
    intro name keyword attributes e hHead
    cases hHead with
    | intro hName _ _ _ _ _ =>
      cases hName with
      | intro hFirst hLead _ => exact ⟨_, _, hFirst.1, hLead⟩
  cases h with
  | bare hHead => exact hName hHead
  | body hHead _ _ _ _ => exact hName hHead

theorem Cursor.AtName.not_passes (h : c.AtName) {x : Char} (hx : isNameChar x = false) (e : Cursor) :
    ¬ c.Passes [x] e := by
  intro hPasses
  obtain ⟨y, rest, hRest, hName⟩ := h
  have hSame : x :: e.rest = y :: rest := hPasses.1.symm.trans hRest
  cases hSame
  simp [hx] at hName

theorem Cursor.AtName.not_atEnd (h : c.AtName) (inBody : Bool) : ¬ atEnd inBody c = true := by
  obtain ⟨y, rest, hRest, hName⟩ := h
  have hBrace : y ≠ '\x7d' := by
    rintro rfl
    exact absurd hName (by decide)
  simp [atEnd, Cursor.isEmpty, Cursor.peek?, hRest, hBrace]

theorem CommandTo.not_passes {declaration : Declaration} (h : CommandTo declaration c d) {x : Char}
    (hx : isNameChar x = false) (e : Cursor) : ¬ c.Passes [x] e :=
  h.head.not_passes hx e

theorem CommandTo.not_atEnd {declaration : Declaration} (h : CommandTo declaration c d) (inBody : Bool) :
    ¬ atEnd inBody c = true :=
  h.head.not_atEnd inBody

theorem atEnd_not_passes {inBody : Bool} (h : atEnd inBody c = true) {x : Char} (hx : x ≠ '\x7d')
    (e : Cursor) : ¬ c.Passes [x] e := by
  intro hPasses
  simp [atEnd, Cursor.isEmpty, Cursor.peek?, hPasses.1, hx] at h

theorem startsSpacing_of_isNameChar {x : Char} (h : isNameChar x = true) : startsSpacing x = false := by
  have hHash : x ≠ '#' := by
    rintro rfl
    exact absurd h (by decide)
  simp only [isNameChar, Bool.and_eq_true, Bool.not_eq_true'] at h
  simp [startsSpacing, h.1.1, hHash]

theorem Cursor.AtName.stops (h : c.AtName) : ∀ x ∈ c.rest.head?, startsSpacing x = false := by
  obtain ⟨y, rest, hRest, hName⟩ := h
  intro x hx
  rw [hRest] at hx
  obtain rfl : y = x := by simpa using hx
  exact startsSpacing_of_isNameChar hName

theorem CommandTo.stops {declaration : Declaration} (h : CommandTo declaration c d) :
    ∀ x ∈ c.rest.head?, startsSpacing x = false :=
  h.head.stops

/-! ## Separators -/

theorem semicolon_yields {s t : List Char} {b₁ b₂ : Cursor} (hBefore : c.SpacingTo s b₁)
    (hSemicolon : b₁.Passes [';'] b₂) (hBehind : b₂.SpacingTo t d) : semicolon.Yields c () d :=
  (spacing_yields hBefore).bind ((literal_yields ";" hSemicolon).bind
    ((spacing_yields hBehind).bind (yields_pure d ())))

theorem semicolon_refuses {s : List Char} (hSpacing : c.SpacingTo s d)
    (h : ∀ e, ¬ d.Passes [';'] e) : semicolon.Refuses c :=
  (spacing_yields hSpacing).bind_refuses (literal_refuses ";" h).bind

theorem lineBreak_yields {s : List Char} (hSpacing : c.SpacingTo s d) (hLine : '\n' ∈ s) :
    lineBreak.parser.Yields c () d := by
  apply yields_lexeme
  have hNewline : c.spacing.newline = true := by
    rw [hSpacing.newline]
    simpa using hLine
  rw [lineBreak, if_pos hNewline, hSpacing.eq]

theorem SeparatorTo.yields (h : SeparatorTo c d) (hEnd : ∀ e, ¬ d.Passes [';'] e) :
    separator.Yields c () d := by
  cases h with
  | semicolon hBefore hSemicolon hBehind => exact (semicolon_yields hBefore hSemicolon hBehind).orElse
  | line hSpacing hLine =>
    exact (semicolon_refuses hSpacing hEnd).orElse (lineBreak_yields hSpacing hLine)

variable {inBody : Bool}

theorem afterCommand_of_separator (h : SeparatorTo c d) (hEnd : ∀ e, ¬ d.Passes [';'] e)
    (inBody : Bool) (x : Context) : ∃ y, afterCommand inBody c x = (d, y) ∧ y.errors = x.errors := by
  obtain ⟨y, hRead, hSilent⟩ := h.yields hEnd x
  refine ⟨y, ?_, hSilent⟩
  rw [afterCommand, hRead]

/-- In front of the end of a scope mere spacing is enough, also when it happens to hold a line end. -/
theorem afterCommand_of_spacing {s : List Char} (h : c.SpacingTo s d) (hEnd : atEnd inBody d = true)
    (x : Context) : ∃ y, afterCommand inBody c x = (d, y) ∧ y.errors = x.errors := by
  have hSilent := separator_silent c x
  cases hRead : separator c x with
  | mk result y =>
    rw [hRead] at hSilent
    cases result with
    | ok result =>
      obtain ⟨next, u⟩ := result
      have hNext : next = d := by
        cases separator_sound hRead with
        | semicolon hBefore hSemicolon _ =>
          rw [hBefore.eq, ← h.eq] at hSemicolon
          exact absurd hSemicolon (atEnd_not_passes hEnd (by decide) _)
        | line hSpacing _ => rw [hSpacing.eq, h.eq]
      refine ⟨y, ?_, hSilent.symm⟩
      rw [afterCommand, hRead, hNext]
    | error failure =>
      refine ⟨y, ?_, hSilent.symm⟩
      rw [afterCommand, hRead, ← h.eq]
      simp [hEnd]

/-! ## Scopes -/

/-- The scope gives the declarations and reports nothing, in every context. -/
def Grammar.Scope.Gives (scope : Scope) (c : Cursor) (declarations : List Declaration) (d : Cursor) : Prop :=
  ∀ x, ∃ y, scope c x = ((d, declarations), y) ∧ y.errors = x.errors

variable {scope : Scope}

theorem body_yields {b₁ b₂ : Cursor} (hOpening : c.Passes ['\x7b'] b₁)
    (hScope : scope.Gives b₁ declarations b₂) (hClosing : b₂.Passes ['\x7d'] d) :
    (body scope).Yields c declarations d := by
  intro x
  obtain ⟨y, hRead, hSilent⟩ := hScope x
  refine ⟨y, ?_, hSilent⟩
  have hLiteral : (literal "\x7b").parser c x = (.ok (b₁, "\x7b"), x) :=
    lexeme_ok_iff.mpr ⟨literal_ok_iff.mpr ⟨hOpening, rfl⟩, rfl⟩
  have hLast : b₂.peek? = some '\x7d' := by simp [Cursor.peek?, hClosing.1]
  rw [body, hLiteral]
  simp only [hRead, hLast, if_true, hClosing.eq_skip]
  rfl

theorem requiredSpacing_yields {s : List Char} (h : c.SpacingTo s d) (hRequired : s ≠ []) :
    requiredSpacing.parser.Yields c c.spacing d := by
  apply yields_lexeme
  have hConsumed : c.spacing.consumed = true := by
    rw [h.consumed]
    simpa using hRequired
  rw [requiredSpacing, if_pos hConsumed, h.eq]

theorem HeadTo.yields {name keyword : String} {attributes : List DeclaredAttribute}
    (h : HeadTo name keyword attributes c d) :
    commandHead.Yields c ⟨name, keyword, some c.position, attributes, none⟩ d := by
  cases h with
  | intro hName hSpacing hRequired hKeyword hBefore hAttributes =>
    exact (identifier_yields hName).labeled.located.bind ((requiredSpacing_yields hSpacing hRequired).bind
      ((identifier_yields hKeyword).labeled.bind ((spacing_yields hBefore).bind
        ((attributes_yields hAttributes).labeled.bind (yields_pure d _)))))

theorem CommandTo.yields {declaration : Declaration} (h : CommandTo declaration c d)
    (hScope : ∀ {declarations b e}, ScopeTo declarations b e → b.rest.length < c.rest.length →
      (∃ f, e.Passes ['\x7d'] f) → scope.Gives b declarations e)
    (hBehind : ∀ e, ¬ d.skipSpacing.Passes ['\x7b'] e) : (command scope).Yields c declaration d := by
  cases h with
  | bare hHead =>
    have hSpacing := Cursor.spacingTo_skipSpacing d
    have hNone : (spacedBody scope).Refuses d := by
      apply (spacing_yields hSpacing).bind_refuses
      intro x
      obtain ⟨failure, y, hRefused, hSilent⟩ := literal_refuses "\x7b" hBehind x
      exact ⟨failure, y, by rw [Grammar.body, hRefused], hSilent⟩
    exact hHead.yields.bind (hNone.optional.bind (yields_pure d _))
  | body hHead hSpacing hOpening hBody hClosing =>
    have hPast := hHead.length_lt
    have hForward := (hSpacing.reaches.trans hOpening.reaches).length_le
    have hInner := hScope hBody (by omega) ⟨d, hClosing⟩
    have hSome : (spacedBody scope).Yields _ _ d :=
      (spacing_yields hSpacing).bind (body_yields hOpening hInner hClosing)
    exact hHead.yields.bind (hSome.optional.bind (yields_pure d _))

/-- Behind a command stands no opening brace. -/
theorem TailTo.not_brace (h : TailTo rest c d) (hEnd : atEnd inBody d = true) (e : Cursor) :
    ¬ c.skipSpacing.Passes ['\x7b'] e := by
  have hSeparator : ∀ {b}, SeparatorTo c b → (∀ e, ¬ b.Passes ['\x7b'] e) →
      ¬ c.skipSpacing.Passes ['\x7b'] e := by
    intro b hSeparator hNext hBrace
    cases hSeparator with
    | semicolon hBefore hSemicolon _ =>
      rw [← hBefore.eq] at hBrace
      exact absurd (hBrace.head_eq hSemicolon) (by decide)
    | line hSpacing _ =>
      rw [← hSpacing.eq] at hBrace
      exact hNext e hBrace
  cases h with
  | next hBetween hCommand _ => exact hSeparator hBetween (hCommand.not_passes (by decide))
  | separator hBetween => exact hSeparator hBetween (atEnd_not_passes hEnd (by decide))
  | spacing hSpacing =>
    rw [← hSpacing.eq]
    exact atEnd_not_passes hEnd (by decide) e

theorem scopeOf_gives {loop : Scope} (hList : declarations ≠ [])
    (hLoop : loop.Gives c.skipSpacing declarations d) : (scopeOf loop).Gives c declarations d := by
  intro x
  obtain ⟨y, hRead, hSilent⟩ := hLoop x
  refine ⟨y, ?_, hSilent⟩
  rw [scopeOf_eq, hRead]
  simp [hList]

theorem commandsWithin_gives (n : Nat) {first : Declaration} {c d b : Cursor} {rest : List Declaration}
    {inBody : Bool} (hLength : c.rest.length < n) (hFirst : CommandTo first c b) (hRest : TailTo rest b d)
    (hEnd : atEnd inBody d = true) : (commandsWithin n inBody).Gives c (first :: rest) d := by
  induction n generalizing first c d b rest inBody with
  | zero => omega
  | succ n ih =>
    -- Bodies begin further on than their command, so that the bound for what is left covers them.
    have hBodies : ∀ {declarations b e}, ScopeTo declarations b e → b.rest.length < c.rest.length →
        (∃ f, e.Passes ['\x7d'] f) → (scopeOf (commandsWithin n true)).Gives b declarations e := by
      intro declarations b e hScope hShorter hClosing
      obtain ⟨f, hClosing⟩ := hClosing
      have hLast : atEnd true e = true := by simp [atEnd, Cursor.peek?, hClosing.1]
      cases hScope with
      | intro hSpacing hInner hMore =>
        have hForward := hSpacing.reaches.length_le
        apply scopeOf_gives (List.cons_ne_nil _ _)
        rw [← hSpacing.eq]
        exact ih (by omega) hInner hMore hLast
    intro x
    have hPast := hFirst.length_lt
    obtain ⟨y, hRead, hSilent⟩ := hFirst.yields hBodies (hRest.not_brace hEnd) x.forget
    rw [commandsWithin_command (hFirst.not_atEnd inBody) hRead]
    cases hRest with
    | next hSeparator hNext hMore =>
      obtain ⟨z, hAfter, hQuiet⟩ :=
        afterCommand_of_separator hSeparator (hNext.not_passes (by decide)) inBody y
      have hForward := hSeparator.reaches.length_le
      obtain ⟨w, hOthers, hLast⟩ := ih (by omega) hNext hMore hEnd z
      refine ⟨w, ?_, hLast.trans (hQuiet.trans hSilent)⟩
      simp only [hAfter, hOthers]
    | separator hSeparator =>
      obtain ⟨z, hAfter, hQuiet⟩ :=
        afterCommand_of_separator hSeparator (atEnd_not_passes hEnd (by decide)) inBody y
      refine ⟨z, ?_, hQuiet.trans hSilent⟩
      simp only [hAfter, commandsWithin_atEnd hEnd]
    | spacing hSpacing =>
      obtain ⟨z, hAfter, hQuiet⟩ := afterCommand_of_spacing hSpacing hEnd y
      refine ⟨z, ?_, hQuiet.trans hSilent⟩
      simp only [hAfter, commandsWithin_atEnd hEnd]

theorem ScopeTo.gives (h : ScopeTo declarations c d) (hEnd : atEnd inBody d = true) :
    (Grammar.scope inBody).Gives c declarations d := by
  cases h with
  | intro hSpacing hFirst hRest =>
    have hForward := hSpacing.reaches.length_le
    have hLoop := commandsWithin_gives (c.rest.length + 1) (by omega) hFirst hRest hEnd
    rw [hSpacing.eq] at hLoop
    exact scopeOf_gives (List.cons_ne_nil _ _) hLoop

end DialogTree
