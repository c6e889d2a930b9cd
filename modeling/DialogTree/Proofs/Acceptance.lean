import DialogTree.Proofs.Completeness.Commands

/-!
# The accepted documents

A document is read without a report exactly when its text derives, and what is read is what it derives.
-/

namespace DialogTree

open DialogTree.Parser Grammar

variable {c d : Cursor} {x : Context} {declarations : List Declaration}

/-! ## The header -/

theorem version_silent : version.Silent :=
  ((keeps_lexeme _).orElse (keeps_lexeme _)).bind fun _ => (keeps_lexeme _).bind fun _ =>
    (keeps_lexeme _).located.bind fun _ => (keeps_lexeme _).bind fun _ =>
      (keeps_lexeme _).optional.bind fun _ => (keeps_lexeme _).bind fun _ => keeps_pure _

theorem version_sound {position : Position} {z : Context}
    (h : version c x = (.ok (d, position, supportedVersion), z)) : HeaderTo c d := by
  unfold version at h
  obtain ⟨b₁, word, _, hWord, h⟩ := bind_ok h
  obtain ⟨b₂, _, _, hSpacing, h⟩ := bind_ok h
  obtain ⟨b₃, found, _, hVersion, h⟩ := bind_ok h
  obtain ⟨b₄, _, _, hBefore, h⟩ := bind_ok h
  obtain ⟨b₅, _, _, hSemicolon, h⟩ := bind_ok h
  obtain ⟨b₆, _, _, hBehind, h⟩ := bind_ok h
  obtain ⟨hFound, rfl, rfl⟩ := pure_ok h
  obtain ⟨n, rfl, hNatural⟩ := located_ok hVersion
  cases hFound
  obtain ⟨s, hSpacing, hRequired⟩ := requiredSpacing_parsed hSpacing
  obtain ⟨t, hBefore⟩ := spacing_parsed hBefore
  obtain ⟨u, hBehind⟩ := spacing_parsed hBehind
  have hDigits := natural_ten_ok_iff.mp (lexeme_ok_iff.mp hNatural).1
  have hSign := optional_literal_parsed hSemicolon
  rcases orElse_ok hWord with hWord | ⟨_, hWord⟩
  · exact .intro (.inl rfl) (literal_parsed hWord) hSpacing hRequired hDigits hBefore hSign hBehind
  · exact .intro (.inr rfl) (literal_parsed hWord) hSpacing hRequired hDigits hBefore hSign hBehind

theorem versionWord_yields {s : List Char} {word : String} {b : Cursor} (hWord : word = "version" ∨ word = "v")
    (hPasses : c.Passes word.toList b) (hSpacing : b.SpacingTo s d) (hRequired : s ≠ []) :
    ((literal "version").parser <|> (literal "v").parser).Yields c word b := by
  rcases hWord with rfl | rfl
  · exact (literal_yields _ hPasses).orElse
  · -- Spacing follows the short word, and no further letter of the long one.
    refine Refuses.orElse (literal_refuses _ ?_) (literal_yields _ hPasses)
    intro e hLong
    have hText : 'v' :: b.rest = 'v' :: ('e' :: ['r', 's', 'i', 'o', 'n'] ++ e.rest) :=
      hPasses.1.symm.trans hLong.1
    have hRun := hSpacing.run.head
    cases s with
    | nil => exact hRequired rfl
    | cons x s =>
      have hStart := hSpacing.passes.1
      rw [List.cons.inj hText |>.2] at hStart
      obtain rfl : 'e' = x := by simpa using congrArg List.head? hStart
      exact absurd (hRun 'e' rfl) (by decide)

theorem HeaderTo.yields (h : HeaderTo c d) (hEnd : ∀ e, ¬ d.Passes [';'] e) :
    ∃ position, version.Yields c (position, supportedVersion) d := by
  cases h with
  | @intro b₁ b₂ b₃ b₄ b₅ _ s t u word hWord hPasses hSpacing hRequired hVersion hBefore hSemicolon
      hBehind =>
    have hOptional : ∃ o, (literal ";").parser.optional.Yields b₄ o b₅ := by
      rcases hSemicolon with hSemicolon | rfl
      · exact ⟨_, (literal_yields ";" hSemicolon).optional⟩
      · have hSame : d = b₅ := hBehind.eq.trans (Cursor.skipSpacing_of_stops hBefore.run.stops)
        rw [hSame] at hEnd
        exact ⟨_, (literal_refuses ";" hEnd).optional⟩
    obtain ⟨o, hOptional⟩ := hOptional
    have hDigits : (natural .ten).parser.Yields b₂ supportedVersion b₃ :=
      yields_lexeme (natural_ten_ok_iff.mpr hVersion)
    exact ⟨b₂.position, (versionWord_yields hWord hPasses hSpacing hRequired).bind
      ((requiredSpacing_yields hSpacing hRequired).bind (hDigits.located.bind ((spacing_yields hBefore).bind
        (hOptional.bind ((spacing_yields hBehind).bind (yields_pure d _))))))⟩

theorem header_sound (hSilent : (header c x).2.errors = x.errors) : HeaderTo c (header c x).1 := by
  have hVersion := version_silent.grows c x
  unfold header at hSilent ⊢
  split
  · rename_i next position found y hEq
    rw [hEq] at hSilent hVersion
    simp only at hSilent
    by_cases hFound : found = supportedVersion
    · subst hFound
      exact version_sound hEq
    · rw [if_neg hFound] at hSilent
      exact absurd hSilent (report_not_silent hVersion _)
  · rename_i failure y hEq
    rw [hEq] at hSilent hVersion
    exact absurd hSilent (report_not_silent hVersion _)

theorem HeaderTo.header_eq (h : HeaderTo c d) (hEnd : ∀ e, ¬ d.Passes [';'] e) (x : Context) :
    ∃ y, header c x = (d, y) ∧ y.errors = x.errors := by
  obtain ⟨position, hYields⟩ := h.yields hEnd
  obtain ⟨y, hRead, hSilent⟩ := hYields x
  refine ⟨y, ?_, hSilent⟩
  rw [header, hRead]
  simp

/-! ## Documents -/

theorem scope_sound {inBody : Bool} (hSilent : (scope inBody c x).2.errors = x.errors) :
    ScopeTo (scope inBody c x).1.2 c (scope inBody c x).1.1 ∧
      atEnd inBody (scope inBody c x).1.1 = true := by
  have hForward := (Cursor.spacingTo_skipSpacing c).reaches.length_le
  have hGrows := commandsWithin_grows (c.rest.length + 1) inBody
  exact scopeOf_sound hGrows (fun h => commandsWithin_sound _ (by omega) h) hSilent

theorem scope_grows (inBody : Bool) : (scope inBody).Grows :=
  fun c => scopeOf_grows (commandsWithin_grows (c.rest.length + 1) inBody) c

theorem derives_of_document {source : String} (h : (document source).2 = []) :
    Derives source (document source).1 := by
  rw [document_eq] at h ⊢
  have hScope := scope_grows false (header (Cursor.ofText source).skipSpacing .empty).1
    (header (Cursor.ofText source).skipSpacing .empty).2
  simp only at h ⊢
  rw [h] at hScope
  have hQuiet := List.prefix_nil.mp hScope
  obtain ⟨hDerived, hEnd⟩ := scope_sound (h.trans hQuiet.symm)
  simp only [atEnd, Cursor.isEmpty, Bool.false_and, Bool.or_false, List.isEmpty_iff] at hEnd
  exact .intro (Cursor.spacingTo_skipSpacing _) (header_sound hQuiet) hDerived hEnd

theorem ScopeTo.starts {e : Cursor} (h : ScopeTo declarations c d)
    (hStops : ∀ x ∈ c.rest.head?, startsSpacing x = false) : ¬ c.Passes [';'] e := by
  cases h with
  | intro hSpacing hFirst _ =>
    rw [hSpacing.eq, Cursor.skipSpacing_of_stops hStops] at hFirst
    exact hFirst.not_passes (by decide) e

theorem HeaderTo.stops (h : HeaderTo c d) : ∀ x ∈ d.rest.head?, startsSpacing x = false := by
  cases h with
  | intro _ _ _ _ _ _ _ hBehind => exact hBehind.run.stops

theorem document_of_derives {source : String} (h : Derives source declarations) :
    document source = (declarations, []) := by
  cases h with
  | @intro b₁ b₂ d s _ hSpacing hHeader hScope hEnd =>
    have hLast : atEnd false d = true := by
      rw [atEnd, Cursor.isEmpty, hEnd]
      rfl
    obtain ⟨y, hRead, hSilent⟩ := hHeader.header_eq (fun _ => hScope.starts hHeader.stops) .empty
    obtain ⟨z, hDeclared, hQuiet⟩ := hScope.gives hLast y
    rw [document_eq, ← hSpacing.eq, hRead]
    simp only [hDeclared]
    rw [hQuiet, hSilent]
    rfl

/-- A text is read without a report exactly when it derives, and it then denotes what was read. -/
theorem document_accepts (source : String) :
    ((document source).2 = [] ↔ ∃ declarations, Derives source declarations) ∧
      ∀ declarations, Derives source declarations → (document source).1 = declarations := by
  refine ⟨⟨?_, ?_⟩, ?_⟩
  · intro h
    exact ⟨_, derives_of_document h⟩
  · rintro ⟨declarations, h⟩
    rw [document_of_derives h]
  · intro declarations h
    rw [document_of_derives h]

end DialogTree
