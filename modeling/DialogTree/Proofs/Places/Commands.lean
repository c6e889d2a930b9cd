import DialogTree.Proofs.Places.Parsers
import DialogTree.Proofs.Reports

/-!
# Commands keep to their text

Every rule of the document grammar keeps behind the origin of its text, and the declarations that it gives,
their attributes and the commands in their bodies have positions there.
-/

namespace DialogTree

open DialogTree.Parser Grammar

/-- The positions of a declaration, of its attributes and of all that is nested in it. -/
inductive Declaration.Within (origin : Cursor) : Declaration → Prop where
  | intro {name keyword : String} {position : Option Position} {attributes : List DeclaredAttribute}
      {body : Option (List Declaration)} (hPosition : origin.Covers position)
      (hAttributes : ∀ item ∈ attributes, origin.Covers item.position)
      (hBody : ∀ inner ∈ body, ∀ declaration ∈ inner, declaration.Within origin) :
      Declaration.Within origin ⟨name, keyword, position, attributes, body⟩

variable {origin : Cursor}

/-! ## Values and attributes -/

theorem within_delimited {α : Type} {p : Parser α} {V : α → Prop} (opening closing : String)
    (hp : p.Within origin V) : (delimited opening p closing).Within origin fun items => ∀ a ∈ items, V a := by
  have hFollowing : (following p).Within origin V :=
    (within_lexeme spacing_forward).bind fun _ _ => (within_lexeme (literal_forward ",")).bind fun _ _ =>
      (within_lexeme spacing_forward).bind fun _ _ => hp
  have hSeparated : (separated p).Within origin fun items => ∀ a ∈ items, V a := by
    refine hp.bind fun first hFirst => hFollowing.many.bind fun rest hRest =>
      (within_lexeme spacing_forward).bind fun _ _ =>
        (within_lexeme (literal_forward ",")).optional.bind fun _ _ => within_pure fun a ha => ?_
    rcases List.mem_cons.mp ha with rfl | ha
    · exact hFirst
    · exact hRest a ha
  refine (within_lexeme (literal_forward opening)).bind fun _ _ => (within_lexeme spacing_forward).bind fun _ _ =>
    hSeparated.optional.bind fun found hFound => (within_lexeme spacing_forward).bind fun _ _ =>
      (within_lexeme (literal_forward closing)).bind fun _ _ => within_pure ?_
  cases found with
  | none => exact fun a ha => absurd ha List.not_mem_nil
  | some items => exact hFound items rfl

theorem valueWithin_within (n : Nat) : (valueWithin n).Within origin fun _ => True := by
  induction n with
  | zero => exact fun c x hc hx => ⟨hc.covers, hx⟩
  | succ n ih =>
    have hAny {α : Type} {p : Parser α} {V : α → Prop} {f : α → Value} (hp : p.Within origin V) :
        (f <$> p).Within origin fun _ => True := hp.map fun _ _ => trivial
    exact ((hAny (within_lexeme quotedString_forward)).orElse ((hAny (within_lexeme rawString_forward)).orElse
      ((hAny (within_lexeme boolean_forward)).orElse ((hAny (within_lexeme floatLiteral_forward)).orElse
        ((hAny (within_lexeme integerLiteral_forward)).orElse (hAny (within_delimited "[" "]" ih))))))).labeled _

theorem value_within : value.Within origin fun _ => True :=
  fun c => valueWithin_within (c.rest.length + 1) c

theorem declaredAttribute_within : declaredAttribute.Within origin fun item => origin.Covers item.position :=
  ((within_lexeme (identifier_forward _ _)).labeled _).located.bind fun _ hKey =>
    (within_lexeme spacing_forward).bind fun _ _ => (within_lexeme (literal_forward "=")).bind fun _ _ =>
      (within_lexeme spacing_forward).bind fun _ _ => value_within.bind fun _ _ => within_pure hKey.1

/-! ## Commands -/

theorem commandHead_within : commandHead.Within origin fun head => head.Within origin :=
  ((within_lexeme (identifier_forward _ _)).labeled _).located.bind fun _ hName =>
    (within_lexeme requiredSpacing_forward).bind fun _ _ =>
      ((within_lexeme (identifier_forward _ _)).labeled _).bind fun _ _ =>
        (within_lexeme spacing_forward).bind fun _ _ =>
          ((within_delimited "(" ")" declaredAttribute_within).labeled _).bind fun _ hAttributes =>
            within_pure (.intro hName.1 hAttributes fun _ h => by cases h)

def Grammar.Scope.Within (origin : Cursor) (scope : Scope) : Prop :=
  ∀ c x, origin.Reaches c → x.Within origin →
    (origin.Reaches (scope c x).1.1 ∧ ∀ declaration ∈ (scope c x).1.2, declaration.Within origin) ∧
      (scope c x).2.Within origin

variable {scope : Scope}

theorem body_within (hScope : scope.Within origin) :
    (body scope).Within origin fun declarations => ∀ declaration ∈ declarations, declaration.Within origin := by
  intro c x hc hx
  have hBrace := within_lexeme (literal_forward "\x7b") c x hc hx
  unfold body
  split
  · rename_i hEq
    rwa [hEq] at hBrace
  · rename_i inner _ y hEq
    rw [hEq] at hBrace
    obtain ⟨⟨hLast, hCommands⟩, hy⟩ := hScope inner y hBrace.1.1 hBrace.2
    simp only
    split
    · exact ⟨⟨hLast.trans (Cursor.reaches_skip _ 1), hCommands⟩, hy⟩
    · exact ⟨⟨hLast, hCommands⟩, hy.report hc.covers⟩

theorem command_within (hScope : scope.Within origin) :
    (command scope).Within origin fun declaration => declaration.Within origin := by
  have hBody := (within_lexeme spacing_forward).bind fun _ _ => body_within hScope
  refine commandHead_within.bind fun head hHead => hBody.optional.bind fun body hInner => within_pure ?_
  cases hHead with
  | intro hPosition hAttributes _ => exact .intro hPosition hAttributes hInner

theorem separator_within : separator.Within origin fun _ => True :=
  ((within_lexeme spacing_forward).bind fun _ _ => (within_lexeme (literal_forward ";")).bind fun _ _ =>
    (within_lexeme spacing_forward).bind fun _ _ => within_pure trivial).orElse (within_lexeme lineBreak_forward)

/-! ## Scopes -/

theorem scopeOf_within (hScope : scope.Within origin) : (scopeOf scope).Within origin := by
  intro c x hc hx
  obtain ⟨⟨hLast, hCommands⟩, hy⟩ := hScope c.skipSpacing x (hc.trans c.reaches_skipSpacing) hx
  unfold scopeOf
  simp only
  split
  · exact ⟨⟨hLast, hCommands⟩, hy.report hLast.covers⟩
  · exact ⟨⟨hLast, hCommands⟩, hy⟩

variable {c : Cursor} {x : Context}

theorem afterCommand_within (inBody : Bool) (hc : origin.Reaches c) (hx : x.Within origin) :
    origin.Reaches (afterCommand inBody c x).1 ∧ (afterCommand inBody c x).2.Within origin := by
  have hSeparator := separator_within c x hc hx
  unfold afterCommand
  split
  · rename_i hEq
    rw [hEq] at hSeparator
    exact ⟨hSeparator.1.1, hSeparator.2⟩
  · rename_i failure y hEq
    rw [hEq] at hSeparator
    refine ⟨hc.trans c.reaches_skipSpacing, ?_⟩
    simp only
    split
    · exact hSeparator.2
    · exact hSeparator.2.report hSeparator.1

theorem reportBroken_within {failure : Failure} (hFailure : origin.Covers failure.position) (hx : x.Within origin) :
    (reportBroken failure x).Within origin := by
  refine hx.forget.report ?_
  cases hFurthest : x.furthest with
  | none => exact hFailure
  | some best => exact hx.furthest best hFurthest

theorem afterFailure_within (inBody : Bool) (hc : origin.Reaches c) (hx : x.Within origin) :
    origin.Reaches (afterFailure inBody c x).1 ∧ (afterFailure inBody c x).2.Within origin := by
  have hSkipped := hc.trans (c.reaches_recover inBody)
  have hSeparator := separator_within (c.recover inBody) x hSkipped hx
  unfold afterFailure
  simp only
  split
  · rename_i hEq
    rw [hEq] at hSeparator
    exact ⟨hSeparator.1.1, hSeparator.2⟩
  · rename_i hEq
    rw [hEq] at hSeparator
    exact ⟨hSkipped.trans (Cursor.reaches_skipSpacing _), hSeparator.2⟩

theorem commandsWithin_within (n : Nat) (inBody : Bool) : (commandsWithin n inBody).Within origin := by
  induction n generalizing inBody with
  | zero => exact fun c x hc hx => ⟨⟨hc, fun _ h => absurd h List.not_mem_nil⟩, hx⟩
  | succ n ih =>
    intro c x hc hx
    have hCommand := command_within (scopeOf_within (ih true)) c x.forget hc hx.forget
    unfold commandsWithin
    split
    · exact ⟨⟨hc, fun _ h => absurd h List.not_mem_nil⟩, hx⟩
    · split
      · rename_i next declaration y hEq
        rw [hEq] at hCommand
        obtain ⟨hNext, hAfter⟩ := afterCommand_within inBody hCommand.1.1 hCommand.2
        obtain ⟨⟨hLast, hRest⟩, hz⟩ := ih inBody _ _ hNext hAfter
        refine ⟨⟨hLast, fun d hd => ?_⟩, hz⟩
        rcases List.mem_cons.mp hd with rfl | hd
        · exact hCommand.1.2
        · exact hRest d hd
      · rename_i failure y hEq
        rw [hEq] at hCommand
        obtain ⟨hNext, hAfter⟩ := afterFailure_within inBody hc (reportBroken_within hCommand.1 hCommand.2)
        exact ih inBody _ _ hNext hAfter

/-! ## Documents -/

theorem version_within : version.Within origin fun found => origin.Covers found.1 :=
  ((within_lexeme (literal_forward "version")).orElse (within_lexeme (literal_forward "v"))).bind fun _ _ =>
    (within_lexeme requiredSpacing_forward).bind fun _ _ =>
      (within_lexeme (natural_forward .ten)).located.bind fun _ hFound =>
        (within_lexeme spacing_forward).bind fun _ _ => (within_lexeme (literal_forward ";")).optional.bind fun _ _ =>
          (within_lexeme spacing_forward).bind fun _ _ => within_pure hFound.1

theorem header_within (hc : origin.Reaches c) (hx : x.Within origin) :
    origin.Reaches (header c x).1 ∧ (header c x).2.Within origin := by
  have hVersion := version_within c x hc hx
  unfold header
  split
  · rename_i next position found y hEq
    rw [hEq] at hVersion
    refine ⟨hVersion.1.1, ?_⟩
    split
    · exact hVersion.2
    · exact hVersion.2.report hVersion.1.2
  · rename_i failure y hEq
    rw [hEq] at hVersion
    exact ⟨hc, hVersion.2.report hc.covers⟩

theorem scope_within (inBody : Bool) : (Grammar.scope inBody).Within origin :=
  fun c => scopeOf_within (commandsWithin_within (c.rest.length + 1) inBody) c

/-- Every declaration of a document and everything reported for its text has a place in the text. -/
theorem document_within (source : String) :
    (∀ declaration ∈ (document source).1, declaration.Within (Cursor.ofText source)) ∧
      ∀ error ∈ (document source).2, (Cursor.ofText source).Covers error.position := by
  obtain ⟨hStart, hHeader⟩ := header_within (Cursor.ofText source).reaches_skipSpacing (Context.within_empty _)
  obtain ⟨⟨-, hDeclarations⟩, hScope⟩ := scope_within false _ _ hStart hHeader
  simp only [document_eq]
  exact ⟨hDeclarations, hScope.errors⟩

end DialogTree
