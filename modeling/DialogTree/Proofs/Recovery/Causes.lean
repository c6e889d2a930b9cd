import DialogTree.Grammar
import DialogTree.Proofs.Outcomes

/-!
# Causes of failures

No reader fails because a body is not closed. So that is reported by bodies alone, and never as the furthest failure
of a broken command.
-/

namespace DialogTree

open DialogTree.Parser Grammar

def Failure.OfReading (failure : Failure) : Prop := failure.cause ≠ .unclosedBody

def Context.OfReading (x : Context) : Prop := ∀ failure ∈ x.furthest, failure.OfReading

def Lexeme.OfReading {α : Type} (l : Lexeme α) : Prop := ∀ c failure, l c = .error failure → failure.OfReading

/-- The parser does not fail because a body is not closed, nor does it come to keep such a failure. -/
def Parser.OfReading {α : Type} (p : Parser α) : Prop :=
  ∀ c x, (∀ failure, (p c x).1 = .error failure → failure.OfReading) ∧ (x.OfReading → (p c x).2.OfReading)

/-! ## Combinators -/

namespace Context

variable {x : Context} {failure : Failure}

theorem ofReading_keep (errors : List Diagnostic) (hFailure : failure.OfReading) :
    Context.OfReading ⟨errors, some failure⟩ := by
  rintro other ⟨⟩
  exact hFailure

theorem OfReading.note (hx : x.OfReading) (hFailure : failure.OfReading) : (x.note failure).OfReading := by
  unfold Context.note
  split
  · exact ofReading_keep x.errors hFailure
  · split
    · exact ofReading_keep x.errors hFailure
    · exact hx

theorem OfReading.relabel (hx : x.OfReading) (hFailure : failure.OfReading) : (x.relabel failure).OfReading := by
  unfold Context.relabel
  split
  · exact ofReading_keep x.errors hFailure
  · split
    · exact ofReading_keep x.errors hFailure
    · exact hx

theorem ofReading_forget (x : Context) : x.forget.OfReading := by rintro failure ⟨⟩

end Context

namespace Parser

variable {α β : Type} {p q : Parser α}

theorem ofReading_lexeme {l : Lexeme α} (hl : l.OfReading) : l.parser.OfReading := by
  intro c x
  unfold Lexeme.parser
  split
  · exact ⟨by rintro failure ⟨⟩, id⟩
  · rename_i failure hEq
    have hFailure := hl c failure hEq
    exact ⟨by rintro other ⟨⟩; exact hFailure, fun hx => hx.note hFailure⟩

theorem ofReading_pure (a : α) : (pure a : Parser α).OfReading := fun _ _ => ⟨by rintro failure ⟨⟩, id⟩

theorem OfReading.bind {f : α → Parser β} (hp : p.OfReading) (hf : ∀ a, (f a).OfReading) : (p >>= f).OfReading := by
  intro c x
  change (∀ failure, (Parser.bind p f c x).1 = .error failure → failure.OfReading) ∧
    (x.OfReading → (Parser.bind p f c x).2.OfReading)
  have h := hp c x
  unfold Parser.bind
  split
  · rename_i next a y hEq
    rw [hEq] at h
    have hNext := hf a next y
    exact ⟨hNext.1, fun hx => hNext.2 (h.2 hx)⟩
  · rename_i failure y hEq
    rw [hEq] at h
    exact ⟨by rintro other ⟨⟩; exact h.1 failure rfl, h.2⟩

theorem OfReading.map {f : α → β} (hp : p.OfReading) : (f <$> p).OfReading :=
  OfReading.bind (f := fun a => pure (f a)) hp fun a => ofReading_pure (f a)

theorem OfReading.orElse (hp : p.OfReading) (hq : q.OfReading) : (p <|> q).OfReading := by
  intro c x
  change (∀ failure, (Parser.orElse p (fun _ => q) c x).1 = .error failure → failure.OfReading) ∧
    (x.OfReading → (Parser.orElse p (fun _ => q) c x).2.OfReading)
  have h := hp c x
  unfold Parser.orElse
  split
  · rename_i hEq
    rw [hEq] at h
    exact ⟨by rintro failure ⟨⟩, h.2⟩
  · rename_i first y hEq
    rw [hEq] at h
    have h' := hq c y
    split
    · rename_i hEq'
      rw [show q c y = _ from hEq'] at h'
      exact ⟨by rintro failure ⟨⟩, fun hx => h'.2 (h.2 hx)⟩
    · rename_i second z hEq'
      rw [show q c y = _ from hEq'] at h'
      refine ⟨?_, fun hx => h'.2 (h.2 hx)⟩
      rintro failure ⟨⟩
      unfold Failure.furthest
      split
      · exact h'.1 second rfl
      · exact h.1 first rfl

theorem OfReading.optional (hp : p.OfReading) : p.optional.OfReading := by
  intro c x
  have h := hp c x
  unfold Parser.optional
  split
  · rename_i hEq
    rw [hEq] at h
    exact ⟨by rintro failure ⟨⟩, h.2⟩
  · rename_i hEq
    rw [hEq] at h
    exact ⟨by rintro failure ⟨⟩, h.2⟩

theorem OfReading.many (hp : p.OfReading) : p.many.OfReading := by
  intro c x
  refine ⟨by rintro failure ⟨⟩, ?_⟩
  change x.OfReading → (p.collect c x).2.OfReading
  have h := hp c x
  fun_induction Parser.collect p c x with
  | case1 c x failure y hEq =>
    rw [hEq] at h
    exact h.2
  | case2 c x next a y hEq hNext last items z hRest ih =>
    rw [hEq] at h
    have hLast := ih (hp next y)
    rw [hRest] at hLast
    exact fun hx => hLast (h.2 hx)
  | case3 c x next a y hEq hNext =>
    rw [hEq] at h
    exact h.2

theorem OfReading.located (hp : p.OfReading) : p.located.OfReading := by
  intro c x
  have h := hp c x
  unfold Parser.located
  split
  · rename_i hEq
    rw [hEq] at h
    exact ⟨by rintro failure ⟨⟩, h.2⟩
  · rename_i failure y hEq
    rw [hEq] at h
    exact ⟨by rintro other ⟨⟩; exact h.1 failure rfl, h.2⟩

theorem OfReading.labeled (hp : p.OfReading) (message : String) : (p.labeled message).OfReading := by
  intro c x
  have h := hp c x
  unfold Parser.labeled
  split
  · rename_i hEq
    rw [hEq] at h
    exact ⟨by rintro failure ⟨⟩, h.2⟩
  · rename_i failure y hEq
    rw [hEq] at h
    split
    · have hNamed : Failure.OfReading ⟨failure.position, .label message⟩ := by rintro ⟨⟩
      exact ⟨by rintro other ⟨⟩; exact hNamed, fun hx => (h.2 hx).relabel hNamed⟩
    · exact ⟨by rintro other ⟨⟩; exact h.1 failure rfl, h.2⟩

end Parser

/-! ## Lexemes -/

theorem literal_ofReading (text : String) : (literal text).OfReading := by
  intro c failure h
  unfold literal at h
  split at h <;> cases h
  rintro ⟨⟩

theorem identifier_ofReading (lead body : Char → Bool) : (identifier lead body).OfReading := by
  intro c failure h
  unfold identifier at h
  split at h
  · cases h
    rintro ⟨⟩
  · split at h <;> cases h
    rintro ⟨⟩

theorem boolean_ofReading : boolean.OfReading := by
  intro c failure h
  unfold boolean at h
  simp only at h
  split at h
  · cases h
  · split at h <;> cases h
    rintro ⟨⟩

theorem floatLiteral_ofReading : floatLiteral.OfReading := by
  intro c failure h
  unfold floatLiteral at h
  simp only at h
  repeat' split at h
  all_goals cases h
  all_goals rintro ⟨⟩

theorem integerLiteral_ofReading : integerLiteral.OfReading := by
  intro c failure h
  unfold integerLiteral at h
  simp only at h
  repeat' split at h
  all_goals cases h
  all_goals rintro ⟨⟩

theorem spacing_ofReading : spacing.OfReading := by
  rintro c failure ⟨⟩

theorem requiredSpacing_ofReading : requiredSpacing.OfReading := by
  intro c failure h
  unfold requiredSpacing at h
  split at h <;> cases h
  rintro ⟨⟩

theorem lineBreak_ofReading : lineBreak.OfReading := by
  intro c failure h
  unfold lineBreak at h
  split at h <;> cases h
  rintro ⟨⟩

theorem map_ofReading {α β : Type} {o : Outcome α} {f : α → β}
    (h : ∀ failure, o = .error failure → failure.OfReading) :
    ∀ failure, (o.map fun (next, a) => (next, f a)) = .error failure → failure.OfReading := by
  intro failure hError
  cases o with
  | error first =>
    cases hError
    exact h failure rfl
  | ok result => cases hError

theorem quotedBody_ofReading (start : Position) : Lexeme.OfReading (quotedBody start) := by
  intro c
  fun_induction quotedBody start c with
  | case1 c hRest => rintro failure ⟨⟩ ⟨⟩
  | case2 c rest hRest => rintro failure ⟨⟩
  | case3 c rest hRead hRest hQuote => rintro failure ⟨⟩ ⟨⟩
  | case4 c rest spelled count hRead hRest hQuote ih => exact map_ofReading (f := fun text => spelled :: text) ih
  | case5 c x rest hRest hQuote hBackslash ih => exact map_ofReading (f := fun text => x :: text) ih

theorem quotedString_ofReading : quotedString.OfReading := by
  intro c
  unfold quotedString
  split
  · exact map_ofReading (f := String.ofList) (quotedBody_ofReading c.position (c.skip 1))
  · rintro failure ⟨⟩ ⟨⟩

theorem rawString_ofReading : rawString.OfReading := by
  intro c failure h
  unfold rawString at h
  simp only at h
  repeat' split at h
  all_goals cases h
  all_goals rintro ⟨⟩

/-! ## Rules -/

theorem ofReading_delimited {α : Type} {p : Parser α} (opening closing : String) (hp : p.OfReading) :
    (delimited opening p closing).OfReading := by
  have hSpacing := ofReading_lexeme spacing_ofReading
  have hLiteral (text : String) := ofReading_lexeme (literal_ofReading text)
  have hFollowing : (following p).OfReading := hSpacing.bind fun _ => (hLiteral ",").bind fun _ => hSpacing.bind fun _ => hp
  have hSeparated : (separated p).OfReading := hp.bind fun _ => hFollowing.many.bind fun _ => hSpacing.bind fun _ =>
    (hLiteral ",").optional.bind fun _ => ofReading_pure _
  exact (hLiteral opening).bind fun _ => hSpacing.bind fun _ => hSeparated.optional.bind fun _ =>
    hSpacing.bind fun _ => (hLiteral closing).bind fun _ => ofReading_pure _

theorem valueWithin_ofReading (n : Nat) : (valueWithin n).OfReading := by
  induction n with
  | zero => exact fun c x => ⟨by rintro failure ⟨⟩ ⟨⟩, id⟩
  | succ n ih =>
    exact ((ofReading_lexeme quotedString_ofReading).map.orElse ((ofReading_lexeme rawString_ofReading).map.orElse
      ((ofReading_lexeme boolean_ofReading).map.orElse ((ofReading_lexeme floatLiteral_ofReading).map.orElse
        ((ofReading_lexeme integerLiteral_ofReading).map.orElse (ofReading_delimited "[" "]" ih).map))))).labeled _

theorem declaredAttribute_ofReading : declaredAttribute.OfReading :=
  ((ofReading_lexeme (identifier_ofReading _ _)).labeled _).located.bind fun _ =>
    (ofReading_lexeme spacing_ofReading).bind fun _ => (ofReading_lexeme (literal_ofReading "=")).bind fun _ =>
      (ofReading_lexeme spacing_ofReading).bind fun _ =>
        OfReading.bind (p := value) (fun c => valueWithin_ofReading (c.rest.length + 1) c) fun _ => ofReading_pure _

theorem commandHead_ofReading : commandHead.OfReading :=
  ((ofReading_lexeme (identifier_ofReading _ _)).labeled _).located.bind fun _ =>
    (ofReading_lexeme requiredSpacing_ofReading).bind fun _ =>
      ((ofReading_lexeme (identifier_ofReading _ _)).labeled _).bind fun _ =>
        (ofReading_lexeme spacing_ofReading).bind fun _ =>
          ((ofReading_delimited "(" ")" declaredAttribute_ofReading).labeled _).bind fun _ => ofReading_pure _

theorem separator_ofReading : separator.OfReading :=
  ((ofReading_lexeme spacing_ofReading).bind fun _ => (ofReading_lexeme (literal_ofReading ";")).bind fun _ =>
    (ofReading_lexeme spacing_ofReading).bind fun _ => ofReading_pure ()).orElse (ofReading_lexeme lineBreak_ofReading)

end DialogTree
