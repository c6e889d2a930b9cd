import Mathlib
import DialogTree.Proofs.Json.Soundness
import DialogTree.Proofs.Json.Uncommenting

/-!
# Relaxed texts are strict ones with comments and trailing commas

A text that is accepted relaxed becomes strict JSON of the same value when its comments are replaced by whitespace and
the commas in front of closing brackets are deleted, one at a bracket. Nothing else that is no JSON is accepted.
-/

namespace DialogTree

namespace Json

variable {text rest : List Char} {c : Char}

/-! ## Trailing commas -/

/-- The text without some of its commas that stand in front of a closing bracket, whitespace between them. -/
inductive Untrailed : List Char → List Char → Prop where
  | nil : Untrailed [] []
  | token {token text strict : List Char} (hToken : IsToken token) (hRest : Untrailed text strict) :
      Untrailed (token ++ text) (token ++ strict)
  | space {c : Char} {text strict : List Char} (hSpace : Scan.isSpace c = true) (hRest : Untrailed text strict) :
      Untrailed (c :: text) (c :: strict)
  | comma {gap text strict : List Char} {closing : Char} (hGap : IsSpaces gap)
      (hClosing : closing = ']' ∨ closing = '\x7d') (hRest : Untrailed text strict) :
      Untrailed (',' :: (gap ++ closing :: text)) (gap ++ closing :: strict)

theorem Untrailed.tokenized {strict : List Char} (h : Untrailed text strict) : Tokenized text := by
  have hSpaces : ∀ {gap rest : List Char}, IsSpaces gap → Tokenized rest → Tokenized (gap ++ rest) := by
    intro gap rest hGap hRest
    induction gap with
    | nil => exact hRest
    | cons c gap ih =>
      obtain ⟨hSpace, hOthers⟩ := List.forall_mem_cons.mp hGap
      exact .space hSpace (ih hOthers)
  induction h with
  | nil => exact .nil
  | token hToken _ ih => exact .token hToken ih
  | space hSpace _ ih => exact .space hSpace ih
  | @comma gap text strict closing hGap hClosing _ ih =>
    have hBracket : IsToken [closing] := .mark (by rcases hClosing with rfl | rfl <;> decide)
    exact .token (.mark (by decide)) (hSpaces hGap (.token hBracket ih))

theorem trailing_comma {text : List Char} (hCloses : closesNext text = true) :
    blankCommas .code (',' :: text) = ' ' :: blankCommas .code text := by
  simp [blankCommas, hCloses]

theorem other_comma {text : List Char} (hQuote : c ≠ '"') (hTrailing : ¬ (c = ',' ∧ closesNext text = true)) :
    blankCommas .code (c :: text) = c :: blankCommas .code text := by
  simp [blankCommas, hQuote, hTrailing]

theorem keepsTokens_commas : KeepsTokens blankCommas where
  nil place := by cases place <;> rfl
  string := rfl
  escape := rfl
  code text := by
    cases text with
    | nil => exact .nil
    | cons c text =>
      by_cases hQuote : c = '"'
      · subst hQuote
        exact .quote rfl
      · by_cases hTrailing : c = ',' ∧ closesNext text = true
        · obtain ⟨rfl, hCloses⟩ := hTrailing
          exact .blanked (trailing_comma hCloses) rfl
        · exact .other hQuote (other_comma hQuote hTrailing)

/-! ## Commas in gaps -/

theorem Untrailed.append {more strict strict' : List Char} (h : Untrailed text strict)
    (hMore : Untrailed more strict') : Untrailed (text ++ more) (strict ++ strict') := by
  induction h with
  | nil => exact hMore
  | token hToken _ ih =>
    rw [List.append_assoc, List.append_assoc]
    exact .token hToken ih
  | space hSpace _ ih => exact .space hSpace ih
  | comma hGap hClosing _ ih =>
    have hComma := Untrailed.comma hGap hClosing ih
    simpa using hComma

theorem untrailed_token {token : List Char} (hToken : IsToken token) : Untrailed token token := by
  have hAlone := Untrailed.token hToken .nil
  rwa [List.append_nil] at hAlone

theorem untrailed_spaces {gap : List Char} (hGap : IsSpaces gap) : Untrailed gap gap := by
  induction gap with
  | nil => exact .nil
  | cons c gap ih =>
    obtain ⟨hSpace, hOthers⟩ := List.forall_mem_cons.mp hGap
    exact .space hSpace (ih hOthers)

/-- A character that is no gap and closes nothing. -/
def GoesOn (rest : List Char) : Prop :=
  ∀ c ∈ rest.head?, isGap c = false ∧ c ≠ ']' ∧ c ≠ '\x7d'

theorem closesNext_blank (h : closesNext text = true) :
    ∃ c more, (blankCommas .code text).dropWhile isGap = c :: more ∧ (c = ']' ∨ c = '\x7d') := by
  -- The pass keeps whitespace and brackets, so that the same bracket comes first behind the gap.
  induction text with
  | nil => cases h
  | cons c text ih =>
    rw [closesNext, List.dropWhile_cons] at h
    cases hGap : isGap c with
    | true =>
      rw [hGap] at h
      have hKept : blankCommas .code (c :: text) = c :: blankCommas .code text := by
        apply other_comma
        · rintro rfl
          cases hGap
        · rintro ⟨rfl, -⟩
          cases hGap
      obtain ⟨d, more, hMore, hClosing⟩ := ih h
      exact ⟨d, more, by rw [hKept, List.dropWhile_cons_of_pos hGap, hMore], hClosing⟩
    | false =>
      rw [hGap] at h
      have hClosing : c = '\x7d' ∨ c = ']' := by simpa using h
      have hKept : blankCommas .code (c :: text) = c :: blankCommas .code text := by
        apply other_comma
        · rintro rfl
          simp at hClosing
        · rintro ⟨rfl, -⟩
          simp at hClosing
      exact ⟨c, _, by rw [hKept, List.dropWhile_cons_of_neg (by simp [hGap])], hClosing.symm⟩

/-- A space behind the pass was the space before it, or a comma in front of a closing bracket. -/
theorem space_from {x : Char} {image : List Char} (hSpace : Scan.isSpace x = true)
    (hText : blankCommas .code text = x :: image) : ∃ c behind, text = c :: behind ∧
      blankCommas .code behind = image ∧ (c = ',' ∧ closesNext behind = true ∨ c = x) := by
  cases text with
  | nil => cases hText
  | cons c text =>
    by_cases hQuote : c = '"'
    · subst hQuote
      obtain ⟨rfl, -⟩ := List.cons.inj hText
      cases hSpace
    · by_cases hTrailing : c = ',' ∧ closesNext text = true
      · obtain ⟨rfl, hCloses⟩ := hTrailing
        exact ⟨_, _, rfl, (List.cons.inj ((trailing_comma hCloses).symm.trans hText)).2, .inl ⟨rfl, hCloses⟩⟩
      · obtain ⟨rfl, hBehind⟩ := List.cons.inj ((other_comma hQuote hTrailing).symm.trans hText)
        exact ⟨_, _, rfl, hBehind, .inr rfl⟩

theorem gap_before {gap : List Char} (hGap : IsSpaces gap) (hRest : GoesOn rest)
    (hText : blankCommas .code text = gap ++ rest) :
    ∃ behind, text = gap ++ behind ∧ blankCommas .code behind = rest := by
  induction gap generalizing text with
  | nil => exact ⟨text, rfl, hText⟩
  | cons x gap ih =>
    obtain ⟨hSpace, hOthers⟩ := List.forall_mem_cons.mp hGap
    obtain ⟨c, behind, rfl, hBehind, ⟨-, hCloses⟩ | rfl⟩ := space_from hSpace hText
    · -- Behind a blanked comma, the first character that is no gap closes.
      obtain ⟨d, more, hMore, hClosing⟩ := closesNext_blank hCloses
      have hStop : (gap ++ rest).dropWhile isGap = rest := by
        rw [List.dropWhile_append_of_pos fun y hy => (isSpace_gap (hOthers y hy)).1]
        cases rest with
        | nil => rfl
        | cons e rest => exact List.dropWhile_cons_of_neg (by simp [(hRest e rfl).1])
      have hHead : rest = d :: more := by
        rw [← hStop, ← hMore, hBehind]
        rfl
      obtain ⟨-, hBracket, hBrace⟩ := hRest d (by rw [hHead]; rfl)
      exact absurd hClosing (not_or.mpr ⟨hBracket, hBrace⟩)
    · obtain ⟨behind, rfl, hEnd⟩ := ih hOthers hBehind
      exact ⟨behind, rfl, hEnd⟩

theorem isToken_closing {closing : Char} (h : closing = ']' ∨ closing = '\x7d') : IsToken [closing] :=
  .mark (by rcases h with rfl | rfl <;> decide)

theorem gap_behind_comma {gap : List Char} {closing : Char} (hGap : IsSpaces gap)
    (hClosing : closing = ']' ∨ closing = '\x7d') (hCloses : closesNext text = true)
    (hText : blankCommas .code text = gap ++ closing :: rest) :
    ∃ behind, text = gap ++ closing :: behind ∧ blankCommas .code behind = rest := by
  induction gap generalizing text with
  | nil => exact keepsTokens_commas.token (isToken_closing hClosing) hText
  | cons x gap ih =>
    obtain ⟨hSpace, hOthers⟩ := List.forall_mem_cons.mp hGap
    obtain ⟨c, behind, rfl, hBehind, ⟨rfl, -⟩ | rfl⟩ := space_from hSpace hText
    · cases hCloses
    · rw [closesNext, List.dropWhile_cons_of_pos (isSpace_gap hSpace).1] at hCloses
      obtain ⟨behind, rfl, hRest⟩ := ih hOthers hCloses hBehind
      exact ⟨behind, rfl, hRest⟩

/-- In front of a closing bracket, one comma was blanked or none. -/
theorem gap_before_closing {gap : List Char} {closing : Char} (hGap : IsSpaces gap)
    (hClosing : closing = ']' ∨ closing = '\x7d') (hText : blankCommas .code text = gap ++ closing :: rest) :
    ∃ front behind gap', text = front ++ behind ∧ blankCommas .code behind = rest ∧ IsSpaces gap' ∧
      Untrailed front (gap' ++ [closing]) := by
  induction gap generalizing text with
  | nil =>
    obtain ⟨behind, rfl, hRest⟩ := keepsTokens_commas.token (isToken_closing hClosing) hText
    exact ⟨[closing], behind, [], rfl, hRest, isSpaces_nil, untrailed_token (isToken_closing hClosing)⟩
  | cons x gap ih =>
    obtain ⟨hSpace, hOthers⟩ := List.forall_mem_cons.mp hGap
    obtain ⟨c, behind, rfl, hBehind, ⟨rfl, hCloses⟩ | rfl⟩ := space_from hSpace hText
    · obtain ⟨behind, rfl, hRest⟩ := gap_behind_comma hOthers hClosing hCloses hBehind
      exact ⟨',' :: (gap ++ [closing]), behind, gap, by simp, hRest, hOthers, .comma hOthers hClosing .nil⟩
    · obtain ⟨front, behind, gap', rfl, hRest, hGap', hFront⟩ := ih hOthers hBehind
      exact ⟨c :: front, behind, c :: gap', rfl, hRest, hGap'.cons hSpace, .space hSpace hFront⟩

/-! ## Arrays and objects -/

/-- Wherever the text stands behind the pass, there was one of the grammar before it, and commas in front of its
brackets. -/
def Untrails (Grammar : List Char → Prop) (text : List Char) : Prop :=
  ∀ source rest, blankCommas .code source = text ++ rest → ∃ front behind strict,
    source = front ++ behind ∧ blankCommas .code behind = rest ∧ Untrailed front strict ∧ Grammar strict

theorem OpensText.goesOn (h : OpensText text) (rest : List Char) : GoesOn (text ++ rest) := by
  obtain ⟨c, more, rfl, hOpens⟩ := h
  rintro d ⟨⟩
  exact ⟨hOpens.notGap, hOpens.notBracket, hOpens.notBrace⟩

theorem goesOn_mark {mark : Char} (hMark : mark = ',' ∨ mark = ':') (rest : List Char) : GoesOn (mark :: rest) := by
  rintro d ⟨⟩
  rcases hMark with rfl | rfl
  · exact ⟨rfl, by decide, by decide⟩
  · exact ⟨rfl, by decide, by decide⟩

section Parts

variable {α : Type} {Part : α → List Char → Prop} {closing : Char} {parts : List α}
  (hClosing : closing = ']' ∨ closing = '\x7d') (hOpens : ∀ {part text}, Part part text → OpensText text)
  (hParts : ∀ part ∈ parts, ∀ text, Part part text → Untrails (Part part) text)

include hClosing hOpens hParts

theorem Tail.untrails (h : Tail .strict Part closing parts text) : Untrails (Tail .strict Part closing parts) text := by
  induction h with
  | ending hEnding =>
    cases hEnding with
    | bare hGap =>
      intro source rest hText
      rw [List.append_assoc] at hText
      obtain ⟨front, behind, gap', rfl, hRest, hGap', hFront⟩ := gap_before_closing hGap hClosing hText
      exact ⟨front, behind, _, rfl, hRest, hFront, .ending (.bare hGap')⟩
    | comma hTrailing => exact hTrailing.elim
  | more hBefore hBehind hPart hTail ih =>
    intro source rest hText
    obtain ⟨hFirst, hOthers⟩ := List.forall_mem_cons.mp hParts
    simp only [List.append_assoc, List.cons_append] at hText
    obtain ⟨_, rfl, hComma⟩ := gap_before hBefore (goesOn_mark (.inl rfl) _) hText
    have hMark : IsToken [','] := .mark (by decide)
    obtain ⟨_, rfl, hGap⟩ := keepsTokens_commas.token hMark hComma
    obtain ⟨_, rfl, hStart⟩ := gap_before hBehind ((hOpens hPart).goesOn _) hGap
    obtain ⟨front, _, strict, rfl, hEnd, hFront, hStrict⟩ := hFirst _ hPart _ _ hStart
    obtain ⟨others, last, tail', rfl, hRest, hFurther, hTail'⟩ := ih hOthers _ _ hEnd
    have hWhole := Tail.more hBefore hBehind hStrict hTail'
    have hParts := (untrailed_spaces hBehind).append (hFront.append hFurther)
    refine ⟨_, last, _, ?_, hRest, (untrailed_spaces hBefore).append (.token hMark hParts), hWhole⟩
    simp

theorem Body.untrails (h : Body .strict Part closing parts text) : Untrails (Body .strict Part closing parts) text := by
  intro source rest hText
  cases h with
  | empty hGap =>
    rw [List.append_assoc] at hText
    obtain ⟨front, behind, gap', rfl, hRest, hGap', hFront⟩ := gap_before_closing hGap hClosing hText
    exact ⟨front, behind, _, rfl, hRest, hFront, .empty hGap'⟩
  | parts hGap hPart hTail =>
    obtain ⟨hFirst, hOthers⟩ := List.forall_mem_cons.mp hParts
    simp only [List.append_assoc] at hText
    obtain ⟨_, rfl, hStart⟩ := gap_before hGap ((hOpens hPart).goesOn _) hText
    obtain ⟨front, _, strict, rfl, hEnd, hFront, hStrict⟩ := hFirst _ hPart _ _ hStart
    obtain ⟨others, last, tail', rfl, hRest, hFurther, hTail'⟩ :=
      Tail.untrails hClosing hOpens hOthers hTail _ _ hEnd
    refine ⟨_, last, _, ?_, hRest, (untrailed_spaces hGap).append (hFront.append hFurther),
      .parts hGap hStrict hTail'⟩
    simp

end Parts

theorem untrails_behind {Grammar Grammar' : List Char → Prop} {mark : Char} (hMark : IsToken [mark])
    (h : Untrails Grammar text) (hGrammar : ∀ {strict}, Grammar strict → Grammar' (mark :: strict)) :
    Untrails Grammar' (mark :: text) := by
  intro source rest hText
  obtain ⟨_, rfl, hBehind⟩ := keepsTokens_commas.token hMark hText
  obtain ⟨front, behind, strict, rfl, hRest, hFront, hStrict⟩ := h _ _ hBehind
  exact ⟨mark :: front, behind, _, rfl, hRest, (untrailed_token hMark).append hFront, hGrammar hStrict⟩

theorem Entry.untrails {entry : List Char × TokenTree}
    (hValue : ∀ text, Written .strict entry.2 text → Untrails (Written .strict entry.2) text)
    (h : Entry .strict (Written .strict) entry text) : Untrails (Entry .strict (Written .strict) entry) text := by
  intro source rest hText
  cases h with
  | intro hKey hBefore hBehind hWritten =>
    have hToken : IsToken _ := .scalar (.string hKey)
    simp only [List.append_assoc, List.cons_append] at hText
    obtain ⟨_, rfl, hGap⟩ := keepsTokens_commas.token hToken hText
    obtain ⟨_, rfl, hColon⟩ := gap_before hBefore (goesOn_mark (.inr rfl) _) hGap
    have hMark : IsToken [':'] := .mark (by decide)
    obtain ⟨_, rfl, hSpaces⟩ := keepsTokens_commas.token hMark hColon
    obtain ⟨_, rfl, hStart⟩ := gap_before hBehind (hWritten.opens.goesOn _) hSpaces
    obtain ⟨front, behind, strict, rfl, hRest, hFront, hStrict⟩ := hValue _ hWritten _ _ hStart
    have hWhole := Entry.intro hKey hBefore hBehind hStrict
    have hFurther := (untrailed_spaces hBehind).append hFront
    refine ⟨_, behind, _, ?_, hRest, .token hToken ((untrailed_spaces hBefore).append (.token hMark hFurther)), hWhole⟩
    simp

theorem Written.untrails (tree : TokenTree) :
    ∀ text, Written .strict tree text → Untrails (Written .strict tree) text := by
  induction tree using TokenTree.induction with
  | hScalar token =>
    intro text h
    cases h with
    | scalar hScalar =>
      intro source rest hText
      obtain ⟨behind, rfl, hRest⟩ := keepsTokens_commas.token (.scalar hScalar) hText
      exact ⟨_, behind, _, rfl, hRest, untrailed_token (.scalar hScalar), .scalar hScalar⟩
  | hArray items hItems =>
    intro text h
    cases h with
    | array hBody =>
      exact untrails_behind (.mark (by decide)) (hBody.untrails (.inl rfl) Written.opens hItems) .array
  | hObject entries hEntries =>
    intro text h
    cases h with
    | object hBody =>
      have hEntry : ∀ entry ∈ entries, ∀ text, Entry .strict (Written .strict) entry text →
          Untrails (Entry .strict (Written .strict) entry) text :=
        fun entry hMem text => Entry.untrails (hEntries entry hMem)
      exact untrails_behind (.mark (by decide)) (hBody.untrails (.inr rfl) Entry.opens hEntry) .object

/-! ## Whole texts -/

/-- A strict text without trailing commas was one of the same tokens with them. -/
theorem Spells.untrails {tokens : TokenTree} (h : Spells .strict tokens (blankCommas .code text)) :
    ∃ strict, Untrailed text strict ∧ Spells .strict tokens strict := by
  generalize hText : blankCommas .code text = image at h
  cases h with
  | @intro before inner behind hBefore hWritten hBehind =>
    obtain ⟨_, rfl, hStart⟩ := gap_before hBefore (hWritten.opens.goesOn _) hText
    obtain ⟨front, _, strict, rfl, hEnd, hFront, hStrict⟩ := hWritten.untrails _ _ _ _ hStart
    have hNone : GoesOn [] := fun _ hc => by cases hc
    rw [← List.append_nil behind] at hEnd
    obtain ⟨last, rfl, hLast⟩ := gap_before hBehind hNone hEnd
    have hNil : last = [] := by
      cases keepsTokens_commas.code last with
      | nil => rfl
      | blanked hBlank => cases hBlank.symm.trans hLast
      | quote hKept => cases hKept.symm.trans hLast
      | other _ hKept => cases hKept.symm.trans hLast
    subst hNil
    rw [List.append_nil]
    have hAll := (untrailed_spaces hBefore).append (hFront.append (untrailed_spaces hBehind))
    exact ⟨_, hAll, .intro hBefore hStrict hBehind⟩

/-- A text that is accepted relaxed becomes strict JSON of the same value when its comments are replaced by whitespace
and commas in front of closing brackets are deleted. -/
theorem relaxed_no_wider {source : List Char} {value : Value} (h : read (relax source) = .ok value) :
    ∃ plain strict tokens, Uncommented source plain ∧ Untrailed plain strict ∧ Spells .strict tokens strict ∧
      read strict = .ok value := by
  obtain ⟨tokens, hTokens⟩ := spells_of_read h
  obtain ⟨strict, hStrict, hSpells⟩ := hTokens.untrails
  obtain ⟨outcome, hOutcome⟩ := Spells.settles tokens
  refine ⟨_, strict, tokens, uncommented_blank source hStrict.tokenized, hStrict, hSpells, ?_⟩
  rw [hOutcome _ hSpells, ← hOutcome _ hTokens]
  exact h

theorem relaxed_no_wider_nested :
    read (relax "\x7b\"a\": [\"//\" /* ,] */ , # é\n ] \x7d /* ".toList) =
        .ok (.object [("a", .array [.string "//"])]) ∧
      ∃ plain strict tokens, Uncommented "\x7b\"a\": [\"//\" /* ,] */ , # é\n ] \x7d /* ".toList plain ∧
        Untrailed plain strict ∧ Spells .strict tokens strict ∧
          read strict = .ok (.object [("a", .array [.string "//"])]) := by
  have hRead : read (relax "\x7b\"a\": [\"//\" /* ,] */ , # é\n ] \x7d /* ".toList) =
      .ok (.object [("a", .array [.string "//"])]) := by cbv
  exact ⟨hRead, relaxed_no_wider hRead⟩

example : (read (relax "[1, , ]".toList)).isOk = false := by decide +kernel

/-- A comma without a value in front of it is deleted too, and a comment may stay open. -/
theorem lone_comma_accepted :
    (readJson "\x7b\"a\":\x7b\"keyword\":\"dialog\",\"x\":[,]\x7d\x7d" "doc").isOk = true ∧
      (readJson "\x7b\"a\":\x7b\"keyword\":\"dialog\"\x7d\x7d/*" "doc").isOk = true ∧
      (read (relax "\x7b,\x7d".toList)).isOk = true := by
  refine ⟨?_, ?_, ?_⟩
  · decide +kernel
  · decide +kernel
  · decide +kernel

end Json

end DialogTree
