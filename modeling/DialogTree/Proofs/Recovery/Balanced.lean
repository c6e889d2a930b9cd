import DialogTree.Proofs.Derivation
import DialogTree.Proofs.Recovery.Levels
import DialogTree.Proofs.Recovery.Strings
import DialogTree.Proofs.Soundness.Values

/-!
# Derivations are balanced

A text is balanced up to what is left of it when strings and comments are passed as wholes and every bracket between
them is closed by the bracket that matches it. All that derives is balanced, so that whoever counts brackets, in
whatever way, has as many open behind a value, an attribute list or a body as in front of it.
-/

namespace DialogTree

theorem closingOf?_cases {opening closing : Char} (h : closingOf? opening = some closing) :
    (opening = '(' ∧ closing = ')') ∨ (opening = '\x7b' ∧ closing = '\x7d') ∨ (opening = '[' ∧ closing = ']') := by
  unfold closingOf? at h
  split at h
  case isTrue hRound => exact .inl ⟨hRound, (Option.some.inj h).symm⟩
  split at h
  case isTrue hBrace => exact .inr (.inl ⟨hBrace, (Option.some.inj h).symm⟩)
  split at h
  case isTrue hSquare => exact .inr (.inr ⟨hSquare, (Option.some.inj h).symm⟩)
  cases h

/-- A balanced text in front of what is left. Strings and comments are as long as recovery finds them. -/
inductive Balanced : List Char → List Char → Prop where
  | done {left : List Char} : Balanced left left
  | neutral {x : Char} {text left : List Char} (hNeutral : isNeutral x = true) (hMore : Balanced text left) :
      Balanced (x :: text) left
  | quoted {quote : Char} {inside text left : List Char} (hQuote : quote = '"' ∨ quote = '\x60')
      (hLength : quotedLength quote false (inside ++ text) = inside.length) (hMore : Balanced text left) :
      Balanced (quote :: (inside ++ text)) left
  | comment {line text left : List Char} (hLength : commentLength (line ++ text) = line.length)
      (hMore : Balanced text left) : Balanced ('#' :: (line ++ text)) left
  | group {opening closing : Char} {text behind left : List Char} (hPair : closingOf? opening = some closing)
      (hInside : Balanced text (closing :: behind)) (hMore : Balanced behind left) : Balanced (opening :: text) left

namespace Balanced

variable {text middle left front : List Char}

theorem trans (hFirst : Balanced text middle) (hSecond : Balanced middle left) : Balanced text left := by
  induction hFirst with
  | done => exact hSecond
  | neutral hNeutral _ ih => exact .neutral hNeutral (ih hSecond)
  | quoted hQuote hLength _ ih => exact .quoted hQuote hLength (ih hSecond)
  | comment hLength _ ih => exact .comment hLength (ih hSecond)
  | group hPair hInside _ _ ih => exact .group hPair hInside (ih hSecond)

theorem of_neutral (hFront : front.all isNeutral = true) (left : List Char) : Balanced (front ++ left) left := by
  induction front with
  | nil => exact .done
  | cons x front ih =>
    rw [List.all_cons, Bool.and_eq_true] at hFront
    exact .neutral hFront.1 (ih hFront.2)

end Balanced

/-! ## Strings -/

theorem quotedLength_inert {front : List Char} (hFront : ∀ y ∈ front, isInert y = true) (rest : List Char) :
    quotedLength '"' false (front ++ rest) = front.length + quotedLength '"' false rest := by
  induction front with
  | nil => simp
  | cons y front ih =>
    obtain ⟨hFirst, hMore⟩ := List.forall_mem_cons.mp hFront
    simp only [isInert, Bool.and_eq_true, bne_iff_ne] at hFirst
    simp [quotedLength, hFirst, ih hMore]
    omega

theorem Spells.quotedLength {written after : List Char} {x : Char} (h : Spells written x after) (rest : List Char) :
    quotedLength '"' false (written ++ rest) = written.length + quotedLength '"' false rest := by
  by_cases hEscape : ∃ spelled, written = '\\' :: spelled
  · obtain ⟨spelled, rfl⟩ := hEscape
    obtain ⟨letter, more, rfl, -, hMore⟩ := h.letters
    have hSkip : DialogTree.quotedLength '"' false ('\\' :: letter :: (more ++ rest)) =
        1 + (1 + DialogTree.quotedLength '"' false (more ++ rest)) := rfl
    rw [List.cons_append, List.cons_append, hSkip, quotedLength_inert hMore]
    simp
    omega
  · cases h with
    | itself hQuote hBackslash => simp [DialogTree.quotedLength, hQuote, hBackslash]
    | named => exact absurd ⟨_, rfl⟩ hEscape
    | octal => exact absurd ⟨_, rfl⟩ hEscape
    | hex => exact absurd ⟨_, rfl⟩ hEscape

theorem SpellsString.quotedLength {written text after : List Char} (h : SpellsString written text after) :
    quotedLength '"' false (written ++ after) = written.length := by
  induction h with
  | close => rfl
  | next hSpells _ ih =>
    rw [List.append_assoc, hSpells.quotedLength, ih, List.length_append]

/-! ## Spacing and words -/

theorem SpacingRun.balanced {run rest : List Char} (h : SpacingRun run rest) : Balanced (run ++ rest) rest := by
  induction h with
  | done => exact .done
  | blank hBlank _ ih => exact .neutral (isNeutral_of_class (by decide) hBlank) ih
  | comment hLine hEnd _ ih =>
    rw [List.append_assoc, List.cons_append]
    exact .comment (commentLength_of_line hLine hEnd) ih

section Derivations

variable {c d : Cursor}

theorem Cursor.SpacingTo.balanced {s : List Char} (h : c.SpacingTo s d) : Balanced c.rest d.rest := by
  rw [h.passes.1]
  exact h.run.balanced

theorem Cursor.Passes.balanced {s : List Char} (h : c.Passes s d) (hNeutral : s.all isNeutral = true) :
    Balanced c.rest d.rest := by
  rw [h.1]
  exact .of_neutral hNeutral d.rest

theorem WordTo.passes_all {lead body p : Char → Bool} {word : String} (h : WordTo lead body word c d)
    (hClass : ∀ x, (lead x || body x) = true → p x = true) : ∃ s, c.Passes s d ∧ s.all p = true := by
  cases h with
  | intro hFirst hLead hRun =>
    refine ⟨_, hFirst.trans hRun.passes, List.all_eq_true.mpr fun y hy => hClass y ?_⟩
    obtain rfl | hy := List.mem_cons.mp hy
    · simp [hLead]
    · simp [hRun.all y hy]

theorem WordTo.balanced {lead body : Char → Bool} {word : String}
    (hMarks : levelMarks.any (fun y => lead y || body y) = false) (h : WordTo lead body word c d) :
    Balanced c.rest d.rest := by
  obtain ⟨s, hPasses, hAll⟩ := h.passes_all fun _ hClass => isNeutral_of_class hMarks hClass
  exact hPasses.balanced hAll

/-! ## Values -/

/-- A text behind a quote, found to end where the later cursor stands. -/
def Quotes (quote : Char) (c d : Cursor) : Prop :=
  ∃ inside, c.Passes (quote :: inside) d ∧ quotedLength quote false (inside ++ d.rest) = inside.length

theorem QuotedTo.quotes {text : String} (h : QuotedTo text c d) : Quotes '"' c d := by
  cases h with
  | intro hPasses hSpells => exact ⟨_, hPasses, hSpells.quotedLength⟩

theorem RawTo.quotes {text : String} (h : RawTo text c d) : Quotes '\x60' c d := by
  cases h with
  | @intro _ _ text hPasses hInside =>
    refine ⟨text ++ ['\x60'], hPasses, ?_⟩
    rw [List.append_assoc, List.singleton_append, quotedLength_raw hInside, List.length_append, List.length_singleton]

theorem Quotes.balanced {quote : Char} (hQuote : quote = '"' ∨ quote = '\x60') (h : Quotes quote c d) :
    Balanced c.rest d.rest := by
  obtain ⟨inside, hPasses, hLength⟩ := h
  rw [hPasses.1]
  exact .quoted hQuote hLength .done

theorem BoolTo.balanced {b : Bool} (h : BoolTo b c d) : Balanced c.rest d.rest := by
  cases h with
  | intro hWord _ => exact hWord.balanced (by cases b <;> decide)

theorem IsSign.neutral {sign : List Char} (h : IsSign sign) : sign.all isNeutral = true := by
  cases h <;> decide

theorem Cursor.PassesRun.balanced_digits {digits : List Char} (h : c.PassesRun Char.isDigit digits d) :
    Balanced c.rest d.rest :=
  h.passes.balanced (List.all_eq_true.mpr fun y hy => isNeutral_of_class (by decide) (h.all y hy))

theorem IntegerTo.balanced {n : Int64} (h : IntegerTo n c d) : Balanced c.rest d.rest := by
  cases h with
  | intro hSign hPasses hRun _ _ => exact (hPasses.balanced hSign.neutral).trans hRun.balanced_digits

theorem FloatTo.balanced {x : Binary64} (h : FloatTo x c d) : Balanced c.rest d.rest := by
  cases h with
  | intro hSign hPasses hWhole _ hPoint hFraction _ =>
    have hBefore := (hPasses.balanced hSign.neutral).trans hWhole.balanced_digits
    exact hBefore.trans ((hPoint.balanced (by decide)).trans hFraction.balanced_digits)

/-! ## Lists -/

/-- Brackets of one kind with a balanced text between them. -/
structure Enclosed (opening closing : Char) (c d : Cursor) : Prop where
  pair : closingOf? opening = some closing
  inside : ∃ text, c.rest = opening :: text ∧ Balanced text (closing :: d.rest)

theorem Enclosed.balanced {opening closing : Char} (h : Enclosed opening closing c d) : Balanced c.rest d.rest := by
  obtain ⟨text, hRest, hInside⟩ := h.inside
  rw [hRest]
  exact .group h.pair hInside .done

theorem Enclosed.of_passes {opening closing : Char} {b e : Cursor} (hPair : closingOf? opening = some closing)
    (hOpening : c.Passes [opening] b) (hInside : Balanced b.rest e.rest) (hClosing : e.Passes [closing] d) :
    Enclosed opening closing c d := by
  rw [hClosing.1] at hInside
  exact ⟨hPair, b.rest, hOpening.1, hInside⟩

section Lists

variable {α : Type} {Item : α → Cursor → Cursor → Prop} {items : List α}

theorem MoreTo.balanced (hItems : ∀ a ∈ items, ∀ c d, Item a c d → Balanced c.rest d.rest)
    (h : MoreTo Item items c d) : Balanced c.rest d.rest := by
  induction h with
  | done => exact .done
  | next hBefore hComma hBehind hItem _ ih =>
    obtain ⟨hHead, hRest⟩ := List.forall_mem_cons.mp hItems
    have hStart := hBefore.balanced.trans ((hComma.balanced (by decide)).trans hBehind.balanced)
    exact hStart.trans ((hHead _ _ hItem).trans (ih hRest))

theorem DelimitedTo.enclosed {opening closing : String} {x y : Char} (hOpens : opening.toList = [x])
    (hCloses : closing.toList = [y]) (hPair : closingOf? x = some y)
    (hItems : ∀ a ∈ items, ∀ c d, Item a c d → Balanced c.rest d.rest)
    (h : DelimitedTo opening closing Item items c d) : Enclosed x y c d := by
  cases h with
  | empty hOpening hSpacing hClosing =>
    rw [hOpens] at hOpening
    rw [hCloses] at hClosing
    exact .of_passes hPair hOpening hSpacing.balanced hClosing
  | items hOpening hSpacing hItem hMore hBefore hComma hBehind hClosing =>
    rw [hOpens] at hOpening
    rw [hCloses] at hClosing
    obtain ⟨hHead, hRest⟩ := List.forall_mem_cons.mp hItems
    have hFirst := hSpacing.balanced.trans (hHead _ _ hItem)
    have hLast := hFirst.trans ((hMore.balanced hRest).trans hBefore.balanced)
    have hEnd := hLast.trans (hComma.elim (fun hPasses => hPasses.balanced (by decide)) fun hSame => hSame ▸ .done)
    exact .of_passes hPair hOpening (hEnd.trans hBehind.balanced) hClosing

end Lists

theorem ValueTo.balanced {value : Value} {c d : Cursor} (h : ValueTo value c d) : Balanced c.rest d.rest := by
  cases h with
  | string h => exact h.quotes.balanced (.inl rfl)
  | raw h => exact h.quotes.balanced (.inr rfl)
  | bool h => exact h.balanced
  | float h => exact h.balanced
  | integer h => exact h.balanced
  | list h =>
    rename_i items
    have hItems : ∀ item ∈ items, ∀ c d, ValueTo item c d → Balanced c.rest d.rest :=
      fun item hMem _ _ hItem => ValueTo.balanced hItem
    exact (h.enclosed rfl rfl rfl hItems).balanced
termination_by sizeOf value
decreasing_by
  have := List.sizeOf_lt_of_mem hMem
  simp only [Value.list.sizeOf_spec]
  omega

/-! ## Commands -/

theorem AttributeTo.balanced {item : DeclaredAttribute} (h : AttributeTo item c d) : Balanced c.rest d.rest := by
  cases h with
  | intro hKey hBefore hEquals hBehind hValue =>
    have hName := (hKey.balanced (by decide)).trans hBefore.balanced
    exact hName.trans ((hEquals.balanced (by decide)).trans (hBehind.balanced.trans hValue.balanced))

theorem DelimitedTo.enclosed_attributes {attributes : List DeclaredAttribute}
    (h : DelimitedTo "(" ")" AttributeTo attributes c d) : Enclosed '(' ')' c d :=
  h.enclosed rfl rfl rfl fun _ _ _ _ hItem => hItem.balanced

theorem HeadTo.balanced {name keyword : String} {attributes : List DeclaredAttribute}
    (h : HeadTo name keyword attributes c d) : Balanced c.rest d.rest := by
  cases h with
  | intro hName hSpacing _ hKeyword hBefore hAttributes =>
    have hStart := (hName.balanced (by decide)).trans hSpacing.balanced
    have hBehind := (hKeyword.balanced (by decide)).trans hBefore.balanced
    exact hStart.trans (hBehind.trans hAttributes.enclosed_attributes.balanced)

theorem SeparatorTo.balanced (h : SeparatorTo c d) : Balanced c.rest d.rest := by
  cases h with
  | semicolon hBefore hSemicolon hBehind =>
    exact hBefore.balanced.trans ((hSemicolon.balanced (by decide)).trans hBehind.balanced)
  | line hSpacing _ => exact hSpacing.balanced

end Derivations

mutual

theorem CommandTo.balanced {declaration : Declaration} {c d : Cursor} (h : CommandTo declaration c d) :
    Balanced c.rest d.rest := by
  cases h with
  | bare hHead => exact hHead.balanced
  | body hHead hSpacing hOpening hBody hClosing =>
    have hInside := Enclosed.of_passes rfl hOpening (ScopeTo.balanced hBody) hClosing
    exact hHead.balanced.trans (hSpacing.balanced.trans hInside.balanced)
termination_by sizeOf declaration

theorem ScopeTo.balanced {declarations : List Declaration} {c d : Cursor} (h : ScopeTo declarations c d) :
    Balanced c.rest d.rest := by
  cases h with
  | intro hSpacing hFirst hRest =>
    exact hSpacing.balanced.trans ((CommandTo.balanced hFirst).trans (TailTo.balanced hRest))
termination_by sizeOf declarations

theorem TailTo.balanced {declarations : List Declaration} {c d : Cursor} (h : TailTo declarations c d) :
    Balanced c.rest d.rest := by
  cases h with
  | next hSeparator hCommand hRest =>
    exact hSeparator.balanced.trans ((CommandTo.balanced hCommand).trans (TailTo.balanced hRest))
  | separator hSeparator => exact hSeparator.balanced
  | spacing hSpacing => exact hSpacing.balanced
termination_by sizeOf declarations

end

end DialogTree
