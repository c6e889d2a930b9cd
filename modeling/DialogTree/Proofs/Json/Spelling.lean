import DialogTree.Proofs.Json.Relaxed
import DialogTree.Proofs.Json.Tokens

/-!
# Texts of the same tokens

A JSON text is its tokens with gaps between them. Strict texts have spaces in the gaps; relaxed ones have
comments too, and may have a comma behind the last part of an array or object. Relaxing a text keeps its
tokens and makes it strict, and a strict text is relaxed to itself.
-/

namespace DialogTree

namespace Json

/-! ## Spelling -/

/-- The tokens of a value, without what stands between them. -/
inductive TokenTree where
  | scalar (text : List Char)
  | array (items : List TokenTree)
  | object (entries : List (List Char × TokenTree))

/-- What may stand between tokens and at the end of a text, and whether a comma may stand behind a last part. -/
structure Style where
  gap : List Char → Prop
  last : List Char → Prop
  trailing : Prop

inductive Ending (style : Style) (closing : Char) : List Char → Prop where
  | bare {gap : List Char} (hGap : style.gap gap) : Ending style closing (gap ++ [closing])
  | comma {before behind : List Char} (hTrailing : style.trailing) (hBefore : style.gap before)
      (hBehind : style.gap behind) : Ending style closing (before ++ ',' :: (behind ++ [closing]))

inductive Tail {α : Type} (style : Style) (Part : α → List Char → Prop) (closing : Char) :
    List α → List Char → Prop where
  | ending {text : List Char} (hEnding : Ending style closing text) : Tail style Part closing [] text
  | more {part : α} {parts : List α} {before behind text tail : List Char} (hBefore : style.gap before)
      (hBehind : style.gap behind) (hPart : Part part text) (hTail : Tail style Part closing parts tail) :
      Tail style Part closing (part :: parts) (before ++ ',' :: (behind ++ (text ++ tail)))

inductive Body {α : Type} (style : Style) (Part : α → List Char → Prop) (closing : Char) :
    List α → List Char → Prop where
  | empty {gap : List Char} (hGap : style.gap gap) : Body style Part closing [] (gap ++ [closing])
  | parts {part : α} {parts : List α} {gap text tail : List Char} (hGap : style.gap gap) (hPart : Part part text)
      (hTail : Tail style Part closing parts tail) : Body style Part closing (part :: parts) (gap ++ (text ++ tail))

inductive Entry (style : Style) (Part : TokenTree → List Char → Prop) : List Char × TokenTree → List Char → Prop where
  | intro {key : List Char} {value : TokenTree} {before behind text : List Char} (hKey : IsString key)
      (hBefore : style.gap before) (hBehind : style.gap behind) (hValue : Part value text) :
      Entry style Part (key, value) (key ++ (before ++ ':' :: (behind ++ text)))

/-- The text of a value from its first token to its last one. -/
inductive Written (style : Style) : TokenTree → List Char → Prop where
  | scalar {text : List Char} (hScalar : IsScalar text) : Written style (.scalar text) text
  | array {items : List TokenTree} {body : List Char} (hBody : Body style (Written style) ']' items body) :
      Written style (.array items) ('[' :: body)
  | object {entries : List (List Char × TokenTree)} {body : List Char}
      (hBody : Body style (Entry style (Written style)) '\x7d' entries body) :
      Written style (.object entries) ('\x7b' :: body)

inductive Spells (style : Style) (tree : TokenTree) : List Char → Prop where
  | intro {before text behind : List Char} (hBefore : style.gap before) (hText : Written style tree text)
      (hBehind : style.last behind) : Spells style tree (before ++ (text ++ behind))

/-! ## Strict and relaxed texts -/

def IsSpaces (gap : List Char) : Prop :=
  ∀ x ∈ gap, Scan.isSpace x = true

/-- Spaces and comments. A comment runs to the end of its line, or up to the first mark that closes it. -/
inductive IsTrivia : List Char → Prop where
  | nil : IsTrivia []
  | space {c : Char} {gap : List Char} (hSpace : Scan.isSpace c = true) (hGap : IsTrivia gap) : IsTrivia (c :: gap)
  | line {opening content gap : List Char} (hOpening : opening = ['#'] ∨ opening = ['/', '/'])
      (hContent : '\n' ∉ content) (hGap : IsTrivia gap) : IsTrivia (opening ++ (content ++ '\n' :: gap))
  | block {content gap : List Char} (hContent : ¬ ['*', '/'] <:+: content) (hGap : IsTrivia gap) :
      IsTrivia ('/' :: '*' :: (content ++ '*' :: '/' :: gap))

/-- Spaces and comments at the end of a text, which may end inside of a line. -/
inductive IsLastTrivia : List Char → Prop where
  | gap {gap : List Char} (hGap : IsTrivia gap) : IsLastTrivia gap
  | line {gap opening content : List Char} (hGap : IsTrivia gap) (hOpening : opening = ['#'] ∨ opening = ['/', '/'])
      (hContent : '\n' ∉ content) : IsLastTrivia (gap ++ (opening ++ content))

def Style.strict : Style := ⟨IsSpaces, IsSpaces, False⟩

def Style.relaxed : Style := ⟨IsTrivia, IsLastTrivia, True⟩

/-- Without comments, but with commas behind last parts. -/
def Style.uncommented : Style := ⟨IsSpaces, IsSpaces, True⟩

/-! ## Induction on tokens -/

/-- Every value has a property that arrays and objects have as soon as what they hold has it. -/
theorem TokenTree.induction {P : TokenTree → Prop} (hScalar : ∀ text, P (.scalar text))
    (hArray : ∀ items, (∀ item ∈ items, P item) → P (.array items))
    (hObject : ∀ entries, (∀ entry ∈ entries, P entry.2) → P (.object entries)) (tree : TokenTree) : P tree := by
  refine @TokenTree.rec P (fun items => ∀ item ∈ items, P item) (fun entries => ∀ entry ∈ entries, P entry.2)
    (fun entry => P entry.2) hScalar hArray hObject ?_ ?_ ?_ ?_ ?_ tree
  · simp
  · exact fun item rest hItem hRest => List.forall_mem_cons.mpr ⟨hItem, hRest⟩
  · simp
  · exact fun entry rest hEntry hRest => List.forall_mem_cons.mpr ⟨hEntry, hRest⟩
  · exact fun key value hValue => hValue

/-! ## Where values begin -/

variable {style style' : Style} {tree : TokenTree} {text rest : List Char}

theorem IsNumber.opens (h : IsNumber text) : OpensText text := by
  cases h with
  | positive hWhole =>
    obtain ⟨c, more, rfl, hDigit⟩ := hWhole.head
    exact ⟨c, _, rfl, opens_digit hDigit⟩
  | negative => exact ⟨'-', _, rfl, ⟨rfl, by decide, by decide⟩⟩

theorem IsString.opens (h : IsString text) : OpensText text := by
  cases h with
  | intro => exact ⟨'"', _, rfl, ⟨rfl, by decide, by decide⟩⟩

theorem IsScalar.opens (h : IsScalar text) : OpensText text := by
  cases h with
  | null => exact ⟨'n', _, rfl, ⟨rfl, by decide, by decide⟩⟩
  | yes => exact ⟨'t', _, rfl, ⟨rfl, by decide, by decide⟩⟩
  | no => exact ⟨'f', _, rfl, ⟨rfl, by decide, by decide⟩⟩
  | number hNumber => exact hNumber.opens
  | string hString => exact hString.opens

theorem OpensText.append (h : OpensText text) (more : List Char) : OpensText (text ++ more) := by
  obtain ⟨c, rest, rfl, hOpens⟩ := h
  exact ⟨c, rest ++ more, rfl, hOpens⟩

theorem Written.opens (h : Written style tree text) : OpensText text := by
  cases h with
  | scalar hScalar => exact hScalar.opens
  | array => exact ⟨'[', _, rfl, ⟨rfl, by decide, by decide⟩⟩
  | object => exact ⟨'\x7b', _, rfl, ⟨rfl, by decide, by decide⟩⟩

theorem Entry.opens {Part : TokenTree → List Char → Prop} {entry : List Char × TokenTree}
    (h : Entry style Part entry text) : OpensText text := by
  cases h with
  | intro hKey => exact hKey.opens.append _

/-! ## Other gaps -/

/-- A relation of texts that leaves scalars and brackets as they are and brings one style to another. -/
structure Restyles (Turns : List Char → List Char → Prop) (style style' : Style) : Prop where
  append : ∀ {a a' b b' : List Char}, Turns a a' → Turns b b' → Turns (a ++ b) (a' ++ b')
  scalar : ∀ {text : List Char}, IsScalar text → Turns text text
  mark : ∀ {c : Char}, c ∈ ['[', '\x7b', ':', ']', '\x7d'] → Turns [c] [c]
  gap : ∀ {gap : List Char}, style.gap gap → ∃ gap', style'.gap gap' ∧ Turns gap gap'
  comma : ∀ {gap text text' : List Char}, style.gap gap → OpensText text → Turns text text' →
    ∃ gap', style'.gap gap' ∧ Turns (',' :: (gap ++ text)) (',' :: (gap' ++ text'))
  ending : ∀ {c : Char} {text : List Char}, c = ']' ∨ c = '\x7d' → Ending style c text →
    ∃ text', Ending style' c text' ∧ Turns text text'

section Restyled

variable {Turns : List Char → List Char → Prop} (hTurns : Restyles Turns style style')

include hTurns

theorem Tail.restyled {α : Type} {Part Part' : α → List Char → Prop} {closing : Char} {parts : List α}
    (hClosing : closing = ']' ∨ closing = '\x7d') (hOpens : ∀ {part text}, Part part text → OpensText text)
    (hParts : ∀ part ∈ parts, ∀ text, Part part text → ∃ text', Part' part text' ∧ Turns text text')
    (h : Tail style Part closing parts text) : ∃ text', Tail style' Part' closing parts text' ∧ Turns text text' := by
  induction h with
  | ending hEnding =>
    obtain ⟨text', hEnding', hText⟩ := hTurns.ending hClosing hEnding
    exact ⟨text', .ending hEnding', hText⟩
  | more hBefore hBehind hPart _ ih =>
    obtain ⟨hFirst, hOthers⟩ := List.forall_mem_cons.mp hParts
    obtain ⟨text', hPart', hText⟩ := hFirst _ hPart
    obtain ⟨tail', hTail', hTail⟩ := ih hOthers
    obtain ⟨before', hBefore', hGap⟩ := hTurns.gap hBefore
    obtain ⟨behind', hBehind', hComma⟩ :=
      hTurns.comma hBehind ((hOpens hPart).append _) (hTurns.append hText hTail)
    exact ⟨_, .more hBefore' hBehind' hPart' hTail', hTurns.append hGap hComma⟩

theorem Body.restyled {α : Type} {Part Part' : α → List Char → Prop} {closing : Char} {parts : List α}
    (hClosing : closing = ']' ∨ closing = '\x7d') (hOpens : ∀ {part text}, Part part text → OpensText text)
    (hParts : ∀ part ∈ parts, ∀ text, Part part text → ∃ text', Part' part text' ∧ Turns text text')
    (h : Body style Part closing parts text) : ∃ text', Body style' Part' closing parts text' ∧ Turns text text' := by
  cases h with
  | empty hGap =>
    obtain ⟨gap', hGap', hText⟩ := hTurns.gap hGap
    have hMark : closing ∈ ['[', '\x7b', ':', ']', '\x7d'] := by
      rcases hClosing with rfl | rfl
      · decide
      · decide
    exact ⟨_, .empty hGap', hTurns.append hText (hTurns.mark hMark)⟩
  | parts hGap hPart hTail =>
    obtain ⟨hFirst, hOthers⟩ := List.forall_mem_cons.mp hParts
    obtain ⟨gap', hGap', hGapText⟩ := hTurns.gap hGap
    obtain ⟨text', hPart', hText⟩ := hFirst _ hPart
    obtain ⟨tail', hTail', hTailText⟩ := hTail.restyled hTurns hClosing hOpens hOthers
    exact ⟨_, .parts hGap' hPart' hTail', hTurns.append hGapText (hTurns.append hText hTailText)⟩

theorem Entry.restyled {entry : List Char × TokenTree}
    (hValue : ∀ text, Written style entry.2 text → ∃ text', Written style' entry.2 text' ∧ Turns text text')
    (h : Entry style (Written style) entry text) :
    ∃ text', Entry style' (Written style') entry text' ∧ Turns text text' := by
  cases h with
  | intro hKey hBefore hBehind hText =>
    obtain ⟨before', hBefore', hBeforeText⟩ := hTurns.gap hBefore
    obtain ⟨behind', hBehind', hBehindText⟩ := hTurns.gap hBehind
    obtain ⟨text', hText', hValueText⟩ := hValue _ hText
    have hColon := hTurns.append (hTurns.mark (c := ':') (by decide)) (hTurns.append hBehindText hValueText)
    exact ⟨_, .intro hKey hBefore' hBehind' hText',
      hTurns.append (hTurns.scalar (.string hKey)) (hTurns.append hBeforeText hColon)⟩

/-- The text of a value turns into a text of the same tokens in the other style. -/
theorem Written.restyled (tree : TokenTree) :
    ∀ text, Written style tree text → ∃ text', Written style' tree text' ∧ Turns text text' := by
  induction tree using TokenTree.induction with
  | hScalar =>
    intro text h
    cases h with
    | scalar hScalar => exact ⟨_, .scalar hScalar, hTurns.scalar hScalar⟩
  | hArray items hItems =>
    intro text h
    cases h with
    | array hBody =>
      obtain ⟨body', hBody', hText⟩ := hBody.restyled hTurns (.inl rfl) Written.opens hItems
      exact ⟨_, .array hBody', hTurns.append (hTurns.mark (by decide)) hText⟩
  | hObject entries hEntries =>
    intro text h
    cases h with
    | object hBody =>
      obtain ⟨body', hBody', hText⟩ := hBody.restyled hTurns (.inr rfl) Entry.opens
        fun entry hMem text hEntry => hEntry.restyled hTurns (hEntries entry hMem)
      exact ⟨_, .object hBody', hTurns.append (hTurns.mark (by decide)) hText⟩

end Restyled

/-! ## Tokens stay -/

section Numerals

variable {p : Char → Bool} (hDigit : ∀ {c : Char}, c.isDigit = true → p c = true)

include hDigit

theorem IsWhole.all (h : IsWhole text) : ∀ x ∈ text, p x = true := by
  cases h with
  | zero => exact List.forall_mem_singleton.mpr (hDigit rfl)
  | digits hFirst _ hDigits => exact List.forall_mem_cons.mpr ⟨hDigit hFirst, fun x hx => hDigit (hDigits x hx)⟩

variable (hMarks : ∀ c ∈ ['-', '+', '.', 'e', 'E'], p c = true)

include hMarks

theorem IsExponent.all (h : IsExponent text) : ∀ x ∈ text, p x = true := by
  cases h with
  | none => exact fun x hx => by cases hx
  | some hMark hSign hDigits =>
    intro x hx
    rcases List.mem_cons.mp hx with rfl | hx
    · rcases hMark with rfl | rfl
      · exact hMarks 'e' (by decide)
      · exact hMarks 'E' (by decide)
    · rcases List.mem_append.mp hx with hx | hx
      · rcases hSign with rfl | rfl | rfl
        · cases hx
        · obtain rfl := List.mem_singleton.mp hx
          exact hMarks '+' (by decide)
        · obtain rfl := List.mem_singleton.mp hx
          exact hMarks '-' (by decide)
      · exact hDigit (hDigits.all x hx)

theorem IsFraction.all (h : IsFraction text) : ∀ x ∈ text, p x = true := by
  cases h with
  | none hExponent => exact hExponent.all hDigit hMarks
  | some hDigits hExponent =>
    intro x hx
    rcases List.mem_cons.mp hx with rfl | hx
    · exact hMarks '.' (by decide)
    · rcases List.mem_append.mp hx with hx | hx
      · exact hDigit (hDigits.all x hx)
      · exact hExponent.all hDigit hMarks x hx

theorem IsNumber.all (h : IsNumber text) : ∀ x ∈ text, p x = true := by
  cases h with
  | positive hWhole hFraction =>
    exact List.forall_mem_append.mpr ⟨hWhole.all hDigit, hFraction.all hDigit hMarks⟩
  | negative hWhole hFraction =>
    exact List.forall_mem_cons.mpr ⟨hMarks '-' (by decide),
      List.forall_mem_append.mpr ⟨hWhole.all hDigit, hFraction.all hDigit hMarks⟩⟩

end Numerals

theorem IsNumber.inert (h : IsNumber text) : Inert text :=
  inert_plain (h.all isPlainCode_digit (List.all_eq_true.mp (by decide)))

theorem IsStringBody.inert {body : List Char} (h : IsStringBody body) : InertInString body := by
  induction h with
  | nil => exact ⟨fun _ => rfl, fun _ => rfl⟩
  | @plain c _ hQuote hBackslash _ _ ih =>
    have hFirst : InertInString [c] := inertInString_plain (by simp [hQuote, hBackslash])
    exact hFirst.append ih
  | short _ _ ih => exact (inertInString_escape _).append ih
  | unicode _ hDigits _ ih =>
    exact (inertInString_escape 'u').append ((inertInString_plain fun x hx => hexDigit_plain (hDigits x hx)).append ih)

theorem IsString.inert (h : IsString text) : Inert text := by
  cases h with
  | intro hBody =>
    have hChars := hBody.inert
    refine ⟨fun rest => ?_, fun rest => ?_⟩
    · simp [blankComments, hChars.comments]
    · simp [blankCommas, hChars.commas]

theorem IsScalar.inert (h : IsScalar text) : Inert text := by
  cases h with
  | null => exact inert_plain (List.all_eq_true.mp (by decide))
  | yes => exact inert_plain (List.all_eq_true.mp (by decide))
  | no => exact inert_plain (List.all_eq_true.mp (by decide))
  | number hNumber => exact hNumber.inert
  | string hString => exact hString.inert

theorem mark_inert {c : Char} (h : c ∈ ['[', '\x7b', ':', ']', '\x7d']) : Inert [c] := by
  have hPlain : ∀ x ∈ ['[', '\x7b', ':', ']', '\x7d'], isPlainCode x = true := List.all_eq_true.mp (by decide)
  exact inert_plain (by simpa using hPlain c h)

theorem isSpace_gap {c : Char} (h : Scan.isSpace c = true) : isGap c = true ∧ isPlainCode c = true := by
  simp only [Scan.isSpace, Bool.or_eq_true, decide_eq_true_eq] at h
  rcases h with ((rfl | rfl) | rfl) | rfl
  · exact ⟨rfl, rfl⟩
  · exact ⟨rfl, rfl⟩
  · exact ⟨rfl, rfl⟩
  · exact ⟨rfl, rfl⟩

theorem IsSpaces.inert {gap : List Char} (h : IsSpaces gap) : Inert gap :=
  inert_plain fun x hx => (isSpace_gap (h x hx)).2

theorem IsSpaces.append {gap more : List Char} (h : IsSpaces gap) (hMore : IsSpaces more) : IsSpaces (gap ++ more) := by
  intro x hx
  rcases List.mem_append.mp hx with hx | hx
  · exact h x hx
  · exact hMore x hx

/-! ## Comments -/

/-- Between tokens, blanking comments turns one text into the other and goes on behind it. -/
def TurnsComments (text text' : List Char) : Prop :=
  ∀ rest, blankComments .code (text ++ rest) = text' ++ blankComments .code rest

theorem blank_spaces (c : Char) : IsSpaces (blank c) := by
  intro x hx
  rw [blank] at hx
  split at hx
  · obtain rfl := List.mem_singleton.mp hx
    rfl
  · rw [(List.mem_replicate.mp hx).2]
    rfl

theorem flatMap_blank_spaces (content : List Char) : IsSpaces (content.flatMap blank) := by
  intro x hx
  obtain ⟨c, -, hMem⟩ := List.mem_flatMap.mp hx
  exact blank_spaces c x hMem

theorem blankComments_line {content : List Char} (h : '\n' ∉ content) (rest : List Char) :
    blankComments .line (content ++ rest) = content.flatMap blank ++ blankComments .line rest := by
  induction content with
  | nil => rfl
  | cons c content ih =>
    rw [List.mem_cons, not_or] at h
    obtain ⟨hFirst, hOthers⟩ := h
    rw [List.cons_append, blankComments, if_neg (Ne.symm hFirst), ih hOthers, List.flatMap_cons, List.append_assoc]

theorem blankComments_block {content : List Char} (h : ¬ ['*', '/'] <:+: content) (rest : List Char) :
    blankComments .block (content ++ '*' :: '/' :: rest) =
      content.flatMap blank ++ ' ' :: ' ' :: blankComments .code rest := by
  induction content with
  | nil => rfl
  | cons c content ih =>
    have hOpen : (decide (c = '*') && (content ++ '*' :: '/' :: rest).head? == some '/') = false := by
      rw [Bool.eq_false_iff]
      intro hEnd
      simp only [Bool.and_eq_true, decide_eq_true_eq, beq_iff_eq] at hEnd
      obtain ⟨rfl, hNext⟩ := hEnd
      cases content with
      | nil => cases hNext
      | cons d content =>
        obtain rfl : d = '/' := by simpa using hNext
        exact h ⟨[], content, rfl⟩
    have hOthers : ¬ ['*', '/'] <:+: content := fun hInfix => h (hInfix.trans (List.infix_cons (List.infix_refl _)))
    rw [List.cons_append, blankComments, hOpen, if_neg Bool.false_ne_true, ih hOthers, List.flatMap_cons,
      List.append_assoc]

theorem blankComments_opening {opening : List Char} (h : opening = ['#'] ∨ opening = ['/', '/']) :
    ∃ gap, IsSpaces gap ∧ ∀ text, blankComments .code (opening ++ text) = gap ++ blankComments .line text := by
  rcases h with rfl | rfl
  · exact ⟨blank '#', blank_spaces _, fun _ => rfl⟩
  · exact ⟨blank '/' ++ blank '/', (blank_spaces _).append (blank_spaces _), fun _ => rfl⟩

theorem isSpaces_nil : IsSpaces [] :=
  fun _ hx => by cases hx

theorem IsSpaces.cons {c : Char} {gap : List Char} (hSpace : Scan.isSpace c = true) (h : IsSpaces gap) :
    IsSpaces (c :: gap) :=
  List.forall_mem_cons.mpr ⟨hSpace, h⟩

theorem IsTrivia.turns {gap : List Char} (h : IsTrivia gap) : ∃ gap', IsSpaces gap' ∧ TurnsComments gap gap' := by
  induction h with
  | nil => exact ⟨[], isSpaces_nil, fun _ => rfl⟩
  | @space c gap hSpace _ ih =>
    obtain ⟨gap', hGap', hText⟩ := ih
    have hFirst : Inert [c] := inert_plain (by simpa using (isSpace_gap hSpace).2)
    refine ⟨c :: gap', hGap'.cons hSpace, fun rest => ?_⟩
    have hStep := hFirst.comments (gap ++ rest)
    rwa [hText] at hStep
  | @line opening content gap hOpening hContent _ ih =>
    obtain ⟨gap', hGap', hText⟩ := ih
    obtain ⟨first, hFirst, hStart⟩ := blankComments_opening hOpening
    refine ⟨first ++ (content.flatMap blank ++ '\n' :: gap'),
      hFirst.append ((flatMap_blank_spaces content).append (hGap'.cons rfl)), fun rest => ?_⟩
    -- The line end is kept, and behind it the scan is between tokens again.
    have hEnd : blankComments .line ('\n' :: (gap ++ rest)) = '\n' :: (gap' ++ blankComments .code rest) := by
      rw [← hText]
      rfl
    have hLine := blankComments_line hContent ('\n' :: (gap ++ rest))
    rw [hEnd] at hLine
    have hAll := hStart (content ++ '\n' :: (gap ++ rest))
    rw [hLine] at hAll
    simpa using hAll
  | @block content gap hContent _ ih =>
    obtain ⟨gap', hGap', hText⟩ := ih
    have hPair : IsSpaces [' ', ' '] := (isSpaces_nil.cons rfl).cons rfl
    refine ⟨[' ', ' '] ++ (content.flatMap blank ++ ([' ', ' '] ++ gap')),
      hPair.append ((flatMap_blank_spaces content).append (hPair.append hGap')), fun rest => ?_⟩
    have hBlock := blankComments_block hContent (gap ++ rest)
    rw [hText] at hBlock
    have hStart : blankComments .code ('/' :: '*' :: (content ++ '*' :: '/' :: (gap ++ rest))) =
        ' ' :: ' ' :: blankComments .block (content ++ '*' :: '/' :: (gap ++ rest)) := rfl
    rw [hBlock] at hStart
    simpa using hStart

theorem IsLastTrivia.turns {gap : List Char} (h : IsLastTrivia gap) : IsSpaces (blankComments .code gap) := by
  cases h with
  | gap hGap =>
    obtain ⟨gap', hGap', hText⟩ := hGap.turns
    have hAll := hText []
    rw [List.append_nil, blankComments, List.append_nil] at hAll
    rwa [hAll]
  | @line gap opening content hGap hOpening hContent =>
    obtain ⟨gap', hGap', hText⟩ := hGap.turns
    obtain ⟨first, hFirst, hStart⟩ := blankComments_opening hOpening
    have hLine := blankComments_line hContent []
    rw [List.append_nil, blankComments, List.append_nil] at hLine
    rw [hText, hStart, hLine]
    exact hGap'.append (hFirst.append (flatMap_blank_spaces content))

theorem TurnsComments.append {a a' b b' : List Char} (h : TurnsComments a a') (hMore : TurnsComments b b') :
    TurnsComments (a ++ b) (a' ++ b') :=
  fun rest => by rw [List.append_assoc, h, hMore, List.append_assoc]

theorem restyles_comments : Restyles TurnsComments .relaxed .uncommented where
  append := TurnsComments.append
  scalar h := h.inert.comments
  mark h := (mark_inert h).comments
  gap h := IsTrivia.turns h
  comma := by
    intro gap text text' hGap _ hText
    obtain ⟨gap', hGap', hTurns⟩ := IsTrivia.turns hGap
    have hRest := hTurns.append hText
    refine ⟨gap', hGap', fun rest => ?_⟩
    rw [List.cons_append, List.cons_append, ← hRest rest]
    rfl
  ending := by
    intro c text hClosing h
    have hMark : TurnsComments [c] [c] := (mark_inert (by rcases hClosing with rfl | rfl <;> decide)).comments
    cases h with
    | bare hGap =>
      obtain ⟨gap', hGap', hTurns⟩ := IsTrivia.turns hGap
      exact ⟨_, .bare hGap', hTurns.append hMark⟩
    | comma _ hBefore hBehind =>
      obtain ⟨before', hBefore', hTurnsBefore⟩ := IsTrivia.turns hBefore
      obtain ⟨behind', hBehind', hTurnsBehind⟩ := IsTrivia.turns hBehind
      have hComma : TurnsComments [','] [','] := fun _ => rfl
      exact ⟨_, .comma trivial hBefore' hBehind',
        hTurnsBefore.append (hComma.append (hTurnsBehind.append hMark))⟩

/-! ## Trailing commas -/

def TurnsCommas (text text' : List Char) : Prop :=
  ∀ rest, blankCommas .code (text ++ rest) = text' ++ blankCommas .code rest

theorem TurnsCommas.append {a a' b b' : List Char} (h : TurnsCommas a a') (hMore : TurnsCommas b b') :
    TurnsCommas (a ++ b) (a' ++ b') :=
  fun rest => by rw [List.append_assoc, h, hMore, List.append_assoc]

theorem IsSpaces.dropWhile {gap : List Char} (h : IsSpaces gap) {c : Char} (hStop : isGap c = false) :
    (gap ++ c :: rest).dropWhile isGap = c :: rest := by
  rw [List.dropWhile_append_of_pos fun x hx => (isSpace_gap (h x hx)).1]
  simp [hStop]

theorem closesNext_opens {gap : List Char} (h : IsSpaces gap) (hOpens : OpensText text) (rest : List Char) :
    closesNext (gap ++ (text ++ rest)) = false := by
  obtain ⟨c, more, rfl, hFirst⟩ := hOpens
  rw [closesNext, List.cons_append, h.dropWhile hFirst.notGap]
  simp [hFirst.notBracket, hFirst.notBrace]

theorem closesNext_closing {gap : List Char} (h : IsSpaces gap) {c : Char} (hClosing : c = ']' ∨ c = '\x7d')
    (rest : List Char) : closesNext (gap ++ c :: rest) = true := by
  rcases hClosing with rfl | rfl
  · rw [closesNext, h.dropWhile rfl]
    rfl
  · rw [closesNext, h.dropWhile rfl]
    rfl

theorem restyles_commas : Restyles TurnsCommas .uncommented .strict where
  append := TurnsCommas.append
  scalar h := h.inert.commas
  mark h := (mark_inert h).commas
  gap h := ⟨_, h, (IsSpaces.inert h).commas⟩
  comma := by
    intro gap text text' hGap hOpens hText
    have hRest : TurnsCommas (gap ++ text) (gap ++ text') := TurnsCommas.append (IsSpaces.inert hGap).commas hText
    refine ⟨gap, hGap, fun rest => ?_⟩
    have hOpen := closesNext_opens hGap hOpens rest
    rw [List.cons_append, List.cons_append, ← hRest rest]
    simp [blankCommas, hOpen]
  ending := by
    intro c text hClosing h
    have hMark : TurnsCommas [c] [c] := (mark_inert (by rcases hClosing with rfl | rfl <;> decide)).commas
    cases h with
    | bare hGap => exact ⟨_, .bare hGap, TurnsCommas.append (IsSpaces.inert hGap).commas hMark⟩
    | @comma before behind _ hBefore hBehind =>
      have hEnd := TurnsCommas.append (IsSpaces.inert hBehind).commas hMark
      have hComma : TurnsCommas (',' :: (behind ++ [c])) (' ' :: (behind ++ [c])) := by
        intro rest
        have hCloses := closesNext_closing hBehind hClosing rest
        rw [List.cons_append, List.cons_append, ← hEnd rest]
        simp [blankCommas, hCloses]
      have hGap : IsSpaces (before ++ ' ' :: behind) := IsSpaces.append hBefore (IsSpaces.cons rfl hBehind)
      refine ⟨(before ++ ' ' :: behind) ++ [c], .bare hGap, ?_⟩
      have hAll := TurnsCommas.append (IsSpaces.inert hBefore).commas hComma
      simpa using hAll

/-! ## Strict texts stay -/

theorem restyles_strict : Restyles (fun text text' => text' = text ∧ Inert text) .strict .strict where
  append := by
    rintro a a' b b' ⟨rfl, ha⟩ ⟨rfl, hb⟩
    exact ⟨rfl, ha.append hb⟩
  scalar h := ⟨rfl, h.inert⟩
  mark h := ⟨rfl, mark_inert h⟩
  gap h := ⟨_, h, rfl, IsSpaces.inert h⟩
  comma := by
    rintro gap text text' hGap hOpens ⟨rfl, hText⟩
    refine ⟨gap, hGap, rfl, comma_inert ((IsSpaces.inert hGap).append hText) fun rest => ?_⟩
    rw [List.append_assoc]
    exact closesNext_opens hGap hOpens rest
  ending := by
    intro c text hClosing h
    have hMark : Inert [c] := mark_inert (by rcases hClosing with rfl | rfl <;> decide)
    cases h with
    | bare hGap => exact ⟨_, .bare hGap, rfl, (IsSpaces.inert hGap).append hMark⟩
    | comma hTrailing => exact hTrailing.elim

/-! ## Whole texts -/

/-- A strict text has neither comments nor trailing commas to blank. -/
theorem Spells.relax_eq (h : Spells .strict tree text) : relax text = text := by
  cases h with
  | intro hBefore hText hBehind =>
    obtain ⟨_, -, rfl, hInert⟩ := hText.restyled restyles_strict
    exact ((IsSpaces.inert hBefore).append (hInert.append (IsSpaces.inert hBehind))).relax

/-- A relaxed text becomes a strict text of the same tokens. -/
theorem Spells.relax (h : Spells .relaxed tree text) : Spells .strict tree (Json.relax text) := by
  cases h with
  | @intro before text behind hBefore hText hBehind =>
    obtain ⟨before', hBefore', hGap⟩ := IsTrivia.turns hBefore
    obtain ⟨middle, hMiddle, hComments⟩ := hText.restyled restyles_comments
    obtain ⟨text', hText', hCommas⟩ := hMiddle.restyled restyles_commas
    have hBehind' := IsLastTrivia.turns hBehind
    have hRelax : Json.relax (before ++ (text ++ behind)) = before' ++ (text' ++ blankComments .code behind) := by
      have hEnd : blankCommas .code (blankComments .code behind) = blankComments .code behind := by
        have hAll := (IsSpaces.inert hBehind').commas []
        rwa [List.append_nil, blankCommas, List.append_nil] at hAll
      rw [Json.relax, hGap, hComments, (IsSpaces.inert hBefore').commas, hCommas, hEnd]
    rw [hRelax]
    exact .intro hBefore' hText' hBehind'

end Json

end DialogTree
