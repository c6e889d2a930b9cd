import DialogTree.Proofs.Json.Layout

/-!
# Layouts are strict

Blanking comments and trailing commas changes no layout. Marks inside strings are passed over, and behind every
comma a value or a key begins.
-/

namespace DialogTree

namespace Json

variable {text rest : List Char} {c : Char}

/-! ## Where values begin -/

structure Opens (c : Char) : Prop where
  notGap : isGap c = false
  notBracket : c ≠ ']'
  notBrace : c ≠ '\x7d'

theorem Opens.notSpace (h : Opens c) : Scan.isSpace c = false := by
  have hGap := h.notGap
  simp only [isGap, Bool.or_eq_false_iff] at hGap
  simp [Scan.isSpace, hGap]

theorem opens_digit (h : c.isDigit = true) : Opens c := by
  have hNot : ∀ d : Char, d.isDigit = false → c ≠ d := by
    rintro d hd rfl
    rw [h] at hd
    cases hd
  refine ⟨?_, hNot ']' rfl, hNot '\x7d' rfl⟩
  simp [isGap, hNot ' ' rfl, hNot '\t' rfl, hNot '\n' rfl, hNot '\x0c' rfl, hNot '\r' rfl]

def OpensText (text : List Char) : Prop :=
  ∃ c rest, text = c :: rest ∧ Opens c

theorem opensText_number (text : List Char) (negative : Bool)
    (h : ∃ c rest, text = c :: rest ∧ c.isDigit = true) : OpensText (if negative then '-' :: text else text) := by
  obtain ⟨c, rest, rfl, hDigit⟩ := h
  cases negative with
  | true => exact ⟨'-', c :: rest, rfl, ⟨rfl, by decide, by decide⟩⟩
  | false => exact ⟨c, rest, rfl, opens_digit hDigit⟩

theorem scalarText_opens {value : Value} (hArray : ∀ items, value ≠ .array items)
    (hObject : ∀ entries, value ≠ .object entries) : OpensText (scalarText value) := by
  cases value with
  | null => exact ⟨'n', _, rfl, ⟨rfl, by decide, by decide⟩⟩
  | bool b =>
    cases b with
    | true => exact ⟨'t', _, rfl, ⟨rfl, by decide, by decide⟩⟩
    | false => exact ⟨'f', _, rfl, ⟨rfl, by decide, by decide⟩⟩
  | integer n =>
    cases n with
    | ofNat k =>
      rw [scalarText, toString_ofNat]
      exact opensText_number _ false (toDigits_cons k)
    | negSucc k =>
      rw [scalarText, toString_negSucc]
      exact opensText_number _ true (toDigits_cons (k + 1))
  | float x =>
    cases x with
    | nan => exact ⟨'n', _, rfl, ⟨rfl, by decide, by decide⟩⟩
    | infinity negative =>
      cases negative with
      | true => exact ⟨'n', _, rfl, ⟨rfl, by decide, by decide⟩⟩
      | false => exact ⟨'n', _, rfl, ⟨rfl, by decide, by decide⟩⟩
    | finite negative units fits =>
      rw [scalarText, FloatStyle.text, String.toList_ofList]
      exact opensText_number _ negative (magnitudeText_head .json units)
  | string text => exact ⟨'"', _, rfl, ⟨rfl, by decide, by decide⟩⟩
  | array items => exact absurd rfl (hArray items)
  | object entries => exact absurd rfl (hObject entries)

theorem Layout.opens {value : Value} (h : Layout value text) : OpensText text := by
  cases h with
  | scalar hArray hObject => exact scalarText_opens hArray hObject
  | array => exact ⟨'[', _, rfl, ⟨rfl, by decide, by decide⟩⟩
  | object => exact ⟨'\x7b', _, rfl, ⟨rfl, by decide, by decide⟩⟩

theorem EntryTo.opens {Part : Value → List Char → Prop} {entry : String × Value} (h : EntryTo Part entry text) :
    OpensText text := by
  cases h with
  | intro => exact ⟨'"', _, rfl, ⟨rfl, by decide, by decide⟩⟩

/-! ## Texts that blanking leaves as they are -/

/-- Between tokens, blanking leaves the text as it is and goes on behind it. -/
structure Inert (text : List Char) : Prop where
  comments : ∀ rest, blankComments .code (text ++ rest) = text ++ blankComments .code rest
  commas : ∀ rest, blankCommas .code (text ++ rest) = text ++ blankCommas .code rest

theorem Inert.relax (h : Inert text) : relax text = text := by
  have hComments := h.comments []
  have hCommas := h.commas []
  rw [List.append_nil] at hComments hCommas
  rw [Json.relax, hComments, blankComments, List.append_nil, hCommas, blankCommas, List.append_nil]

theorem Inert.append {more : List Char} (h : Inert text) (hMore : Inert more) : Inert (text ++ more) where
  comments rest := by rw [List.append_assoc, h.comments, hMore.comments, List.append_assoc]
  commas rest := by rw [List.append_assoc, h.commas, hMore.commas, List.append_assoc]

theorem inert_nil : Inert [] :=
  ⟨fun _ => rfl, fun _ => rfl⟩

/-- A character that is no mark of comments, strings or commas. -/
def isPlainCode (c : Char) : Bool :=
  c != '"' && c != '#' && c != '/' && c != ','

theorem inert_plain (h : ∀ x ∈ text, isPlainCode x = true) : Inert text := by
  induction text with
  | nil => exact inert_nil
  | cons c text ih =>
    rw [List.forall_mem_cons] at h
    have hPlain := h.1
    simp only [isPlainCode, Bool.and_eq_true, bne_iff_ne] at hPlain
    obtain ⟨⟨⟨hQuote, hHash⟩, hSlash⟩, hComma⟩ := hPlain
    have hOthers := ih h.2
    refine ⟨fun rest => ?_, fun rest => ?_⟩
    · simp [blankComments, hQuote, hHash, hSlash, hOthers.comments]
    · simp [blankCommas, hQuote, hComma, hOthers.commas]

/-! ## Strings -/

structure InertInString (text : List Char) : Prop where
  comments : ∀ rest, blankComments .string (text ++ rest) = text ++ blankComments .string rest
  commas : ∀ rest, blankCommas .string (text ++ rest) = text ++ blankCommas .string rest

theorem InertInString.append {more : List Char} (h : InertInString text) (hMore : InertInString more) :
    InertInString (text ++ more) where
  comments rest := by rw [List.append_assoc, h.comments, hMore.comments, List.append_assoc]
  commas rest := by rw [List.append_assoc, h.commas, hMore.commas, List.append_assoc]

theorem inertInString_plain (h : ∀ x ∈ text, x ≠ '"' ∧ x ≠ '\\') : InertInString text := by
  induction text with
  | nil => exact ⟨fun _ => rfl, fun _ => rfl⟩
  | cons c text ih =>
    rw [List.forall_mem_cons] at h
    obtain ⟨⟨hQuote, hBackslash⟩, hOthers⟩ := h
    have hRest := ih hOthers
    refine ⟨fun rest => ?_, fun rest => ?_⟩
    · simp [blankComments, hQuote, hBackslash, hRest.comments]
    · simp [blankCommas, hQuote, hBackslash, hRest.commas]

/-- A character behind a backslash ends no string. -/
theorem inertInString_escape (letter : Char) : InertInString ['\\', letter] := by
  refine ⟨fun rest => ?_, fun rest => ?_⟩
  · simp [blankComments]
  · simp [blankCommas]

theorem hexDigit_plain {x : Char} (h : isDigitIn 16 x = true) : x ≠ '"' ∧ x ≠ '\\' := by
  refine ⟨?_, ?_⟩
  · rintro rfl
    exact absurd h (by decide)
  · rintro rfl
    exact absurd h (by decide)

theorem stringChar_inert (c : Char) : InertInString (stringChar c) := by
  rcases stringChar_cases c with ⟨hText, hQuote, hBackslash, -⟩ | ⟨letter, hText, -⟩ | ⟨hControl, hText⟩
  · rw [hText]
    exact inertInString_plain (by simp [hQuote, hBackslash])
  · rw [hText]
    exact inertInString_escape letter
  · rw [hText]
    have hDigits := (fourHex_spells c.toNat (by omega)).2.1
    exact (inertInString_escape 'u').append (inertInString_plain fun x hx => hexDigit_plain (hDigits x hx))

theorem stringText_inert (text : String) : Inert (stringText text) := by
  have hBody : ∀ chars : List Char, InertInString (chars.flatMap stringChar) := by
    intro chars
    induction chars with
    | nil => exact ⟨fun _ => rfl, fun _ => rfl⟩
    | cons c chars ih => exact (stringChar_inert c).append ih
  have hChars := hBody text.toList
  refine ⟨fun rest => ?_, fun rest => ?_⟩
  · simp [stringText, blankComments, hChars.comments]
  · simp [stringText, blankCommas, hChars.commas]

/-! ## Numbers and words -/

theorem isPlainCode_digit (h : c.isDigit = true) : isPlainCode c = true := by
  have hNot : ∀ d : Char, d.isDigit = false → c ≠ d := by
    rintro d hd rfl
    rw [h] at hd
    cases hd
  simp [isPlainCode, hNot '"' rfl, hNot '#' rfl, hNot '/' rfl, hNot ',' rfl]

section Numbers

variable {p : Char → Bool} {digits : List Char} (hDigits : ∀ x ∈ digits, p x = true)

include hDigits

theorem positionalText_all (style : FloatStyle) (hZero : p '0' = true) (hPoint : p '.' = true) (exponent : Int) :
    ∀ x ∈ style.positionalText digits exponent, p x = true := by
  have hFraction : ∀ x ∈ (if style.keepsPoint then ['.', '0'] else []), p x = true := by
    cases style.keepsPoint <;> simp [hPoint, hZero]
  intro x hx
  cases exponent with
  | ofNat e =>
    rcases List.mem_append.mp hx with hx | hx
    · rcases List.mem_append.mp hx with hx | hx
      · exact hDigits x hx
      · rw [(List.mem_replicate.mp hx).2]
        exact hZero
    · exact hFraction x hx
  | negSucc e =>
    simp only [FloatStyle.positionalText] at hx
    split at hx
    · simp only [List.cons_append, List.mem_cons, List.mem_append, List.mem_replicate] at hx
      rcases hx with rfl | rfl | ⟨-, rfl⟩ | hx
      · exact hZero
      · exact hPoint
      · exact hZero
      · exact hDigits x hx
    · rcases List.mem_append.mp hx with hx | hx
      · exact hDigits x (List.mem_of_mem_take hx)
      · rcases List.mem_cons.mp hx with rfl | hx
        · exact hPoint
        · exact hDigits x (List.mem_of_mem_drop hx)

theorem scientificText_all (style : FloatStyle) (hPoint : p '.' = true) (hMark : p 'e' = true)
    (hSigns : ∀ x ∈ '-' :: style.plus.toList, p x = true) (hAll : ∀ x, x.isDigit = true → p x = true)
    (leading : Int) : ∀ x ∈ style.scientificText digits leading, p x = true := by
  have hSign : ∀ x ∈ (if leading < 0 then ['-'] else style.plus.toList), p x = true := by
    intro x hx
    split at hx
    · exact hSigns x (List.mem_cons.mpr (.inl (List.mem_singleton.mp hx)))
    · exact hSigns x (List.mem_cons_of_mem _ hx)
  have hExponent : ∀ x ∈ Nat.toDigits 10 leading.natAbs, p x = true :=
    fun x hx => hAll x ((isDigits_toDigits _).all x hx)
  intro x hx
  simp only [FloatStyle.scientificText, List.mem_append, List.mem_cons] at hx
  rcases hx with (hx | rfl | hx) | hx
  · -- The mantissa has a point behind its first digit when it has more than one.
    split at hx
    · rw [List.forall_mem_cons] at hDigits
      simp only [List.mem_cons] at hx
      rcases hx with rfl | rfl | hx
      · exact hDigits.1
      · exact hPoint
      · exact hDigits.2 x (List.mem_cons.mpr hx)
    · exact hDigits x hx
  · exact hMark
  · exact hSign x hx
  · exact hExponent x hx

end Numbers

theorem magnitudeText_plain (units : Nat) : ∀ x ∈ FloatStyle.json.magnitudeText units, isPlainCode x = true := by
  have hDigits : ∀ n, ∀ x ∈ Nat.toDigits 10 n, isPlainCode x = true :=
    fun n x hx => isPlainCode_digit ((isDigits_toDigits n).all x hx)
  by_cases hZero : units = 0
  · rw [FloatStyle.magnitudeText, if_pos hZero]
    exact positionalText_all (by simp; rfl) .json rfl rfl 0
  · rw [FloatStyle.magnitudeText, if_neg hZero]
    generalize Decimal.shortest FloatStyle.json.tie units = x
    have hStyle : FloatStyle.json.positional = some (-5, 15) := rfl
    simp only [hStyle]
    split
    · exact positionalText_all (hDigits x.digits) .json rfl rfl _
    · exact scientificText_all (hDigits x.digits) .json rfl rfl (List.all_eq_true.mp rfl)
        (fun _ h => isPlainCode_digit h) _

theorem inert_number (negative : Bool) (h : ∀ x ∈ text, isPlainCode x = true) :
    Inert (if negative then '-' :: text else text) := by
  cases negative with
  | true => exact inert_plain (List.forall_mem_cons.mpr ⟨rfl, h⟩)
  | false => exact inert_plain h

theorem scalarText_inert (value : Value) : Inert (scalarText value) := by
  have hWord : ∀ {word : List Char}, word.all isPlainCode = true → Inert word :=
    fun h => inert_plain (List.all_eq_true.mp h)
  have hDigits : ∀ n, ∀ x ∈ Nat.toDigits 10 n, isPlainCode x = true :=
    fun n x hx => isPlainCode_digit ((isDigits_toDigits n).all x hx)
  cases value with
  | null => exact hWord (by decide)
  | bool b =>
    cases b with
    | true => exact hWord (by decide)
    | false => exact hWord (by decide)
  | integer n =>
    cases n with
    | ofNat k =>
      rw [scalarText, toString_ofNat]
      exact inert_number false (hDigits k)
    | negSucc k =>
      rw [scalarText, toString_negSucc]
      exact inert_number true (hDigits (k + 1))
  | float x =>
    cases x with
    | nan => exact hWord (by decide)
    | infinity negative =>
      cases negative with
      | true => exact hWord (by decide)
      | false => exact hWord (by decide)
    | finite negative units fits =>
      rw [scalarText, FloatStyle.text, String.toList_ofList]
      exact inert_number negative (magnitudeText_plain units)
  | string text => exact stringText_inert text
  | array items => exact inert_nil
  | object entries => exact inert_nil

/-! ## Layouts -/

theorem gap_inert {gap : List Char} (h : IsGap gap) : Inert gap := by
  refine inert_plain fun x hx => ?_
  rcases h x hx with rfl | rfl
  · rfl
  · rfl

theorem not_closesNext {gap : List Char} (hGap : IsGap gap) (hOpens : OpensText text) :
    closesNext (gap ++ (text ++ rest)) = false := by
  obtain ⟨c, more, rfl, hFirst⟩ := hOpens
  have hSkip : (gap ++ (c :: more ++ rest)).dropWhile isGap = c :: more ++ rest :=
    hGap.dropWhile rfl rfl (by simpa using hFirst.notGap)
  rw [closesNext, hSkip]
  simp [hFirst.notBracket, hFirst.notBrace]

theorem comma_inert {more : List Char} (hText : Inert more) (hOpens : ∀ rest, closesNext (more ++ rest) = false) :
    Inert (',' :: more) := by
  refine ⟨fun rest => ?_, fun rest => ?_⟩
  · simp [blankComments, hText.comments]
  · simp [blankCommas, hOpens, hText.commas]

theorem PartsTo.inert {α : Type} {Part : α → List Char → Prop} {closing : Char} {isFirst : Bool} {parts : List α}
    {body : List Char} (h : PartsTo Part closing isFirst parts body) (hClosing : isPlainCode closing = true)
    (hEach : ∀ a ∈ parts, ∀ text, Part a text → Inert text) (hOpens : ∀ {a text}, Part a text → OpensText text) :
    Inert body := by
  induction h with
  | close => exact inert_plain (by simpa using hClosing)
  | first hPart hBehind _ ih =>
    have hText := hEach _ List.mem_cons_self _ hPart
    exact hText.append ((gap_inert hBehind).append (ih fun b hMem => hEach b (List.mem_cons_of_mem _ hMem)))
  | next hBefore hPart hBehind _ ih =>
    have hText := hEach _ List.mem_cons_self _ hPart
    have hMore := (gap_inert hBehind).append (ih fun b hMem => hEach b (List.mem_cons_of_mem _ hMem))
    refine comma_inert ((gap_inert hBefore).append (hText.append hMore)) fun rest => ?_
    rw [List.append_assoc, List.append_assoc]
    exact not_closesNext hBefore (hOpens hPart)

theorem layout_inert (value : Value) : ∀ text, Layout value text → Inert text := by
  induction value using Value.induction with
  | hScalar value hArray hObject =>
    intro text h
    cases h with
    | scalar => exact scalarText_inert value
    | @array items => exact absurd rfl (hArray items)
    | @object entries => exact absurd rfl (hObject entries)
  | hArray items hItems =>
    intro text h
    cases h with
    | scalar hNot => exact absurd rfl (hNot items)
    | array hGap hBody =>
      have hOpening : Inert ['['] := inert_plain (by simp; rfl)
      exact hOpening.append ((gap_inert hGap).append (hBody.inert rfl hItems Layout.opens))
  | hObject entries hEntries =>
    intro text h
    cases h with
    | scalar _ hNot => exact absurd rfl (hNot entries)
    | object hGap hBody =>
      have hOpening : Inert ['\x7b'] := inert_plain (by simp; rfl)
      have hEach : ∀ entry ∈ entries, ∀ text, EntryTo Layout entry text → Inert text := by
        intro entry hMem text hEntry
        cases hEntry with
        | @intro key _ _ _ hSpace hValue =>
          have hColon : Inert [':'] := inert_plain (by simp; rfl)
          have hText := hEntries _ hMem _ hValue
          exact (stringText_inert key).append (hColon.append ((gap_inert hSpace).append hText))
      exact hOpening.append ((gap_inert hGap).append (hBody.inert rfl hEach EntryTo.opens))

theorem Layout.relax {value : Value} (h : Layout value text) : Json.relax text = text :=
  (layout_inert value text h).relax

end Json

end DialogTree
