import DialogTree.Proofs.Json.Numbers
import DialogTree.Proofs.Written.Values

/-!
# Values without parts in JSON

A string, a word or a number is read from the text that is written for it, whatever follows. Numbers end only
in front of a character that no numeral goes on with.
-/

namespace DialogTree

namespace Json

variable {scan : Scan} {rest : List Char} {value : Value} {depth : Nat}

/-- The value is read from the text, wherever it stands in front of no numeral, and only spaces are left of it. -/
def ReadsAs (depth : Nat) (value : Value) (text : List Char) : Prop :=
  ∀ ⦃scan : Scan⦄ ⦃rest : List Char⦄, scan.rest = text ++ rest → EndsNumeral rest →
    ∃ next, readValue depth scan = .ok (value, next) ∧ next.skipSpace.rest = rest.dropWhile Scan.isSpace

theorem rest_skip_cons {c : Char} (h : scan.rest = c :: rest) : (scan.skip 1).rest = rest := by
  simp [Scan.skip, h]

theorem skipSpace_of_head {c : Char} (h : scan.rest = c :: rest) (hc : Scan.isSpace c = false) :
    scan.skipSpace = scan := by
  simp [Scan.skipSpace, Scan.skipWhile, h, hc, byteLength]
  rw [← h]

/-! ## Strings -/

theorem readEscape_short {letter c : Char} (h : scan.rest = letter :: rest) (hShort : shortEscape? letter = some c) :
    readEscape scan = .ok (c, scan.skip 1) := by
  rw [readEscape, h]
  simp only [hShort]

/-- Four digits of a code point that is no half of a pair. -/
theorem readCodePoint_hex {digits : List Char} (h : scan.rest = digits ++ rest) (hLength : digits.length = 4)
    (hDigits : ∀ x ∈ digits, isDigitIn 16 x = true) (hPlain : valueIn 16 digits < 0xD800) :
    readCodePoint scan = .ok (Char.ofNat (valueIn 16 digits), scan.skip 4) := by
  have hTake : scan.rest.take 4 = digits := by rw [h, ← hLength, List.take_left]
  have hHex : readHex scan = .ok (valueIn 16 digits, scan.skip 4) := by
    rw [readHex, hTake]
    simp [hLength, List.all_eq_true.mpr hDigits]
  have hLow : isLowSurrogate (valueIn 16 digits) = false := by simp [isLowSurrogate]; omega
  have hHigh : isHighSurrogate (valueIn 16 digits) = false := by simp [isHighSurrogate]; omega
  rw [readCodePoint, hHex]
  simp [Bind.bind, Except.bind, hLow, hHigh]

theorem readEscape_hex {n : Nat} (hControl : n < 0x20) (h : scan.rest = 'u' :: (Render.fourHex n ++ rest)) :
    readEscape scan = .ok (Char.ofNat n, (scan.skip 1).skip 4) := by
  obtain ⟨hLength, hDigits, hValue⟩ := fourHex_spells n (by omega)
  have hPoint := readCodePoint_hex (rest_skip_cons h) hLength hDigits (by omega)
  have hShort : shortEscape? 'u' = none := by decide
  rw [readEscape, h]
  simp only [hShort, if_true]
  rw [hPoint, hValue]

theorem control_text : ∀ n < 0x20, ['u', '0', '0'] ++ List.replicate (2 - (Nat.toDigits 16 n).length) '0' ++
    Nat.toDigits 16 n = 'u' :: Render.fourHex n := by
  decide

/-- A character of a string is written as itself or behind a backslash. -/
theorem stringChar_cases (c : Char) :
    (stringChar c = [c] ∧ c ≠ '"' ∧ c ≠ '\\' ∧ ¬ c.toNat < 0x20) ∨
      (∃ letter, stringChar c = ['\\', letter] ∧ shortEscape? letter = some c) ∨
        (c.toNat < 0x20 ∧ stringChar c = '\\' :: 'u' :: Render.fourHex c.toNat) := by
  unfold stringChar
  split
  · rename_i hIs
    exact .inr (.inl ⟨'"', rfl, by rw [hIs]; decide⟩)
  split
  · rename_i hIs
    exact .inr (.inl ⟨'\\', rfl, by rw [hIs]; decide⟩)
  split
  · rename_i hIs
    exact .inr (.inl ⟨'n', rfl, by rw [hIs]; decide⟩)
  split
  · rename_i hIs
    exact .inr (.inl ⟨'r', rfl, by rw [hIs]; decide⟩)
  split
  · rename_i hIs
    exact .inr (.inl ⟨'t', rfl, by rw [hIs]; decide⟩)
  split
  · rename_i hIs
    exact .inr (.inl ⟨'b', rfl, by rw [hIs]; decide⟩)
  split
  · rename_i hIs
    exact .inr (.inl ⟨'f', rfl, by rw [hIs]; decide⟩)
  split
  · rename_i hControl
    have hText := control_text c.toNat hControl
    exact .inr (.inr ⟨hControl, by rw [← hText]; rfl⟩)
  · rename_i hQuote hBackslash _ _ _ _ _ hControl
    exact .inl ⟨rfl, hQuote, hBackslash, hControl⟩

/-- What is written for a character is read as that character. -/
theorem readStringBody_char (bound : Nat) {c : Char} (h : scan.rest = stringChar c ++ rest) :
    ∃ next : Scan, next.rest = rest ∧ readStringBody (bound + 1) scan =
      (readStringBody bound next).map fun read => (c :: read.1, read.2) := by
  have hEscaped : ∀ {text : List Char} {next : Scan}, scan.rest = '\\' :: text →
      readEscape (scan.skip 1) = .ok (c, next) → readStringBody (bound + 1) scan =
        (readStringBody bound next).map fun read => (c :: read.1, read.2) := by
    intro text next hText hEscape
    rw [readStringBody, hText]
    simp [hEscape, Bind.bind, Except.bind, Except.map]
  rcases stringChar_cases c with ⟨hText, hQuote, hBackslash, hControl⟩ | ⟨letter, hText, hShort⟩ |
    ⟨hControl, hText⟩
  · rw [hText] at h
    refine ⟨scan.skip 1, rest_skip_cons h, ?_⟩
    rw [readStringBody, h]
    simp [hQuote, hBackslash, hControl, Bind.bind, Except.bind, Except.map]
  · rw [hText] at h
    have hLetter : (scan.skip 1).rest = letter :: rest := rest_skip_cons h
    exact ⟨_, rest_skip_cons hLetter, hEscaped h (readEscape_short hLetter hShort)⟩
  · rw [hText] at h
    have hMark : (scan.skip 1).rest = 'u' :: (Render.fourHex c.toNat ++ rest) := rest_skip_cons h
    have hEscape := readEscape_hex hControl hMark
    rw [Char.ofNat_toNat] at hEscape
    refine ⟨_, ?_, hEscaped h hEscape⟩
    have hLength := (fourHex_spells c.toNat (by omega)).1
    have hDigits : ((scan.skip 1).skip 1).rest = Render.fourHex c.toNat ++ rest := rest_skip_cons hMark
    rw [Scan.skip, hDigits]
    exact List.drop_left' hLength

theorem readStringBody_text {text : List Char} (bound : Nat) (hBound : text.length < bound)
    (h : scan.rest = text.flatMap stringChar ++ '"' :: rest) :
    ∃ next, readStringBody bound scan = .ok (text, next) ∧ next.rest = rest := by
  induction text generalizing scan bound with
  | nil =>
    obtain ⟨bound, rfl⟩ := Nat.exists_eq_add_one.mpr hBound
    refine ⟨scan.skip 1, ?_, rest_skip_cons h⟩
    rw [readStringBody, h]
    simp
  | cons c text ih =>
    obtain ⟨bound, rfl⟩ := Nat.exists_eq_add_one.mpr (Nat.zero_lt_of_lt hBound)
    rw [List.flatMap_cons, List.append_assoc] at h
    obtain ⟨next, hNext, hStep⟩ := readStringBody_char bound h
    obtain ⟨last, hRead, hLast⟩ := ih bound (by simpa using hBound) hNext
    exact ⟨last, by rw [hStep, hRead]; rfl, hLast⟩

theorem length_le_flatMap {text : List Char} : text.length ≤ (text.flatMap stringChar).length := by
  induction text with
  | nil => simp
  | cons c text ih =>
    have hSome : 0 < (stringChar c).length := by
      rcases stringChar_cases c with ⟨hText, -⟩ | ⟨letter, hText, -⟩ | ⟨-, hText⟩ <;> simp [hText]
    rw [List.flatMap_cons, List.length_append, List.length_cons]
    omega

theorem readString_text {text : String} (h : scan.rest = text.toList.flatMap stringChar ++ '"' :: rest) :
    ∃ next, readString scan = .ok (text, next) ∧ next.rest = rest := by
  have hBound : text.toList.length < scan.rest.length + 1 := by
    have hLength := @length_le_flatMap text.toList
    rw [h, List.length_append]
    omega
  obtain ⟨next, hRead, hNext⟩ := readStringBody_text _ hBound h
  refine ⟨next, ?_, hNext⟩
  rw [readString, hRead]
  simp [Bind.bind, Except.bind]

theorem string_readsAs (depth : Nat) (text : String) : ReadsAs depth (.string text) (stringText text) := by
  intro scan rest h _
  have hHead : scan.rest = '"' :: (text.toList.flatMap stringChar ++ '"' :: rest) := by
    simpa [stringText] using h
  obtain ⟨next, hRead, hNext⟩ := readString_text (rest_skip_cons hHead)
  refine ⟨next, ?_, by rw [Scan.skipSpace, Scan.skipWhile, hNext]⟩
  rw [readValue.eq_def]
  simp only [skipSpace_of_head hHead (by decide), hHead]
  simp [hRead, Except.map]

/-! ## Words -/

theorem readLetters_text {letters : List Char} (h : scan.rest = letters ++ rest) :
    ∃ next, readLetters value letters scan = .ok (value, next) ∧ next.rest = rest := by
  induction letters generalizing scan with
  | nil => exact ⟨scan, rfl, h⟩
  | cons c letters ih =>
    obtain ⟨next, hRead, hNext⟩ := ih (rest_skip_cons h)
    refine ⟨next, ?_, hNext⟩
    rw [readLetters, h]
    simp [hRead]

/-- The words of values, each with its first letter apart. -/
def words : List (Value × Char × List Char) :=
  [(.null, 'n', ['u', 'l', 'l']), (.bool true, 't', ['r', 'u', 'e']), (.bool false, 'f', ['a', 'l', 's', 'e'])]

theorem word_readsAs (depth : Nat) {first : Char} {letters : List Char} (hWord : (value, first, letters) ∈ words) :
    ReadsAs depth value (first :: letters) := by
  intro scan rest h _
  have hHead : scan.rest = first :: (letters ++ rest) := h
  obtain ⟨next, hRead, hNext⟩ := @readLetters_text _ _ value _ (rest_skip_cons hHead)
  have hStart : readValue depth scan = readLetters value letters (scan.skip 1) := by
    simp only [words, List.mem_cons, Prod.mk.injEq, List.not_mem_nil, or_false] at hWord
    rw [readValue.eq_def]
    rcases hWord with ⟨rfl, rfl, rfl⟩ | ⟨rfl, rfl, rfl⟩ | ⟨rfl, rfl, rfl⟩ <;>
      simp [skipSpace_of_head hHead (by decide), hHead]
  exact ⟨next, hStart.trans hRead, by rw [Scan.skipSpace, Scan.skipWhile, hNext]⟩

theorem bool_readsAs (depth : Nat) (b : Bool) : ReadsAs depth (.bool b) (toString b).toList := by
  cases b with
  | true => exact word_readsAs depth (.tail _ (.head _))
  | false => exact word_readsAs depth (.tail _ (.tail _ (.head _)))

/-! ## Numbers -/

theorem isDigit_not_space {c : Char} (h : c.isDigit = true) : Scan.isSpace c = false := by
  have hNot : ∀ d : Char, d.isDigit = false → c ≠ d := by
    rintro d hd rfl
    rw [h] at hd
    cases hd
  simp [Scan.isSpace, hNot ' ' (by decide), hNot '\n' (by decide), hNot '\t' (by decide), hNot '\r' (by decide)]

theorem readValue_digit (depth : Nat) {c : Char} (h : scan.rest = c :: rest) (hc : c.isDigit = true) :
    readValue depth scan = readNumber false scan := by
  have hNot : ∀ d : Char, d.isDigit = false → c ≠ d := by
    rintro d hd rfl
    rw [hc] at hd
    cases hd
  rw [readValue.eq_def]
  simp only [skipSpace_of_head h (isDigit_not_space hc), h]
  simp [hNot 'n' (by decide), hNot 't' (by decide), hNot 'f' (by decide), hNot '-' (by decide), hc]

theorem readValue_minus (depth : Nat) (h : scan.rest = '-' :: rest) :
    readValue depth scan = readNumber true (scan.skip 1) := by
  rw [readValue.eq_def]
  simp only [skipSpace_of_head h (by decide), h]
  simp

/-- A numeral that is read from its own text is read wherever it stands. -/
theorem numeral_readsAs (depth : Nat) {first : Char} {digits : List Char} {next : Scan}
    (hFirst : first.isDigit = true ∨ first = '-')
    (hRead : readValue maxDepth (.ofChars (first :: digits)) = .ok (value, next)) (hLeft : next.skipSpace.rest = []) :
    ReadsAs depth value (first :: digits) := by
  intro scan rest h hEnds
  have hScan : scan = (Scan.ofChars (first :: digits)).within scan.offset rest := by
    cases scan
    simpa [Scan.within, Scan.ofChars] using h
  refine ⟨next.within scan.offset rest, ?_, ?_⟩
  · rcases hFirst with hDigit | rfl
    · rw [readValue_digit maxDepth rfl hDigit] at hRead
      have hHere := readNumber_local false _ hRead scan.offset hEnds
      rwa [readValue_digit depth h hDigit, hScan]
    · rw [readValue_minus maxDepth rfl] at hRead
      have hHere := readNumber_local true _ hRead scan.offset hEnds
      rw [← Scan.skip_within (by simp [Scan.ofChars]), ← hScan] at hHere
      rwa [readValue_minus depth h]
  · have hSpaces : next.rest.dropWhile Scan.isSpace = [] := hLeft
    simp [Scan.skipSpace, Scan.skipWhile, Scan.within, List.dropWhile_append, hSpaces]

theorem toDigits_cons (n : Nat) : ∃ c digits, Nat.toDigits 10 n = c :: digits ∧ c.isDigit = true := by
  have hAll := isDigits_toDigits n
  cases hText : Nat.toDigits 10 n with
  | nil => exact absurd hText hAll.some
  | cons c digits => exact ⟨c, digits, rfl, hAll.all c (by rw [hText]; exact List.mem_cons_self)⟩

theorem integer_readsAs (depth : Nat) {n : Int} (hLow : -2 ^ 63 ≤ n) (hHigh : n < 2 ^ 64) :
    ReadsAs depth (.integer n) (toString n).toList := by
  have hLeft : ∀ {next : Scan}, next.rest = [] → next.skipSpace.rest = [] :=
    fun h => by simp [Scan.skipSpace, Scan.skipWhile, h]
  cases n with
  | ofNat k =>
    have hRange : (k : Int) < 2 ^ 64 := hHigh
    obtain ⟨c, digits, hText, hDigit⟩ := toDigits_cons k
    obtain ⟨next, hRead, hNext⟩ := readNumber_digits false 0 (n := k) (by rw [wordLimit]; omega)
    rw [toString_ofNat, hText]
    rw [hText] at hRead
    exact numeral_readsAs depth (.inl hDigit) ((readValue_digit maxDepth rfl hDigit).trans hRead) (hLeft hNext)
  | negSucc k =>
    rw [Int.negSucc_eq] at hLow
    have hRange : ¬ (k + 1 = 0 ∨ 2 ^ 63 < k + 1) := by omega
    have hWhole : wholeNumber true (k + 1) = .integer (Int.negSucc k) := by
      rw [wholeNumber, if_neg (by decide), if_neg hRange]
      rfl
    obtain ⟨next, hRead, hNext⟩ := readNumber_digits true 1 (n := k + 1) (by rw [wordLimit]; omega)
    rw [hWhole] at hRead
    rw [toString_negSucc]
    exact numeral_readsAs depth (.inr rfl) ((readValue_minus maxDepth rfl).trans hRead) (hLeft hNext)

theorem positionalText_head (style : FloatStyle) {c : Char} {digits : List Char} (hDigit : c.isDigit = true)
    (exponent : Int) : ∃ d text, style.positionalText (c :: digits) exponent = d :: text ∧ d.isDigit = true := by
  cases exponent with
  | ofNat e => exact ⟨c, _, rfl, hDigit⟩
  | negSucc e =>
    by_cases hShort : (c :: digits).length ≤ e + 1
    · exact ⟨'0', _, by simp only [FloatStyle.positionalText, if_pos hShort]; rfl, rfl⟩
    · obtain ⟨count, hCount⟩ := Nat.exists_eq_add_one.mpr (Nat.sub_pos_of_lt (Nat.lt_of_not_le hShort))
      refine ⟨c, digits.take count ++ '.' :: (c :: digits).drop (count + 1), ?_, hDigit⟩
      simp only [FloatStyle.positionalText, if_neg hShort, hCount, List.take_succ_cons]
      rfl

theorem scientificText_head (style : FloatStyle) {c : Char} {digits : List Char} (leading : Int) :
    ∃ text, style.scientificText (c :: digits) leading = c :: text := by
  cases digits with
  | nil => exact ⟨_, rfl⟩
  | cons d digits => exact ⟨_, rfl⟩

/-- Every finite number is written with a digit in front, behind its sign. -/
theorem magnitudeText_head (style : FloatStyle) (units : Nat) :
    ∃ c text, style.magnitudeText units = c :: text ∧ c.isDigit = true := by
  by_cases hZero : units = 0
  · rw [FloatStyle.magnitudeText, if_pos hZero]
    exact positionalText_head style rfl 0
  · rw [FloatStyle.magnitudeText, if_neg hZero]
    generalize Decimal.shortest style.tie units = x
    obtain ⟨c, digits, hText, hDigit⟩ := toDigits_cons x.digits
    simp only [hText]
    cases style.positional with
    | none =>
      simp only [if_true]
      exact positionalText_head style hDigit x.exponent
    | some range =>
      simp only
      split
      · exact positionalText_head style hDigit x.exponent
      · obtain ⟨text, hScientific⟩ := @scientificText_head style c digits
          (x.exponent + (c :: digits).length - 1)
        exact ⟨c, text, hScientific, hDigit⟩

theorem read_ok {text : List Char} (h : read text = .ok value) :
    ∃ next, readValue maxDepth (.ofChars text) = .ok (value, next) ∧ next.skipSpace.rest = [] := by
  rw [read] at h
  cases hValue : readValue maxDepth (.ofChars text) with
  | error refusal =>
    rw [hValue] at h
    cases h
  | ok found =>
    obtain ⟨other, next⟩ := found
    rw [hValue] at h
    simp only [Bind.bind, Except.bind] at h
    split at h
    · rename_i hEmpty
      cases h
      exact ⟨next, rfl, List.isEmpty_iff.mp hEmpty⟩
    · cases h

/-- A float that is read back from its own text is read from it everywhere. -/
theorem float_readsAs (depth : Nat) {x : Binary64} (h : read (FloatStyle.json.text x).toList = .ok (.float x)) :
    ReadsAs depth (.float x) (FloatStyle.json.text x).toList := by
  obtain ⟨next, hRead, hLeft⟩ := read_ok h
  have hNull : ∀ {y : Binary64}, read "null".toList ≠ .ok (.float y) := by
    intro y hNull
    have hEnds : EndsNumeral [] := fun _ hc => by cases hc
    have hText : (Scan.ofChars "null".toList).rest = 'n' :: ['u', 'l', 'l'] ++ [] := rfl
    obtain ⟨last, hWord, -⟩ := word_readsAs maxDepth (.head _) hText hEnds
    obtain ⟨_, hFloat, -⟩ := read_ok hNull
    rw [hWord] at hFloat
    cases hFloat
  cases x with
  | nan => exact absurd h hNull
  | infinity negative =>
    cases negative with
    | true => exact absurd h hNull
    | false => exact absurd h hNull
  | finite negative units fits =>
    obtain ⟨c, text, hText, hDigit⟩ := magnitudeText_head .json units
    cases negative with
    | true =>
      simp only [FloatStyle.text, hText, if_true, String.toList_ofList] at hRead ⊢
      exact numeral_readsAs depth (.inr rfl) hRead hLeft
    | false =>
      simp only [FloatStyle.text, hText, String.toList_ofList] at hRead ⊢
      exact numeral_readsAs depth (.inl hDigit) hRead hLeft

end Json

end DialogTree
