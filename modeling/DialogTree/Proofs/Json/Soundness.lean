import DialogTree.Proofs.Json.Relayout

/-!
# What is read is strict JSON

Whatever a reader takes off the front of a text is of its part of the grammar. So a text that is read as a value is a
strict JSON text: it has neither comments nor trailing commas.
-/

namespace DialogTree

namespace Json

/-- What the reader takes off the front of a text is of the grammar. -/
def Takes {α : Type} (reader : Reader α) (Grammar : List Char → Prop) : Prop :=
  ∀ scan value next, reader scan = .ok (value, next) → ∃ text, scan.rest = text ++ next.rest ∧ Grammar text

variable {scan next : Scan} {text rest : List Char} {value : Value}

theorem bind_ok {α β : Type} {result : Except Refusal α} {f : α → Except Refusal β} {b : β}
    (h : result >>= f = .ok b) : ∃ a, result = .ok a ∧ f a = .ok b := by
  cases result with
  | error refusal => cases h
  | ok a => exact ⟨a, rfl, h⟩

theorem map_ok {α β : Type} {result : Except Refusal α} {f : α → β} {b : β} (h : result.map f = .ok b) :
    ∃ a, result = .ok a ∧ f a = b := by
  cases result with
  | error refusal => cases h
  | ok a =>
    cases h
    exact ⟨a, rfl, rfl⟩

/-! ## Numbers -/

theorem floatFrom_next {negative : Bool} {word : Nat} {exponent : Int}
    (h : floatFrom negative word exponent scan = .ok (value, next)) : next = scan := by
  rw [floatFrom] at h
  split at h
  · cases h
  · cases h
    rfl

theorem exponentDigits_taken (start : Nat) (text : List Char) :
    ∀ x ∈ text.take (exponentDigits start text).2, x.isDigit = true := by
  induction text generalizing start with
  | nil => simp
  | cons c text ih =>
    rw [exponentDigits]
    split
    · rename_i hDigit
      simp only
      split
      · rw [List.take_succ_cons]
        exact List.forall_mem_cons.mpr ⟨hDigit, ih _⟩
      · simpa using hDigit
    · simp

theorem exponentDigits_some (start : Nat) {c : Char} (hDigit : c.isDigit = true) (text : List Char) :
    0 < (exponentDigits start (c :: text)).2 := by
  rw [exponentDigits, if_pos hDigit]
  simp only
  split
  · exact Nat.succ_pos _
  · exact Nat.one_pos

theorem takeDigits_taken (word : Nat) (text : List Char) :
    ∀ x ∈ text.take (takeDigits word text).2.1, x.isDigit = true := by
  induction text generalizing word with
  | nil => simp [takeDigits]
  | cons c text ih =>
    rw [takeDigits]
    simp only
    split
    · rename_i hDigit
      rw [Bool.and_eq_true] at hDigit
      rw [List.take_succ_cons]
      exact List.forall_mem_cons.mpr ⟨hDigit.1, ih _⟩
    · simp

theorem readExponentDigits_takes (negative : Bool) (word : Nat) (start : Int) (down : Bool) :
    Takes (readExponentDigits negative word start down) IsDigits := by
  intro scan value next h
  rw [readExponentDigits] at h
  cases hScan : scan.rest with
  | nil => simp only [hScan] at h; cases h
  | cons c text =>
    simp only [hScan] at h
    split at h
    · rename_i hDigit
      have hTaken := exponentDigits_taken 0 (c :: text)
      have hSome := exponentDigits_some 0 hDigit text
      split at h
      · rename_i found count hDigits
        rw [hDigits] at hTaken hSome
        obtain rfl := floatFrom_next h
        refine ⟨(c :: text).take count, ?_, ?_, hTaken⟩
        · rw [Scan.skip, hScan, List.take_append_drop]
        · obtain ⟨count, rfl⟩ := Nat.exists_eq_add_one.mpr hSome
          exact List.cons_ne_nil _ _
      · split at h
        · cases h
        · cases h
          refine ⟨(c :: text).takeWhile Char.isDigit, ?_, ?_, List.all_eq_true.mp List.all_takeWhile⟩
          · rw [Scan.skipWhile, hScan, List.takeWhile_append_dropWhile]
          · rw [List.takeWhile_cons_of_pos hDigit]
            exact List.cons_ne_nil _ _
    · cases h

theorem readExponent_takes (negative : Bool) (word : Nat) (start : Int) : Takes (readExponent negative word start)
    fun text => ∃ sign digits, text = sign ++ digits ∧ (sign = [] ∨ sign = ['+'] ∨ sign = ['-']) ∧ IsDigits digits := by
  intro scan value next h
  rw [readExponent_eq] at h
  obtain ⟨digits, hRest, hDigits⟩ := readExponentDigits_takes _ _ _ _ _ _ _ h
  rw [exponentSign] at hRest
  split at hRest
  · rename_i hScan
    rw [rest_skip_cons hScan] at hRest
    exact ⟨'+' :: digits, by rw [hScan, hRest]; rfl, ['+'], digits, rfl, .inr (.inl rfl), hDigits⟩
  · rename_i hScan
    rw [rest_skip_cons hScan] at hRest
    exact ⟨'-' :: digits, by rw [hScan, hRest]; rfl, ['-'], digits, rfl, .inr (.inr rfl), hDigits⟩
  · exact ⟨digits, hRest, [], digits, rfl, .inl rfl, hDigits⟩

theorem exponent_behind {negative : Bool} {word : Nat} {start : Int} {c : Char} (hScan : scan.rest = c :: rest)
    (hMark : c = 'e' ∨ c = 'E') (h : readExponent negative word start (scan.skip 1) = .ok (value, next)) :
    ∃ text, scan.rest = text ++ next.rest ∧ IsExponent text := by
  obtain ⟨text, hRest, sign, digits, rfl, hSign, hDigits⟩ := readExponent_takes _ _ _ _ _ _ h
  rw [rest_skip_cons hScan] at hRest
  exact ⟨c :: (sign ++ digits), by rw [hScan, hRest]; rfl, .some hMark hSign hDigits⟩

theorem readFloatEnd_takes (negative : Bool) (word : Nat) (exponent : Int) :
    Takes (readFloatEnd negative word exponent) IsExponent := by
  intro scan value next h
  rw [readFloatEnd] at h
  split at h
  · rename_i hScan
    split at h
    · rename_i hMark
      exact exponent_behind hScan (by simpa using hMark) h
    · obtain rfl := floatFrom_next h
      exact ⟨[], rfl, .none⟩
  · obtain rfl := floatFrom_next h
    exact ⟨[], rfl, .none⟩

theorem takeDigits_run {word : Nat} {text : List Char} (h : (takeDigits word text).2.2.head?.any Char.isDigit = true) :
    IsDigits (text.take (takeDigits word text).2.1 ++ (takeDigits word text).2.2.takeWhile Char.isDigit) where
  some := by
    cases hLeft : (takeDigits word text).2.2 with
    | nil => simp [hLeft] at h
    | cons c left =>
      have hDigit : c.isDigit = true := by simpa [hLeft] using h
      simp [hDigit]
  all x hx := by
    rcases List.mem_append.mp hx with hx | hx
    · exact takeDigits_taken word text x hx
    · exact List.all_eq_true.mp List.all_takeWhile x hx

theorem readFraction_takes (negative : Bool) (word : Nat) (exponent : Int) :
    Takes (readFraction negative word exponent)
      fun text => ∃ digits exponent, text = digits ++ exponent ∧ IsDigits digits ∧ IsExponent exponent := by
  intro scan value next h
  have hLeft := (takeDigits_spec word scan.rest).2
  rw [readFraction] at h
  simp only at h
  split at h
  · rename_i hMore
    obtain ⟨text, hRest, hExponent⟩ := readFloatEnd_takes _ _ _ _ _ _ h
    refine ⟨_, ?_, _, text, rfl, takeDigits_run hMore, hExponent⟩
    have hBehind : (takeDigits word scan.rest).2.2.dropWhile Char.isDigit = text ++ next.rest := by
      rw [hLeft, ← hRest]
      rfl
    rw [List.append_assoc, List.append_assoc, ← hBehind, List.takeWhile_append_dropWhile, hLeft,
      List.take_append_drop]
  · split at h
    · cases h
    · rename_i hSome
      obtain ⟨text, hRest, hExponent⟩ := readFloatEnd_takes _ _ _ _ _ _ h
      refine ⟨scan.rest.take (takeDigits word scan.rest).2.1 ++ text, ?_, _, text, rfl, ⟨?_, takeDigits_taken _ _⟩,
        hExponent⟩
      · rw [List.append_assoc, ← hRest, Scan.skip, List.take_append_drop]
      · intro hNone
        rcases List.take_eq_nil_iff.mp hNone with hZero | hEmpty
        · exact hSome hZero
        · rw [hEmpty] at hSome
          exact hSome rfl

theorem fraction_behind {negative : Bool} {word : Nat} {exponent : Int} (hScan : scan.rest = '.' :: rest)
    (h : readFraction negative word exponent (scan.skip 1) = .ok (value, next)) :
    ∃ text, scan.rest = text ++ next.rest ∧ IsFraction text := by
  obtain ⟨text, hRest, digits, exponent, rfl, hDigits, hExponent⟩ := readFraction_takes _ _ _ _ _ _ h
  rw [rest_skip_cons hScan] at hRest
  exact ⟨'.' :: (digits ++ exponent), by rw [hScan, hRest]; rfl, .some hDigits hExponent⟩

theorem readNumberEnd_takes (negative : Bool) (word : Nat) : Takes (readNumberEnd negative word) IsFraction := by
  intro scan value next h
  rw [readNumberEnd] at h
  split at h
  · exact fraction_behind ‹_› h
  · obtain ⟨text, hRest, hExponent⟩ := exponent_behind ‹_› (.inl rfl) h
    exact ⟨text, hRest, .none hExponent⟩
  · obtain ⟨text, hRest, hExponent⟩ := exponent_behind ‹_› (.inr rfl) h
    exact ⟨text, hRest, .none hExponent⟩
  · cases h
    exact ⟨[], rfl, .none .none⟩

theorem readLongEnd_takes (negative : Bool) (word passed : Nat) :
    Takes (readLongEnd negative word passed) IsFraction := by
  intro scan value next h
  rw [readLongEnd] at h
  split at h
  · exact fraction_behind ‹_› h
  · obtain ⟨text, hRest, hExponent⟩ := readFloatEnd_takes _ _ _ _ _ _ h
    exact ⟨text, hRest, .none hExponent⟩

theorem readDigits_takes {negative : Bool} {c : Char} (hScan : scan.rest = c :: rest) (hDigit : c.isDigit = true)
    (h : readDigits negative scan = .ok (value, next)) : ∃ digits fraction,
      scan.rest = c :: digits ++ (fraction ++ next.rest) ∧ (∀ x ∈ digits, x.isDigit = true) ∧ IsFraction fraction := by
  have hFront : ∃ digits fraction, scan.rest = digits ++ (fraction ++ next.rest) ∧ IsDigits digits ∧
      IsFraction fraction := by
    obtain ⟨hCount, hLeft⟩ := takeDigits_spec 0 scan.rest
    rw [readDigits] at h
    simp only at h
    split at h
    · -- The word would overflow, so that the other digits are passed over.
      rename_i hMore
      obtain ⟨text, hRest, hFraction⟩ := readLongEnd_takes _ _ _ _ _ _ h
      refine ⟨_, text, ?_, takeDigits_run hMore, hFraction⟩
      have hPassed := List.prefix_iff_eq_append.mp
        (List.takeWhile_prefix (l := (takeDigits 0 scan.rest).2.2) Char.isDigit)
      rw [← hRest, Scan.skip, Scan.skip, ← hLeft, List.append_assoc, hPassed, hLeft, List.take_append_drop]
    · rename_i hNone
      obtain ⟨text, hRest, hFraction⟩ := readNumberEnd_takes _ _ _ _ _ h
      refine ⟨scan.rest.take (takeDigits 0 scan.rest).2.1, text, ?_, ⟨?_, takeDigits_taken _ _⟩, hFraction⟩
      · rw [← hRest, Scan.skip, List.take_append_drop]
      · intro hEmpty
        rcases List.take_eq_nil_iff.mp hEmpty with hZero | hEmpty
        · rw [hLeft, hZero, List.drop_zero, hScan] at hNone
          exact hNone hDigit
        · rw [hEmpty] at hScan
          cases hScan
  obtain ⟨digits, fraction, hRest, hDigits, hFraction⟩ := hFront
  obtain ⟨first, digits, rfl⟩ := List.exists_cons_of_ne_nil hDigits.some
  obtain rfl : c = first := by
    rw [hScan] at hRest
    exact (List.cons.inj hRest).1
  exact ⟨digits, fraction, hRest, (List.forall_mem_cons.mp hDigits.all).2, hFraction⟩

theorem readNumber_takes (negative : Bool) :
    Takes (readNumber negative) fun text => ∃ whole fraction, text = whole ++ fraction ∧ IsWhole whole ∧
      IsFraction fraction := by
  intro scan value next h
  cases hScan : scan.rest with
  | nil =>
    rw [readNumber, hScan] at h
    cases h
  | cons c rest =>
    by_cases hZero : c = '0'
    · subst hZero
      rw [readNumber_zero negative hScan] at h
      split at h
      · cases h
      · obtain ⟨text, hRest, hFraction⟩ := readNumberEnd_takes _ _ _ _ _ h
        rw [rest_skip_cons hScan] at hRest
        exact ⟨'0' :: text, by rw [hRest]; rfl, ['0'], text, rfl, .zero, hFraction⟩
    · rw [readNumber_nonzero negative hScan hZero] at h
      split at h
      · rename_i hDigit
        obtain ⟨digits, text, hRest, hDigits, hFraction⟩ := readDigits_takes hScan hDigit h
        refine ⟨c :: digits ++ text, ?_, c :: digits, text, rfl, .digits hDigit hZero hDigits, hFraction⟩
        rw [← hScan, hRest, List.append_assoc]
      · cases h

/-! ## Strings -/

theorem readHex_takes : Takes readHex fun text => text.length = 4 ∧ ∀ x ∈ text, isDigitIn 16 x = true := by
  intro scan value next h
  rw [readHex] at h
  simp only at h
  split at h
  · rename_i hDigits
    simp only [Bool.and_eq_true, decide_eq_true_eq, List.all_eq_true] at hDigits
    cases h
    exact ⟨scan.rest.take 4, (List.take_append_drop _ _).symm, hDigits⟩
  · split at h
    · cases h
    · cases h

theorem expectInPair_takes (c : Char) : Takes (expectInPair c) (· = [c]) := by
  intro scan value next h
  rw [expectInPair] at h
  split at h
  · cases h
  · rename_i hScan
    split at h
    · rename_i hMark
      subst hMark
      cases h
      exact ⟨_, by rw [rest_skip_cons hScan, hScan]; rfl, rfl⟩
    · cases h

/-- Behind a backslash, the text makes a part of a string. -/
def Escapes (text : List Char) : Prop :=
  ∀ body, IsStringBody body → IsStringBody ('\\' :: (text ++ body))

theorem readSecondHalf_takes (first : Nat) : Takes (readSecondHalf first)
    fun text => ∃ digits, text = '\\' :: 'u' :: digits ∧ digits.length = 4 ∧ ∀ x ∈ digits, isDigitIn 16 x = true := by
  intro scan value next h
  obtain ⟨⟨_, letter⟩, hBackslash, h⟩ := bind_ok h
  obtain ⟨⟨_, hex⟩, hLetter, h⟩ := bind_ok h
  obtain ⟨⟨second, last⟩, hHex, h⟩ := bind_ok h
  obtain ⟨_, hScan, rfl⟩ := expectInPair_takes _ _ _ _ hBackslash
  obtain ⟨_, hRest, rfl⟩ := expectInPair_takes _ _ _ _ hLetter
  obtain ⟨digits, hDigits, hFour⟩ := readHex_takes _ _ _ hHex
  simp only at h
  split at h
  · simp only [Except.ok.injEq, Prod.mk.injEq] at h
    obtain ⟨-, rfl⟩ := h
    exact ⟨_, by rw [hScan, hRest, hDigits]; rfl, digits, rfl, hFour⟩
  · cases h

theorem readCodePoint_takes : Takes readCodePoint fun text => Escapes ('u' :: text) := by
  intro scan value next h
  obtain ⟨⟨first, behind⟩, hHex, h⟩ := bind_ok h
  obtain ⟨digits, hDigits, hLength, hAll⟩ := readHex_takes _ _ _ hHex
  simp only at h
  split at h
  · cases h
  · split at h
    · obtain ⟨_, hRest, second, rfl, hSecondLength, hSecond⟩ := readSecondHalf_takes first _ _ _ h
      refine ⟨digits ++ '\\' :: 'u' :: second, by rw [hDigits, hRest]; simp, fun body hBody => ?_⟩
      have hBoth := IsStringBody.unicode hLength hAll (.unicode hSecondLength hSecond hBody)
      simpa using hBoth
    · cases h
      exact ⟨digits, hDigits, fun body hBody => .unicode hLength hAll hBody⟩

theorem shortEscape_mem {letter spelled : Char} (h : shortEscape? letter = some spelled) :
    letter ∈ ['"', '\\', '/', 'b', 'f', 'n', 'r', 't'] := by
  unfold shortEscape? at h
  split at h
  case h_9 => cases h
  all_goals decide

theorem readEscape_takes : Takes readEscape Escapes := by
  intro scan value next h
  rw [readEscape] at h
  split at h
  · cases h
  · rename_i letter text hScan
    split at h
    · rename_i hShort
      cases h
      have hLetter := shortEscape_mem hShort
      exact ⟨[letter], by rw [rest_skip_cons hScan, hScan]; rfl, fun body hBody => .short hLetter hBody⟩
    · split at h
      · rename_i hLetter
        subst hLetter
        obtain ⟨text, hRest, hEscapes⟩ := readCodePoint_takes _ _ _ h
        rw [rest_skip_cons hScan] at hRest
        exact ⟨'u' :: text, by rw [hScan, hRest]; rfl, hEscapes⟩
      · cases h

theorem readStringBody_takes (bound : Nat) : Takes (readStringBody bound)
    fun text => ∃ body, text = body ++ ['"'] ∧ IsStringBody body := by
  induction bound with
  | zero =>
    intro scan value next h
    cases h
  | succ bound ih =>
    intro scan value next h
    rw [readStringBody] at h
    split at h
    · cases h
    · rename_i c text hScan
      split at h
      · rename_i hQuote
        subst hQuote
        cases h
        exact ⟨['"'], by rw [rest_skip_cons hScan, hScan]; rfl, [], rfl, .nil⟩
      · rename_i hQuote
        split at h
        · rename_i hBackslash
          subst hBackslash
          obtain ⟨⟨spelled, behind⟩, hEscape, h⟩ := bind_ok h
          obtain ⟨⟨found, last⟩, hBody, h⟩ := bind_ok h
          obtain ⟨escape, hRest, hEscapes⟩ := readEscape_takes _ _ _ hEscape
          obtain ⟨_, hMore, body, rfl, hGrammar⟩ := ih _ _ _ hBody
          cases h
          rw [rest_skip_cons hScan] at hRest
          refine ⟨'\\' :: (escape ++ body) ++ ['"'], ?_, _, rfl, hEscapes body hGrammar⟩
          rw [hScan, hRest, hMore]
          simp
        · rename_i hBackslash
          split at h
          · cases h
          · rename_i hControl
            obtain ⟨⟨found, last⟩, hBody, h⟩ := bind_ok h
            obtain ⟨_, hMore, body, rfl, hGrammar⟩ := ih _ _ _ hBody
            cases h
            rw [rest_skip_cons hScan] at hMore
            refine ⟨c :: body ++ ['"'], ?_, _, rfl, .plain hQuote hBackslash (Nat.le_of_not_lt hControl) hGrammar⟩
            rw [hScan, hMore]
            simp

theorem string_behind {text : String} (hScan : scan.rest = '"' :: rest)
    (h : readString (scan.skip 1) = .ok (text, next)) : ∃ token, scan.rest = token ++ next.rest ∧ IsString token := by
  obtain ⟨⟨found, last⟩, hBody, h⟩ := bind_ok h
  obtain ⟨_, hRest, body, rfl, hGrammar⟩ := readStringBody_takes _ _ _ _ hBody
  cases h
  rw [rest_skip_cons hScan] at hRest
  exact ⟨'"' :: (body ++ ['"']), by rw [hScan, hRest]; rfl, .intro hGrammar⟩

/-! ## Words -/

theorem readLetters_takes (value : Value) (letters : List Char) : Takes (readLetters value letters) (· = letters) := by
  induction letters with
  | nil =>
    intro scan found next h
    cases h
    exact ⟨[], rfl, rfl⟩
  | cons letter letters ih =>
    intro scan found next h
    rw [readLetters] at h
    split at h
    · cases h
    · rename_i hScan
      split at h
      · rename_i hLetter
        subst hLetter
        obtain ⟨_, hRest, rfl⟩ := ih _ _ _ h
        rw [rest_skip_cons hScan] at hRest
        exact ⟨_, by rw [hScan, hRest]; rfl, rfl⟩
      · cases h

/-! ## Arrays and objects -/

theorem skipSpace_gap (scan : Scan) : ∃ gap, IsSpaces gap ∧ scan.rest = gap ++ scan.skipSpace.rest :=
  ⟨scan.rest.takeWhile Scan.isSpace, List.all_eq_true.mp List.all_takeWhile, List.takeWhile_append_dropWhile.symm⟩

/-- How the parts of an array or object are read: the end, or a part of the given beginnings and the others. -/
inductive PartsRead {β : Type} (part : Reader β) (others : Reader (List β)) (Starts : Char → Prop) (closing : Char) :
    Bool → Scan → List β × Scan → Prop where
  | close {isFirst : Bool} {scan : Scan} {rest : List Char} (hClosing : scan.skipSpace.rest = closing :: rest) :
      PartsRead part others Starts closing isFirst scan ([], scan.skipSpace.skip 1)
  | first {scan next last : Scan} {c : Char} {rest : List Char} {b : β} {further : List β}
      (hScan : scan.skipSpace.rest = c :: rest) (hStarts : Starts c) (hPart : part scan.skipSpace = .ok (b, next))
      (hOthers : others next = .ok (further, last)) :
      PartsRead part others Starts closing true scan (b :: further, last)
  | next {scan next last : Scan} {c : Char} {text rest : List Char} {b : β} {further : List β}
      (hComma : scan.skipSpace.rest = ',' :: text) (hScan : (scan.skipSpace.skip 1).skipSpace.rest = c :: rest)
      (hStarts : Starts c) (hPart : part (scan.skipSpace.skip 1).skipSpace = .ok (b, next))
      (hOthers : others next = .ok (further, last)) :
      PartsRead part others Starts closing false scan (b :: further, last)

structure ReadsPartsOnly {β : Type} (reader : Nat → Bool → Reader (List β)) (part : Reader β) (Starts : Char → Prop)
    (closing : Char) : Prop where
  zero : ∀ {isFirst : Bool} {scan : Scan} {found : List β × Scan}, reader 0 isFirst scan ≠ .ok found
  step : ∀ {bound : Nat} {isFirst : Bool} {scan : Scan} {found : List β × Scan},
    reader (bound + 1) isFirst scan = .ok found → PartsRead part (reader bound false) Starts closing isFirst scan found

theorem readItems_only (item : Reader Value) : ReadsPartsOnly (readItems item) item (fun _ => True) ']' where
  zero h := by cases h
  step := by
    intro bound isFirst scan found h
    rw [readItems] at h
    simp only at h
    split at h
    · cases h
    · rename_i c text hScan
      split at h
      · rename_i hClosing
        subst hClosing
        cases h
        exact .close hScan
      · split at h
        · rename_i hFirst
          subst hFirst
          obtain ⟨⟨value, next⟩, hPart, h⟩ := bind_ok h
          obtain ⟨⟨further, last⟩, hOthers, h⟩ := bind_ok h
          cases h
          exact .first hScan trivial hPart hOthers
        · rename_i hFirst
          obtain rfl := Bool.eq_false_iff.mpr hFirst
          split at h
          · rename_i hComma
            subst hComma
            split at h
            · cases h
            · cases h
            · rename_i hStart _
              obtain ⟨⟨value, next⟩, hPart, h⟩ := bind_ok h
              obtain ⟨⟨further, last⟩, hOthers, h⟩ := bind_ok h
              cases h
              obtain ⟨d, more, hNext⟩ := List.exists_cons_of_ne_nil hStart
              exact .next hScan hNext trivial hPart hOthers
          · cases h

theorem consPart_ok {β : Type} {first : Except Refusal (β × Scan)} {others : Reader (List β)} {found : List β × Scan}
    (h : consPart first others = .ok found) : ∃ b next further last,
      first = .ok (b, next) ∧ others next = .ok (further, last) ∧ found = (b :: further, last) := by
  obtain ⟨⟨b, next⟩, hFirst, h⟩ := bind_ok h
  obtain ⟨⟨further, last⟩, hOthers, h⟩ := map_ok h
  exact ⟨b, next, further, last, hFirst, hOthers, h.symm⟩

theorem readEntries_only (item : Reader Value) :
    ReadsPartsOnly (readEntries item) (readEntry item) (· = '"') '\x7d' where
  zero h := by cases h
  step := by
    intro bound isFirst scan found h
    rw [readEntries] at h
    simp only [← readEntry_consPart] at h
    split at h
    · cases h
    · rename_i c text hScan
      split at h
      · rename_i hClosing
        subst hClosing
        cases h
        exact .close hScan
      · split at h
        · rename_i hFirst
          subst hFirst
          split at h
          · cases h
          · rename_i hAgain
            obtain ⟨rfl, rfl⟩ := List.cons.inj hAgain
            split at h
            · rename_i hQuote
              obtain ⟨b, next, further, last, hPart, hOthers, rfl⟩ := consPart_ok h
              exact .first hScan hQuote hPart hOthers
            · cases h
        · rename_i hFirst
          obtain rfl := Bool.eq_false_iff.mpr hFirst
          split at h
          · rename_i hComma
            subst hComma
            split at h
            · cases h
            · rename_i hNext
              split at h
              · rename_i hQuote
                obtain ⟨b, next, further, last, hPart, hOthers, rfl⟩ := consPart_ok h
                exact .next hScan hNext hQuote hPart hOthers
              · cases h
          · cases h

section Parts

variable {α β : Type} {reader : Nat → Bool → Reader (List β)} {part : Reader β} {Starts : Char → Prop} {closing : Char}
  {Part : α → List Char → Prop} (hReads : ReadsPartsOnly reader part Starts closing)
  (hPart : ∀ {scan next : Scan} {c : Char} {rest : List Char} {b : β}, scan.rest = c :: rest → Starts c →
    part scan = .ok (b, next) → ∃ gap text a, scan.rest = gap ++ (text ++ next.rest) ∧ IsSpaces gap ∧ Part a text)

include hReads hPart

theorem tail_taken {bound : Nat} {found : List β × Scan} (h : reader bound false scan = .ok found) :
    ∃ parts text, scan.rest = text ++ found.2.rest ∧ Tail .strict Part closing parts text := by
  induction bound generalizing scan found with
  | zero => exact absurd h hReads.zero
  | succ bound ih =>
    obtain ⟨before, hBefore, hStart⟩ := skipSpace_gap scan
    have hStep := hReads.step h
    cases hStep with
    | close hClosing =>
      refine ⟨[], before ++ [closing], ?_, .ending (.bare hBefore)⟩
      rw [rest_skip_cons hClosing, hStart, hClosing]
      simp
    | next hComma hScan hStarts hFirst hOthers =>
      obtain ⟨behind, hBehind, hGap⟩ := skipSpace_gap (scan.skipSpace.skip 1)
      obtain ⟨gap, text, a, hText, hSpaces, hToken⟩ := hPart hScan hStarts hFirst
      obtain ⟨parts, tail, hRest, hTail⟩ := ih hOthers
      refine ⟨a :: parts, _, ?_, .more hBefore (IsSpaces.append hBehind hSpaces) hToken hTail⟩
      rw [rest_skip_cons hComma, hText, hRest] at hGap
      rw [hStart, hComma, hGap]
      simp

theorem body_taken {bound : Nat} {found : List β × Scan} (h : reader bound true scan = .ok found) :
    ∃ parts text, scan.rest = text ++ found.2.rest ∧ Body .strict Part closing parts text := by
  cases bound with
  | zero => exact absurd h hReads.zero
  | succ bound =>
    obtain ⟨before, hBefore, hStart⟩ := skipSpace_gap scan
    have hStep := hReads.step h
    cases hStep with
    | close hClosing =>
      refine ⟨[], before ++ [closing], ?_, .empty hBefore⟩
      rw [rest_skip_cons hClosing, hStart, hClosing]
      simp
    | first hScan hStarts hFirst hOthers =>
      obtain ⟨gap, text, a, hText, hSpaces, hToken⟩ := hPart hScan hStarts hFirst
      obtain ⟨parts, tail, hRest, hTail⟩ := tail_taken hReads hPart hOthers
      refine ⟨a :: parts, _, ?_, .parts (IsSpaces.append hBefore hSpaces) hToken hTail⟩
      rw [hStart, hText, hRest]
      simp

end Parts

/-! ## Values -/

def Spaced (Grammar : List Char → Prop) (text : List Char) : Prop :=
  ∃ gap inner, text = gap ++ inner ∧ IsSpaces gap ∧ Grammar inner

theorem readColon_takes : Takes readColon (Spaced (· = [':'])) := by
  intro scan value next h
  obtain ⟨gap, hGap, hStart⟩ := skipSpace_gap scan
  rw [readColon] at h
  split at h
  · cases h
  · rename_i hScan
    cases h
    refine ⟨gap ++ [':'], ?_, gap, _, rfl, hGap, rfl⟩
    rw [rest_skip_cons hScan, hStart, hScan]
    simp
  · cases h

/-- A reader of values takes a value of strict JSON with the spaces in front of it. -/
def TakesValue (reader : Reader Value) : Prop :=
  Takes reader (Spaced fun text => ∃ tree, Written .strict tree text)

theorem readEntry_takes {item : Reader Value} (hItem : TakesValue item) {entry : String × Value}
    (hScan : scan.rest = '"' :: rest) (h : readEntry item scan = .ok (entry, next)) :
    ∃ token text, scan.rest = text ++ next.rest ∧ Entry .strict (Written .strict) token text := by
  obtain ⟨s, t, hKey, hColon, hValue⟩ := readEntry_ok h
  obtain ⟨key, hKeyText, hString⟩ := string_behind hScan hKey
  obtain ⟨_, hColonText, before, _, rfl, hBefore, rfl⟩ := readColon_takes _ _ _ hColon
  obtain ⟨_, hValueText, behind, text, rfl, hBehind, tree, hTree⟩ := hItem _ _ _ hValue
  refine ⟨(key, tree), _, ?_, .intro hString hBefore hBehind hTree⟩
  rw [hKeyText, hColonText, hValueText]
  simp

theorem word_behind {c : Char} {letters : List Char} {word : Value} (hScan : scan.rest = c :: rest)
    (hWord : IsScalar (c :: letters)) (h : readLetters word letters (scan.skip 1) = .ok (value, next)) :
    ∃ text, scan.rest = text ++ next.rest ∧ IsScalar text := by
  obtain ⟨text, hRest, hText⟩ := readLetters_takes _ _ _ _ _ h
  rw [rest_skip_cons hScan, hText] at hRest
  exact ⟨c :: letters, by rw [hScan, hRest]; rfl, hWord⟩

theorem negative_behind (hScan : scan.rest = '-' :: rest) (h : readNumber true (scan.skip 1) = .ok (value, next)) :
    ∃ text, scan.rest = text ++ next.rest ∧ IsScalar text := by
  obtain ⟨_, hRest, whole, fraction, rfl, hWhole, hFraction⟩ := readNumber_takes _ _ _ _ h
  rw [rest_skip_cons hScan] at hRest
  exact ⟨'-' :: (whole ++ fraction), by rw [hScan, hRest]; rfl, .number (.negative hWhole hFraction)⟩

/-- Behind spaces, a scalar or the bracket of an array or object is read. -/
inductive ValueRead (depth : Nat) (scan : Scan) : Scan → Prop where
  | scalar {token : List Char} {next : Scan} (hRest : scan.skipSpace.rest = token ++ next.rest)
      (hToken : IsScalar token) : ValueRead depth scan next
  | array {below bound : Nat} {rest : List Char} {found : List Value × Scan} (hDepth : depth = below + 1)
      (hScan : scan.skipSpace.rest = '[' :: rest)
      (hItems : readItems (readValue below) bound true (scan.skipSpace.skip 1) = .ok found) :
      ValueRead depth scan found.2
  | object {below bound : Nat} {rest : List Char} {found : List (String × Value) × Scan} (hDepth : depth = below + 1)
      (hScan : scan.skipSpace.rest = '\x7b' :: rest)
      (hEntries : readEntries (readValue below) bound true (scan.skipSpace.skip 1) = .ok found) :
      ValueRead depth scan found.2

theorem valueRead_of_ok {depth : Nat} (h : readValue depth scan = .ok (value, next)) : ValueRead depth scan next := by
  rw [readValue.eq_def] at h
  simp only at h
  split at h
  · cases h
  · rename_i c rest hScan
    -- The first character decides which reader goes on.
    split_ifs at h with hNull hYes hNo hMinus hDigit hQuote hArray hObject
    · subst hNull
      obtain ⟨token, hRest, hToken⟩ := word_behind hScan .null h
      exact .scalar hRest hToken
    · subst hYes
      obtain ⟨token, hRest, hToken⟩ := word_behind hScan .yes h
      exact .scalar hRest hToken
    · subst hNo
      obtain ⟨token, hRest, hToken⟩ := word_behind hScan .no h
      exact .scalar hRest hToken
    · subst hMinus
      obtain ⟨token, hRest, hToken⟩ := negative_behind hScan h
      exact .scalar hRest hToken
    · obtain ⟨_, hRest, whole, fraction, rfl, hWhole, hFraction⟩ := readNumber_takes _ _ _ _ h
      exact .scalar hRest (.number (.positive hWhole hFraction))
    · subst hQuote
      obtain ⟨⟨text, last⟩, hString, h⟩ := map_ok h
      cases h
      obtain ⟨token, hRest, hToken⟩ := string_behind hScan hString
      exact .scalar hRest (.string hToken)
    · subst hArray
      cases depth with
      | zero => cases h
      | succ below =>
        obtain ⟨found, hItems, h⟩ := map_ok h
        cases h
        exact .array rfl hScan hItems
    · subst hObject
      cases depth with
      | zero => cases h
      | succ below =>
        obtain ⟨found, hEntries, h⟩ := map_ok h
        cases h
        exact .object rfl hScan hEntries

theorem readValue_takes (depth : Nat) : TakesValue (readValue depth) := by
  induction depth using Nat.strongRecOn with
  | ind depth ih =>
    intro scan value next h
    obtain ⟨gap, hGap, hStart⟩ := skipSpace_gap scan
    -- Behind the spaces stands the value itself.
    suffices hValue : ∃ text tree, scan.skipSpace.rest = text ++ next.rest ∧ Written .strict tree text by
      obtain ⟨text, tree, hText, hTree⟩ := hValue
      exact ⟨gap ++ text, by rw [hStart, hText, List.append_assoc], gap, text, rfl, hGap, tree, hTree⟩
    have hRead := valueRead_of_ok h
    cases hRead with
    | scalar hRest hToken => exact ⟨_, _, hRest, .scalar hToken⟩
    | array hDepth hScan hItems =>
      have hItem := ih _ (Nat.lt_of_lt_of_eq (Nat.lt_succ_self _) hDepth.symm)
      obtain ⟨items, body, hRest, hBody⟩ := body_taken (readItems_only _) (fun _ _ hPart => by
        obtain ⟨_, hRest, gap, text, rfl, hGap, tree, hTree⟩ := hItem _ _ _ hPart
        exact ⟨gap, text, tree, by rw [hRest, List.append_assoc], hGap, hTree⟩) hItems
      rw [rest_skip_cons hScan] at hRest
      exact ⟨'[' :: body, _, by rw [hScan, hRest]; rfl, .array hBody⟩
    | object hDepth hScan hEntries =>
      have hItem := ih _ (Nat.lt_of_lt_of_eq (Nat.lt_succ_self _) hDepth.symm)
      obtain ⟨entries, body, hRest, hBody⟩ := body_taken (readEntries_only _) (fun hQuote hStarts hPart => by
        obtain ⟨token, text, hRest, hEntry⟩ := readEntry_takes hItem (hStarts ▸ hQuote) hPart
        exact ⟨[], text, token, hRest, isSpaces_nil, hEntry⟩) hEntries
      rw [rest_skip_cons hScan] at hRest
      exact ⟨'\x7b' :: body, _, by rw [hScan, hRest]; rfl, .object hBody⟩

theorem spells_of_read (h : read text = .ok value) : ∃ tokens, Spells .strict tokens text := by
  obtain ⟨⟨found, next⟩, hValue, h⟩ := bind_ok h
  obtain ⟨_, hText, before, inner, rfl, hBefore, tokens, hTokens⟩ := readValue_takes _ _ _ _ hValue
  obtain ⟨behind, hBehind, hEnd⟩ := skipSpace_gap next
  simp only at h
  split at h
  · rename_i hEmpty
    rw [List.isEmpty_iff.mp hEmpty, List.append_nil] at hEnd
    rw [hEnd] at hText
    have hAll : text = before ++ (inner ++ behind) := by rw [← List.append_assoc, ← hText]; rfl
    exact ⟨tokens, hAll ▸ .intro hBefore hTokens hBehind⟩
  · cases h

end Json

end DialogTree
