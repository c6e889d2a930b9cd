import DialogTree.Json.Printer
import DialogTree.Json.Reader
import DialogTree.Proofs.Written.Numbers

/-!
# Numbers in JSON

A numeral is read the same wherever it stands, as long as no character follows that goes on with it. The
reading of a float loses digits that a word cannot hold, so that only integers are read back for certain.
-/

namespace DialogTree

namespace Json

variable {scan next : Scan} {before : Nat} {behind : List Char} {value : Value}

def Scan.within (scan : Scan) (before : Nat) (behind : List Char) : Scan :=
  ⟨before + scan.offset, scan.rest ++ behind⟩

theorem Scan.rest_within : (scan.within before behind).rest = scan.rest ++ behind := rfl

/-- The characters that may go on with a numeral behind a digit. -/
def isNumeral (c : Char) : Bool :=
  c.isDigit || c = '.' || c = 'e' || c = 'E'

def EndsNumeral (text : List Char) : Prop :=
  ∀ c ∈ text.head?, isNumeral c = false

theorem EndsNumeral.not_digit (h : EndsNumeral behind) : ∀ c ∈ behind.head?, c.isDigit = false := by
  intro c hc
  have hNumeral := h c hc
  simp only [isNumeral, Bool.or_eq_false_iff] at hNumeral
  exact hNumeral.1.1.1

theorem any_digit_append (h : ∀ c ∈ behind.head?, c.isDigit = false) (text : List Char) :
    (text ++ behind).head?.any Char.isDigit = text.head?.any Char.isDigit := by
  cases text with
  | nil =>
    cases behind with
    | nil => rfl
    | cons c behind => simpa using h c rfl
  | cons c text => rfl

/-! ## Scans in a longer text -/

theorem Scan.skip_within {count : Nat} (h : count ≤ scan.rest.length) :
    (scan.within before behind).skip count = (scan.skip count).within before behind := by
  simp [skip, within, List.take_append_of_le_length h, List.drop_append_of_le_length h, Nat.add_assoc]

theorem while_append {p : Char → Bool} (h : ∀ c ∈ behind.head?, p c = false) (text : List Char) :
    (text ++ behind).takeWhile p = text.takeWhile p ∧ (text ++ behind).dropWhile p = text.dropWhile p ++ behind := by
  induction text with
  | nil =>
    cases behind with
    | nil => simp
    | cons c behind => simp [h c rfl]
  | cons c text ih =>
    by_cases hc : p c = true
    · simp [hc, ih]
    · simp [hc]

theorem Scan.skipWhile_within {p : Char → Bool} (h : ∀ c ∈ behind.head?, p c = false) :
    (scan.within before behind).skipWhile p = (scan.skipWhile p).within before behind := by
  simp [skipWhile, within, while_append h, Nat.add_assoc]

/-! ## Digits -/

theorem takeDigits_append (h : ∀ c ∈ behind.head?, c.isDigit = false) (word : Nat) (text : List Char) :
    takeDigits word (text ++ behind) =
      ((takeDigits word text).1, (takeDigits word text).2.1, (takeDigits word text).2.2 ++ behind) := by
  induction text generalizing word with
  | nil =>
    cases behind with
    | nil => rfl
    | cons c behind => simp [takeDigits, h c rfl]
  | cons c text ih =>
    simp only [List.cons_append, takeDigits]
    split
    · simp [ih]
    · rfl

theorem takeDigits_spec (word : Nat) (text : List Char) : (takeDigits word text).2.1 ≤ text.length ∧
    (takeDigits word text).2.2 = text.drop (takeDigits word text).2.1 := by
  induction text generalizing word with
  | nil => simp [takeDigits]
  | cons c text ih =>
    simp only [takeDigits]
    split
    · simpa using ih _
    · simp

theorem exponentDigits_append (hEnds : EndsNumeral behind) (value : Nat) (text : List Char) :
    exponentDigits value (text ++ behind) = exponentDigits value text := by
  induction text generalizing value with
  | nil =>
    cases behind with
    | nil => rfl
    | cons c behind => simp [exponentDigits, hEnds.not_digit c rfl]
  | cons c text ih =>
    simp only [List.cons_append, exponentDigits]
    split
    · split
      · simp [ih]
      · rfl
    · rfl

theorem exponentDigits_le (value : Nat) (text : List Char) : (exponentDigits value text).2 ≤ text.length := by
  induction text generalizing value with
  | nil => simp [exponentDigits]
  | cons c text ih =>
    simp only [exponentDigits]
    split
    · split
      · simpa using ih _
      · simp
    · simp

/-! ## Readers of numerals -/

/-- What is read at the scan is read there in a longer text, too, when no numeral goes on behind. -/
def Reader.LocalAt (reader : Reader Value) (scan : Scan) : Prop :=
  ∀ ⦃value : Value⦄ ⦃next : Scan⦄, reader scan = .ok (value, next) →
    ∀ (before : Nat) ⦃behind : List Char⦄, EndsNumeral behind →
      reader (scan.within before behind) = .ok (value, next.within before behind)

theorem floatFrom_local (negative : Bool) (word : Nat) (exponent : Int) (scan : Scan) :
    Reader.LocalAt (floatFrom negative word exponent) scan := by
  intro value next h before behind _
  rw [floatFrom] at h ⊢
  split at h
  · cases h
  · cases h
    rfl

def exponentSign (scan : Scan) : Bool × Scan :=
  match scan.rest with
  | '+' :: _ => (false, scan.skip 1)
  | '-' :: _ => (true, scan.skip 1)
  | _ => (false, scan)

def readExponentDigits (negative : Bool) (word : Nat) (start : Int) (down : Bool) : Reader Value := fun digits =>
  match digits.rest with
  | [] => .error (digits.refuse .endOfValue)
  | c :: _ =>
    if c.isDigit then
      match exponentDigits 0 digits.rest with
      | (some value, count) =>
        floatFrom negative word (if down then start - value else start + value) (digits.skip count)
      | (none, count) =>
        if word ≠ 0 ∧ !down then .error ((digits.skip count).refuseBehind .numberRange)
        else .ok (.float (.ofUnits negative 0 1), digits.skipWhile Char.isDigit)
    else .error (digits.refuse .invalidNumber)

theorem readExponent_eq (negative : Bool) (word : Nat) (start : Int) (scan : Scan) :
    readExponent negative word start scan =
      readExponentDigits negative word start (exponentSign scan).1 (exponentSign scan).2 := by
  rfl

theorem readExponentDigits_local (negative : Bool) (word : Nat) (start : Int) (down : Bool) (scan : Scan) :
    Reader.LocalAt (readExponentDigits negative word start down) scan := by
  intro value next h before behind hEnds
  rw [readExponentDigits] at h ⊢
  cases hText : scan.rest with
  | nil =>
    rw [hText] at h
    cases h
  | cons c text =>
    have hCount := exponentDigits_le 0 scan.rest
    rw [Scan.rest_within, hText, List.cons_append]
    rw [hText] at h hCount
    simp only at h ⊢
    rw [← List.cons_append, exponentDigits_append hEnds]
    split at h
    · rename_i hDigit
      rw [if_pos hDigit]
      cases hExponent : exponentDigits 0 (c :: text) with
      | mk found count =>
        rw [hExponent] at h hCount
        cases found with
        | some exponent =>
          rw [← hText] at hCount
          simp only at h ⊢
          rw [Scan.skip_within hCount]
          exact floatFrom_local negative word _ _ h before hEnds
        | none =>
          simp only at h ⊢
          split at h
          · cases h
          · rename_i hRange
            cases h
            rw [if_neg hRange, Scan.skipWhile_within hEnds.not_digit]
    · cases h

theorem exponentSign_within (h : scan.rest ≠ []) : exponentSign (scan.within before behind) =
    ((exponentSign scan).1, (exponentSign scan).2.within before behind) := by
  cases hText : scan.rest with
  | nil => exact absurd hText h
  | cons c text =>
    have hSkip : (scan.within before behind).skip 1 = (scan.skip 1).within before behind :=
      Scan.skip_within (by simp [hText])
    rw [exponentSign, exponentSign, Scan.rest_within, hText, List.cons_append]
    by_cases hPlus : c = '+'
    · subst hPlus
      simp [hSkip]
    · by_cases hMinus : c = '-'
      · subst hMinus
        simp [hSkip]
      · simp [hPlus, hMinus]

theorem readExponent_local (negative : Bool) (word : Nat) (start : Int) (scan : Scan) :
    Reader.LocalAt (readExponent negative word start) scan := by
  intro value next h before behind hEnds
  have hSome : scan.rest ≠ [] := by
    intro hNone
    simp [readExponent_eq, exponentSign, readExponentDigits, hNone] at h
  rw [readExponent_eq] at h ⊢
  rw [exponentSign_within hSome]
  exact readExponentDigits_local negative word start _ _ h before hEnds

theorem EndsNumeral.ne {c : Char} {text : List Char} (h : EndsNumeral (c :: text)) :
    c ≠ '.' ∧ c ≠ 'e' ∧ c ≠ 'E' := by
  have hNumeral := h c rfl
  refine ⟨?_, ?_, ?_⟩ <;>
    · rintro rfl
      exact absurd hNumeral (by decide)

theorem readFloatEnd_local (negative : Bool) (word : Nat) (exponent : Int) (scan : Scan) :
    Reader.LocalAt (readFloatEnd negative word exponent) scan := by
  intro value next h before behind hEnds
  rw [readFloatEnd] at h ⊢
  rw [Scan.rest_within]
  cases hText : scan.rest with
  | nil =>
    rw [hText] at h
    have hHere := floatFrom_local negative word exponent scan h before hEnds
    cases behind with
    | nil => exact hHere
    | cons c behind =>
      obtain ⟨-, hLower, hUpper⟩ := hEnds.ne
      simpa [hLower, hUpper] using hHere
  | cons c text =>
    rw [hText] at h
    simp only [List.cons_append] at h ⊢
    split at h
    · rename_i hMark
      rw [if_pos hMark, Scan.skip_within (by simp [hText])]
      exact readExponent_local negative word exponent _ h before hEnds
    · rename_i hMark
      rw [if_neg hMark]
      exact floatFrom_local negative word exponent scan h before hEnds

theorem readFraction_local (negative : Bool) (word : Nat) (exponent : Int) (scan : Scan) :
    Reader.LocalAt (readFraction negative word exponent) scan := by
  intro value next h before behind hEnds
  obtain ⟨hCount, -⟩ := takeDigits_spec word scan.rest
  rw [readFraction] at h ⊢
  rw [Scan.rest_within, takeDigits_append hEnds.not_digit]
  simp only [any_digit_append hEnds.not_digit, Scan.skip_within hCount, Scan.skipWhile_within hEnds.not_digit] at h ⊢
  split at h
  · rename_i hMore
    rw [if_pos hMore]
    exact readFloatEnd_local negative _ _ _ h before hEnds
  · rename_i hMore
    rw [if_neg hMore]
    split at h
    · cases h
    · rename_i hSome
      rw [if_neg hSome]
      exact readFloatEnd_local negative _ _ _ h before hEnds

theorem readNumberEnd_point (negative : Bool) (word : Nat) {text : List Char} (h : scan.rest = '.' :: text) :
    readNumberEnd negative word scan = readFraction negative word 0 (scan.skip 1) := by
  rw [readNumberEnd, h]
  rfl

theorem readNumberEnd_mark (negative : Bool) (word : Nat) {c : Char} {text : List Char} (h : scan.rest = c :: text)
    (hMark : c = 'e' ∨ c = 'E') : readNumberEnd negative word scan = readExponent negative word 0 (scan.skip 1) := by
  rw [readNumberEnd, h]
  rcases hMark with rfl | rfl
  · rfl
  · rfl

theorem readNumberEnd_whole (negative : Bool) (word : Nat)
    (h : ∀ c ∈ scan.rest.head?, c ≠ '.' ∧ c ≠ 'e' ∧ c ≠ 'E') :
    readNumberEnd negative word scan = .ok (wholeNumber negative word, scan) := by
  rw [readNumberEnd]
  cases hText : scan.rest with
  | nil => rfl
  | cons c text =>
    obtain ⟨hPoint, hLower, hUpper⟩ := h c (by simp [hText])
    simp [hPoint, hLower, hUpper]

theorem readNumberEnd_local (negative : Bool) (word : Nat) (scan : Scan) :
    Reader.LocalAt (readNumberEnd negative word) scan := by
  intro value next h before behind hEnds
  -- The number ends here if neither a point nor an exponent follows, in this text and in the longer one.
  have hWhole : (∀ c ∈ scan.rest.head?, c ≠ '.' ∧ c ≠ 'e' ∧ c ≠ 'E') →
      (∀ c ∈ (scan.rest ++ behind).head?, c ≠ '.' ∧ c ≠ 'e' ∧ c ≠ 'E') →
        readNumberEnd negative word (scan.within before behind) = .ok (value, next.within before behind) := by
    intro hHere hThere
    rw [readNumberEnd_whole negative word hHere] at h
    cases h
    exact readNumberEnd_whole negative word hThere
  cases hText : scan.rest with
  | nil =>
    apply hWhole (by simp [hText])
    intro c hc
    cases behind with
    | nil => simp [hText] at hc
    | cons d behind =>
      obtain rfl : d = c := by simpa [hText] using hc
      exact hEnds.ne
  | cons c text =>
    have hLonger : (scan.within before behind).rest = c :: (text ++ behind) := by
      rw [Scan.rest_within, hText, List.cons_append]
    have hSkip := @Scan.skip_within scan before behind 1 (by simp [hText])
    by_cases hPoint : c = '.'
    · subst hPoint
      rw [readNumberEnd_point negative word hText] at h
      rw [readNumberEnd_point negative word hLonger, hSkip]
      exact readFraction_local negative word 0 _ h before hEnds
    · by_cases hMark : c = 'e' ∨ c = 'E'
      · rw [readNumberEnd_mark negative word hText hMark] at h
        rw [readNumberEnd_mark negative word hLonger hMark, hSkip]
        exact readExponent_local negative word 0 _ h before hEnds
      · rw [not_or] at hMark
        have hHead : ∀ rest : List Char, ∀ d ∈ (c :: rest).head?, d ≠ '.' ∧ d ≠ 'e' ∧ d ≠ 'E' := by
          rintro rest d ⟨⟩
          exact ⟨hPoint, hMark⟩
        apply hWhole
        · rw [hText]
          exact hHead text
        · rw [hText]
          exact hHead (text ++ behind)

theorem readLongEnd_local (negative : Bool) (word passed : Nat) (scan : Scan) :
    Reader.LocalAt (readLongEnd negative word passed) scan := by
  intro value next h before behind hEnds
  have hEnd := readFloatEnd_local negative word passed scan
  rw [readLongEnd] at h ⊢
  rw [Scan.rest_within]
  cases hText : scan.rest with
  | nil =>
    rw [hText] at h
    cases behind with
    | nil => exact hEnd h before hEnds
    | cons c behind =>
      have hHere := hEnd h before hEnds
      simpa [hEnds.ne.1] using hHere
  | cons c text =>
    rw [hText] at h
    by_cases hPoint : c = '.'
    · subst hPoint
      simp only [List.cons_append] at h ⊢
      rw [Scan.skip_within (by simp [hText])]
      exact readFraction_local negative word passed _ h before hEnds
    · simp only [List.cons_append, List.cons.injEq, hPoint, false_and, imp_self, implies_true] at h ⊢
      exact hEnd h before hEnds

def readDigits (negative : Bool) : Reader Value := fun scan =>
  let (word, count, left) := takeDigits 0 scan.rest
  let next := scan.skip count
  if left.head?.any Char.isDigit then
    let passed := (left.takeWhile Char.isDigit).length
    readLongEnd negative word passed (next.skip passed)
  else readNumberEnd negative word next

theorem readNumber_zero (negative : Bool) {text : List Char} (h : scan.rest = '0' :: text) :
    readNumber negative scan =
      if text.head?.any Char.isDigit then .error ((scan.skip 1).refuse .invalidNumber)
      else readNumberEnd negative 0 (scan.skip 1) := by
  rw [readNumber, h]
  rfl

theorem readNumber_nonzero (negative : Bool) {c : Char} {text : List Char} (h : scan.rest = c :: text)
    (hZero : c ≠ '0') : readNumber negative scan =
      if c.isDigit then readDigits negative scan else .error (scan.refuse .invalidNumber) := by
  rw [readNumber, readDigits, h]
  simp only [if_neg hZero]

theorem readDigits_local (negative : Bool) (scan : Scan) : Reader.LocalAt (readDigits negative) scan := by
  intro value next h before behind hEnds
  obtain ⟨hCount, hLeft⟩ := takeDigits_spec 0 scan.rest
  rw [readDigits] at h ⊢
  rw [Scan.rest_within, takeDigits_append hEnds.not_digit]
  simp only [any_digit_append hEnds.not_digit, Scan.skip_within hCount] at h ⊢
  split at h
  · rename_i hMore
    have hPassed : ((takeDigits 0 scan.rest).2.2.takeWhile Char.isDigit).length ≤
        (scan.skip (takeDigits 0 scan.rest).2.1).rest.length := by
      rw [hLeft]
      exact (List.takeWhile_prefix _).length_le
    rw [if_pos hMore, (while_append hEnds.not_digit _).1, Scan.skip_within hPassed]
    exact readLongEnd_local negative _ _ _ h before hEnds
  · rename_i hMore
    rw [if_neg hMore]
    exact readNumberEnd_local negative _ _ h before hEnds

theorem readNumber_local (negative : Bool) (scan : Scan) : Reader.LocalAt (readNumber negative) scan := by
  intro value next h before behind hEnds
  cases hText : scan.rest with
  | nil =>
    rw [readNumber, hText] at h
    cases h
  | cons c text =>
    have hLonger : (scan.within before behind).rest = c :: (text ++ behind) := by
      rw [Scan.rest_within, hText, List.cons_append]
    by_cases hZero : c = '0'
    · subst hZero
      rw [readNumber_zero negative hText] at h
      rw [readNumber_zero negative hLonger, any_digit_append hEnds.not_digit, Scan.skip_within (by simp [hText])]
      split at h
      · cases h
      · rename_i hMore
        rw [if_neg hMore]
        exact readNumberEnd_local negative 0 _ h before hEnds
    · rw [readNumber_nonzero negative hText hZero] at h
      rw [readNumber_nonzero negative hLonger hZero]
      split at h
      · rename_i hDigit
        rw [if_pos hDigit]
        exact readDigits_local negative scan h before hEnds
      · cases h

/-! ## Whole numbers -/

theorem takeDigits_digits {word : Nat} {digits : List Char} (hDigits : ∀ x ∈ digits, x.isDigit = true)
    (hRange : Nat.ofDigitChars 10 digits word < wordLimit) :
    takeDigits word digits = (Nat.ofDigitChars 10 digits word, digits.length, []) := by
  induction digits generalizing word with
  | nil => rfl
  | cons c digits ih =>
    rw [Nat.ofDigitChars_cons, Nat.mul_comm] at hRange ⊢
    have hNext : word * 10 + (c.toNat - '0'.toNat) < wordLimit := by
      rw [Nat.ofDigitChars_eq_ofDigitChars_zero] at hRange
      have hPower : 0 < 10 ^ digits.length := Nat.pow_pos (by decide)
      have hLow := Nat.le_mul_of_pos_left (word * 10 + (c.toNat - '0'.toNat)) hPower
      omega
    have hRest := ih (fun x hx => hDigits x (List.mem_cons_of_mem c hx)) hRange
    simp only [takeDigits, hDigits c List.mem_cons_self, hNext, decide_true, Bool.and_self, if_true, hRest,
      List.length_cons]

/-- Only zero is written with a leading zero. -/
theorem toDigits_head {n : Nat} (hn : n ≠ 0) {c : Char} (h : (Nat.toDigits 10 n).head? = some c) : c ≠ '0' := by
  induction n using Nat.strongRecOn with
  | ind n ih =>
    by_cases hSmall : n < 10
    · have hAll : ∀ k < 10, k ≠ 0 → k.digitChar ≠ '0' := by decide
      rw [Nat.toDigits_of_lt_base hSmall] at h
      cases h
      exact hAll n hSmall hn
    · have hStep := Nat.toDigits_of_base_le (b := 10) (by decide) (Nat.le_of_not_lt hSmall)
      have hSome : Nat.toDigits 10 (n / 10) ≠ [] := Nat.toDigits_ne_nil
      rw [hStep, List.head?_append] at h
      obtain ⟨d, hHead⟩ := Option.isSome_iff_exists.mp (List.isSome_head?.mpr hSome)
      rw [hHead] at h
      cases h
      exact ih (n / 10) (Nat.div_lt_self (by omega) (by decide)) (by omega) hHead

theorem readNumber_digits (negative : Bool) (offset : Nat) {n : Nat} (hRange : n < wordLimit) :
    ∃ next, readNumber negative ⟨offset, Nat.toDigits 10 n⟩ = .ok (wholeNumber negative n, next) ∧ next.rest = [] := by
  have hEnd : ∀ {word : Nat} {scan : Scan}, scan.rest = [] →
      readNumberEnd negative word scan = .ok (wholeNumber negative word, scan) :=
    fun h => readNumberEnd_whole negative _ (by simp [h])
  by_cases hZero : n = 0
  · subst hZero
    rw [Nat.toDigits_zero, readNumber_zero negative rfl, if_neg (by simp)]
    exact ⟨_, hEnd rfl, rfl⟩
  · have hDigits := isDigits_toDigits n
    have hTake := @takeDigits_digits 0 _ hDigits.all (by rwa [Nat.ofDigitChars_ten_toDigits])
    rw [Nat.ofDigitChars_ten_toDigits] at hTake
    cases hText : Nat.toDigits 10 n with
    | nil => exact absurd hText hDigits.some
    | cons c digits =>
      have hHead : c ≠ '0' := toDigits_head hZero (by rw [hText]; rfl)
      have hDigit : c.isDigit = true := hDigits.all c (by rw [hText]; exact List.mem_cons_self)
      have hLast : (Scan.skip ⟨offset, c :: digits⟩ (c :: digits).length).rest = [] := List.drop_length
      rw [hText] at hTake
      refine ⟨_, ?_, hLast⟩
      rw [readNumber_nonzero negative rfl hHead, if_pos hDigit, readDigits]
      simp only [hTake, List.head?_nil, Option.any_none, Bool.false_eq_true, if_false]
      exact hEnd hLast

end Json

end DialogTree
