import DialogTree.Proofs.Json.Scalars

/-!
# Tokens of strict JSON

A string, a number or a word of strict JSON is read the same wherever it stands: either always as the same
value, up to its end, or never. A number may be out of range, and a string may hold half of a surrogate pair.
-/

namespace DialogTree

namespace Json

/-! ## Grammar -/

/-- The digits in front of a point: no zero leads further ones. -/
inductive IsWhole : List Char → Prop where
  | zero : IsWhole ['0']
  | digits {first : Char} {digits : List Char} (hFirst : first.isDigit = true) (hZero : first ≠ '0')
      (hDigits : ∀ x ∈ digits, x.isDigit = true) : IsWhole (first :: digits)

inductive IsExponent : List Char → Prop where
  | none : IsExponent []
  | some {mark : Char} {sign digits : List Char} (hMark : mark = 'e' ∨ mark = 'E')
      (hSign : sign = [] ∨ sign = ['+'] ∨ sign = ['-']) (hDigits : IsDigits digits) :
      IsExponent (mark :: (sign ++ digits))

/-- What may follow the whole part of a number. -/
inductive IsFraction : List Char → Prop where
  | none {exponent : List Char} (hExponent : IsExponent exponent) : IsFraction exponent
  | some {digits exponent : List Char} (hDigits : IsDigits digits) (hExponent : IsExponent exponent) :
      IsFraction ('.' :: (digits ++ exponent))

inductive IsNumber : List Char → Prop where
  | positive {whole fraction : List Char} (hWhole : IsWhole whole) (hFraction : IsFraction fraction) :
      IsNumber (whole ++ fraction)
  | negative {whole fraction : List Char} (hWhole : IsWhole whole) (hFraction : IsFraction fraction) :
      IsNumber ('-' :: (whole ++ fraction))

inductive IsStringBody : List Char → Prop where
  | nil : IsStringBody []
  | plain {c : Char} {body : List Char} (hQuote : c ≠ '"') (hBackslash : c ≠ '\\') (hControl : 0x20 ≤ c.toNat)
      (hBody : IsStringBody body) : IsStringBody (c :: body)
  | short {letter : Char} {body : List Char} (hLetter : letter ∈ ['"', '\\', '/', 'b', 'f', 'n', 'r', 't'])
      (hBody : IsStringBody body) : IsStringBody ('\\' :: letter :: body)
  | unicode {digits body : List Char} (hLength : digits.length = 4) (hDigits : ∀ x ∈ digits, isDigitIn 16 x = true)
      (hBody : IsStringBody body) : IsStringBody ('\\' :: 'u' :: (digits ++ body))

inductive IsString : List Char → Prop where
  | intro {body : List Char} (hBody : IsStringBody body) : IsString ('"' :: (body ++ ['"']))

inductive IsScalar : List Char → Prop where
  | null : IsScalar ['n', 'u', 'l', 'l']
  | yes : IsScalar ['t', 'r', 'u', 'e']
  | no : IsScalar ['f', 'a', 'l', 's', 'e']
  | number {text : List Char} (hNumber : IsNumber text) : IsScalar text
  | string {text : List Char} (hString : IsString text) : IsScalar text

/-! ## Outcomes -/

/-- The result is the outcome: a value, with so much of the text left, or a refusal. -/
inductive Settles {α : Type} (rest : List Char) : Option α → Except Refusal (α × Scan) → Prop where
  | read {value : α} {next : Scan} (hRest : next.rest = rest) : Settles rest (some value) (.ok (value, next))
  | refused {refusal : Refusal} : Settles rest none (.error refusal)

theorem Settles.map {α β : Type} {rest : List Char} {outcome : Option α} {result : Except Refusal (α × Scan)}
    (h : Settles rest outcome result) (f : α → β) :
    Settles rest (outcome.map f) (result.map fun found => (f found.1, found.2)) := by
  cases h with
  | read hRest => exact .read hRest
  | refused => exact .refused

theorem Settles.bind {α β : Type} {middle rest : List Char} {outcome : Option α} {result : Except Refusal (α × Scan)}
    {further : α → Option β} {f : α × Scan → Except Refusal (β × Scan)} (h : Settles middle outcome result)
    (hFurther : ∀ value next, outcome = some value → next.rest = middle →
      Settles rest (further value) (f (value, next))) : Settles rest (outcome.bind further) (result.bind f) := by
  cases h with
  | read hRest => exact hFurther _ _ rfl hRest
  | refused => exact .refused

/-- The reader has one outcome for the text, wherever it stands in front of no numeral. -/
def SettlesOn {α : Type} (reader : Reader α) (text : List Char) : Prop :=
  ∃ outcome, ∀ (scan : Scan) (rest : List Char), scan.rest = text ++ rest → EndsNumeral rest →
    Settles rest outcome (reader scan)

/-- A reader that passes over one character and goes on as another one does. -/
theorem SettlesOn.behind {α : Type} {reader other : Reader α} {c : Char} {text : List Char} (h : SettlesOn other text)
    (hStep : ∀ (scan : Scan) (rest : List Char), scan.rest = c :: rest → reader scan = other (scan.skip 1)) :
    SettlesOn reader (c :: text) := by
  obtain ⟨outcome, hOutcome⟩ := h
  refine ⟨outcome, fun scan rest hScan hEnds => ?_⟩
  have hHead : scan.rest = c :: (text ++ rest) := hScan
  rw [hStep scan _ hHead]
  exact hOutcome _ rest (rest_skip_cons hHead) hEnds

variable {scan : Scan} {text rest : List Char}

theorem rest_skip_append {digits : List Char} (h : scan.rest = digits ++ rest) :
    (scan.skip digits.length).rest = rest := by
  simp [Scan.skip, h]

/-! ## Numbers -/

theorem dropWhile_digits {digits : List Char} (hDigits : ∀ x ∈ digits, x.isDigit = true)
    (hStops : ∀ c ∈ rest.head?, c.isDigit = false) : (digits ++ rest).dropWhile Char.isDigit = rest := by
  rw [List.dropWhile_append_of_pos hDigits]
  exact (while_append hStops []).2

theorem floatFrom_settles (negative : Bool) (word : Nat) (exponent : Int) :
    SettlesOn (floatFrom negative word exponent) [] := by
  cases hUnits : magnitude? word exponent with
  | none =>
    refine ⟨none, fun scan rest _ _ => ?_⟩
    rw [floatFrom, hUnits]
    exact .refused
  | some units =>
    refine ⟨some (.float (.ofUnits negative units 1)), fun scan rest hScan _ => ?_⟩
    rw [floatFrom, hUnits]
    exact .read hScan

theorem exponentDigits_all {digits : List Char} (hDigits : ∀ x ∈ digits, x.isDigit = true) {start value : Nat}
    (h : (exponentDigits start digits).1 = some value) : (exponentDigits start digits).2 = digits.length := by
  induction digits generalizing start with
  | nil => rfl
  | cons c digits ih =>
    obtain ⟨hFirst, hOthers⟩ := List.forall_mem_cons.mp hDigits
    simp only [exponentDigits, if_pos hFirst] at h ⊢
    split
    · rename_i hRange
      rw [if_pos hRange] at h
      rw [List.length_cons, ih hOthers h]
    · rename_i hRange
      rw [if_neg hRange] at h
      cases h

theorem readExponentDigits_settles (negative : Bool) (word : Nat) (start : Int) (down : Bool) {digits : List Char}
    (hDigits : IsDigits digits) : SettlesOn (readExponentDigits negative word start down) digits := by
  obtain ⟨c, others, rfl⟩ := List.exists_cons_of_ne_nil hDigits.some
  have hFirst := hDigits.all c List.mem_cons_self
  have hStart : ∀ (scan : Scan) (rest : List Char), scan.rest = c :: others ++ rest → EndsNumeral rest →
      ∀ found count, exponentDigits 0 (c :: others) = (found, count) →
        readExponentDigits negative word start down scan =
          found.elim
            (if word ≠ 0 ∧ !down then .error ((scan.skip count).refuseBehind .numberRange)
              else .ok (.float (.ofUnits negative 0 1), scan.skipWhile Char.isDigit))
            fun value => floatFrom negative word (if down then start - value else start + value) (scan.skip count) := by
    intro scan rest hScan hEnds found count hExponent
    rw [← exponentDigits_append hEnds] at hExponent
    rw [readExponentDigits, hScan, List.cons_append]
    rw [List.cons_append] at hExponent
    cases found <;> simp only [hFirst, if_true, hExponent, Option.elim]
  cases hExponent : exponentDigits 0 (c :: others) with
  | mk found count =>
    cases found with
    | some value =>
      have hCount : count = (c :: others).length := by
        have hAll := @exponentDigits_all _ hDigits.all 0 value (by rw [hExponent])
        rwa [hExponent] at hAll
      obtain ⟨outcome, hOutcome⟩ := floatFrom_settles negative word (if down then start - value else start + value)
      refine ⟨outcome, fun scan rest hScan hEnds => ?_⟩
      rw [hStart scan rest hScan hEnds _ _ hExponent, hCount]
      exact hOutcome _ rest (rest_skip_append hScan) hEnds
    | none =>
      -- An exponent that is too long makes zero, or is refused where the number would be too large.
      by_cases hRange : word ≠ 0 ∧ (!down) = true
      · refine ⟨none, fun scan rest hScan hEnds => ?_⟩
        rw [hStart scan rest hScan hEnds _ _ hExponent, Option.elim_none, if_pos hRange]
        exact .refused
      · refine ⟨some (.float (.ofUnits negative 0 1)), fun scan rest hScan hEnds => ?_⟩
        rw [hStart scan rest hScan hEnds _ _ hExponent, Option.elim_none, if_neg hRange]
        refine .read ?_
        rw [Scan.skipWhile, hScan]
        exact dropWhile_digits hDigits.all hEnds.not_digit

theorem readExponent_settles (negative : Bool) (word : Nat) (start : Int) {sign digits : List Char}
    (hSign : sign = [] ∨ sign = ['+'] ∨ sign = ['-']) (hDigits : IsDigits digits) :
    SettlesOn (readExponent negative word start) (sign ++ digits) := by
  rcases hSign with rfl | rfl | rfl
  · obtain ⟨c, others, rfl⟩ := List.exists_cons_of_ne_nil hDigits.some
    have hFirst := hDigits.all c List.mem_cons_self
    have hPlus : c ≠ '+' := by rintro rfl; cases hFirst
    have hMinus : c ≠ '-' := by rintro rfl; cases hFirst
    obtain ⟨outcome, hOutcome⟩ := readExponentDigits_settles negative word start false hDigits
    refine ⟨outcome, fun scan rest hScan hEnds => ?_⟩
    have hNone : exponentSign scan = (false, scan) := by
      rw [exponentSign, hScan]
      simp [hPlus, hMinus]
    rw [readExponent_eq, hNone]
    exact hOutcome scan rest hScan hEnds
  · refine (readExponentDigits_settles negative word start false hDigits).behind fun scan rest hScan => ?_
    rw [readExponent_eq, exponentSign, hScan]
    rfl
  · refine (readExponentDigits_settles negative word start true hDigits).behind fun scan rest hScan => ?_
    rw [readExponent_eq, exponentSign, hScan]
    rfl

theorem readFloatEnd_settles (negative : Bool) (word : Nat) (exponent : Int) (h : IsExponent text) :
    SettlesOn (readFloatEnd negative word exponent) text := by
  cases h with
  | none =>
    obtain ⟨outcome, hOutcome⟩ := floatFrom_settles negative word exponent
    refine ⟨outcome, fun scan rest hScan hEnds => ?_⟩
    have hEnd : readFloatEnd negative word exponent scan = floatFrom negative word exponent scan := by
      rw [readFloatEnd, hScan, List.nil_append]
      cases rest with
      | nil => rfl
      | cons c rest =>
        obtain ⟨-, hLower, hUpper⟩ := hEnds.ne
        simp [hLower, hUpper]
    rw [hEnd]
    exact hOutcome scan rest hScan hEnds
  | some hMark hSign hDigits =>
    refine (readExponent_settles negative word exponent hSign hDigits).behind fun scan rest hScan => ?_
    rw [readFloatEnd, hScan]
    simp [hMark]

theorem IsExponent.stops (h : IsExponent text) (hEnds : EndsNumeral rest) :
    ∀ c ∈ (text ++ rest).head?, c.isDigit = false := by
  cases h with
  | none => exact hEnds.not_digit
  | some hMark =>
    rintro c ⟨⟩
    rcases hMark with rfl | rfl
    · rfl
    · rfl

theorem IsFraction.stops (h : IsFraction text) (hEnds : EndsNumeral rest) :
    ∀ c ∈ (text ++ rest).head?, c.isDigit = false := by
  cases h with
  | none hExponent => exact hExponent.stops hEnds
  | some =>
    rintro c ⟨⟩
    rfl

theorem takeDigits_left (word : Nat) {digits : List Char} (hDigits : ∀ x ∈ digits, x.isDigit = true) :
    (takeDigits word digits).2.2.head?.any Char.isDigit = false →
      (takeDigits word digits).2.1 = digits.length := by
  obtain ⟨hCount, hLeft⟩ := takeDigits_spec word digits
  rw [hLeft]
  intro hNone
  cases hDrop : digits.drop (takeDigits word digits).2.1 with
  | nil => exact Nat.le_antisymm hCount (List.drop_eq_nil_iff.mp hDrop)
  | cons c others =>
    have hMem : c ∈ digits := List.mem_of_mem_drop (hDrop ▸ List.mem_cons_self)
    rw [hDrop] at hNone
    simp [hDigits c hMem] at hNone

theorem readFraction_settles (negative : Bool) (word : Nat) (exponent : Int) {digits : List Char}
    (hDigits : IsDigits digits) (h : IsExponent text) :
    SettlesOn (readFraction negative word exponent) (digits ++ text) := by
  obtain ⟨outcome, hOutcome⟩ :=
    readFloatEnd_settles negative (takeDigits word digits).1 (exponent - (takeDigits word digits).2.1) h
  refine ⟨outcome, fun scan rest hScan hEnds => ?_⟩
  rw [List.append_assoc] at hScan
  obtain ⟨hCount, -⟩ := takeDigits_spec word digits
  have hStops := h.stops hEnds
  rw [readFraction, hScan, takeDigits_append hStops]
  simp only [any_digit_append hStops]
  split
  · refine hOutcome _ rest ?_ hEnds
    rw [Scan.skipWhile, Scan.skip, hScan, List.drop_append_of_le_length hCount]
    exact dropWhile_digits (fun x hx => hDigits.all x (List.mem_of_mem_drop hx)) hStops
  · rename_i hNone
    have hTaken := takeDigits_left word hDigits.all (by simpa using hNone)
    rw [if_neg (by rw [hTaken]; simpa using hDigits.some)]
    refine hOutcome _ rest ?_ hEnds
    rw [hTaken]
    exact rest_skip_append hScan

theorem readNumberEnd_settles (negative : Bool) (word : Nat) (h : IsFraction text) :
    SettlesOn (readNumberEnd negative word) text := by
  cases h with
  | some hDigits hExponent =>
    exact (readFraction_settles negative word 0 hDigits hExponent).behind
      fun _ _ hScan => readNumberEnd_point negative word hScan
  | none hExponent =>
    cases hExponent with
    | some hMark hSign hDigits =>
      exact (readExponent_settles negative word 0 hSign hDigits).behind
        fun _ _ hScan => readNumberEnd_mark negative word hScan hMark
    | none =>
      refine ⟨some (wholeNumber negative word), fun scan rest hScan hEnds => ?_⟩
      have hHead : ∀ c ∈ scan.rest.head?, c ≠ '.' ∧ c ≠ 'e' ∧ c ≠ 'E' := by
        rw [hScan, List.nil_append]
        intro c hc
        cases rest with
        | nil => cases hc
        | cons d rest =>
          cases hc
          exact hEnds.ne
      rw [readNumberEnd_whole negative word hHead]
      exact .read hScan

theorem readLongEnd_settles (negative : Bool) (word passed : Nat) (h : IsFraction text) :
    SettlesOn (readLongEnd negative word passed) text := by
  cases h with
  | some hDigits hExponent =>
    refine (readFraction_settles negative word passed hDigits hExponent).behind fun scan rest hScan => ?_
    rw [readLongEnd, hScan]
    rfl
  | none hExponent =>
    obtain ⟨outcome, hOutcome⟩ := readFloatEnd_settles negative word passed hExponent
    refine ⟨outcome, fun scan rest hScan hEnds => ?_⟩
    -- Without a fraction no point follows, neither in the text nor behind it.
    have hPoint : ∀ more, text ++ rest ≠ '.' :: more := by
      intro more hText
      cases hExponent with
      | none =>
        rw [List.nil_append] at hText
        rw [hText] at hEnds
        exact hEnds.ne.1 rfl
      | some hMark =>
        rcases hMark with rfl | rfl
        · cases hText
        · cases hText
    have hEnd : readLongEnd negative word passed scan = readFloatEnd negative word passed scan := by
      rw [readLongEnd, hScan]
      split
      · rename_i hText
        exact absurd hText (hPoint _)
      · rfl
    rw [hEnd]
    exact hOutcome scan rest hScan hEnds

theorem readDigits_settles (negative : Bool) {digits : List Char} (hDigits : ∀ x ∈ digits, x.isDigit = true)
    (h : IsFraction text) : SettlesOn (readDigits negative) (digits ++ text) := by
  obtain ⟨hCount, hLeft⟩ := takeDigits_spec 0 digits
  -- Digits are left over when the word would overflow; they are passed over as far as they go.
  cases hMore : (takeDigits 0 digits).2.2.head?.any Char.isDigit with
  | true =>
    obtain ⟨outcome, hOutcome⟩ :=
      readLongEnd_settles negative (takeDigits 0 digits).1 (takeDigits 0 digits).2.2.length h
    refine ⟨outcome, fun scan rest hScan hEnds => ?_⟩
    rw [List.append_assoc] at hScan
    have hStops := h.stops hEnds
    have hAll : ∀ x ∈ (takeDigits 0 digits).2.2, x.isDigit = true :=
      fun x hx => hDigits x (List.mem_of_mem_drop (hLeft ▸ hx))
    have hPassed : ((takeDigits 0 digits).2.2 ++ (text ++ rest)).takeWhile Char.isDigit =
        (takeDigits 0 digits).2.2 := by
      have hNone : (text ++ rest).takeWhile Char.isDigit = [] := (while_append hStops []).1
      rw [List.takeWhile_append_of_pos hAll, hNone, List.append_nil]
    have hNext : (scan.skip (takeDigits 0 digits).2.1).rest = (takeDigits 0 digits).2.2 ++ (text ++ rest) := by
      rw [Scan.skip, hScan, List.drop_append_of_le_length hCount, ← hLeft]
    rw [readDigits, hScan, takeDigits_append hStops]
    simp only [any_digit_append hStops, hMore, if_true, hPassed]
    exact hOutcome _ rest (rest_skip_append hNext) hEnds
  | false =>
    obtain ⟨outcome, hOutcome⟩ := readNumberEnd_settles negative (takeDigits 0 digits).1 h
    refine ⟨outcome, fun scan rest hScan hEnds => ?_⟩
    rw [List.append_assoc] at hScan
    have hStops := h.stops hEnds
    rw [readDigits, hScan, takeDigits_append hStops]
    simp only [any_digit_append hStops, hMore, Bool.false_eq_true, if_false]
    refine hOutcome _ rest ?_ hEnds
    rw [takeDigits_left 0 hDigits hMore]
    exact rest_skip_append hScan

theorem readNumber_settles (negative : Bool) {whole : List Char} (hWhole : IsWhole whole) (h : IsFraction text) :
    SettlesOn (readNumber negative) (whole ++ text) := by
  cases hWhole with
  | zero =>
    obtain ⟨outcome, hOutcome⟩ := readNumberEnd_settles negative 0 h
    refine ⟨outcome, fun scan rest hScan hEnds => ?_⟩
    have hHead : scan.rest = '0' :: (text ++ rest) := hScan
    have hStops : (text ++ rest).head?.any Char.isDigit = false :=
      any_digit_append (h.stops hEnds) []
    rw [readNumber_zero negative hHead, hStops]
    exact hOutcome _ rest (rest_skip_cons hHead) hEnds
  | @digits first digits hFirst hZero hDigits =>
    obtain ⟨outcome, hOutcome⟩ := readDigits_settles negative (List.forall_mem_cons.mpr ⟨hFirst, hDigits⟩) h
    refine ⟨outcome, fun scan rest hScan hEnds => ?_⟩
    have hHead : scan.rest = first :: (digits ++ text ++ rest) := hScan
    rw [readNumber_nonzero negative hHead hZero, if_pos hFirst]
    exact hOutcome scan rest hScan hEnds

/-! ## Strings -/

theorem readHex_digits {digits : List Char} (hLength : digits.length = 4)
    (hDigits : ∀ x ∈ digits, isDigitIn 16 x = true) (h : scan.rest = digits ++ rest) :
    readHex scan = .ok (valueIn 16 digits, scan.skip 4) := by
  have hTake : scan.rest.take 4 = digits := by rw [h, ← hLength, List.take_left]
  rw [readHex, hTake]
  simp [hLength, List.all_eq_true.mpr hDigits]

theorem expectInPair_eq {c : Char} (h : scan.rest = c :: rest) : expectInPair c scan = .ok ((), scan.skip 1) := by
  rw [expectInPair, h]
  simp

theorem expectInPair_other {c d : Char} (h : scan.rest = d :: rest) (hOther : d ≠ c) :
    expectInPair c scan = .error (scan.refuse .unfinishedSurrogate) := by
  rw [expectInPair, h]
  simp [hOther]

def readSecondHalf (first : Nat) : Reader Char := fun scan => do
  let (_, scan) ← expectInPair '\\' scan
  let (_, scan) ← expectInPair 'u' scan
  let (second, scan) ← readHex scan
  if isLowSurrogate second then
    .ok (Char.ofNat (0x10000 + (first - 0xD800) * 0x400 + (second - 0xDC00)), scan)
  else .error (scan.refuseBehind .loneSurrogate)

theorem readCodePoint_eq {digits : List Char} (hLength : digits.length = 4)
    (hDigits : ∀ x ∈ digits, isDigitIn 16 x = true) (h : scan.rest = digits ++ rest) : readCodePoint scan =
      if isLowSurrogate (valueIn 16 digits) then .error ((scan.skip 4).refuseBehind .loneSurrogate)
      else if isHighSurrogate (valueIn 16 digits) then readSecondHalf (valueIn 16 digits) (scan.skip 4)
      else .ok (Char.ofNat (valueIn 16 digits), scan.skip 4) := by
  rw [readCodePoint, readHex_digits hLength hDigits h]
  rfl

theorem readSecondHalf_other {first : Nat} {d : Char} (h : scan.rest = d :: rest) (hOther : d ≠ '\\') :
    readSecondHalf first scan = .error (scan.refuse .unfinishedSurrogate) := by
  rw [readSecondHalf, expectInPair_other h hOther]
  rfl

theorem readSecondHalf_short {first : Nat} {letter : Char} (h : scan.rest = '\\' :: letter :: rest)
    (hOther : letter ≠ 'u') :
    readSecondHalf first scan = .error ((scan.skip 1).refuse .unfinishedSurrogate) := by
  rw [readSecondHalf, expectInPair_eq h]
  simp only [Bind.bind, Except.bind, expectInPair_other (rest_skip_cons h) hOther]

theorem readSecondHalf_unicode {first : Nat} {second : List Char} (hLength : second.length = 4)
    (hDigits : ∀ x ∈ second, isDigitIn 16 x = true) (h : scan.rest = '\\' :: 'u' :: (second ++ rest)) :
    ∃ next : Scan, next.rest = rest ∧ readSecondHalf first scan =
      if isLowSurrogate (valueIn 16 second) then
        .ok (Char.ofNat (0x10000 + (first - 0xD800) * 0x400 + (valueIn 16 second - 0xDC00)), next)
      else .error (next.refuseBehind .loneSurrogate) := by
  have hLetter := rest_skip_cons h
  have hHex := rest_skip_cons hLetter
  refine ⟨_, hLength ▸ rest_skip_append hHex, ?_⟩
  rw [readSecondHalf, expectInPair_eq h]
  simp only [Bind.bind, Except.bind, expectInPair_eq hLetter, readHex_digits hLength hDigits hHex]

/-- A reader inside a string leaves the same part of the string whatever stands behind it, or is refused. -/
def LeavesBody (read : Reader Char) (front body : List Char) : Prop :=
  ∃ left, IsStringBody left ∧ left.length ≤ body.length ∧ ∃ outcome, ∀ (scan : Scan) (rest : List Char),
    scan.rest = front ++ (body ++ '"' :: rest) → Settles (left ++ '"' :: rest) outcome (read scan)

theorem readSecondHalf_settles (first : Nat) {body : List Char} (hBody : IsStringBody body) :
    LeavesBody (readSecondHalf first) [] body := by
  -- Only an escape of four digits can be the other half; what begins in another way is refused where it stands.
  cases hBody with
  | nil =>
    refine ⟨[], .nil, Nat.le_refl _, none, fun scan rest hScan => ?_⟩
    rw [readSecondHalf_other hScan (by decide)]
    exact .refused
  | plain hQuote hBackslash hControl hMore =>
    refine ⟨_, .plain hQuote hBackslash hControl hMore, Nat.le_refl _, none, fun scan rest hScan => ?_⟩
    rw [readSecondHalf_other hScan hBackslash]
    exact .refused
  | @short letter more hLetter hMore =>
    refine ⟨_, .short hLetter hMore, Nat.le_refl _, none, fun scan rest hScan => ?_⟩
    have hOther : letter ≠ 'u' := by
      rintro rfl
      simp at hLetter
    rw [readSecondHalf_short hScan hOther]
    exact .refused
  | @unicode second more hLength hDigits hMore =>
    have hMark : ∀ {scan : Scan} {rest : List Char},
        scan.rest = [] ++ ('\\' :: 'u' :: (second ++ more) ++ '"' :: rest) →
          scan.rest = '\\' :: 'u' :: (second ++ (more ++ '"' :: rest)) := fun hScan => by simpa using hScan
    have hShorter : more.length ≤ ('\\' :: 'u' :: (second ++ more)).length := by simp; omega
    by_cases hLow : isLowSurrogate (valueIn 16 second) = true
    · refine ⟨more, hMore, hShorter,
        some (Char.ofNat (0x10000 + (first - 0xD800) * 0x400 + (valueIn 16 second - 0xDC00))),
        fun scan rest hScan => ?_⟩
      obtain ⟨next, hNext, hRead⟩ := readSecondHalf_unicode hLength hDigits (hMark hScan)
      rw [hRead, if_pos hLow]
      exact .read hNext
    · refine ⟨more, hMore, hShorter, none, fun scan rest hScan => ?_⟩
      obtain ⟨next, -, hRead⟩ := readSecondHalf_unicode hLength hDigits (hMark hScan)
      rw [hRead, if_neg hLow]
      exact .refused

/-- A code point is read, or refused, up to the same place of the string, which may lie behind a second half. -/
theorem readCodePoint_settles {digits body : List Char} (hLength : digits.length = 4)
    (hDigits : ∀ x ∈ digits, isDigitIn 16 x = true) (hBody : IsStringBody body) :
    LeavesBody readCodePoint digits body := by
  by_cases hLow : isLowSurrogate (valueIn 16 digits) = true
  · refine ⟨body, hBody, Nat.le_refl _, none, fun scan rest hScan => ?_⟩
    rw [readCodePoint_eq hLength hDigits hScan, if_pos hLow]
    exact .refused
  by_cases hHigh : isHighSurrogate (valueIn 16 digits) = true
  · obtain ⟨left, hLeft, hShorter, outcome, hOutcome⟩ := readSecondHalf_settles (valueIn 16 digits) hBody
    refine ⟨left, hLeft, hShorter, outcome, fun scan rest hScan => ?_⟩
    rw [readCodePoint_eq hLength hDigits hScan, if_neg hLow, if_pos hHigh]
    exact hOutcome _ rest (hLength ▸ rest_skip_append hScan)
  · refine ⟨body, hBody, Nat.le_refl _, some (Char.ofNat (valueIn 16 digits)), fun scan rest hScan => ?_⟩
    rw [readCodePoint_eq hLength hDigits hScan, if_neg hLow, if_neg hHigh]
    exact .read (hLength ▸ rest_skip_append hScan)

/-- The string up to its quotation mark has one outcome. -/
def BodySettles (body : List Char) : Prop :=
  ∃ outcome, ∀ (bound : Nat) (scan : Scan) (rest : List Char), body.length < bound →
    scan.rest = body ++ '"' :: rest → Settles rest outcome (readStringBody bound scan)

theorem BodySettles.escape {escape left : List Char} (h : BodySettles left) (hShorter : left.length ≤ escape.length)
    (hEscape : ∃ outcome, ∀ (scan : Scan) (rest : List Char), scan.rest = escape ++ '"' :: rest →
      Settles (left ++ '"' :: rest) outcome (readEscape scan)) : BodySettles ('\\' :: escape) := by
  obtain ⟨body, hBody⟩ := h
  obtain ⟨char, hChar⟩ := hEscape
  refine ⟨char.bind fun c => body.map (c :: ·), fun bound scan rest hBound hScan => ?_⟩
  obtain ⟨bound, rfl⟩ := Nat.exists_eq_add_one.mpr (Nat.zero_lt_of_lt hBound)
  have hHead : scan.rest = '\\' :: (escape ++ '"' :: rest) := hScan
  have hStep : readStringBody (bound + 1) scan =
      (readEscape (scan.skip 1)).bind fun found => (readStringBody bound found.2).map
        fun further => (found.1 :: further.1, further.2) := by
    rw [readStringBody, hHead]
    simp only [Bind.bind, Except.bind, Except.map]
    rfl
  rw [hStep]
  refine (hChar _ rest (rest_skip_cons hHead)).bind fun c next _ hNext => ?_
  exact (hBody bound next rest (by simp at hBound; omega) hNext).map (c :: ·)

theorem readStringBody_settles : ∀ {body : List Char}, IsStringBody body → BodySettles body
  | _, .nil => by
    refine ⟨some [], fun bound scan rest hBound hScan => ?_⟩
    obtain ⟨bound, rfl⟩ := Nat.exists_eq_add_one.mpr hBound
    rw [readStringBody, hScan]
    exact .read (rest_skip_cons hScan)
  | _, @IsStringBody.plain c more hQuote hBackslash hControl hMore => by
    obtain ⟨outcome, hOutcome⟩ := readStringBody_settles hMore
    refine ⟨outcome.map (c :: ·), fun bound scan rest hBound hScan => ?_⟩
    obtain ⟨bound, rfl⟩ := Nat.exists_eq_add_one.mpr (Nat.zero_lt_of_lt hBound)
    have hHead : scan.rest = c :: (more ++ '"' :: rest) := hScan
    have hStep : readStringBody (bound + 1) scan = (readStringBody bound (scan.skip 1)).map
        fun further => (c :: further.1, further.2) := by
      rw [readStringBody, hHead]
      simp [hQuote, hBackslash, Nat.not_lt.mpr hControl, Bind.bind, Except.bind, Except.map]
    rw [hStep]
    exact (hOutcome bound _ rest (by simpa using hBound) (rest_skip_cons hHead)).map (c :: ·)
  | _, @IsStringBody.short letter more hLetter hMore => by
    obtain ⟨c, hShort⟩ : ∃ c, shortEscape? letter = some c := by
      simp only [List.mem_cons, List.not_mem_nil, or_false] at hLetter
      rcases hLetter with rfl | rfl | rfl | rfl | rfl | rfl | rfl | rfl <;> exact ⟨_, rfl⟩
    refine (readStringBody_settles hMore).escape (by simp) ⟨some c, fun scan rest hScan => ?_⟩
    have hHead : scan.rest = letter :: (more ++ '"' :: rest) := hScan
    rw [readEscape_short hHead hShort]
    exact .read (rest_skip_cons hHead)
  | _, @IsStringBody.unicode digits more hLength hDigits hMore => by
    -- A first half takes its second half along, so that what is left may begin behind a further escape.
    obtain ⟨left, hLeft, hShorter, outcome, hOutcome⟩ := readCodePoint_settles hLength hDigits hMore
    refine (readStringBody_settles hLeft).escape (by simp; omega) ⟨outcome, fun scan rest hScan => ?_⟩
    have hHead : scan.rest = 'u' :: (digits ++ (more ++ '"' :: rest)) := by simpa using hScan
    have hStep : readEscape scan = readCodePoint (scan.skip 1) := by
      rw [readEscape, hHead]
      rfl
    rw [hStep]
    exact hOutcome _ rest (rest_skip_cons hHead)
termination_by body => body.length
decreasing_by all_goals simp_all; try omega

theorem readString_settles {body : List Char} (h : IsStringBody body) :
    ∃ outcome, ∀ (scan : Scan) (rest : List Char), scan.rest = body ++ '"' :: rest →
      Settles rest outcome (readString scan) := by
  obtain ⟨outcome, hOutcome⟩ := readStringBody_settles h
  refine ⟨outcome.map String.ofList, fun scan rest hScan => ?_⟩
  have hBound : body.length < scan.rest.length + 1 := by rw [hScan, List.length_append]; omega
  exact (hOutcome _ scan rest hBound hScan).map String.ofList

/-! ## Scalars -/

theorem readLetters_settles (value : Value) (letters : List Char) : SettlesOn (readLetters value letters) letters := by
  refine ⟨some value, fun scan rest hScan _ => ?_⟩
  obtain ⟨next, hRead, hNext⟩ := @readLetters_text scan rest value letters hScan
  rw [hRead]
  exact .read hNext

theorem IsWhole.head {whole : List Char} (h : IsWhole whole) : ∃ c more, whole = c :: more ∧ c.isDigit = true := by
  cases h with
  | zero => exact ⟨'0', [], rfl, rfl⟩
  | digits hFirst => exact ⟨_, _, rfl, hFirst⟩

theorem IsScalar.settles (depth : Nat) (h : IsScalar text) : SettlesOn (readValue depth) text := by
  cases h with
  | null =>
    refine (readLetters_settles .null ['u', 'l', 'l']).behind fun scan rest hScan => ?_
    rw [readValue.eq_def]
    simp [skipSpace_of_head hScan (by decide), hScan]
  | yes =>
    refine (readLetters_settles (.bool true) ['r', 'u', 'e']).behind fun scan rest hScan => ?_
    rw [readValue.eq_def]
    simp [skipSpace_of_head hScan (by decide), hScan]
  | no =>
    refine (readLetters_settles (.bool false) ['a', 'l', 's', 'e']).behind fun scan rest hScan => ?_
    rw [readValue.eq_def]
    simp [skipSpace_of_head hScan (by decide), hScan]
  | number hNumber =>
    cases hNumber with
    | @positive whole fraction hWhole hFraction =>
      obtain ⟨outcome, hOutcome⟩ := readNumber_settles false hWhole hFraction
      obtain ⟨c, more, rfl, hDigit⟩ := hWhole.head
      refine ⟨outcome, fun scan rest hScan hEnds => ?_⟩
      have hHead : scan.rest = c :: (more ++ fraction ++ rest) := hScan
      rw [readValue_digit depth hHead hDigit]
      exact hOutcome scan rest hScan hEnds
    | negative hWhole hFraction =>
      exact (readNumber_settles true hWhole hFraction).behind fun _ _ hScan => readValue_minus depth hScan
  | string hString =>
    cases hString with
    | @intro body hBody =>
      obtain ⟨outcome, hOutcome⟩ := readString_settles hBody
      refine ⟨outcome.map Value.string, fun scan rest hScan _ => ?_⟩
      have hHead : scan.rest = '"' :: (body ++ '"' :: rest) := by simpa using hScan
      have hRead : readValue depth scan =
          (readString (scan.skip 1)).map fun found => (Value.string found.1, found.2) := by
        rw [readValue.eq_def]
        simp [skipSpace_of_head hHead (by decide), hHead]
      rw [hRead]
      exact (hOutcome _ rest (rest_skip_cons hHead)).map Value.string

end Json

end DialogTree
