import DialogTree.Proofs.Json.Shape
import DialogTree.Proofs.Literals.Numerals
import DialogTree.Proofs.Number.Bounds

/-!
# Numerals in JSON

A numeral has one outcome in JSON, wherever it stands. A short whole number is read exactly. All others go
through a word and powers of ten, each rounded on its own, so that the result is sure to be the nearest float
only when nothing but the last step rounds.
-/

namespace DialogTree

namespace Json

/-! ## Outcomes -/

/-- The reader has the outcome for the text, wherever it stands in front of no numeral. -/
def SettlesTo {α : Type} (reader : Reader α) (text : List Char) (outcome : Option α) : Prop :=
  ∀ (scan : Scan) (rest : List Char), scan.rest = text ++ rest → EndsNumeral rest →
    Settles rest outcome (reader scan)

variable {scan : Scan} {text rest whole fraction : List Char} {value : Value}

theorem SettlesTo.read_iff {outcome : Option Value} (h : SettlesTo (readValue maxDepth) text outcome) :
    read text = .ok value ↔ outcome = some value := by
  have hRead := h (.ofChars text) [] (List.append_nil text).symm fun _ hc => by cases hc
  rw [read]
  generalize readValue maxDepth (.ofChars text) = result at hRead
  cases hRead with
  | refused => simp [Bind.bind, Except.bind]
  | @read found next hRest =>
    have hLast : next.skipSpace.rest = [] := by rw [Scan.skipSpace, Scan.skipWhile, hRest]; rfl
    simp [Bind.bind, Except.bind, hLast]

/-! ## Digits that fit a word -/

theorem readNumber_whole (negative : Bool) (hWhole : IsWhole whole) (hRange : digitsValue whole < wordLimit)
    (hStops : ∀ c ∈ rest.head?, c.isDigit = false) (h : scan.rest = whole ++ rest) :
    ∃ next : Scan, next.rest = rest ∧ readNumber negative scan = readNumberEnd negative (digitsValue whole) next := by
  cases hWhole with
  | zero =>
    have hNone : ([] ++ rest).head?.any Char.isDigit = false := any_digit_append hStops []
    refine ⟨_, rest_skip_cons h, ?_⟩
    rw [readNumber_zero negative h]
    exact if_neg (Bool.eq_false_iff.mp hNone)
  | @digits first digits hFirst hZero hDigits =>
    have hTake := @takeDigits_digits 0 _ (List.forall_mem_cons.mpr ⟨hFirst, hDigits⟩) hRange
    have hNone : ([] ++ rest).head?.any Char.isDigit = false := any_digit_append hStops []
    refine ⟨_, rest_skip_append h, ?_⟩
    rw [readNumber_nonzero negative h hZero, if_pos hFirst, readDigits, h, takeDigits_append hStops, hTake]
    simp only [hNone, Bool.false_eq_true, if_false]
    rfl

theorem readFraction_short (negative : Bool) {word : Nat} (hDigits : IsDigits fraction)
    (hRange : Nat.ofDigitChars 10 fraction word < wordLimit) (h : scan.rest = fraction) :
    ∃ next, readFraction negative word 0 scan =
      floatFrom negative (Nat.ofDigitChars 10 fraction word) (-(fraction.length : Int)) next := by
  have hLast : (scan.skip fraction.length).rest = [] := rest_skip_append (by simpa using h)
  have hSome : fraction.length ≠ 0 := by simpa using hDigits.some
  refine ⟨scan.skip fraction.length, ?_⟩
  rw [readFraction, h, takeDigits_digits hDigits.all hRange]
  simp only [List.head?_nil, Option.any_none, Bool.false_eq_true, if_false, if_neg hSome, Int.zero_sub]
  rw [readFloatEnd, hLast]

/-! ## Numbers with a point -/

theorem magnitude?_exact {word places : Nat} (hWord : word < 2 ^ 53) (hPlaces : places ≤ 22) (hSome : 0 < places) :
    magnitude? word (-(places : Int)) = some (Binary64.round (word * Binary64.scale) (10 ^ places)) := by
  obtain ⟨e, rfl⟩ := Nat.exists_eq_add_one.mpr hSome
  have hWhole : Binary64.round (word * Binary64.scale) 1 = word * Binary64.scale := by
    have hFits := @Binary64.fits_scale word 0 hWord (by decide)
    rw [Nat.pow_zero, Nat.mul_one] at hFits
    exact Binary64.round_one_of_fits hFits
  have hPower : powerOfTen (e + 1) = 10 ^ (e + 1) * Binary64.scale :=
    Binary64.round_one_of_fits (Binary64.fits_ten_pow hPlaces)
  have hReach : e + 1 ≤ 308 := by omega
  change some (scaleDown (e / 308 + 2) (Binary64.round (word * Binary64.scale) 1) (e + 1)) = _
  rw [hWhole, scaleDown, if_pos hReach, hPower, roundedQuotient, Binary64.round_scale Binary64.scale_pos]

theorem floatFrom_exact (negative : Bool) {word places : Nat} (hWord : word < 2 ^ 53) (hPlaces : places ≤ 22)
    (hSome : 0 < places) : floatFrom negative word (-(places : Int)) scan =
      .ok (.float (.ofRatio negative word (10 ^ places)), scan) := by
  have hLimit : Binary64.round (word * Binary64.scale) (10 ^ places) < Binary64.limit :=
    Binary64.round_lt_limit hWord (by decide) _
  rw [floatFrom, magnitude?_exact hWord hPlaces hSome]
  simp only [Binary64.ofUnits_round hLimit]
  rfl

end Json

/-! ## Reading a numeral -/

namespace Numeral

variable {numeral : Numeral} {value : Json.Value}

theorem isFraction_pointed (numeral : Numeral) : Json.IsFraction numeral.pointed := by
  by_cases h : numeral.fraction = []
  · rw [pointed_of_whole h]
    exact .none .none
  · rw [pointed_of_fraction h, ← List.append_nil numeral.fraction]
    exact .some ⟨h, numeral.isFraction⟩ .none

theorem isNumber (numeral : Numeral) : Json.IsNumber numeral.text := by
  rw [text, sign]
  split
  · exact @Json.IsNumber.negative numeral.whole _ numeral.isWhole numeral.isFraction_pointed
  · exact @Json.IsNumber.positive numeral.whole _ numeral.isWhole numeral.isFraction_pointed

theorem readValue_eq (depth : Nat) {scan : Json.Scan} {rest : List Char} (h : scan.rest = numeral.text ++ rest) :
    ∃ start : Json.Scan, start.rest = (numeral.whole ++ numeral.pointed) ++ rest ∧
      Json.readValue depth scan = Json.readNumber numeral.negative start := by
  rw [text, sign] at h
  cases hNegative : numeral.negative with
  | true =>
    rw [hNegative] at h
    exact ⟨_, Json.rest_skip_cons h, Json.readValue_minus depth h⟩
  | false =>
    rw [hNegative] at h
    obtain ⟨c, more, hHead, hDigit⟩ := numeral.isWhole.head
    refine ⟨scan, h, @Json.readValue_digit _ (more ++ numeral.pointed ++ rest) depth _ ?_ hDigit⟩
    rw [h, hHead]
    rfl

/-- A numeral has the same outcome at every depth, which is the one of the text that is the numeral alone. -/
theorem settles (numeral : Numeral) : ∃ outcome, (∀ depth, Json.SettlesTo (Json.readValue depth) numeral.text outcome) ∧
    ∀ value, Json.read numeral.text = .ok value ↔ outcome = some value := by
  obtain ⟨outcome, hOutcome⟩ :=
    Json.readNumber_settles numeral.negative numeral.isWhole numeral.isFraction_pointed
  have hSettles : ∀ depth, Json.SettlesTo (Json.readValue depth) numeral.text outcome := by
    intro depth scan rest hScan hEnds
    obtain ⟨start, hStart, hRead⟩ := numeral.readValue_eq depth hScan
    rw [hRead]
    exact hOutcome start rest hStart hEnds
  exact ⟨outcome, hSettles, fun _ => (hSettles _).read_iff⟩

theorem read_of_readNumber (h : ∀ start : Json.Scan, start.rest = numeral.whole ++ numeral.pointed →
    ∃ next, Json.readNumber numeral.negative start = .ok (value, next)) : Json.read numeral.text = .ok value := by
  obtain ⟨outcome, hSettles, hRead⟩ := numeral.settles
  have hText : (Json.Scan.ofChars numeral.text).rest = numeral.text ++ [] := (List.append_nil _).symm
  obtain ⟨start, hStart, hValue⟩ := numeral.readValue_eq Json.maxDepth hText
  obtain ⟨next, hNumber⟩ := h start (by rw [hStart, List.append_nil])
  have hOutcome := hSettles Json.maxDepth _ [] hText fun _ hc => by cases hc
  rw [hValue, hNumber] at hOutcome
  cases hOutcome with
  | read => exact (hRead value).mpr rfl

theorem read_short (hWhole : numeral.fraction = []) (hRange : numeral.magnitude < Json.wordLimit) :
    Json.read numeral.text = .ok (Json.wholeNumber numeral.negative numeral.magnitude) := by
  rw [magnitude_of_whole hWhole] at hRange ⊢
  refine read_of_readNumber fun start hStart => ?_
  rw [pointed_of_whole hWhole] at hStart
  obtain ⟨next, hNext, hRead⟩ :=
    Json.readNumber_whole numeral.negative numeral.isWhole hRange (fun c hc => by cases hc) hStart
  exact ⟨next, hRead.trans (Json.readNumberEnd_whole _ _ (by simp [hNext]))⟩

/-- JSON reads the numeral as the float nearest to it, or refuses it when that is no finite float. -/
def RoundedInJson (numeral : Numeral) : Prop :=
  ∀ value, Json.read numeral.text = .ok value ↔ numeral.nearest.isFinite = true ∧ value = .float numeral.nearest

/-- A numeral with a point is rounded only once when its digits and its power of ten are floats. -/
theorem roundedInJson_short (hFraction : numeral.fraction ≠ []) (hDigits : numeral.magnitude < 2 ^ 53)
    (hPlaces : numeral.fraction.length ≤ 22) : numeral.RoundedInJson := by
  have hFinite : numeral.nearest.isFinite = true :=
    Binary64.isFinite_ofRatio hDigits (by decide) _ _
  have hValue : numeral.magnitude = Nat.ofDigitChars 10 numeral.fraction (digitsValue numeral.whole) := by
    rw [magnitude, digitsValue, digitsValue, Nat.ofDigitChars_append]
  have hWord : digitsValue numeral.whole ≤ numeral.magnitude := by
    rw [hValue, Nat.ofDigitChars_eq_ofDigitChars_zero]
    have hPower := Nat.le_mul_of_pos_left (digitsValue numeral.whole) (Nat.pow_pos (n := numeral.fraction.length)
      (show 0 < 10 by decide))
    omega
  -- All digits fit the word, so that only the division by the power of ten rounds.
  have hRead : Json.read numeral.text = .ok (.float numeral.nearest) := by
    refine read_of_readNumber fun start hStart => ?_
    rw [pointed_of_fraction hFraction] at hStart
    have hShort : numeral.magnitude < Json.wordLimit :=
      Nat.lt_of_lt_of_le hDigits (Nat.pow_le_pow_right (by decide) (by decide))
    obtain ⟨point, hPoint, hEnd⟩ := Json.readNumber_whole numeral.negative numeral.isWhole
      (Nat.lt_of_le_of_lt hWord hShort) (fun c hc => by cases hc; rfl) hStart
    obtain ⟨next, hFloat⟩ := @Json.readFraction_short _ _ numeral.negative (digitsValue numeral.whole)
      ⟨hFraction, numeral.isFraction⟩ (by rwa [← hValue]) (Json.rest_skip_cons hPoint)
    refine ⟨next, ?_⟩
    rw [hEnd, Json.readNumberEnd_point _ _ hPoint, hFloat, ← hValue]
    exact Json.floatFrom_exact _ hDigits hPlaces (List.length_pos_iff.mpr hFraction)
  intro value
  rw [hRead, Except.ok.injEq, eq_comm]
  exact (and_iff_right hFinite).symm

/-! ## The value of a numeral -/

theorem nearest_of_whole (h : numeral.fraction = []) :
    numeral.nearest = .ofRatio numeral.negative numeral.magnitude 1 := by
  rw [nearest, h, List.length_nil, Nat.pow_zero]

theorem toInt_of_negative (h : numeral.negative = true) : numeral.toInt = -(numeral.magnitude : Int) := by
  rw [toInt, if_pos h]

theorem toInt_of_positive (h : numeral.negative = false) : numeral.toInt = numeral.magnitude := by
  rw [toInt, h]
  rfl

theorem read_integer {n : Int64} (hWhole : numeral.fraction = []) (hValue : n.toInt = numeral.toInt)
    (hZero : numeral.negative = true → numeral.magnitude ≠ 0) : Json.read numeral.text = .ok (.integer n.toInt) := by
  have hLow := n.le_toInt
  have hHigh := n.toInt_lt
  have hLimit : Json.wordLimit = 2 ^ 64 := rfl
  cases hNegative : numeral.negative with
  | false =>
    rw [toInt_of_positive hNegative] at hValue
    rw [read_short hWhole (by omega), Json.wholeNumber, hNegative, hValue]
    rfl
  | true =>
    have hSome := hZero hNegative
    rw [toInt_of_negative hNegative] at hValue
    have hRange : ¬ (numeral.magnitude = 0 ∨ 2 ^ 63 < numeral.magnitude) := by omega
    rw [read_short hWhole (by omega), Json.wholeNumber, hNegative, if_neg (by decide), if_neg hRange, hValue]

section Rounded

variable (hRounds : numeral.fraction ≠ [] ∨ Json.wordLimit ≤ numeral.magnitude → numeral.RoundedInJson)

include hRounds

theorem read_beyond (hWhole : numeral.fraction = []) (hBeyond : ∀ n : Int64, n.toInt ≠ numeral.toInt)
    (hFinite : numeral.nearest.isFinite = true) :
    ∃ value, Json.read numeral.text = .ok value ∧ Json.Denotes value (.float numeral.nearest) := by
  by_cases hShort : numeral.magnitude < Json.wordLimit
  · refine ⟨_, read_short hWhole hShort, ?_⟩
    rw [nearest_of_whole hWhole, Json.wholeNumber]
    cases hNegative : numeral.negative with
    | false =>
      rw [toInt_of_positive hNegative] at hBeyond
      exact .rounded hBeyond
    | true =>
      have hRange : numeral.magnitude = 0 ∨ 2 ^ 63 < numeral.magnitude := by
        by_contra hInside
        rw [toInt_of_negative hNegative] at hBeyond
        exact hBeyond _ (Int64.toInt_ofInt_of_le (by omega) (by omega))
      rw [if_neg (by decide), if_pos hRange]
      exact .float _
  · exact ⟨_, (hRounds (.inr (Nat.le_of_not_lt hShort)) _).mpr ⟨hFinite, rfl⟩, .float _⟩

theorem read_infinite (hInfinite : numeral.nearest.isFinite = false) (value : Json.Value) :
    Json.read numeral.text ≠ .ok value := by
  intro hRead
  have hLong : numeral.fraction ≠ [] ∨ Json.wordLimit ≤ numeral.magnitude := by
    by_contra hShort
    obtain ⟨hWhole, hRange⟩ := not_or.mp hShort
    have hFinite := Binary64.isFinite_ofRatio (k := 64) (Nat.lt_of_not_le hRange) (by decide) numeral.negative 1
    rw [nearest_of_whole (not_not.mp hWhole), hFinite] at hInfinite
    cases hInfinite
  obtain ⟨hFinite, -⟩ := (hRounds hLong value).mp hRead
  rw [hFinite] at hInfinite
  cases hInfinite

theorem number_of_read {value : Json.Value} (hRead : Json.read numeral.text = .ok value) :
    (∃ n, value = .integer n) ∨ ∃ x, value = .float x := by
  by_cases hLong : numeral.fraction ≠ [] ∨ Json.wordLimit ≤ numeral.magnitude
  · exact .inr ⟨_, ((hRounds hLong value).mp hRead).2⟩
  · obtain ⟨hWhole, hRange⟩ := not_or.mp hLong
    rw [read_short (not_not.mp hWhole) (Nat.lt_of_not_le hRange), Except.ok.injEq, Json.wholeNumber] at hRead
    rw [← hRead]
    split
    · exact .inl ⟨_, rfl⟩
    · split
      · exact .inr ⟨_, rfl⟩
      · exact .inl ⟨_, rfl⟩

end Rounded

end Numeral

end DialogTree
