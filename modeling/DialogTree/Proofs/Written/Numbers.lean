import DialogTree.Number.FloatStyle
import DialogTree.Proofs.Numerals

/-!
# Numbers as they are written

The literal of a finite number or of an integer is read back as the same number.
-/

namespace DialogTree

/-! ## Digits -/

structure IsDigits (digits : List Char) : Prop where
  some : digits ≠ []
  all : ∀ x ∈ digits, x.isDigit = true

theorem isDigits_toDigits (n : Nat) : IsDigits (Nat.toDigits 10 n) where
  some := Nat.toDigits_ne_nil
  all _ hx := Nat.isDigit_of_mem_toDigits (by decide) (by decide) hx

theorem isDigits_zero : IsDigits ['0'] where
  some := List.cons_ne_nil _ _
  all x hx := by
    obtain rfl := List.mem_singleton.mp hx
    rfl

theorem all_isDigit_replicate {count : Nat} : ∀ x ∈ List.replicate count '0', x.isDigit = true := by
  intro x hx
  rw [(List.mem_replicate.mp hx).2]
  rfl

theorem digitsValue_toDigits (n : Nat) : digitsValue (Nat.toDigits 10 n) = n :=
  Nat.ofDigitChars_ten_toDigits

theorem digitsValue_append_zeros (digits : List Char) (count : Nat) :
    digitsValue (digits ++ List.replicate count '0') = digitsValue digits * 10 ^ count := by
  rw [digitsValue, Nat.ofDigitChars_append, Nat.ofDigitChars_replicate_zero, Nat.mul_comm]
  rfl

theorem digitsValue_zeros_append (digits : List Char) (count : Nat) :
    digitsValue (List.replicate count '0' ++ digits) = digitsValue digits := by
  rw [digitsValue, Nat.ofDigitChars_append, Nat.ofDigitChars_replicate_zero, Nat.mul_zero]
  rfl

/-! ## Magnitudes -/

namespace Decimal

theorem ratio_negSucc (n k : Nat) : ratio ⟨n, .negSucc k⟩ = (n, 10 ^ (k + 1)) := rfl

/-- The exact numeral of a magnitude, which is written when no shorter one is found. -/
theorem units_exact {units k places : Nat} (h : Binary64.Fits units) (hPlaces : places = k + 1)
    (hScale : Binary64.scale = 2 ^ places) : Decimal.units ⟨units * 5 ^ places, .negSucc k⟩ = units := by
  have hTen : 10 ^ (k + 1) = 5 ^ places * Binary64.scale := by
    rw [hScale, ← Nat.mul_pow, ← hPlaces]
  rw [Decimal.units, ratio_negSucc, hTen]
  simp only
  rw [Nat.mul_assoc]
  exact Binary64.round_of_fits h (hTen ▸ Nat.pow_pos (by decide))

/-- Writing loses nothing: the numeral reads back to the magnitude. -/
theorem units_shortest (tie : Tie) {units : Nat} (h : Binary64.Fits units) :
    (shortest tie units).units = units := by
  unfold shortest
  simp only
  cases hFound : (List.range 18).findSome? fun count : Nat =>
      onGrid? tie units (leadingExponent units + 1 - count) with
  | some x =>
    obtain ⟨count, -, hGrid⟩ := List.exists_of_findSome?_eq_some hFound
    exact units_onGrid? hGrid
  | none => exact @units_exact units 1073 1074 h rfl Binary64.scale.eq_1

end Decimal

/-- A positional numeral with digits on both sides of its point, and the quotient that it denotes. -/
structure WritesRatio (text : List Char) (n d : Nat) (whole fraction : List Char) : Prop where
  spelling : text = whole ++ '.' :: fraction
  before : IsDigits whole
  behind : IsDigits fraction
  value : ∀ negative, Binary64.ofRatio negative (digitsValue (whole ++ fraction)) (10 ^ fraction.length) =
    .ofRatio negative n d

/-- Zeros behind the digits, and a zero behind the point. -/
theorem writesRatio_whole {digits : List Char} (h : IsDigits digits) (e : Nat) :
    WritesRatio (FloatStyle.literal.positionalText digits (.ofNat e))
      (Decimal.ratio ⟨digitsValue digits, .ofNat e⟩).1 (Decimal.ratio ⟨digitsValue digits, .ofNat e⟩).2
      (digits ++ List.replicate e '0') ['0'] := by
  refine ⟨rfl, ⟨?_, ?_⟩, isDigits_zero, ?_⟩
  · simp [h.some]
  · intro x hx
    rcases List.mem_append.mp hx with hx | hx
    · exact h.all x hx
    · exact all_isDigit_replicate x hx
  · intro negative
    have hZero : ['0'] = List.replicate 1 '0' := rfl
    rw [hZero, digitsValue_append_zeros, digitsValue_append_zeros, List.length_replicate]
    exact Binary64.ofRatio_scale (k := 10 ^ 1) (by decide) negative _ 1

/-- Too few digits for the places behind the point are filled up in front. -/
theorem writesRatio_small {digits : List Char} (h : IsDigits digits) {e : Nat} (hShort : digits.length ≤ e + 1) :
    WritesRatio (FloatStyle.literal.positionalText digits (.negSucc e))
      (Decimal.ratio ⟨digitsValue digits, .negSucc e⟩).1 (Decimal.ratio ⟨digitsValue digits, .negSucc e⟩).2
      ['0'] (List.replicate (e + 1 - digits.length) '0' ++ digits) := by
  refine ⟨?_, isDigits_zero, ⟨?_, ?_⟩, ?_⟩
  · simp [FloatStyle.positionalText, hShort]
  · simp [h.some]
  · intro x hx
    rcases List.mem_append.mp hx with hx | hx
    · exact all_isDigit_replicate x hx
    · exact h.all x hx
  · intro negative
    have hValue : digitsValue (['0'] ++ (List.replicate (e + 1 - digits.length) '0' ++ digits)) =
        digitsValue digits := by
      rw [← List.append_assoc]
      exact digitsValue_zeros_append digits (e + 1 - digits.length + 1)
    have hPlaces : (List.replicate (e + 1 - digits.length) '0' ++ digits).length = e + 1 := by
      simp
      omega
    rw [hValue, hPlaces]
    rfl

/-- Otherwise the point stands between the digits. -/
theorem writesRatio_split {digits : List Char} (h : IsDigits digits) {e : Nat} (hLong : ¬ digits.length ≤ e + 1) :
    WritesRatio (FloatStyle.literal.positionalText digits (.negSucc e))
      (Decimal.ratio ⟨digitsValue digits, .negSucc e⟩).1 (Decimal.ratio ⟨digitsValue digits, .negSucc e⟩).2
      (digits.take (digits.length - (e + 1))) (digits.drop (digits.length - (e + 1))) := by
  refine ⟨?_, ⟨?_, ?_⟩, ⟨?_, ?_⟩, ?_⟩
  · simp [FloatStyle.positionalText, hLong]
  · simp [h.some]
    omega
  · exact fun x hx => h.all x (List.mem_of_mem_take hx)
  · simp
    omega
  · exact fun x hx => h.all x (List.mem_of_mem_drop hx)
  · intro negative
    have hPlaces : (digits.drop (digits.length - (e + 1))).length = e + 1 := by
      simp
      omega
    rw [List.take_append_drop, hPlaces]
    rfl

theorem exists_writesRatio {digits : List Char} (h : IsDigits digits) (exponent : Int) :
    ∃ whole fraction, WritesRatio (FloatStyle.literal.positionalText digits exponent)
      (Decimal.ratio ⟨digitsValue digits, exponent⟩).1 (Decimal.ratio ⟨digitsValue digits, exponent⟩).2
      whole fraction := by
  cases exponent with
  | ofNat e => exact ⟨_, _, writesRatio_whole h e⟩
  | negSucc e =>
    by_cases hShort : digits.length ≤ e + 1
    · exact ⟨_, _, writesRatio_small h hShort⟩
    · exact ⟨_, _, writesRatio_split h hShort⟩

/-! ## Literals -/

theorem magnitudeText_positional {style : FloatStyle} {units : Nat} (hStyle : style.positional = none)
    (hUnits : units ≠ 0) : style.magnitudeText units =
      style.positionalText (Nat.toDigits 10 (Decimal.shortest style.tie units).digits)
        (Decimal.shortest style.tie units).exponent := by
  rw [FloatStyle.magnitudeText, if_neg hUnits]
  simp only [hStyle, if_true]

theorem units_of_digits {x : Decimal} {units : Nat} (h : x.units = units) :
    Decimal.units ⟨digitsValue (Nat.toDigits 10 x.digits), x.exponent⟩ = units := by
  rw [digitsValue_toDigits]
  exact h

theorem magnitudeText_numeral {units : Nat} (h : Binary64.Fits units) : ∃ digits exponent,
    IsDigits digits ∧ FloatStyle.literal.magnitudeText units =
      FloatStyle.literal.positionalText digits exponent ∧
        Decimal.units ⟨digitsValue digits, exponent⟩ = units := by
  by_cases hZero : units = 0
  · subst hZero
    have hText : FloatStyle.literal.magnitudeText 0 = FloatStyle.literal.positionalText ['0'] 0 := by
      rw [FloatStyle.magnitudeText, if_pos rfl]
    have hUnits : Decimal.units ⟨digitsValue ['0'], 0⟩ = 0 := by
      have hRatio : Decimal.ratio ⟨digitsValue ['0'], 0⟩ = (0, 1) := rfl
      rw [Decimal.units, hRatio, Nat.zero_mul]
      exact Binary64.round_eq_zero (by decide)
    exact ⟨['0'], 0, isDigits_zero, hText, hUnits⟩
  · exact ⟨_, _, isDigits_toDigits _, magnitudeText_positional rfl hZero,
      units_of_digits (Decimal.units_shortest _ h)⟩

theorem Cursor.passesRun_digits {c d : Cursor} {digits : List Char} (h : c.Passes digits d)
    (hDigits : IsDigits digits) (hEnd : ∀ x ∈ d.rest.head?, x.isDigit = false) :
    c.PassesRun Char.isDigit digits d :=
  ⟨h, hDigits.all, hEnd⟩

theorem float_literal {negative : Bool} {units : Nat} {fits : Binary64.Fits units} {c d : Cursor}
    (h : c.Passes (FloatStyle.literal.text (.finite negative units fits)).toList d)
    (hEnd : ∀ x ∈ d.rest.head?, x.isDigit = false) : FloatTo (.finite negative units fits) c d := by
  obtain ⟨digits, exponent, hDigits, hText, hUnits⟩ := magnitudeText_numeral fits
  obtain ⟨whole, fraction, hWrites⟩ := exists_writesRatio hDigits exponent
  have hNumber : Binary64.ofRatio negative (digitsValue (whole ++ fraction)) (10 ^ fraction.length) =
      .finite negative units fits := by
    rw [hWrites.value]
    exact Binary64.ofUnits_of_round hUnits fits
  have hSigned : ∃ sign, IsSign sign ∧ decide (sign = ['-']) = negative ∧
      c.Passes (sign ++ (whole ++ (['.'] ++ fraction))) d := by
    rw [FloatStyle.text, hText, hWrites.spelling] at h
    cases negative with
    | true => exact ⟨['-'], .minus, rfl, by simpa using h⟩
    | false => exact ⟨[], .none, rfl, by simpa using h⟩
  obtain ⟨sign, hSign, hNegative, hPasses⟩ := hSigned
  obtain ⟨b, hFirst, hPasses⟩ := hPasses.split
  obtain ⟨p, hWhole, hPasses⟩ := hPasses.split
  obtain ⟨q, hPoint, hFraction⟩ := hPasses.split
  have hStop : ∀ x ∈ p.rest.head?, x.isDigit = false := by
    intro x hx
    rw [hPoint.1] at hx
    obtain rfl : '.' = x := by simpa using hx
    rfl
  have hFloat := FloatTo.intro hSign hFirst (Cursor.passesRun_digits hWhole hWrites.before hStop)
    hWrites.before.some hPoint (Cursor.passesRun_digits hFraction hWrites.behind hEnd) hWrites.behind.some
  rwa [hNegative, hNumber] at hFloat

theorem toString_ofNat (k : Nat) : (toString (Int.ofNat k)).toList = Nat.toDigits 10 k :=
  Nat.toList_repr

theorem toString_negSucc (k : Nat) : (toString (Int.negSucc k)).toList = '-' :: Nat.toDigits 10 (k + 1) := by
  change ("-" ++ (k + 1).repr).toList = _
  rw [String.toList_append, Nat.toList_repr]
  rfl

theorem integer_literal {n : Int64} {c d : Cursor} (h : c.Passes (toString n.toInt).toList d)
    (hEnd : ∀ x ∈ d.rest.head?, x.isDigit = false) : IntegerTo n c d := by
  have hSigned : ∃ sign digits, IsSign sign ∧ IsDigits digits ∧ n.toInt = signedValue sign digits ∧
      c.Passes (sign ++ digits) d := by
    cases hInt : n.toInt with
    | ofNat k =>
      rw [hInt] at h
      refine ⟨[], Nat.toDigits 10 k, .none, isDigits_toDigits k, ?_, ?_⟩
      · simp [signedValue, digitsValue_toDigits]
      · rwa [toString_ofNat] at h
    | negSucc k =>
      rw [hInt] at h
      refine ⟨['-'], Nat.toDigits 10 (k + 1), .minus, isDigits_toDigits _, ?_, ?_⟩
      · rw [signedValue, if_pos rfl, digitsValue_toDigits]
        rfl
      · rwa [toString_negSucc] at h
  obtain ⟨sign, digits, hSign, hDigits, hValue, hPasses⟩ := hSigned
  obtain ⟨b, hFirst, hRun⟩ := hPasses.split
  exact .intro hSign hFirst (Cursor.passesRun_digits hRun hDigits hEnd) hDigits.some hValue

end DialogTree
