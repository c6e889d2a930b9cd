import DialogTree.Proofs.Number.Rounding
import DialogTree.Proofs.Words

/-!
# Numerals of the document grammar

An integer is an optional sign and a run of digits; a float has a point with digits on both sides. The runs
are as long as they can be. A float denotes the number nearest to its exact decimal value.
-/

namespace DialogTree

inductive IsSign : List Char → Prop where
  | none : IsSign []
  | plus : IsSign ['+']
  | minus : IsSign ['-']

def signedValue (sign digits : List Char) : Int :=
  if sign = ['-'] then -(digitsValue digits : Int) else digitsValue digits

/-- A sign and the longest run of digits, of a value in the signed 64-bit range. -/
inductive IntegerTo : Int64 → Cursor → Cursor → Prop where
  | intro {c b d : Cursor} {sign digits : List Char} {n : Int64} (hSign : IsSign sign)
      (hPasses : c.Passes sign b) (hRun : b.PassesRun Char.isDigit digits d) (hDigits : digits ≠ [])
      (hValue : n.toInt = signedValue sign digits) : IntegerTo n c d

/-- A sign, and the longest runs of digits before and behind a point. -/
inductive FloatTo : Binary64 → Cursor → Cursor → Prop where
  | intro {c b p q d : Cursor} {sign whole fraction : List Char} (hSign : IsSign sign)
      (hPasses : c.Passes sign b) (hWhole : b.PassesRun Char.isDigit whole p)
      (hDigits : whole ≠ []) (hPoint : p.Passes ['.'] q)
      (hFraction : q.PassesRun Char.isDigit fraction d) (hPlaces : fraction ≠ []) :
      FloatTo (.ofRatio (sign = ['-']) (digitsValue (whole ++ fraction)) (10 ^ fraction.length)) c d

variable {c b d : Cursor}

/-! ## Signs -/

theorem Cursor.PassesRun.head_digit {digits : List Char} (h : b.PassesRun Char.isDigit digits d)
    (hDigits : digits ≠ []) : ∃ x rest, b.rest = x :: rest ∧ x.isDigit = true := by
  cases digits with
  | nil => exact absurd rfl hDigits
  | cons x digits => exact ⟨x, digits ++ d.rest, h.passes.1, h.all x List.mem_cons_self⟩

theorem Cursor.exists_sign (c : Cursor) : ∃ sign, IsSign sign ∧ c.Passes sign c.skipSign ∧
    (sign = ['-'] ↔ c.peek? = some '-') := by
  unfold skipSign
  split
  · rename_i rest hRest
    exact ⟨['+'], .plus, passes_cons hRest, by simp [peek?, hRest]⟩
  · rename_i rest hRest
    exact ⟨['-'], .minus, passes_cons hRest, by simp [peek?, hRest]⟩
  · rename_i hPlus hMinus
    refine ⟨[], .none, Passes.refl c, ?_⟩
    cases hRest : c.rest with
    | nil => simp [peek?, hRest]
    | cons x rest =>
      have hx : x ≠ '-' := by
        rintro rfl
        exact hMinus rest hRest
      simp [peek?, hRest, hx]

theorem skipSign_of_passes {sign : List Char} {x : Char} {rest : List Char} (hSign : IsSign sign)
    (h : c.Passes sign b) (hRest : b.rest = x :: rest) (hDigit : x.isDigit = true) :
    c.skipSign = b ∧ (sign = ['-'] ↔ c.peek? = some '-') := by
  have hStart := h.1
  rw [hRest] at hStart
  have hEq := h.eq_skip
  cases hSign with
  | none =>
    have hPlus : x ≠ '+' := by rintro rfl; simp [Char.isDigit] at hDigit
    have hMinus : x ≠ '-' := by rintro rfl; simp [Char.isDigit] at hDigit
    simp only [List.nil_append] at hStart
    refine ⟨?_, by simp [Cursor.peek?, hStart, hMinus]⟩
    unfold Cursor.skipSign
    rw [hStart]
    simp [hPlus, hMinus, hEq]
  | plus =>
    refine ⟨?_, by simp [Cursor.peek?, hStart]⟩
    unfold Cursor.skipSign
    rw [hStart]
    exact hEq.symm
  | minus =>
    refine ⟨?_, by simp [Cursor.peek?, hStart]⟩
    unfold Cursor.skipSign
    rw [hStart]
    exact hEq.symm

theorem splitSign_append {sign digits : List Char} (hSign : IsSign sign)
    (hDigits : ∀ x ∈ digits.head?, x.isDigit = true) :
    splitSign (sign ++ digits) = (decide (sign = ['-']), digits) := by
  cases hSign with
  | none =>
    cases digits with
    | nil => rfl
    | cons x digits =>
      have hDigit := hDigits x rfl
      have hPlus : x ≠ '+' := by rintro rfl; simp [Char.isDigit] at hDigit
      have hMinus : x ≠ '-' := by rintro rfl; simp [Char.isDigit] at hDigit
      simp [splitSign, hPlus, hMinus]
  | plus => rfl
  | minus => rfl

/-! ## Integers -/

theorem readInt?_append {sign digits : List Char} (hSign : IsSign sign) (hDigits : digits ≠ [])
    (hAll : ∀ x ∈ digits, x.isDigit = true) :
    readInt? (sign ++ digits) = some (signedValue sign digits) := by
  have hHead : ∀ x ∈ digits.head?, x.isDigit = true :=
    fun x hx => hAll x (List.mem_of_mem_head? hx)
  have hTest : digits.all Char.isDigit = true := List.all_eq_true.mpr hAll
  simp [readInt?, splitSign_append hSign hHead, hDigits, hTest, signedValue]

theorem readInt64?_append {sign digits : List Char} {n : Int64} (hSign : IsSign sign)
    (hDigits : digits ≠ []) (hAll : ∀ x ∈ digits, x.isDigit = true) :
    readInt64? (sign ++ digits) = some n ↔ n.toInt = signedValue sign digits := by
  rw [readInt64?, readInt?_append hSign hDigits hAll]
  generalize signedValue sign digits = v
  constructor
  · intro h
    simp only at h
    split at h
    · rename_i hRange
      cases h
      exact Int64.toInt_ofInt_of_le hRange.1 hRange.2
    · cases h
  · rintro rfl
    have hLow := n.le_toInt
    have hHigh := n.toInt_lt
    simp only
    rw [if_pos ⟨hLow, hHigh⟩, Int64.ofInt_toInt]

theorem integerLiteral_ok_iff {n : Int64} : integerLiteral c = .ok (d, n) ↔ IntegerTo n c d := by
  obtain ⟨sign, hSign, hPasses, -⟩ := c.exists_sign
  have hRun := Cursor.passesRun_takeWhile c.skipSign Char.isDigit
  constructor
  · intro h
    simp only [integerLiteral] at h
    split at h
    · cases h
    · rename_i hDigits
      have hDigits' : c.skipSign.takeWhile Char.isDigit ≠ [] := by simpa using hDigits
      rw [(hPasses.trans hRun.passes).textTo] at h
      split at h
      · rename_i number hRead
        cases h
        exact .intro hSign hPasses hRun hDigits'
          ((readInt64?_append hSign hDigits' hRun.all).mp hRead)
      · cases h
  · rintro ⟨hSign', hPasses', hRun', hDigits, hValue⟩
    obtain ⟨x, rest, hRest, hDigit⟩ := hRun'.head_digit hDigits
    obtain ⟨rfl, -⟩ := skipSign_of_passes hSign' hPasses' hRest hDigit
    obtain ⟨rfl, rfl⟩ := hRun'.eq
    simp only [integerLiteral]
    rw [if_neg (by simpa using hDigits), (hPasses'.trans hRun'.passes).textTo,
      (readInt64?_append hSign' hDigits hRun'.all).mpr hValue]

/-! ## Floats -/

/-- A numeral read from two runs of digits is the number nearest to its exact value. -/
theorem ofDecimal_parts (negative : Bool) (whole fraction : List Char) :
    Binary64.ofDecimal negative (decimalOfParts whole fraction 0) =
      .ofRatio negative (digitsValue (whole ++ fraction)) (10 ^ fraction.length) := by
  rw [Binary64.ofDecimal_eq_ofRatio]
  cases hLength : fraction.length with
  | zero => simp [decimalOfParts, Decimal.ratio, hLength]
  | succ places =>
    have hExponent : (0 - ((places + 1 : Nat) : Int)) = Int.negSucc places := by omega
    simp only [decimalOfParts, hLength, hExponent, Decimal.ratio]

theorem floatLiteral_ok_iff {x : Binary64} : floatLiteral c = .ok (d, x) ↔ FloatTo x c d := by
  obtain ⟨sign, hSign, hPasses, hMinus⟩ := c.exists_sign
  have hWhole := Cursor.passesRun_takeWhile c.skipSign Char.isDigit
  constructor
  · intro h
    simp only [floatLiteral] at h
    split at h
    · cases h
    · rename_i hDigits
      split at h
      · cases h
      · rename_i hPeek
        split at h
        · cases h
        · rename_i hPlaces
          cases h
          obtain ⟨rest, hPoint⟩ : ∃ rest, (c.skipSign.skipWhile Char.isDigit).rest = '.' :: rest :=
            List.head?_eq_some_iff.mp (by simpa [Cursor.peek?] using hPeek)
          have hFraction := Cursor.passesRun_takeWhile
            ((c.skipSign.skipWhile Char.isDigit).skip 1) Char.isDigit
          have hNegative : (c.peek? == some '-') = decide (sign = ['-']) := by
            rw [Bool.eq_iff_iff]
            simpa using hMinus.symm
          rw [ofDecimal_parts, hNegative]
          exact .intro hSign hPasses hWhole (by simpa using hDigits) (Cursor.passes_cons hPoint)
            hFraction (by simpa using hPlaces)
  · rintro ⟨hSign', hPasses', hWhole', hDigits, hPoint, hFraction, hPlaces⟩
    rename_i sign' _ _
    obtain ⟨y, rest, hRest, hDigit⟩ := hWhole'.head_digit hDigits
    obtain ⟨rfl, hMinus'⟩ := skipSign_of_passes hSign' hPasses' hRest hDigit
    obtain ⟨rfl, rfl⟩ := hWhole'.eq
    have hPeek : (c.skipSign.skipWhile Char.isDigit).peek? = some '.' := by
      simp [Cursor.peek?, hPoint.1]
    obtain rfl := hPoint.eq_skip
    obtain ⟨rfl, rfl⟩ := hFraction.eq
    have hNegative : (c.peek? == some '-') = decide (sign' = ['-']) := by
      rw [Bool.eq_iff_iff]
      simpa using hMinus'.symm
    simp only [floatLiteral, List.length_cons, List.length_nil, Nat.zero_add] at hPlaces ⊢
    rw [if_neg (by simpa using hDigits), if_neg (by simp [hPeek]), if_neg (by simpa using hPlaces),
      ofDecimal_parts, hNegative]

end DialogTree
