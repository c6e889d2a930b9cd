import DialogTree.Proofs.Json.Tokens
import DialogTree.Proofs.Reread.Values

/-!
# Numerals of both languages

Some numerals mean a number in the document grammar and in JSON as well: an optional minus sign, digits without
superfluous zeros, and perhaps a point with digits. In the document grammar a numeral without a point is read as
an integer or not at all, and one with a point as the float nearest to it.
-/

namespace DialogTree

theorem Json.IsWhole.isDigits {whole : List Char} (h : Json.IsWhole whole) : IsDigits whole := by
  cases h with
  | zero => exact isDigits_zero
  | digits hFirst _ hDigits => exact ⟨List.cons_ne_nil _ _, List.forall_mem_cons.mpr ⟨hFirst, hDigits⟩⟩

structure Numeral where
  negative : Bool
  whole : List Char
  /-- The digits behind the point. Where there are none, there is no point. -/
  fraction : List Char
  isWhole : Json.IsWhole whole
  isFraction : ∀ x ∈ fraction, x.isDigit = true

namespace Numeral

def sign (numeral : Numeral) : List Char :=
  if numeral.negative then ['-'] else []

def pointed (numeral : Numeral) : List Char :=
  if numeral.fraction = [] then [] else '.' :: numeral.fraction

def text (numeral : Numeral) : List Char :=
  numeral.sign ++ (numeral.whole ++ numeral.pointed)

/-- The number that all the digits make, without the sign and the point. -/
def magnitude (numeral : Numeral) : Nat :=
  digitsValue (numeral.whole ++ numeral.fraction)

def toInt (numeral : Numeral) : Int :=
  if numeral.negative then -(numeral.magnitude : Int) else numeral.magnitude

def nearest (numeral : Numeral) : Binary64 :=
  .ofRatio numeral.negative numeral.magnitude (10 ^ numeral.fraction.length)

/-! ## Digits and signs -/

variable {numeral : Numeral}

theorem isDigits_whole (numeral : Numeral) : IsDigits numeral.whole :=
  numeral.isWhole.isDigits

theorem isSign (numeral : Numeral) : IsSign numeral.sign := by
  unfold sign
  split
  · exact .minus
  · exact .none

theorem sign_eq_minus (numeral : Numeral) : numeral.sign = ['-'] ↔ numeral.negative = true := by
  unfold sign
  split
  next hNegative => simp [hNegative]
  next hPositive => simp [hPositive]

theorem magnitude_of_whole (h : numeral.fraction = []) : numeral.magnitude = digitsValue numeral.whole := by
  rw [magnitude, h, List.append_nil]

theorem signedValue_eq (h : numeral.fraction = []) : signedValue numeral.sign numeral.whole = numeral.toInt := by
  rw [signedValue, toInt, magnitude_of_whole h]
  simp only [sign_eq_minus]

theorem pointed_of_whole (h : numeral.fraction = []) : numeral.pointed = [] := by
  rw [pointed, if_pos h]

theorem pointed_of_fraction (h : numeral.fraction ≠ []) : numeral.pointed = '.' :: numeral.fraction := by
  rw [pointed, if_neg h]

/-! ## Values in the document grammar -/

variable {c d e : Cursor} {value : Value}

/-- Neither a digit nor a point follows at the cursor. -/
def Bounds (cursor : Cursor) : Prop :=
  ∀ x ∈ cursor.rest.head?, x.isDigit = false ∧ x ≠ '.'

theorem Bounds.not_digit (h : Bounds d) : ∀ x ∈ d.rest.head?, x.isDigit = false :=
  fun x hx => (h x hx).1

theorem Bounds.noPoint (h : Bounds d) : d.NoPoint :=
  fun hPoint => (h '.' hPoint).2 rfl

theorem passes_whole (h : c.Passes numeral.text d) (hBounds : Bounds d) :
    ∃ b p, c.Passes numeral.sign b ∧ b.PassesRun Char.isDigit numeral.whole p ∧ p.Passes numeral.pointed d := by
  obtain ⟨b, hSign, hDigits⟩ := Cursor.Passes.split h
  obtain ⟨p, hWhole, hPointed⟩ := hDigits.split
  refine ⟨b, p, hSign, Cursor.passesRun_digits hWhole numeral.isDigits_whole fun x hx => ?_, hPointed⟩
  rw [hPointed.1, pointed] at hx
  split at hx
  · exact hBounds.not_digit x hx
  · obtain rfl : '.' = x := by simpa using hx
    rfl

theorem passes_fraction {p : Cursor} (hFraction : numeral.fraction ≠ []) (h : p.Passes numeral.pointed d)
    (hBounds : Bounds d) : ∃ q, p.Passes ['.'] q ∧ q.PassesRun Char.isDigit numeral.fraction d := by
  rw [pointed_of_fraction hFraction] at h
  obtain ⟨q, hPoint, hDigits⟩ := Cursor.Passes.split (s := ['.']) h
  exact ⟨q, hPoint, hDigits, numeral.isFraction, hBounds.not_digit⟩

theorem integer_valueTo {n : Int64} (h : c.Passes numeral.text d) (hBounds : Bounds d)
    (hWhole : numeral.fraction = []) (hValue : n.toInt = numeral.toInt) : ValueTo (.integer n) c d := by
  obtain ⟨b, p, hSign, hRun, hPointed⟩ := passes_whole h hBounds
  rw [pointed_of_whole hWhole] at hPointed
  obtain rfl := hPointed.unique (Cursor.Passes.refl p)
  rw [← signedValue_eq hWhole] at hValue
  exact .integer (.intro numeral.isSign hSign hRun numeral.isDigits_whole.some hValue)

theorem float_valueTo (h : c.Passes numeral.text d) (hBounds : Bounds d) (hFraction : numeral.fraction ≠ []) :
    ValueTo (.float numeral.nearest) c d := by
  obtain ⟨b, p, hSign, hRun, hPointed⟩ := passes_whole h hBounds
  obtain ⟨q, hPoint, hDigits⟩ := passes_fraction hFraction hPointed hBounds
  have hFloat := FloatTo.intro numeral.isSign hSign hRun numeral.isDigits_whole.some hPoint hDigits hFraction
  have hNegative : decide (numeral.sign = ['-']) = numeral.negative := by
    rw [Bool.eq_iff_iff, decide_eq_true_iff]
    exact numeral.sign_eq_minus
  rw [hNegative] at hFloat
  exact .float hFloat

theorem opening?_number (h : c.Passes numeral.text d) (hBounds : Bounds d) : c.opening? = some .number := by
  obtain ⟨b, p, hSign, hRun, -⟩ := passes_whole h hBounds
  exact hSign.opening?_number numeral.isSign hRun numeral.isDigits_whole.some

theorem not_string (h : c.Passes numeral.text d) (hBounds : Bounds d) (hValue : ValueTo value c e) (text : String) :
    value ≠ .string text := by
  have hOpening := opening?_number h hBounds
  rintro rfl
  cases hValue with
  | string hString => simp [hString.opening?] at hOpening
  | raw hRaw => simp [hRaw.opening?] at hOpening

/-- A numeral without a point is read as no value but an integer. -/
theorem integer_of_valueTo (h : c.Passes numeral.text d) (hBounds : Bounds d) (hWhole : numeral.fraction = [])
    (hValue : ValueTo value c e) : ∃ n : Int64, value = .integer n ∧ n.toInt = numeral.toInt := by
  have hOpening := opening?_number h hBounds
  obtain ⟨b, p, hSign, hRun, hPointed⟩ := passes_whole h hBounds
  rw [pointed_of_whole hWhole] at hPointed
  obtain rfl := hPointed.unique (Cursor.Passes.refl p)
  obtain ⟨x, rest, hRest, hDigit⟩ := hRun.head_digit numeral.isDigits_whole.some
  obtain ⟨hSkip, hMinus⟩ := skipSign_of_passes numeral.isSign hSign hRest hDigit
  -- Whatever number is read begins with the same sign and the same digits.
  have hSame : ∀ {sign digits : List Char} {b' p' : Cursor}, IsSign sign → c.Passes sign b' →
      b'.PassesRun Char.isDigit digits p' → digits ≠ [] →
        (sign = ['-'] ↔ numeral.sign = ['-']) ∧ digits = numeral.whole ∧ p' = d := by
    intro sign digits b' p' hSign' hPasses' hRun' hDigits'
    obtain ⟨x', rest', hRest', hDigit'⟩ := hRun'.head_digit hDigits'
    obtain ⟨hSkip', hMinus'⟩ := skipSign_of_passes hSign' hPasses' hRest' hDigit'
    obtain rfl := hSkip.symm.trans hSkip'
    exact ⟨hMinus'.trans hMinus.symm, hRun'.eq.1.trans hRun.eq.1.symm, hRun'.eq.2.trans hRun.eq.2.symm⟩
  cases hValue with
  | string hString => simp [hString.opening?] at hOpening
  | raw hRaw => simp [hRaw.opening?] at hOpening
  | bool hBool => simp [hBool.opening?] at hOpening
  | list hList =>
    obtain ⟨b', hBracket⟩ := hList.opens
    have hBracketed : c.opening? = some .list := hBracket.opening?
    simp [hBracketed] at hOpening
  | float hFloat =>
    cases hFloat with
    | intro hSign' hPasses' hWhole' hDigits' hPoint _ _ =>
      obtain ⟨-, -, rfl⟩ := hSame hSign' hPasses' hWhole' hDigits'
      exact absurd (by simp [Cursor.peek?, hPoint.1]) hBounds.noPoint
  | @integer _ _ n hInteger =>
    cases hInteger with
    | intro hSign' hPasses' hRun' hDigits' hNumber =>
      obtain ⟨hSignSame, rfl, -⟩ := hSame hSign' hPasses' hRun' hDigits'
      refine ⟨n, rfl, ?_⟩
      rw [hNumber, ← signedValue_eq hWhole, signedValue, signedValue]
      simp only [hSignSame]

end Numeral

end DialogTree
