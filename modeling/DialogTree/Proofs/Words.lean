import DialogTree.Parsing.Literal
import DialogTree.Proofs.Passing

/-!
# Words and truth values

What the lexemes of fixed texts, names, natural numbers and truth values accept, and where they stop.
-/

namespace DialogTree

/-- A leading character and the longest run of body characters behind it. -/
inductive WordTo (lead body : Char → Bool) : String → Cursor → Cursor → Prop where
  | intro {c b d : Cursor} {x : Char} {name : List Char} (hFirst : c.Passes [x] b)
      (hLead : lead x = true) (hRun : b.PassesRun body name d) :
      WordTo lead body (String.ofList (x :: name)) c d

/-- The longest run of decimal digits, with its value. -/
inductive NaturalTo : Nat → Cursor → Cursor → Prop where
  | intro {c d : Cursor} {digits : List Char} (hRun : c.PassesRun Char.isDigit digits d)
      (hDigits : digits ≠ []) (hRange : digitsValue digits < 2 ^ 64) :
      NaturalTo (digitsValue digits) c d

/-- A truth value that no further character of a key follows. -/
inductive BoolTo : Bool → Cursor → Cursor → Prop where
  | intro {c d : Cursor} {b : Bool} (hWord : c.Passes (toString b).toList d)
      (hEnd : ∀ x ∈ d.rest.head?, isKeyChar x = false) : BoolTo b c d

variable {c d : Cursor}

theorem literal_ok_iff {text a : String} :
    literal text c = .ok (d, a) ↔ c.Passes text.toList d ∧ a = text := by
  rw [Cursor.passes_iff, literal]
  constructor
  · intro h
    split at h
    · rename_i hPrefix
      cases h
      exact ⟨⟨List.isPrefixOf_iff_prefix.mp hPrefix, rfl⟩, rfl⟩
    · cases h
  · rintro ⟨⟨hPrefix, rfl⟩, rfl⟩
    rw [if_pos (List.isPrefixOf_iff_prefix.mpr hPrefix)]

theorem identifier_ok_iff {lead body : Char → Bool} {word : String} :
    identifier lead body c = .ok (d, word) ↔ WordTo lead body word c d := by
  constructor
  · intro h
    rw [identifier] at h
    split at h
    · cases h
    · rename_i x rest hRest
      split at h
      · rename_i hLead
        cases h
        have hFirst := Cursor.passes_cons hRest
        have hRun := Cursor.passesRun_takeWhile (c.skip 1) body
        have hTake : (c.skip 1).takeWhile body = rest.takeWhile body := by
          simp [Cursor.takeWhile, hRest]
        rw [hTake] at hRun
        have hEnd := (hFirst.trans hRun.passes).eq_skip
        have hWord := WordTo.intro hFirst hLead hRun
        rwa [hEnd] at hWord
      · cases h
  · rintro ⟨hFirst, hLead, hRun⟩
    rename_i b x name
    have hRest : c.rest = x :: b.rest := hFirst.1
    have hName : name = b.rest.takeWhile body := hRun.eq.1
    have hEnd : d = c.skip (x :: name).length := (hFirst.trans hRun.passes).eq_skip
    simp [identifier, hRest, hLead, ← hName, hEnd]

/-! ## Natural numbers -/

theorem isDigitIn_ten (c : Char) : isDigitIn 10 c = c.isDigit := by
  unfold isDigitIn digitValue? Char.isDigit
  simp only [Char.le_def, ge_iff_le]
  by_cases hDigit : '0'.val ≤ c.val ∧ c.val ≤ '9'.val
  · have hValue : c.toNat - '0'.toNat < 10 := by
      have h9 : c.toNat ≤ 57 := UInt32.le_iff_toNat_le.mp hDigit.2
      have h0 : ('0' : Char).toNat = 48 := rfl
      omega
    simp only [hDigit, and_self, if_true]
    simpa using hValue
  · rw [if_neg hDigit]
    have hRight : (decide ('0'.val ≤ c.val) && decide (c.val ≤ '9'.val)) = false := by
      simpa using hDigit
    rw [hRight]
    by_cases hLower : 'a'.val ≤ c.val ∧ c.val ≤ 'z'.val
    · rw [if_pos hLower]
      exact decide_eq_false (by omega)
    · rw [if_neg hLower]
      by_cases hUpper : 'A'.val ≤ c.val ∧ c.val ≤ 'Z'.val
      · rw [if_pos hUpper]
        exact decide_eq_false (by omega)
      · rw [if_neg hUpper]

theorem digitValue?_of_isDigit {c : Char} (h : c.isDigit = true) :
    digitValue? c = some (c.toNat - '0'.toNat) := by
  simp only [Char.isDigit, Bool.and_eq_true, decide_eq_true_eq] at h
  rw [digitValue?, if_pos]
  exact h

theorem foldl_valueIn_ten {digits : List Char} (h : ∀ x ∈ digits, x.isDigit = true) (n : Nat) :
    digits.foldl (fun value c => value * 10 + (digitValue? c).getD 0) n =
      Nat.ofDigitChars 10 digits n := by
  induction digits generalizing n with
  | nil => simp
  | cons x digits ih =>
    have hx := digitValue?_of_isDigit (h x List.mem_cons_self)
    rw [List.foldl_cons, ih (fun y hy => h y (List.mem_cons_of_mem x hy)), Nat.ofDigitChars_cons, hx,
      Option.getD_some, Nat.mul_comm]

theorem valueIn_ten {digits : List Char} (h : ∀ x ∈ digits, x.isDigit = true) :
    valueIn 10 digits = digitsValue digits := foldl_valueIn_ten h 0

theorem natural_ten_ok_iff {n : Nat} : natural .ten c = .ok (d, n) ↔ NaturalTo n c d := by
  have hTest : isDigitIn Radix.ten.base = Char.isDigit := funext isDigitIn_ten
  have hBase : Radix.ten.base = 10 := rfl
  rw [natural, hTest, hBase]
  constructor
  · intro h
    have hRun := Cursor.passesRun_takeWhile c Char.isDigit
    simp only at h
    split at h
    · cases h
    · rename_i hDigits
      rw [valueIn_ten hRun.all] at h
      split at h
      · rename_i hRange
        cases h
        exact .intro hRun (by simpa using hDigits) hRange
      · cases h
  · rintro ⟨hRun, hDigits, hRange⟩
    obtain ⟨rfl, rfl⟩ := hRun.eq
    simp only
    rw [if_neg (by simpa using hDigits), valueIn_ten hRun.all, if_pos hRange]

/-! ## Truth values -/

theorem wholeWord_iff {word : List Char} :
    (word.isPrefixOf c.rest && !(c.rest.drop word.length).head?.any isKeyChar) = true ↔
      c.Passes word (c.skip word.length) ∧
        ∀ x ∈ (c.skip word.length).rest.head?, isKeyChar x = false := by
  rw [Bool.and_eq_true, List.isPrefixOf_iff_prefix, Cursor.passes_iff, Cursor.rest_skip]
  apply and_congr
  · simp
  · cases (c.rest.drop word.length).head? <;> simp

theorem boolean_ok_iff {b : Bool} : boolean c = .ok (d, b) ↔ BoolTo b c d := by
  have hTrue : (toString true).toList = ['t', 'r', 'u', 'e'] := rfl
  have hFalse : (toString false).toList = ['f', 'a', 'l', 's', 'e'] := rfl
  constructor
  · intro h
    simp only [boolean] at h
    split at h
    · rename_i hIs
      cases h
      obtain ⟨hWord, hEnd⟩ := wholeWord_iff.mp hIs
      exact .intro hWord hEnd
    · split at h
      · rename_i hIs
        cases h
        obtain ⟨hWord, hEnd⟩ := wholeWord_iff.mp hIs
        exact .intro hWord hEnd
      · cases h
  · rintro ⟨hWord, hEnd⟩
    have hEq := hWord.eq_skip
    subst hEq
    have hIs := wholeWord_iff.mpr ⟨hWord, hEnd⟩
    cases b with
    | true =>
      rw [hTrue] at hIs
      simp only [boolean]
      rw [if_pos hIs]
      rfl
    | false =>
      rw [hFalse] at hIs hWord
      have hNot : ['t', 'r', 'u', 'e'].isPrefixOf c.rest = false := by rw [hWord.1]; rfl
      simp only [boolean]
      rw [hNot, Bool.false_and, if_neg Bool.false_ne_true, if_pos hIs]
      rfl

end DialogTree
