import DialogTree.Pattern.Reader
import DialogTree.Rule.Check
import Mathlib.Data.List.Forall2

/-!
# Accepted forms

For each kind of rule, the values that it accepts and the form in which it gives them back. A check succeeds
exactly on these values and with this form, and the form is accepted as it is. All of this holds whatever library
of patterns is asked.
-/

namespace DialogTree

/-! ## Limits -/

theorem firstError_ok_iff {tests : List (Option CheckError)} :
    firstError tests = .ok () ↔ ∀ test ∈ tests, test = none := by
  rw [firstError]
  cases hFirst : tests.findSome? id with
  | some error =>
    obtain ⟨test, hMem, hError⟩ := List.exists_of_findSome?_eq_some hFirst
    simp only [reduceCtorEq, false_iff, not_forall]
    exact ⟨test, hMem, by simpa using ne_of_eq_of_ne hError (Option.some_ne_none error)⟩
  | none => simpa using List.findSome?_eq_none_iff.mp hFirst

theorem broken_eq_none_iff {α : Type} {limit? : Option α} {breaks : α → Bool} {error : α → CheckError} :
    broken limit? breaks error = none ↔ ∀ limit ∈ limit?, breaks limit = false := by
  cases limit? <;> simp [broken]

structure WithinLength (minLength maxLength : Option Nat) (length : Nat) : Prop where
  min : ∀ min ∈ minLength, min ≤ length
  max : ∀ max ∈ maxLength, length ≤ max

/-- The text has an allowed length, holds a match of the pattern, and is one of the listed texts. -/
structure StringRule.Meets [PatternEngine] (rule : StringRule) (text : String) : Prop where
  length : WithinLength rule.minLength rule.maxLength text.length
  pattern : ∀ pattern ∈ rule.pattern, PatternEngine.finds pattern text = true
  oneOf : rule.oneOf ≠ [] → text ∈ rule.oneOf

structure IntegerRule.Meets (rule : IntegerRule) (number : Int64) : Prop where
  min : ∀ min ∈ rule.min, min.toInt ≤ number.toInt
  max : ∀ max ∈ rule.max, number.toInt ≤ max.toInt

/-- The number breaks no limit. -/
structure FloatRule.Meets (rule : FloatRule) (number : Binary64) : Prop where
  min : ∀ min ∈ rule.min, number.lt min = false
  max : ∀ max ∈ rule.max, max.lt number = false

theorem checkLength_ok_iff {minLength maxLength : Option Nat} {length : Nat} :
    checkLength minLength maxLength length = .ok () ↔ WithinLength minLength maxLength length := by
  rw [checkLength, firstError_ok_iff]
  simp only [List.forall_mem_cons, broken_eq_none_iff, decide_eq_false_iff_not, Nat.not_lt]
  constructor
  · rintro ⟨hMin, hMax, -⟩
    exact ⟨hMin, hMax⟩
  · rintro ⟨hMin, hMax⟩
    exact ⟨hMin, hMax, List.forall_mem_nil _⟩

theorem StringRule.check_ok_iff [PatternEngine] {rule : StringRule} {text : String} :
    rule.check text = .ok () ↔ rule.Meets text := by
  have hListed : (if !rule.oneOf.isEmpty && !rule.oneOf.contains text then
      some (CheckError.notAllowed rule.oneOf text) else none) = none ↔ (rule.oneOf ≠ [] → text ∈ rule.oneOf) := by
    simp
  rw [StringRule.check, firstError_ok_iff]
  simp only [List.forall_mem_cons, broken_eq_none_iff, hListed, decide_eq_false_iff_not, Nat.not_lt,
    Bool.not_eq_false']
  constructor
  · rintro ⟨hMin, hMax, hPattern, hOneOf, -⟩
    exact ⟨⟨hMin, hMax⟩, hPattern, hOneOf⟩
  · rintro ⟨⟨hMin, hMax⟩, hPattern, hOneOf⟩
    exact ⟨hMin, hMax, hPattern, hOneOf, List.forall_mem_nil _⟩

theorem IntegerRule.check_ok_iff {rule : IntegerRule} {number : Int64} :
    rule.check number = .ok () ↔ rule.Meets number := by
  rw [IntegerRule.check, firstError_ok_iff]
  simp only [List.forall_mem_cons, broken_eq_none_iff, decide_eq_false_iff_not, Int.not_lt]
  constructor
  · rintro ⟨hMin, hMax, -⟩
    exact ⟨hMin, hMax⟩
  · rintro ⟨hMin, hMax⟩
    exact ⟨hMin, hMax, List.forall_mem_nil _⟩

theorem FloatRule.check_ok_iff {rule : FloatRule} {number : Binary64} :
    rule.check number = .ok () ↔ rule.Meets number := by
  rw [FloatRule.check, firstError_ok_iff]
  simp only [List.forall_mem_cons, broken_eq_none_iff]
  constructor
  · rintro ⟨hMin, hMax, -⟩
    exact ⟨hMin, hMax⟩
  · rintro ⟨hMin, hMax⟩
    exact ⟨hMin, hMax, List.forall_mem_nil _⟩

/-! ## Items -/

theorem checkItems_ok_iff {check : Value → Except CheckError Value} {index : Nat} {items results : List Value} :
    checkItems check index items = .ok results ↔
      List.Forall₂ (fun item result => check item = .ok result) items results := by
  induction items generalizing index results with
  | nil =>
    rw [checkItems, List.forall₂_nil_left_iff]
    constructor
    · rintro ⟨⟩
      rfl
    · rintro rfl
      rfl
  | cons item items ih =>
    rw [checkItems, List.forall₂_cons_left_iff]
    cases hCheck : check item with
    | error reason => simp
    | ok accepted =>
      have hRest := @ih (index + 1)
      cases hItems : checkItems check (index + 1) items with
      | error reason =>
        rw [hItems] at hRest
        simp [Except.map, ← hRest]
      | ok others =>
        rw [hItems] at hRest
        simp [Except.map, ← hRest, eq_comm]

/-! ## Forms -/

namespace Rule

/-- The second value is the form in which a rule accepts the first one. -/
def Accepts [PatternEngine] : Rule → Value → Value → Prop
  | string rule, value, accepted => ∃ text, value = .string text ∧ accepted = .string text ∧ rule.Meets text
  | integer rule, value, accepted =>
    ∃ number, value.asInteger? = some number ∧ accepted = .integer number ∧ rule.Meets number
  | float rule, value, accepted =>
    ∃ number, value.asFloat? = some number ∧ accepted = .float number ∧ rule.Meets number
  | bool, value, accepted => ∃ b, value = .bool b ∧ accepted = .bool b
  | list item minLength maxLength, value, accepted =>
    ∃ items others, value = .list items ∧ accepted = .list others ∧
      WithinLength minLength maxLength items.length ∧ List.Forall₂ item.Accepts items others
  | any, value, accepted => accepted = value

theorem map_form_ok_iff {tests : Except CheckError Unit} {form accepted : Value} :
    (tests.map fun _ => form) = .ok accepted ↔ accepted = form ∧ tests = .ok () := by
  cases tests with
  | error reason => simp [Except.map]
  | ok _ => simp [Except.map, eq_comm]

section Forms

variable [PatternEngine]

theorem checker_check (rule : Rule) : rule.checker.check = rule.check :=
  rfl

theorem check_list_ok_iff {item : Rule} {minLength maxLength : Option Nat} {items : List Value} {result : Value} :
    (list item minLength maxLength).check (.list items) = .ok result ↔
      checkLength minLength maxLength items.length = .ok () ∧
        ∃ results, result = .list results ∧
          List.Forall₂ (fun value accepted => item.check value = .ok accepted) items results := by
  simp only [check, ← @checkItems_ok_iff item.check 0]
  cases checkLength minLength maxLength items.length with
  | error reason => simp
  | ok _ => cases checkItems item.check 0 items <;> simp [Except.map, eq_comm]

theorem check_ok_iff {rule : Rule} {value accepted : Value} :
    rule.check value = .ok accepted ↔ rule.Accepts value accepted := by
  induction rule generalizing value accepted with
  | string rule =>
    cases value with
    | string text => simp [check, Accepts, map_form_ok_iff, StringRule.check_ok_iff]
    | _ => simp [check, Accepts, mismatch]
  | integer rule =>
    cases value with
    | integer number => simp [check, Accepts, Value.asInteger?, map_form_ok_iff, IntegerRule.check_ok_iff]
    | float x =>
      cases hWhole : x.toInt64? <;>
        simp [check, Accepts, Value.asInteger?, hWhole, map_form_ok_iff, IntegerRule.check_ok_iff]
    | _ => simp [check, Accepts, Value.asInteger?, mismatch]
  | float rule =>
    cases value with
    | integer number => simp [check, Accepts, Value.asFloat?, map_form_ok_iff, FloatRule.check_ok_iff]
    | float x => simp [check, Accepts, Value.asFloat?, map_form_ok_iff, FloatRule.check_ok_iff]
    | _ => simp [check, Accepts, Value.asFloat?, mismatch]
  | bool =>
    cases value with
    | bool b => simp [check, Accepts, eq_comm]
    | _ => simp [check, Accepts, mismatch]
  | list item minLength maxLength ih =>
    cases value with
    | list items =>
      rw [check_list_ok_iff, checkLength_ok_iff, Accepts]
      simp only [ih, Value.list.injEq, exists_and_left, exists_eq_left']
      tauto
    | _ => simp [check, Accepts, mismatch]
  | any => simp [check, Accepts, eq_comm]

theorem Accepts.self {rule : Rule} {value accepted : Value} (h : rule.Accepts value accepted) :
    rule.Accepts accepted accepted := by
  induction rule generalizing value accepted with
  | string rule =>
    obtain ⟨text, -, rfl, hMeets⟩ := h
    exact ⟨text, rfl, rfl, hMeets⟩
  | integer rule =>
    obtain ⟨number, -, rfl, hMeets⟩ := h
    exact ⟨number, rfl, rfl, hMeets⟩
  | float rule =>
    obtain ⟨number, -, rfl, hMeets⟩ := h
    exact ⟨number, rfl, rfl, hMeets⟩
  | bool =>
    obtain ⟨b, -, rfl⟩ := h
    exact ⟨b, rfl, rfl⟩
  | list item minLength maxLength ih =>
    obtain ⟨items, others, -, rfl, hLength, hItems⟩ := h
    rw [hItems.length_eq] at hLength
    refine ⟨others, others, rfl, rfl, hLength, ?_⟩
    clear hLength
    induction hItems with
    | nil => exact .nil
    | cons hFirst _ ihRest => exact .cons (ih hFirst) ihRest
  | any => rfl

theorem check_accepted {rule : Rule} {value accepted : Value} (h : rule.check value = .ok accepted) :
    rule.check accepted = .ok accepted :=
  check_ok_iff.mpr (check_ok_iff.mp h).self

/-- A checker accepts what its rule describes, in the form that the rule describes, and nothing else. The form
is accepted as it is. -/
theorem checker_accepts_forms (rule : Rule) (value accepted : Value) :
    (rule.checker.check value = .ok accepted ↔ rule.Accepts value accepted) ∧
      (rule.checker.check value = .ok accepted → rule.checker.check accepted = .ok accepted) :=
  ⟨check_ok_iff, check_accepted⟩

end Forms

/-- Lists of at most two lists of sizes from zero to ten. -/
def sizeTable : Rule :=
  list (list (integer ⟨some 0, some 10⟩) none none) none (some 2)

/-- Addresses, none of them longer than twenty characters. -/
def addresses : Rule :=
  list (string ⟨none, some 20, some "^https?://", []⟩) none none

theorem checker_accepts_forms_table :
    letI := Pattern.engine
    (sizeTable.checker.check (.list [.list [.float (.ofInt 3), .integer 10], .list []]) =
        .ok (.list [.list [.integer 3, .integer 10], .list []]) ∧
      sizeTable.checker.check (.list [.list [.integer 3, .integer 10], .list []]) =
        .ok (.list [.list [.integer 3, .integer 10], .list []])) ∧
    addresses.checker.check (.list [.string "http://here", .string "https://there"]) =
      .ok (.list [.string "http://here", .string "https://there"]) := by
  let _ := Pattern.engine
  have hThree : (Binary64.ofInt 3).toInt64? = some 3 := by decide +kernel
  have hWithin : ∀ number : Int64, 0 ≤ number.toInt → number.toInt ≤ 10 →
      IntegerRule.Meets ⟨some 0, some 10⟩ number := by
    rintro number hMin hMax
    exact ⟨by rintro _ ⟨⟩; exact hMin, by rintro _ ⟨⟩; exact hMax⟩
  have hSizes : sizeTable.Accepts (.list [.list [.float (.ofInt 3), .integer 10], .list []])
      (.list [.list [.integer 3, .integer 10], .list []]) := by
    refine ⟨_, _, rfl, rfl, ⟨by rintro _ ⟨⟩, by rintro _ ⟨⟩; exact Nat.le_refl 2⟩, .cons ?_ (.cons ?_ .nil)⟩
    · refine ⟨_, _, rfl, rfl, ⟨by rintro _ ⟨⟩, by rintro _ ⟨⟩⟩, .cons ?_ (.cons ?_ .nil)⟩
      · exact ⟨3, hThree, rfl, hWithin 3 (by decide) (by decide)⟩
      · exact ⟨10, rfl, rfl, hWithin 10 (by decide) (by decide)⟩
    · exact ⟨_, _, rfl, rfl, ⟨by rintro _ ⟨⟩, by rintro _ ⟨⟩⟩, .nil⟩
  have hMeets : ∀ text : String, text.length ≤ 20 → Pattern.finds "^https?://" text = true →
      StringRule.Meets ⟨none, some 20, some "^https?://", []⟩ text := by
    rintro text hLength hFound
    exact ⟨⟨by rintro _ ⟨⟩, by rintro _ ⟨⟩; exact hLength⟩, by rintro _ ⟨⟩; exact hFound, fun h => absurd rfl h⟩
  have hAddresses : addresses.Accepts (.list [.string "http://here", .string "https://there"])
      (.list [.string "http://here", .string "https://there"]) := by
    refine ⟨_, _, rfl, rfl, ⟨by rintro _ ⟨⟩, by rintro _ ⟨⟩⟩, .cons ?_ (.cons ?_ .nil)⟩
    · exact ⟨_, rfl, rfl, hMeets "http://here" (by decide) (by decide +kernel)⟩
    · exact ⟨_, rfl, rfl, hMeets "https://there" (by decide) (by decide +kernel)⟩
  have hCheck := (checker_accepts_forms sizeTable _ _).1.mpr hSizes
  exact ⟨⟨hCheck, (checker_accepts_forms sizeTable _ _).2 hCheck⟩,
    (checker_accepts_forms addresses _ _).1.mpr hAddresses⟩

end Rule

end DialogTree
