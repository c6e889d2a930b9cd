import DialogTree.Proofs.Number.Whole
import DialogTree.Proofs.Rules.Forms

/-!
# Reasons for refusals

For each kind of rule, the values that it refuses and the reason that it gives. Limits are tested in a fixed order,
and the reason is that of the first test that fails. An item of a list is refused for the reason that the rule of the
items gives, and every item in front of it is accepted.
-/

namespace DialogTree

/-! ## Limits -/

theorem firstError_cons_error_iff {test : Option CheckError} {tests : List (Option CheckError)} {reason : CheckError} :
    firstError (test :: tests) = .error reason ↔
      test = some reason ∨ test = none ∧ firstError tests = .error reason := by
  cases test with
  | none => simp [firstError]
  | some error => simp [firstError]

theorem firstError_nil_ne (reason : CheckError) : firstError [] ≠ .error reason := by
  rintro ⟨⟩

theorem broken_eq_some_iff {α : Type} {limit? : Option α} {breaks : α → Bool} {error : α → CheckError}
    {reason : CheckError} :
    broken limit? breaks error = some reason ↔ ∃ limit ∈ limit?, breaks limit = true ∧ error limit = reason := by
  cases limit? <;> simp [broken]

/-- The number is below its lower limit or, when it is not, above its upper one, and this is the reason. -/
inductive Outside {α : Type} (less : α → α → Bool) (below above : α → CheckError) (min max : Option α) (n : α) :
    CheckError → Prop where
  | below {limit : α} (hLimit : limit ∈ min) (hBelow : less n limit = true) :
      Outside less below above min max n (below limit)
  | above {limit : α} (hMin : ∀ limit ∈ min, less n limit = false) (hLimit : limit ∈ max)
      (hAbove : less limit n = true) : Outside less below above min max n (above limit)

section Limits

variable {α : Type} {less : α → α → Bool} {below above : α → CheckError} {min max : Option α} {n : α}

theorem firstError_limits_iff {tests : List (Option CheckError)} {reason : CheckError} :
    firstError (broken min (less n ·) below :: broken max (less · n) above :: tests) = .error reason ↔
      Outside less below above min max n reason ∨
        (∀ limit ∈ min, less n limit = false) ∧ (∀ limit ∈ max, less limit n = false) ∧
          firstError tests = .error reason := by
  rw [firstError_cons_error_iff, firstError_cons_error_iff, broken_eq_some_iff, broken_eq_none_iff,
    broken_eq_some_iff, broken_eq_none_iff]
  constructor
  · rintro (⟨limit, hLimit, hBelow, rfl⟩ | ⟨hMin, ⟨limit, hLimit, hAbove, rfl⟩ | hTests⟩)
    · exact .inl (.below hLimit hBelow)
    · exact .inl (.above hMin hLimit hAbove)
    · exact .inr ⟨hMin, hTests⟩
  · rintro (hOutside | ⟨hMin, hTests⟩)
    · cases hOutside with
      | below hLimit hBelow => exact .inl ⟨_, hLimit, hBelow, rfl⟩
      | above hMin hLimit hAbove => exact .inr ⟨hMin, .inl ⟨_, hLimit, hAbove, rfl⟩⟩
    · exact .inr ⟨hMin, .inr hTests⟩

theorem firstError_two_limits_iff {reason : CheckError} :
    firstError [broken min (less n ·) below, broken max (less · n) above] = .error reason ↔
      Outside less below above min max n reason := by
  simp [firstError_limits_iff, firstError_nil_ne]

end Limits

/-! ## Rules without parts -/

def shorter (a b : Nat) : Bool := a < b

theorem withinLength_iff {minLength maxLength : Option Nat} {length : Nat} :
    WithinLength minLength maxLength length ↔
      (∀ min ∈ minLength, shorter length min = false) ∧ ∀ max ∈ maxLength, shorter max length = false := by
  simp only [shorter, decide_eq_false_iff_not, Nat.not_lt]
  exact ⟨fun h => ⟨h.min, h.max⟩, fun h => ⟨h.1, h.2⟩⟩

/-- The length is tested first, then the pattern, then the listed texts. -/
inductive StringRule.Refuses [PatternEngine] (rule : StringRule) (text : String) : CheckError → Prop where
  | length {reason : CheckError}
      (hLength : Outside shorter (.tooShort · text.length) (.tooLong · text.length) rule.minLength rule.maxLength
        text.length reason) : Refuses rule text reason
  | pattern {pattern : String} (hLength : WithinLength rule.minLength rule.maxLength text.length)
      (hPattern : pattern ∈ rule.pattern) (hNone : PatternEngine.finds pattern text = false) :
      Refuses rule text (.patternMismatch pattern)
  | other (hLength : WithinLength rule.minLength rule.maxLength text.length)
      (hPattern : ∀ pattern ∈ rule.pattern, PatternEngine.finds pattern text = true) (hListed : rule.oneOf ≠ [])
      (hOther : text ∉ rule.oneOf) : Refuses rule text (.notAllowed rule.oneOf text)

theorem StringRule.check_error_iff [PatternEngine] {rule : StringRule} {text : String} {reason : CheckError} :
    rule.check text = .error reason ↔ rule.Refuses text reason := by
  have hListed : (if !rule.oneOf.isEmpty && !rule.oneOf.contains text then
      some (CheckError.notAllowed rule.oneOf text) else none) = some reason ↔
        rule.oneOf ≠ [] ∧ text ∉ rule.oneOf ∧ CheckError.notAllowed rule.oneOf text = reason := by
    simp [and_assoc]
  rw [StringRule.check]
  change firstError (broken _ (shorter text.length ·) _ :: broken _ (shorter · text.length) _ :: _) = _ ↔ _
  rw [firstError_limits_iff, ← and_assoc, ← withinLength_iff, firstError_cons_error_iff, firstError_cons_error_iff,
    broken_eq_some_iff, broken_eq_none_iff, hListed]
  simp only [firstError_nil_ne, and_false, or_false, Bool.not_eq_true', Bool.not_eq_false']
  constructor
  · rintro (hLength | ⟨hLength, ⟨pattern, hPattern, hNone, rfl⟩ | ⟨hPattern, hSome, hOther, rfl⟩⟩)
    · exact .length hLength
    · exact .pattern hLength hPattern hNone
    · exact .other hLength hPattern hSome hOther
  · intro h
    cases h with
    | length hLength => exact .inl hLength
    | pattern hLength hPattern hNone => exact .inr ⟨hLength, .inl ⟨_, hPattern, hNone, rfl⟩⟩
    | other hLength hPattern hSome hOther => exact .inr ⟨hLength, .inr ⟨hPattern, hSome, hOther, rfl⟩⟩

def Int64.isLess (a b : Int64) : Bool := a.toInt < b.toInt

def IntegerRule.Refuses (rule : IntegerRule) (number : Int64) : CheckError → Prop :=
  Outside Int64.isLess (fun min => .belowMinimum (.integer min) (.integer number))
    (fun max => .aboveMaximum (.integer max) (.integer number)) rule.min rule.max number

theorem IntegerRule.check_error_iff {rule : IntegerRule} {number : Int64} {reason : CheckError} :
    rule.check number = .error reason ↔ rule.Refuses number reason := by
  rw [Refuses, ← firstError_two_limits_iff]
  rfl

def FloatRule.Refuses (rule : FloatRule) (number : Binary64) : CheckError → Prop :=
  Outside Binary64.lt (fun min => .belowMinimum (.float min) (.float number))
    (fun max => .aboveMaximum (.float max) (.float number)) rule.min rule.max number

theorem FloatRule.check_error_iff {rule : FloatRule} {number : Binary64} {reason : CheckError} :
    rule.check number = .error reason ↔ rule.Refuses number reason :=
  firstError_two_limits_iff

/-! ## Items -/

theorem checkItems_error_iff {check : Value → Except CheckError Value} {index : Nat} {items : List Value}
    {reason : CheckError} :
    checkItems check index items = .error reason ↔
      ∃ before item after results cause, items = before ++ item :: after ∧
        List.Forall₂ (fun value result => check value = .ok result) before results ∧
          check item = .error cause ∧ reason = .item (index + before.length) cause := by
  induction items generalizing index with
  | nil => simp [checkItems]
  | cons first items ih =>
    rw [checkItems]
    cases hFirst : check first with
    | error cause =>
      constructor
      · rintro ⟨⟩
        exact ⟨[], first, items, [], cause, rfl, .nil, hFirst, rfl⟩
      · rintro ⟨before, item, after, results, cause', hItems, hBefore, hItem, rfl⟩
        cases before with
        | nil =>
          obtain ⟨rfl, rfl⟩ := List.cons.inj hItems
          obtain rfl := Except.error.inj (hFirst.symm.trans hItem)
          rfl
        | cons other before =>
          obtain ⟨rfl, rfl⟩ := List.cons.inj hItems
          cases hBefore with
          | cons hOther => cases hFirst.symm.trans hOther
    | ok accepted =>
      have hRest : (checkItems check (index + 1) items).map (accepted :: ·) = .error reason ↔
          checkItems check (index + 1) items = .error reason := by
        cases checkItems check (index + 1) items <;> simp [Except.map]
      simp only [hRest, ih]
      constructor
      · rintro ⟨before, item, after, results, cause, rfl, hBefore, hItem, rfl⟩
        refine ⟨first :: before, item, after, accepted :: results, cause, rfl, .cons hFirst hBefore, hItem, ?_⟩
        rw [List.length_cons, Nat.add_right_comm, Nat.add_assoc]
      · rintro ⟨before, item, after, results, cause, hItems, hBefore, hItem, rfl⟩
        cases hBefore with
        | nil =>
          obtain ⟨rfl, rfl⟩ := List.cons.inj hItems
          cases hFirst.symm.trans hItem
        | cons hOther hBefore =>
          obtain ⟨rfl, rfl⟩ := List.cons.inj hItems
          refine ⟨_, item, after, _, cause, rfl, hBefore, hItem, ?_⟩
          rw [List.length_cons, Nat.add_right_comm, Nat.add_assoc]

/-! ## Values -/

namespace Rule

/-- The kinds of the values that a rule does not refuse for their kind alone. -/
def takes : Rule → List String
  | string _ => ["string"]
  | integer _ => ["integer", "float"]
  | float _ => ["integer", "float"]
  | bool => ["bool"]
  | list _ _ _ => ["list"]
  | any => ["string", "bool", "integer", "float", "list"]

def noun : Rule → String
  | string _ => "a string"
  | integer _ => "an integer"
  | float _ => "a number"
  | bool => "a bool"
  | list _ _ _ => "a list"
  | any => "a value"

inductive Refuses [PatternEngine] : Rule → Value → CheckError → Prop where
  | kind {rule : Rule} {value : Value} (hKind : value.kindName ∉ rule.takes) :
      Refuses rule value (.typeMismatch rule.noun value.kindName)
  | string {rule : StringRule} {text : String} {reason : CheckError} (hText : rule.Refuses text reason) :
      Refuses (.string rule) (.string text) reason
  | noInteger {rule : IntegerRule} {x : Binary64} (hNumber : x.NotInt64) :
      Refuses (.integer rule) (.float x) (.fractionalInteger x)
  | integer {rule : IntegerRule} {value : Value} {number : Int64} {reason : CheckError}
      (hValue : value.asInteger? = some number) (hNumber : rule.Refuses number reason) :
      Refuses (.integer rule) value reason
  | float {rule : FloatRule} {value : Value} {number : Binary64} {reason : CheckError}
      (hValue : value.asFloat? = some number) (hNumber : rule.Refuses number reason) :
      Refuses (.float rule) value reason
  | length {item : Rule} {minLength maxLength : Option Nat} {items : List Value} {reason : CheckError}
      (hLength : Outside shorter (.tooFewItems · items.length) (.tooManyItems · items.length) minLength maxLength
        items.length reason) : Refuses (.list item minLength maxLength) (.list items) reason
  | item {item : Rule} {minLength maxLength : Option Nat} {before after accepted : List Value} {value : Value}
      {reason : CheckError} (hLength : WithinLength minLength maxLength (before ++ value :: after).length)
      (hBefore : List.Forall₂ item.Accepts before accepted) (hItem : item.Refuses value reason) :
      Refuses (.list item minLength maxLength) (.list (before ++ value :: after)) (.item before.length reason)

theorem map_form_error_iff {tests : Except CheckError Unit} {form : Value} {reason : CheckError} :
    (tests.map fun _ => form) = .error reason ↔ tests = .error reason := by
  cases tests <;> simp [Except.map]

theorem check_of_kind [PatternEngine] {rule : Rule} {value : Value} (hKind : value.kindName ∉ rule.takes) :
    rule.check value = mismatch rule.noun value := by
  cases rule <;> cases value <;> first | rfl | simp [takes, Value.kindName] at hKind

theorem check_list_error_iff [PatternEngine] {item : Rule} {minLength maxLength : Option Nat} {items : List Value}
    {reason : CheckError} :
    (list item minLength maxLength).check (.list items) = .error reason ↔
      checkLength minLength maxLength items.length = .error reason ∨
        checkLength minLength maxLength items.length = .ok () ∧ checkItems item.check 0 items = .error reason := by
  rw [check]
  cases checkLength minLength maxLength items.length with
  | error other => simp
  | ok _ => cases checkItems item.check 0 items <;> simp [Except.map]

theorem checkLength_error_iff {minLength maxLength : Option Nat} {length : Nat} {reason : CheckError} :
    checkLength minLength maxLength length = .error reason ↔
      Outside shorter (.tooFewItems · length) (.tooManyItems · length) minLength maxLength length reason := by
  rw [← firstError_two_limits_iff]
  rfl

theorem Refuses.check [PatternEngine] {rule : Rule} {value : Value} {reason : CheckError}
    (h : rule.Refuses value reason) : rule.check value = .error reason := by
  induction h with
  | kind hKind => exact check_of_kind hKind
  | string hText =>
    rw [Rule.check, map_form_error_iff]
    exact StringRule.check_error_iff.mpr hText
  | noInteger hNumber =>
    rw [Rule.check]
    simp only [Binary64.toInt64?_eq_none_iff.mpr hNumber]
  | @integer rule value number reason hValue hNumber =>
    have hCheck := IntegerRule.check_error_iff.mpr hNumber
    cases value with
    | integer other =>
      obtain rfl := Option.some.inj hValue
      rw [Rule.check, map_form_error_iff]
      exact hCheck
    | float x =>
      have hWhole : x.toInt64? = some number := hValue
      simp only [Rule.check, hWhole, map_form_error_iff]
      exact hCheck
    | _ => cases hValue
  | @float rule value number reason hValue hNumber =>
    have hCheck := FloatRule.check_error_iff.mpr hNumber
    cases value with
    | integer other =>
      obtain rfl := Option.some.inj hValue
      rw [Rule.check, map_form_error_iff]
      exact hCheck
    | float x =>
      obtain rfl := Option.some.inj hValue
      rw [Rule.check, map_form_error_iff]
      exact hCheck
    | _ => cases hValue
  | length hLength => exact check_list_error_iff.mpr (.inl (checkLength_error_iff.mpr hLength))
  | @item item minLength maxLength before after accepted value reason hLength hBefore _ ih =>
    refine check_list_error_iff.mpr (.inr ⟨checkLength_ok_iff.mpr hLength, ?_⟩)
    refine checkItems_error_iff.mpr ⟨before, value, after, accepted, reason, rfl, ?_, ih, ?_⟩
    · exact hBefore.imp fun _ _ => check_ok_iff.mpr
    · rw [Nat.zero_add]

theorem refuses_of_kind [PatternEngine] {rule : Rule} {value : Value} {reason : CheckError}
    (h : rule.check value = .error reason) (hKind : value.kindName ∉ rule.takes) : rule.Refuses value reason := by
  rw [check_of_kind hKind] at h
  obtain rfl := Except.error.inj h
  exact .kind hKind

theorem refuses_of_check [PatternEngine] {rule : Rule} {value : Value} {reason : CheckError}
    (h : rule.check value = .error reason) : rule.Refuses value reason := by
  induction rule generalizing value reason with
  | string rule =>
    cases value with
    | string text => exact .string (StringRule.check_error_iff.mp (map_form_error_iff.mp h))
    | _ => exact refuses_of_kind h (by simp [takes, Value.kindName])
  | integer rule =>
    cases value with
    | integer number => exact .integer rfl (IntegerRule.check_error_iff.mp (map_form_error_iff.mp h))
    | float x =>
      rw [check] at h
      cases hWhole : x.toInt64? with
      | none =>
        simp only [hWhole] at h
        obtain rfl := Except.error.inj h
        exact .noInteger (Binary64.toInt64?_eq_none_iff.mp hWhole)
      | some number =>
        simp only [hWhole] at h
        exact .integer hWhole (IntegerRule.check_error_iff.mp (map_form_error_iff.mp h))
    | _ => exact refuses_of_kind h (by simp [takes, Value.kindName])
  | float rule =>
    cases value with
    | integer number => exact .float rfl (FloatRule.check_error_iff.mp (map_form_error_iff.mp h))
    | float x => exact .float rfl (FloatRule.check_error_iff.mp (map_form_error_iff.mp h))
    | _ => exact refuses_of_kind h (by simp [takes, Value.kindName])
  | bool =>
    cases value with
    | bool b => cases h
    | _ => exact refuses_of_kind h (by simp [takes, Value.kindName])
  | list item minLength maxLength ih =>
    cases value with
    | list items =>
      rcases check_list_error_iff.mp h with hLength | ⟨hLength, hItems⟩
      · exact .length (checkLength_error_iff.mp hLength)
      · obtain ⟨before, value, after, accepted, cause, rfl, hBefore, hItem, rfl⟩ := checkItems_error_iff.mp hItems
        rw [Nat.zero_add]
        exact .item (checkLength_ok_iff.mp hLength) (hBefore.imp fun _ _ => check_ok_iff.mp) (ih hItem)
    | _ => exact refuses_of_kind h (by simp [takes, Value.kindName])
  | any => cases h

end Rule

/-- A checker refuses a value for the reason that the rule describes, and for no other one. -/
theorem checker_refuses_for_reason [PatternEngine] (rule : Rule) (value : Value) (reason : CheckError) :
    rule.checker.check value = .error reason ↔ rule.Refuses value reason :=
  ⟨Rule.refuses_of_check, Rule.Refuses.check⟩

/-- The float 2^63 is refused as a fractional number and has no fractional part. -/
theorem whole_refused_as_fractional :
    letI := Pattern.engine
    (Rule.integer .any).checker.check (.float (.ofInt (2 ^ 63))) = .error (.fractionalInteger (.ofInt (2 ^ 63))) ∧
      (Binary64.ofInt (2 ^ 63)).rational? = some ((2 ^ 63 : Int) : ℚ) := by
  let _ := Pattern.engine
  have hExact : (Binary64.ofInt (2 ^ 63)).rational? = some ((2 ^ 63 : Int) : ℚ) :=
    (Binary64.rational?_eq_int_iff (by decide +kernel)).mpr (by decide +kernel)
  have hNumber : (Binary64.ofInt (2 ^ 63)).NotInt64 := .beyond hExact (.inr (by decide))
  rw [Rule.checker_check]
  exact ⟨(Rule.Refuses.noInteger hNumber).check, hExact⟩

end DialogTree
