import DialogTree.Rule.Basic
import DialogTree.Value
/-!
# Checking values

A check gives the accepted value or the first reason to refuse it. An integral float is accepted as an
integer where a rule asks for one, and an integer as a float.
-/

namespace DialogTree

inductive Number where
  | integer (number : Int64)
  | float (number : Binary64)
deriving DecidableEq

def Number.text : Number → String
  | integer number => toString number.toInt
  | float number => FloatStyle.plain.text number

inductive CheckError where
  | typeMismatch (expected found : String)
  | fractionalInteger (number : Binary64)
  | tooShort (min length : Nat)
  | tooLong (max length : Nat)
  | belowMinimum (min found : Number)
  | aboveMaximum (max found : Number)
  | patternMismatch (pattern : String)
  | notAllowed (allowed : List String) (found : String)
  | tooFewItems (min length : Nat)
  | tooManyItems (max length : Nat)
  | item (index : Nat) (reason : CheckError)
  /-- A caller's own wording. -/
  | custom (message : String)
deriving DecidableEq

/-- The reason as a predicate on the attribute. -/
def CheckError.message : CheckError → String
  | typeMismatch expected found => "must be " ++ expected ++ ", found " ++ found
  | fractionalInteger number =>
    "must be an integer, found fractional number " ++ FloatStyle.plain.text number
  | tooShort min length =>
    "must be at least " ++ toString min ++ " characters long, found " ++ toString length
  | tooLong max length =>
    "must be at most " ++ toString max ++ " characters long, found " ++ toString length
  | belowMinimum min found => "must be >= " ++ min.text ++ ", found " ++ found.text
  | aboveMaximum max found => "must be <= " ++ max.text ++ ", found " ++ found.text
  | patternMismatch pattern => "must match pattern '" ++ pattern ++ "'"
  | notAllowed allowed found =>
    "must be one of [" ++ ", ".intercalate allowed ++ "], found '" ++ found ++ "'"
  | tooFewItems min length =>
    "must contain at least " ++ toString min ++ " items, found " ++ toString length
  | tooManyItems max length =>
    "must contain at most " ++ toString max ++ " items, found " ++ toString length
  | item index reason => "item " ++ toString index ++ " " ++ reason.message
  | custom message => message

/-- The error of the first test that fails. -/
def firstError (tests : List (Option CheckError)) : Except CheckError Unit :=
  match tests.findSome? id with
  | some error => .error error
  | none => .ok ()

def broken {α : Type} (limit? : Option α) (breaks : α → Bool) (error : α → CheckError) :
    Option CheckError :=
  limit?.bind fun limit => if breaks limit then some (error limit) else none

def StringRule.check [PatternEngine] (rule : StringRule) (text : String) : Except CheckError Unit :=
  let length := text.length
  firstError [
    broken rule.minLength (fun min => length < min) (.tooShort · length),
    broken rule.maxLength (fun max => max < length) (.tooLong · length),
    broken rule.pattern (fun pattern => !PatternEngine.finds pattern text) .patternMismatch,
    if !rule.oneOf.isEmpty && !rule.oneOf.contains text then some (.notAllowed rule.oneOf text)
    else none]

def IntegerRule.check (rule : IntegerRule) (number : Int64) : Except CheckError Unit :=
  firstError [
    broken rule.min (fun min => number.toInt < min.toInt)
      (fun min => .belowMinimum (.integer min) (.integer number)),
    broken rule.max (fun max => max.toInt < number.toInt)
      (fun max => .aboveMaximum (.integer max) (.integer number))]

/-- A float that is not comparable breaks no limit. -/
def FloatRule.check (rule : FloatRule) (number : Binary64) : Except CheckError Unit :=
  firstError [
    broken rule.min (fun min => number.lt min)
      (fun min => .belowMinimum (.float min) (.float number)),
    broken rule.max (fun max => max.lt number)
      (fun max => .aboveMaximum (.float max) (.float number))]

def checkLength (minLength maxLength : Option Nat) (length : Nat) : Except CheckError Unit :=
  firstError [
    broken minLength (fun min => length < min) (.tooFewItems · length),
    broken maxLength (fun max => max < length) (.tooManyItems · length)]

/-- The accepted items, or the error of the first refused one with its index. -/
def checkItems (check : Value → Except CheckError Value) :
    Nat → List Value → Except CheckError (List Value)
  | _, [] => .ok []
  | index, item :: rest =>
    match check item with
    | .error reason => .error (.item index reason)
    | .ok accepted => (checkItems check (index + 1) rest).map (accepted :: ·)

namespace Rule

def mismatch (expected : String) (found : Value) : Except CheckError Value :=
  .error (.typeMismatch expected found.kindName)

def check [PatternEngine] : Rule → Value → Except CheckError Value
  | string rule, value =>
    match value with
    | .string text => (rule.check text).map fun _ => .string text
    | other => mismatch "a string" other
  | integer rule, value =>
    match value with
    | .integer number => (rule.check number).map fun _ => .integer number
    | .float x =>
      match x.toInt64? with
      | some number => (rule.check number).map fun _ => .integer number
      | none => .error (.fractionalInteger x)
    | other => mismatch "an integer" other
  | float rule, value =>
    match value with
    | .float number => (rule.check number).map fun _ => .float number
    | .integer number =>
      let x := Binary64.ofInt number.toInt
      (rule.check x).map fun _ => .float x
    | other => mismatch "a number" other
  | bool, value =>
    match value with
    | .bool b => .ok (.bool b)
    | other => mismatch "a bool" other
  | list item minLength maxLength, value =>
    match value with
    | .list items =>
      match checkLength minLength maxLength items.length with
      | .error error => .error error
      | .ok () => (checkItems item.check 0 items).map .list
    | other => mismatch "a list" other
  | any, value => .ok value

/-- The first pattern of a rule that is no pattern. -/
def invalidPattern? [PatternEngine] : Rule → Option String
  | string rule => rule.pattern.filter fun pattern => !PatternEngine.isValid pattern
  | list item _ _ => item.invalidPattern?
  | _ => none

end Rule

structure Checker where
  label : String
  check : Value → Except CheckError Value

def Rule.checker [PatternEngine] (rule : Rule) : Checker := ⟨rule.label, rule.check⟩

end DialogTree
