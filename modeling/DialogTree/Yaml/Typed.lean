import DialogTree.Number.Reading
import DialogTree.Rule.OfJson
import DialogTree.Yaml.Node
/-!
# Typed nodes

An unquoted scalar is null, a boolean, a number or a string, by the way it is written. Other scalars are
strings. A tag takes precedence. A leading zero makes a string of a number, and numbers beyond 64 bits are
refused as long as 128 bits hold them.
-/

namespace DialogTree

namespace Yaml

/-! ## Scalars -/

def isNull (text : String) : Bool :=
  ["null", "Null", "NULL", "~"].contains text

def bool? (text : String) : Option Bool :=
  if ["true", "True", "TRUE"].contains text then some true
  else if ["false", "False", "FALSE"].contains text then some false
  else none

def digitValue? (radix : Nat) (c : Char) : Option Nat :=
  (hexValue? [c]).filter (· < radix)

def digitsValue? (radix : Nat) (digits : List Char) : Option Nat :=
  if digits.isEmpty then none
  else digits.foldlM (fun n c => (digitValue? radix c).map (radix * n + ·)) 0

/-- A number without a sign, in one of four radices. -/
def magnitude? : List Char → Option Nat
  | '0' :: 'x' :: digits => digitsValue? 16 digits
  | '0' :: 'o' :: digits => digitsValue? 8 digits
  | '0' :: 'b' :: digits => digitsValue? 2 digits
  | digits => digitsValue? 10 digits

def dropSign : List Char → List Char
  | '+' :: rest => rest
  | '-' :: rest => rest
  | text => text

/-- Decimal digits behind a leading zero, which are no number. -/
def isPadded (text : List Char) : Bool :=
  match dropSign text with
  | '0' :: rest => !rest.isEmpty && rest.all Char.isDigit
  | _ => false

def natural? (text : List Char) : Option Nat :=
  if isPadded text then none
  else
    match text with
    | '+' :: rest => magnitude? rest
    | '-' :: _ => none
    | _ => magnitude? text

/-- A whole number of any size. -/
def integer? (text : List Char) : Option Int :=
  match text with
  | '-' :: rest => if isPadded text then none else (magnitude? rest).map fun n => -n
  | _ => (natural? text).map Int.ofNat

/-- A number with a fraction or an exponent, or one of the words for infinities and for no number. -/
def float? (text : List Char) : Option Binary64 :=
  match String.ofList text with
  | ".nan" => some .nan
  | ".NaN" => some .nan
  | ".NAN" => some .nan
  | "-.inf" => some (.infinity true)
  | "-.Inf" => some (.infinity true)
  | "-.INF" => some (.infinity true)
  | _ =>
    let body := if text.head? == some '+' then text.drop 1 else text
    if text.head? == some '+' && (body.head? == some '+' || body.head? == some '-') then none
    else if [".inf", ".Inf", ".INF"].contains (String.ofList body) then some (.infinity false)
    else (Binary64.read? body).filter Binary64.isFinite

/-- How a whole number is kept. -/
inductive Width where
  | word
  /-- Too large for 64 bits, but not for 128. -/
  | double
  | beyond
deriving DecidableEq

def width (n : Int) : Width :=
  if -2 ^ 63 ≤ n ∧ n < 2 ^ 64 then .word
  else if -2 ^ 127 ≤ n ∧ n < 2 ^ 128 then .double
  else .beyond

/-- A whole number of 64 bits; a wider one of 128 bits is refused. -/
inductive IntegerReading where
  | value (n : Int)
  | refused
  | no

def readInteger (text : String) : IntegerReading :=
  match integer? text.toList with
  | none => .no
  | some n =>
    match width n with
    | .word => .value n
    | .double => .refused
    | .beyond => .no

def plainValue? (text : String) : Option Json.Value :=
  if text = "" || isNull text then some .null
  else
    match bool? text with
    | some b => some (.bool b)
    | none =>
      match readInteger text with
      | .value n => some (.integer n)
      | .refused => none
      | .no =>
        if isPadded text.toList then some (.string text)
        else
          match float? text.toList with
          | some x => some (.float x)
          | none => some (.string text)

/-- A tag of the application's own, which no value has. -/
def isLocalTag (tag : String) : Bool :=
  tag.toList.head? == some '!'

def taggedValue? (tag text : String) : Option Json.Value :=
  match tag with
  | "tag:yaml.org,2002:bool" => (bool? text).map .bool
  | "tag:yaml.org,2002:int" =>
    match readInteger text with
    | .value n => some (.integer n)
    | _ => none
  | "tag:yaml.org,2002:float" => (float? text.toList).map .float
  | "tag:yaml.org,2002:null" => if isNull text then some .null else none
  | _ => if isLocalTag tag then none else some (.string text)

def scalarValue? (tag : Option String) (style : ScalarStyle) (text : String) : Option Json.Value :=
  match tag with
  | some tag => taggedValue? tag text
  | none => if style = .plain then plainValue? text else some (.string text)

/-! ## Records -/

def ruleKind? (entries : List (Json.Value × Json.Value)) : Option String :=
  match entries.find? fun entry => entry.1 matches .string "type" with
  | some (_, .string kind) => some kind
  | some (_, .integer n) => if 0 ≤ n then Rule.kinds[n.toNat]? else none
  | _ => none

/-- The field that a key names: by its name, or by its number among the fields. An unknown number names no
field, and other keys are refused. -/
def fieldName? (fields : List String) : Json.Value → Option (Option String)
  | .string name => some (some name)
  | .integer n => if 0 ≤ n then some fields[n.toNat]? else none
  | _ => none

/-- A mapping as an object. When a key names no field, nothing is left of a record with fields. -/
def recordOf (entries : List (Json.Value × Json.Value)) : Json.Value :=
  let fields := ((ruleKind? entries).map Rule.fieldsOfKind).getD []
  let named := entries.map fun entry => (fieldName? fields entry.1, entry.2)
  if !fields.isEmpty && named.any fun entry => entry.1.isNone then .object []
  else .object (named.filterMap fun entry => (entry.1.bind id).map (·, entry.2))

namespace Node

mutual

def value? : Node → Option Json.Value
  | scalar tag style text => scalarValue? tag style text
  | sequence tag items =>
    if tag.any isLocalTag then none else (itemValues? items).map .array
  | mapping tag entries =>
    if tag.any isLocalTag then none else (entryValues? entries).map recordOf
  | cycle => none

def itemValues? : List Node → Option (List Json.Value)
  | [] => some []
  | item :: rest => do
    let value ← item.value?
    return value :: (← itemValues? rest)

def entryValues? : List (Node × Node) → Option (List (Json.Value × Json.Value))
  | [] => some []
  | (key, value) :: rest => do
    let key ← key.value?
    let value ← value.value?
    return (key, value) :: (← entryValues? rest)

end

end Node

end Yaml

end DialogTree
