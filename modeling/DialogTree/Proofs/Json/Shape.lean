import DialogTree.Json.Document
import DialogTree.Proofs.Structure

/-!
# The shape of a JSON document

A document is accepted exactly when it has the documented shape. It then gives a tree of the commands that it
holds, with their attributes, in order: whatever is left out of the tree is reported.
-/

namespace DialogTree

namespace Json

/-! ## The shape -/

def valuesOf (key : String) (entries : List (String × Value)) : List Value :=
  (entries.filter (·.1 = key)).map Prod.snd

/-- The entries of a command beside its keyword and its children. -/
def writtenOf (entries : List (String × Value)) : List (String × Value) :=
  entries.filter fun entry => entry.1 ≠ keywordKey ∧ entry.1 ≠ childrenKey

/-- The entries of a command that are attributes. -/
def attributesOf (entries : List (String × Value)) : List (String × Value) :=
  entries.filter fun entry => entry.1 ∉ structuralKeys

/-- A value without null and without an object, at any depth. -/
inductive IsLiteral : Value → Prop where
  | bool (value : Bool) : IsLiteral (.bool value)
  | integer (number : Int) : IsLiteral (.integer number)
  | float (number : Binary64) : IsLiteral (.float number)
  | string (text : String) : IsLiteral (.string text)
  | array {items : List Value} (hItems : ∀ item ∈ items, IsLiteral item) : IsLiteral (.array items)

/-- An entry that is a command: its own entries are one keyword, at most one object of further commands, and
attributes of distinct keys. -/
inductive IsCommand : String × Value → Prop where
  | intro {name keyword : String} {entries : List (String × Value)} (hName : IsName name)
      (hKeyword : valuesOf keywordKey entries = [.string keyword]) (hWord : isIdentifier keyword = true)
      (hOnce : (valuesOf childrenKey entries).length ≤ 1)
      (hBody : ∀ value ∈ valuesOf childrenKey entries, ∃ children, value = .object children ∧ children ≠ [])
      (hDistinct : ∀ children, .object children ∈ valuesOf childrenKey entries → (children.map Prod.fst).Nodup)
      (hBelow : ∀ children, .object children ∈ valuesOf childrenKey entries → ∀ entry ∈ children, IsCommand entry)
      (hKeys : ((writtenOf entries).map Prod.fst).Nodup)
      (hFree : ∀ entry ∈ writtenOf entries, isIdentifier entry.1 = true ∧ entry.1 ≠ nameKey)
      (hType : ∀ value ∈ valuesOf typeKey entries, ∃ text, value = .string text)
      (hValues : ∀ entry ∈ writtenOf entries, IsLiteral entry.2) :
      IsCommand (name, .object entries)

/-- The top-level entries that do not give the version. -/
def commandEntries (entries : List (String × Value)) : List (String × Value) :=
  entries.filter fun entry => !isVersionEntry entry.1 entry.2

/-- Wherever the version is given, it is the supported one. -/
def VersionSupported (entries : List (String × Value)) : Prop :=
  ∀ entry ∈ entries, isVersionEntry entry.1 entry.2 = true → entry.2 = .integer supportedVersion

/-- A document: the version is supported and the other entries are commands. -/
inductive IsDocument : Value → Prop where
  | intro {entries : List (String × Value)} (hVersion : VersionSupported entries)
      (hSome : commandEntries entries ≠ []) (hDistinct : ((commandEntries entries).map Prod.fst).Nodup)
      (hEach : ∀ entry ∈ commandEntries entries, IsCommand entry) :
      IsDocument (.object entries)

/-! ## What a document holds -/

/-- The same value in JSON and in a tree. Whole numbers beyond the signed 64-bit range are rounded. -/
inductive Denotes : Value → DialogTree.Value → Prop where
  | bool (value : Bool) : Denotes (.bool value) (.bool value)
  | integer {number : Int} {value : Int64} (hExact : value.toInt = number) : Denotes (.integer number) (.integer value)
  | rounded {number : Int} (hBeyond : ∀ value : Int64, value.toInt ≠ number) :
      Denotes (.integer number) (.float (Binary64.ofInt number))
  | float (number : Binary64) : Denotes (.float number) (.float number)
  | string (text : String) : Denotes (.string text) (.string text)
  | array {items : List Value} {values : List DialogTree.Value} (hItems : List.Forall₂ Denotes items values) :
      Denotes (.array items) (.list values)

structure HeaderGiven (entries : List (String × Value)) (kind : Option String) (attributes : AttributeMap) : Prop where
  kind : valuesOf typeKey entries = kind.toList.map Value.string
  attributes : List.Forall₂ (fun entry pair => entry.1 = pair.1 ∧ Denotes entry.2 pair.2) (attributesOf entries)
    attributes.entries

inductive Gives : String × Value → String × Node → Prop where
  | bare {name keyword : String} {entries : List (String × Value)} {kind : Option String} {attributes : AttributeMap}
      (hKeyword : valuesOf keywordKey entries = [.string keyword]) (hHeader : HeaderGiven entries kind attributes)
      (hBare : valuesOf childrenKey entries = []) :
      Gives (name, .object entries) (name, ⟨keyword, kind, attributes, none, none⟩)
  | body {name keyword : String} {entries children : List (String × Value)} {kind : Option String}
      {attributes : AttributeMap} {nodes : List (String × Node)}
      (hKeyword : valuesOf keywordKey entries = [.string keyword]) (hHeader : HeaderGiven entries kind attributes)
      (hBody : valuesOf childrenKey entries = [.object children]) (hBelow : List.Forall₂ Gives children nodes) :
      Gives (name, .object entries) (name, ⟨keyword, kind, attributes, some ⟨nodes⟩, none⟩)

inductive DocumentGives : Value → Tree → Prop where
  | intro {entries : List (String × Value)} {nodes : List (String × Node)}
      (hCommands : List.Forall₂ Gives (commandEntries entries) nodes) : DocumentGives (.object entries) ⟨nodes⟩

/-! ## Values -/

theorem exists_toInt_iff {number : Int} : (∃ value : Int64, value.toInt = number) ↔ Value.isInt64 number = true := by
  simp only [Value.isInt64, Bool.and_eq_true, decide_eq_true_eq]
  constructor
  · rintro ⟨value, rfl⟩
    exact ⟨value.le_toInt, value.toInt_lt⟩
  · intro h
    exact ⟨Int64.ofInt number, Int64.toInt_ofInt_of_le h.1 h.2⟩

/-- A whole number is kept in the signed 64-bit range and rounded beyond it. -/
theorem literalValue_integer_ok_iff {number : Int} {read : DialogTree.Value} :
    literalValue (.integer number) = .ok read ↔ Denotes (.integer number) read := by
  rw [literalValue, Except.ok.injEq]
  cases hRange : Value.isInt64 number with
  | true =>
    obtain ⟨value, rfl⟩ := exists_toInt_iff.mpr hRange
    rw [if_pos rfl, Int64.ofInt_toInt]
    constructor
    · rintro rfl
      exact .integer rfl
    · intro h
      cases h with
      | integer hExact => rw [Int64.toInt_inj.mp hExact]
      | rounded hBeyond => exact absurd rfl (hBeyond value)
  | false =>
    have hBeyond : ∀ value : Int64, value.toInt ≠ number := by
      intro value hExact
      rw [exists_toInt_iff.mp ⟨value, hExact⟩] at hRange
      cases hRange
    rw [if_neg Bool.false_ne_true]
    constructor
    · rintro rfl
      exact .rounded hBeyond
    · intro h
      cases h with
      | integer hExact => exact absurd hExact (hBeyond _)
      | rounded => rfl

mutual

theorem literalValue_ok_iff : ∀ (value : Value) {read : DialogTree.Value},
    literalValue value = .ok read ↔ Denotes value read
  | .string text, read => by
    rw [literalValue, Except.ok.injEq]
    exact ⟨fun h => h ▸ .string text, fun h => by cases h; rfl⟩
  | .bool value, read => by
    rw [literalValue, Except.ok.injEq]
    exact ⟨fun h => h ▸ .bool value, fun h => by cases h; rfl⟩
  | .integer number, read => literalValue_integer_ok_iff
  | .float number, read => by
    rw [literalValue, Except.ok.injEq]
    exact ⟨fun h => h ▸ .float number, fun h => by cases h; rfl⟩
  | .array items, read => by
    rw [literalValue]
    constructor
    · intro h
      cases hItems : literalValues items with
      | error problem => rw [hItems] at h; cases h
      | ok values =>
        rw [hItems] at h
        cases h
        exact .array ((literalValues_ok_iff items).mp hItems)
    · intro h
      cases h with
      | array hItems =>
        rw [(literalValues_ok_iff items).mpr hItems]
        rfl
  | .null, read | .object _, read => by
    constructor
    · intro h
      cases h
    · intro h
      cases h

theorem literalValues_ok_iff : ∀ (items : List Value) {read : List DialogTree.Value},
    literalValues items = .ok read ↔ List.Forall₂ Denotes items read
  | [], read => by
    rw [literalValues, Except.ok.injEq, List.forall₂_nil_left_iff, eq_comm]
  | item :: rest, read => by
    rw [literalValues, List.forall₂_cons_left_iff]
    constructor
    · intro h
      cases hFirst : literalValue item with
      | error problem => rw [hFirst] at h; cases h
      | ok value =>
        cases hRest : literalValues rest with
        | error problem => rw [hFirst, hRest] at h; cases h
        | ok values =>
          rw [hFirst, hRest] at h
          cases h
          exact ⟨value, values, (literalValue_ok_iff item).mp hFirst, (literalValues_ok_iff rest).mp hRest, rfl⟩
    · rintro ⟨value, values, hFirst, hRest, rfl⟩
      rw [(literalValue_ok_iff item).mpr hFirst, (literalValues_ok_iff rest).mpr hRest]
      rfl

end

theorem IsLiteral.denotes {value : Value} (h : IsLiteral value) : ∃ read, Denotes value read := by
  induction h with
  | bool value => exact ⟨_, .bool value⟩
  | integer number =>
    by_cases hExact : ∃ value : Int64, value.toInt = number
    · obtain ⟨value, hExact⟩ := hExact
      exact ⟨_, .integer hExact⟩
    · exact ⟨_, .rounded fun value hValue => hExact ⟨value, hValue⟩⟩
  | float number => exact ⟨_, .float number⟩
  | string text => exact ⟨_, .string text⟩
  | array _ ih =>
    obtain ⟨values, hValues⟩ := exists_forall₂ ih
    exact ⟨_, .array hValues⟩

mutual

theorem isLiteral_of_denotes : ∀ (value : Value) {read : DialogTree.Value}, Denotes value read → IsLiteral value
  | .bool value, _, _ => .bool value
  | .integer number, _, _ => .integer number
  | .float number, _, _ => .float number
  | .string text, _, _ => .string text
  | .array items, _, h => by
    cases h with
    | array hItems => exact .array (isLiteral_of_denotes_all items hItems)
  | .null, _, h | .object _, _, h => by cases h

theorem isLiteral_of_denotes_all : ∀ (items : List Value) {read : List DialogTree.Value},
    List.Forall₂ Denotes items read → ∀ item ∈ items, IsLiteral item
  | [], _, _ => by simp
  | item :: rest, _, .cons hFirst hRest => by
    rw [List.forall_mem_cons]
    exact ⟨isLiteral_of_denotes item hFirst, isLiteral_of_denotes_all rest hRest⟩

end

end Json

end DialogTree
