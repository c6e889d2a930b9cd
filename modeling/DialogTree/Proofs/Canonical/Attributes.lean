import DialogTree.Canonical

/-!
# The first attribute of a key

The first attribute that can give its key a value does so: for the type this takes a text, for every other key any
value does. Attributes behind it are dropped and reported, each in its place. A type that is no text is dropped and
reported too, but does not count as the first one.
-/

namespace DialogTree

/-! ## Items and those in front of them -/

/-- The items of a list, each with the items in front of it. -/
def withEarlier {α : Type} (earlier : List α) : List α → List (List α × α)
  | [] => []
  | item :: rest => (earlier, item) :: withEarlier (earlier ++ [item]) rest

/-! ## One more attribute -/

/-- What becomes of an attribute that is added to a header. -/
inductive Header.Step (path : String) (header : Header) (item : DeclaredAttribute) :
    Header × Option StructureError → Prop where
  | reserved (hReserved : item.key ∈ reservedKeys) :
      Step path header item (header, some (.reservedAttribute path item.key item.position))
  | known (hFree : item.key ∉ reservedKeys) (hKnown : header.has item.key = true) :
      Step path header item (header, some (.duplicateAttribute path item.key item.position))
  | kind {text : String} (hType : item.key = typeKey) (hNew : header.kind = none) (hText : item.value = .string text) :
      Step path header item (⟨some text, header.attributes⟩, none)
  | untyped (hType : item.key = typeKey) (hNew : header.kind = none) (hText : item.value.asString? = none) :
      Step path header item (header, some (.invalidType path item.value.kindName item.position))
  | new (hFree : item.key ∉ reservedKeys) (hOrdinary : item.key ≠ typeKey)
      (hNew : item.key ∉ header.attributes.keys) :
      Step path header item (⟨header.kind, header.attributes.insert item.key item.value⟩, none)

theorem Header.has_type (header : Header) : header.has typeKey = header.kind.isSome := if_pos rfl

theorem Header.has_ordinary (header : Header) {key : String} (hOrdinary : key ≠ typeKey) :
    header.has key = header.attributes.contains key := if_neg hOrdinary

theorem typeKey_not_reserved : typeKey ∉ reservedKeys := by decide

theorem Header.add_step (path : String) (header : Header) (item : DeclaredAttribute) :
    Step path header item (header.add path item) := by
  simp only [Header.add, List.contains_iff_mem]
  split
  · rename_i hReserved
    exact .reserved hReserved
  · rename_i hFree
    split
    · rename_i hKnown
      exact .known hFree hKnown
    · rename_i hUnknown
      split
      · rename_i hType
        rw [hType, has_type, Bool.not_eq_true, Option.isSome_eq_false_iff, Option.isNone_iff_eq_none] at hUnknown
        split
        · rename_i text hText
          exact .kind hType hUnknown hText
        · rename_i hOther
          apply Step.untyped hType hUnknown
          cases hValue : item.value with
          | string text => exact absurd hValue (hOther text)
          | _ => rfl
      · rename_i hOrdinary
        rw [has_ordinary header hOrdinary, AttributeMap.contains_iff] at hUnknown
        exact .new hFree hOrdinary hUnknown

/-! ## The header of a run of attributes -/

/-- The text that an attribute gives as the type. -/
def DeclaredAttribute.typeText? (item : DeclaredAttribute) : Option String :=
  if item.key = typeKey then item.value.asString? else none

/-- Whether an attribute gives the key a value; the type takes nothing but a text. -/
def DeclaredAttribute.gives (key : String) (item : DeclaredAttribute) : Bool :=
  item.key = key && (key ≠ typeKey || item.value.asString?.isSome)

/-- The header has of the items what they give first. -/
structure Header.Holds (header : Header) (items : List DeclaredAttribute) : Prop where
  kind : header.kind = items.findSome? DeclaredAttribute.typeText?
  value : ∀ key, key ∉ reservedKeys → key ≠ typeKey →
    header.attributes.get? key = (items.find? (·.key = key)).map DeclaredAttribute.value

namespace Header

variable {path : String} {header : Header} {items earlier : List DeclaredAttribute} {item : DeclaredAttribute}

theorem holds_empty : Header.empty.Holds [] := ⟨rfl, fun _ _ _ => rfl⟩

theorem Holds.has (h : header.Holds items) {key : String} (hFree : key ∉ reservedKeys) :
    header.has key = items.any (·.gives key) := by
  by_cases hType : key = typeKey
  · subst hType
    rw [has_type, h.kind, List.isSome_findSome?]
    congr 1
    funext item
    by_cases hKey : item.key = typeKey <;> simp [DeclaredAttribute.typeText?, DeclaredAttribute.gives, hKey]
  · rw [has_ordinary header hType, ← AttributeMap.isSome_get?, h.value key hFree hType, Option.isSome_map,
      List.isSome_find?]
    congr 1
    funext item
    simp [DeclaredAttribute.gives, hType]

theorem Holds.same (h : header.Holds items)
    (hGiven : item.key ∈ reservedKeys ∨ header.has item.key = true ∨
      item.key = typeKey ∧ item.value.asString? = none) : header.Holds (items ++ [item]) := by
  constructor
  · rw [List.findSome?_append, ← h.kind]
    -- A type that is known hides the attribute; otherwise the attribute is no text for the type.
    cases hKind : header.kind with
    | some text => rfl
    | none =>
      have hNone : item.typeText? = none := by
        unfold DeclaredAttribute.typeText?
        split
        · rename_i hType
          rw [hType, has_type, hKind] at hGiven
          rcases hGiven with hReserved | hKnown | ⟨-, hText⟩
          · exact absurd hReserved typeKey_not_reserved
          · cases hKnown
          · exact hText
        · rfl
      simp [hNone]
  · intro key hFree hOrdinary
    rw [List.find?_append, Option.map_or, ← h.value key hFree hOrdinary]
    by_cases hKey : item.key = key
    · subst hKey
      rw [has_ordinary header hOrdinary, ← AttributeMap.isSome_get?] at hGiven
      rcases hGiven with hReserved | hKnown | ⟨hType, -⟩
      · exact absurd hReserved hFree
      · rw [Option.or_of_isSome hKnown]
      · exact absurd hType hOrdinary
    · simp [hKey]

theorem Holds.add (h : header.Holds items) (path : String) (item : DeclaredAttribute) :
    (header.add path item).1.Holds (items ++ [item]) := by
  have hStep := add_step path header item
  generalize header.add path item = outcome at hStep ⊢
  cases hStep with
  | reserved hReserved => exact h.same (.inl hReserved)
  | known _ hKnown => exact h.same (.inr (.inl hKnown))
  | untyped hType _ hText => exact h.same (.inr (.inr ⟨hType, hText⟩))
  | @kind text hType hNew hText =>
    constructor
    · rw [List.findSome?_append, ← h.kind, hNew]
      simp [DeclaredAttribute.typeText?, hType, hText, Value.asString?]
    · intro key hFree hOrdinary
      rw [List.find?_append, Option.map_or, ← h.value key hFree hOrdinary]
      simp [hType, Ne.symm hOrdinary]
  | new _ hOrdinary hNew =>
    constructor
    · rw [List.findSome?_append, ← h.kind]
      simp [DeclaredAttribute.typeText?, hOrdinary]
    · intro key hFree hKey
      rw [AttributeMap.get?_insert, List.find?_append, Option.map_or, ← h.value key hFree hKey]
      by_cases hSame : item.key = key
      · subst hSame
        simp [AttributeMap.get?_eq_none_of_not_mem hNew]
      · simp [hSame]

theorem Holds.addAll (h : header.Holds earlier) (path : String) (items : List DeclaredAttribute) :
    (header.addAll path items).1.Holds (earlier ++ items) := by
  induction items generalizing header earlier with
  | nil => simpa [Header.addAll] using h
  | cons item items ih =>
    rw [List.append_cons]
    exact ih (h.add path item)

end Header

/-! ## The reports of a run of attributes -/

/-- What an attribute is reported for behind the attributes in front of it. -/
def attributeReport? (path : String) (entry : List DeclaredAttribute × DeclaredAttribute) : Option StructureError :=
  if entry.2.key ∈ reservedKeys then some (.reservedAttribute path entry.2.key entry.2.position)
  else if entry.1.any (·.gives entry.2.key) then some (.duplicateAttribute path entry.2.key entry.2.position)
  else if entry.2.key = typeKey ∧ entry.2.value.asString? = none then
    some (.invalidType path entry.2.value.kindName entry.2.position)
  else none

namespace Header

variable {path : String} {header : Header} {items earlier : List DeclaredAttribute} {item : DeclaredAttribute}

theorem has_of_type (hType : item.key = typeKey) (hNew : header.kind = none) : header.has item.key = false := by
  rw [hType, has_type, hNew, Option.isSome_none]

theorem Holds.report (h : header.Holds earlier) (path : String) (item : DeclaredAttribute) :
    (header.add path item).2 = attributeReport? path (earlier, item) := by
  have hStep := add_step path header item
  generalize header.add path item = outcome at hStep ⊢
  unfold attributeReport?
  cases hStep with
  | reserved hReserved => rw [if_pos hReserved]
  | known hFree hKnown =>
    rw [h.has hFree] at hKnown
    rw [if_neg hFree, if_pos hKnown]
  | @kind text hType hNew hText =>
    have hFree : item.key ∉ reservedKeys := hType ▸ typeKey_not_reserved
    have hUnknown := has_of_type hType hNew
    rw [h.has hFree] at hUnknown
    simp [hFree, hUnknown, hText, Value.asString?]
  | untyped hType hNew hText =>
    have hFree : item.key ∉ reservedKeys := hType ▸ typeKey_not_reserved
    have hUnknown := has_of_type hType hNew
    rw [h.has hFree] at hUnknown
    rw [if_neg hFree, if_neg (by simp [hUnknown]), if_pos ⟨hType, hText⟩]
  | new hFree hOrdinary hNew =>
    have hUnknown : header.has item.key = false := by
      rwa [has_ordinary header hOrdinary, Bool.eq_false_iff, ne_eq, AttributeMap.contains_iff]
    rw [h.has hFree] at hUnknown
    simp [hFree, hUnknown, hOrdinary]

theorem addAll_cons (path : String) (header : Header) (item : DeclaredAttribute) (items : List DeclaredAttribute) :
    header.addAll path (item :: items) =
      (((header.add path item).1.addAll path items).1,
        (header.add path item).2.toList ++ ((header.add path item).1.addAll path items).2) := rfl

theorem Holds.reports (h : header.Holds earlier) (path : String) (items : List DeclaredAttribute) :
    (header.addAll path items).2 = (withEarlier earlier items).filterMap (attributeReport? path) := by
  induction items generalizing header earlier with
  | nil => rfl
  | cons item items ih =>
    rw [withEarlier, List.filterMap_cons, ← h.report path item, ← ih (h.add path item), addAll_cons]
    cases (header.add path item).2 <;> rfl

theorem addAll_append (path : String) (header : Header) (items others : List DeclaredAttribute) :
    header.addAll path (items ++ others) =
      (((header.addAll path items).1.addAll path others).1,
        (header.addAll path items).2 ++ ((header.addAll path items).1.addAll path others).2) := by
  induction items generalizing header with
  | nil => rfl
  | cons item items ih =>
    rw [List.cons_append, addAll_cons, addAll_cons, ih, List.append_assoc]

theorem add_known (path : String) (hFree : item.key ∉ reservedKeys) (hKnown : header.has item.key = true) :
    header.add path item = (header, some (.duplicateAttribute path item.key item.position)) := by
  rw [Header.add, if_neg (by simpa using hFree), if_pos hKnown]

theorem add_untyped (path : String) (hType : item.key = typeKey) (hNew : header.has typeKey = false)
    (hText : item.value.asString? = none) :
    header.add path item = (header, some (.invalidType path item.value.kindName item.position)) := by
  rw [Header.add, hType, if_neg (by simpa using typeKey_not_reserved), if_neg (by simp [hNew]), if_pos rfl]
  cases hValue : item.value with
  | string text => simp [hValue, Value.asString?] at hText
  | _ => rfl

theorem addAll_dropped {report : StructureError} {before : List DeclaredAttribute}
    (h : (header.addAll path before).1.add path item = ((header.addAll path before).1, some report))
    (after : List DeclaredAttribute) :
    (header.addAll path (before ++ item :: after)).1 = (header.addAll path (before ++ after)).1 ∧
      ∃ later, (header.addAll path (before ++ item :: after)).2 = (header.addAll path before).2 ++ report :: later ∧
        (header.addAll path (before ++ after)).2 = (header.addAll path before).2 ++ later := by
  rw [addAll_append, addAll_append, addAll_cons, h]
  exact ⟨rfl, _, rfl, rfl⟩

end Header

/-! ## Commands -/

def Declaration.keywordReports (path : String) (declaration : Declaration) : List StructureError :=
  if declaration.keyword = "" then [.emptyKeyword path declaration.position] else []

def Declaration.bodyReports (path : String) (declaration : Declaration) : List StructureError :=
  (declaration.body.map fun body => (addDeclarations (some path) .empty body).2).getD []

theorem Declaration.toNode_eq (path : String) (declaration : Declaration) :
    declaration.toNode path =
      (⟨declaration.keyword, (Header.empty.addAll path declaration.attributes).1.kind,
          (Header.empty.addAll path declaration.attributes).1.attributes,
          declaration.body.map fun body => (addDeclarations (some path) .empty body).1, declaration.position⟩,
        declaration.keywordReports path ++ (Header.empty.addAll path declaration.attributes).2 ++
          declaration.bodyReports path) := by
  obtain ⟨name, keyword, position, attributes, body⟩ := declaration
  cases body with
  | none => simp [Declaration.toNode, keywordReports, bodyReports]
  | some body => simp [Declaration.toNode, keywordReports, bodyReports]

/-- An attribute is dropped with a report. The command is the one without the attribute, and so are the reports but
for this one, which stands behind those of the attributes in front. -/
structure Drops (path : String) (declaration : Declaration) (before after : List DeclaredAttribute)
    (report : StructureError) : Prop where
  node : (declaration.toNode path).1 = ({ declaration with attributes := before ++ after }.toNode path).1
  reports : ∃ later,
    (declaration.toNode path).2 =
        ({ declaration with attributes := before, body := none }.toNode path).2 ++ report :: later ∧
      ({ declaration with attributes := before ++ after }.toNode path).2 =
        ({ declaration with attributes := before, body := none }.toNode path).2 ++ later

/-- For every key but the reserved ones, what a command has is decided by the first attribute that gives the key a
value, and each attribute of the key behind it is dropped with one report. In front of it stand at most types that
are no texts, and each of these is dropped with one report as well. -/
structure FirstCounts (path : String) (declaration : Declaration) : Prop where
  value : ∀ key, key ∉ reservedKeys → key ≠ typeKey →
    (declaration.toNode path).1.attributes.get? key =
      (declaration.attributes.find? (·.key = key)).map DeclaredAttribute.value
  kind : (declaration.toNode path).1.kind = declaration.attributes.findSome? DeclaredAttribute.typeText?
  repeated : ∀ before item after, declaration.attributes = before ++ item :: after → item.key ∉ reservedKeys →
    before.any (·.gives item.key) → Drops path declaration before after (.duplicateAttribute path item.key item.position)
  untyped : ∀ before item after, declaration.attributes = before ++ item :: after → item.key = typeKey →
    item.value.asString? = none → before.any (·.gives typeKey) = false →
      Drops path declaration before after (.invalidType path item.value.kindName item.position)

theorem drops_of_add {path : String} {declaration : Declaration} {before after : List DeclaredAttribute}
    {item : DeclaredAttribute} {report : StructureError} (hItems : declaration.attributes = before ++ item :: after)
    (h : (Header.empty.addAll path before).1.add path item = ((Header.empty.addAll path before).1, some report)) :
    Drops path declaration before after report := by
  obtain ⟨hHeader, later, hWith, hWithout⟩ := Header.addAll_dropped h after
  simp only [← hItems] at hHeader hWith
  constructor
  · simp only [Declaration.toNode_eq, hHeader]
  · refine ⟨later ++ declaration.bodyReports path, ?_, ?_⟩
    · simp [Declaration.toNode_eq, Declaration.keywordReports, Declaration.bodyReports, hWith]
    · simp [Declaration.toNode_eq, Declaration.keywordReports, Declaration.bodyReports, hWithout]

theorem toNode_first_counts (path : String) (declaration : Declaration) : FirstCounts path declaration := by
  have hHolds (items : List DeclaredAttribute) : (Header.empty.addAll path items).1.Holds items :=
    Header.holds_empty.addAll path items
  refine ⟨fun key hFree hOrdinary => ?_, ?_, fun before item after hItems hFree hGiven => ?_,
    fun before item after hItems hType hText hNew => ?_⟩
  · rw [Declaration.toNode_eq]
    exact (hHolds _).value key hFree hOrdinary
  · rw [Declaration.toNode_eq]
    exact (hHolds _).kind
  · rw [← (hHolds before).has hFree] at hGiven
    exact drops_of_add hItems (Header.add_known path hFree hGiven)
  · rw [← (hHolds before).has typeKey_not_reserved] at hNew
    exact drops_of_add hItems (Header.add_untyped path hType hNew hText)

def numberedAction : Declaration :=
  ⟨"ok", "action", some ⟨10, 2, 1⟩,
    [⟨typeKey, .integer 3, some ⟨20, 2, 11⟩⟩, ⟨typeKey, .string "exit", some ⟨28, 2, 19⟩⟩], none⟩

/-- The second type of the action is not reported, and it is the one that the command has. -/
theorem second_type_counts :
    (numberedAction.toNode "ok").2 = [.invalidType "ok" "integer" (some ⟨20, 2, 11⟩)] ∧
      (numberedAction.toNode "ok").1.kind = some "exit" ∧
      ({ numberedAction with attributes := numberedAction.attributes.take 1 }.toNode "ok").1.kind = none :=
  ⟨rfl, rfl, rfl⟩

end DialogTree
