import DialogTree.Proofs.Json.Declared
import DialogTree.Proofs.Structure

/-!
# Accepted JSON documents

A JSON value is accepted exactly when it is a document. It then gives the tree that the document holds:
whatever is left out of a tree is reported, by the reader or by the tree.
-/

namespace DialogTree

namespace Json

variable {entries : List (String × Value)} {items : List DeclaredAttribute} {kind : Option String}
  {attributes : AttributeMap}

/-! ## Attributes -/

theorem typeKey_ne : typeKey ≠ keywordKey ∧ typeKey ≠ childrenKey := by
  decide

theorem valuesOf_type (entries : List (String × Value)) :
    valuesOf typeKey entries = ((writtenOf entries).filter (·.1 = typeKey)).map Prod.snd := by
  rw [valuesOf, writtenOf, List.filter_filter]
  congr 1
  refine List.filter_congr fun entry _ => ?_
  by_cases hKey : entry.1 = typeKey
  · simp [hKey, typeKey_ne]
  · simp [hKey]

theorem attributesOf_eq (entries : List (String × Value)) :
    attributesOf entries = (writtenOf entries).filter (·.1 ≠ typeKey) := by
  rw [attributesOf, writtenOf, List.filter_filter]
  refine List.filter_congr fun entry _ => ?_
  simp only [structuralKeys, List.mem_cons, List.not_mem_nil, or_false, decide_eq_decide, ← Bool.decide_and]
  grind

theorem declaresItem_filter {written : List (String × Value)} (h : List.Forall₂ DeclaresItem written items)
    (p : String → Bool) : List.Forall₂ DeclaresItem (written.filter (p ·.1)) (items.filter (p ·.key)) :=
  List.rel_filter (fun entry item hItem => by simp only [hItem.key]) h

theorem declaresItem_keys {written : List (String × Value)} (h : List.Forall₂ DeclaresItem written items) :
    items.map DeclaredAttribute.key = written.map Prod.fst := by
  induction h with
  | nil => rfl
  | cons hItem _ ih => rw [List.map_cons, List.map_cons, hItem.key, ih]

theorem declaresItem_values {written : List (String × Value)} (h : List.Forall₂ DeclaresItem written items) :
    List.Forall₂ Denotes (written.map Prod.snd) (items.map DeclaredAttribute.value) := by
  rw [List.forall₂_map_left_iff, List.forall₂_map_right_iff]
  exact h.imp fun _ _ hItem => hItem.value

theorem Denotes.string_eq {value : Value} {text : String} (h : Denotes value (.string text)) :
    value = .string text := by
  cases h with
  | string => rfl

theorem strings_eq {values : List Value} {texts : List String}
    (h : List.Forall₂ Denotes values (texts.map DialogTree.Value.string)) : values = texts.map Value.string := by
  rw [List.forall₂_map_right_iff] at h
  induction h with
  | nil => rfl
  | cons hValue _ ih => rw [hValue.string_eq, ih, List.map_cons]

theorem headerGiven_of_gathers (hItems : List.Forall₂ DeclaresItem (writtenOf entries) items)
    (h : Gathers items kind attributes) : HeaderGiven entries kind attributes where
  kind := by
    have hTypes := declaresItem_values (declaresItem_filter hItems (· = typeKey))
    rw [h.kind, ← valuesOf_type] at hTypes
    exact strings_eq hTypes
  attributes := by
    have hOthers := declaresItem_filter hItems (· ≠ typeKey)
    rw [attributesOf_eq, h.attributes, List.forall₂_map_right_iff]
    exact hOthers.imp fun _ _ hItem => ⟨hItem.key.symm, hItem.value⟩

/-- Attributes of free, distinct keys and of literals, a text among them as the type, are declared and gathered. -/
theorem exists_gathers (hKeys : ((writtenOf entries).map Prod.fst).Nodup)
    (hFree : ∀ entry ∈ writtenOf entries, isIdentifier entry.1 = true ∧ entry.1 ≠ nameKey)
    (hType : ∀ value ∈ valuesOf typeKey entries, ∃ text, value = .string text)
    (hValues : ∀ entry ∈ writtenOf entries, IsLiteral entry.2) :
    ∃ items kind attributes, List.Forall₂ DeclaresItem (writtenOf entries) items ∧ Gathers items kind attributes := by
  have hEach : ∀ entry ∈ writtenOf entries, ∃ item, DeclaresItem entry item := by
    intro entry hMem
    obtain ⟨read, hRead⟩ := (hValues entry hMem).denotes
    exact ⟨⟨entry.1, read, none⟩, (hFree entry hMem).1, rfl, hRead, rfl⟩
  obtain ⟨items, hItems⟩ := exists_forall₂ hEach
  have hFrom : ∀ item ∈ items, ∃ entry ∈ writtenOf entries, DeclaresItem entry item :=
    exists_left_of_forall₂ hItems
  have hDistinct : (items.map DeclaredAttribute.key).Nodup := by rwa [declaresItem_keys hItems]
  have hNotReserved : ∀ item ∈ items, item.key ∉ reservedKeys := by
    intro item hMem
    obtain ⟨entry, hEntry, hItem⟩ := hFrom item hMem
    have hBeside : entry.1 ≠ keywordKey ∧ entry.1 ≠ childrenKey := of_decide_eq_true (List.mem_filter.mp hEntry).2
    rw [hItem.key]
    simp [reservedKeys, hBeside, (hFree entry hEntry).2]
  have hTyped : ∀ item ∈ items, item.key = typeKey → ∃ text, item.value = .string text := by
    intro item hMem hKey
    obtain ⟨entry, hEntry, hItem⟩ := hFrom item hMem
    obtain ⟨text, hText⟩ := hType entry.2 (by
      rw [valuesOf_type]
      exact List.mem_map.mpr ⟨entry, List.mem_filter.mpr ⟨hEntry, by simpa [← hItem.key] using hKey⟩, rfl⟩)
    have hValue := hItem.value
    rw [hText] at hValue
    cases hRead : item.value with
    | string text => exact ⟨text, rfl⟩
    | _ => rw [hRead] at hValue; cases hValue
  obtain ⟨kind, attributes, hGathers⟩ := Gathers.exists hNotReserved hDistinct hTyped
  exact ⟨items, kind, attributes, hItems, hGathers⟩

/-! ## Commands -/

theorem isCommand_of_builds {name keyword : String} (hName : IsName name)
    (hKeyword : valuesOf keywordKey entries = [.string keyword]) (hWord : isIdentifier keyword = true)
    (hItems : List.Forall₂ DeclaresItem (writtenOf entries) items) (hGathers : Gathers items kind attributes)
    (hOnce : (valuesOf childrenKey entries).length ≤ 1)
    (hBody : ∀ value ∈ valuesOf childrenKey entries, ∃ children, value = .object children ∧ children ≠ [] ∧
      (children.map Prod.fst).Nodup ∧ ∀ entry ∈ children, IsCommand entry) :
    IsCommand (name, .object entries) := by
  refine .intro hName hKeyword hWord hOnce ?_ ?_ ?_ ?_ ?_ ?_ ?_
  · intro value hMem
    obtain ⟨children, hValue, hSome, -⟩ := hBody value hMem
    exact ⟨children, hValue, hSome⟩
  · intro children hMem
    obtain ⟨_, ⟨⟩, -, hDistinct, -⟩ := hBody _ hMem
    exact hDistinct
  · intro children hMem
    obtain ⟨_, ⟨⟩, -, -, hBelow⟩ := hBody _ hMem
    exact hBelow
  · rw [← declaresItem_keys hItems]
    exact hGathers.distinct
  · intro entry hMem
    obtain ⟨item, hItem, hDeclares⟩ := exists_right_of_forall₂ hItems entry hMem
    have hFree := hGathers.free item hItem
    rw [hDeclares.key] at hFree
    refine ⟨hDeclares.identifier, ?_⟩
    rintro hReserved
    simp [hReserved, reservedKeys] at hFree
  · rw [(headerGiven_of_gathers hItems hGathers).kind]
    simp
  · intro entry hMem
    obtain ⟨item, -, hDeclares⟩ := exists_right_of_forall₂ hItems entry hMem
    exact isLiteral_of_denotes entry.2 hDeclares.value

theorem names_of_builds {declarations : List Declaration} {nodes : List (String × Node)}
    (hDeclares : List.Forall₂ Declares entries declarations) (hBuilds : List.Forall₂ Builds declarations nodes) :
    nodes.map Prod.fst = entries.map Prod.fst := by
  induction hBuilds generalizing entries with
  | nil =>
    cases hDeclares
    rfl
  | cons hFirst _ ih =>
    cases hDeclares with
    | cons hDeclaresFirst hRest =>
      rw [List.map_cons, List.map_cons, ih hRest, ← hDeclaresFirst.name_eq, ← hFirst.name_eq]

mutual

/-- What is declared for an entry and builds a command was one, and is what the entry gives. -/
theorem isCommand_of_declares : ∀ (declaration : Declaration) {entry : String × Value} {node : String × Node},
    Declares entry declaration → Builds declaration node → IsCommand entry ∧ Gives entry node
  | ⟨name, keyword, position, items, none⟩, entry, node, hDeclares, hBuilds => by
    cases hDeclares with
    | bare hName hKeyword hWord hItems hBare =>
      cases hBuilds with
      | bare hSome hSomeKeyword hGathers =>
        refine ⟨isCommand_of_builds ⟨hSome, hName⟩ hKeyword (hWord hSomeKeyword) hItems hGathers ?_ ?_,
          .bare hKeyword (headerGiven_of_gathers hItems hGathers) hBare⟩
        · simp [hBare]
        · simp [hBare]
  | ⟨name, keyword, position, items, some declarations⟩, entry, node, hDeclares, hBuilds => by
    cases hDeclares with
    | body hName hKeyword hWord hItems hBody hSomeBody hDeclared =>
      cases hBuilds with
      | body hSome hSomeKeyword hGathers hBelow hDistinct =>
        obtain ⟨hCommands, hGives⟩ := areCommands_of_declares declarations hDeclared hBelow
        refine ⟨isCommand_of_builds ⟨hSome, hName⟩ hKeyword (hWord hSomeKeyword) hItems hGathers ?_ ?_,
          .body hKeyword (headerGiven_of_gathers hItems hGathers) hBody hGives⟩
        · simp [hBody]
        · rw [hBody, List.forall_mem_singleton]
          exact ⟨_, rfl, hSomeBody, names_of_builds hDeclared hBelow ▸ hDistinct, hCommands⟩

theorem areCommands_of_declares : ∀ (declarations : List Declaration) {entries : List (String × Value)}
    {nodes : List (String × Node)}, List.Forall₂ Declares entries declarations →
      List.Forall₂ Builds declarations nodes →
        (∀ entry ∈ entries, IsCommand entry) ∧ List.Forall₂ Gives entries nodes
  | [], _, _, .nil, .nil => ⟨by simp, .nil⟩
  | declaration :: rest, _, _, .cons hDeclares hDeclared, .cons hBuilds hBuilt => by
    obtain ⟨hCommand, hGives⟩ := isCommand_of_declares declaration hDeclares hBuilds
    obtain ⟨hCommands, hAll⟩ := areCommands_of_declares rest hDeclared hBuilt
    rw [List.forall_mem_cons]
    exact ⟨⟨hCommand, hCommands⟩, .cons hGives hAll⟩

end

theorem exists_builds {entries : List (String × Value)}
    (h : ∀ entry ∈ entries, ∃ declaration node, Declares entry declaration ∧ Builds declaration node) :
    ∃ declarations nodes, List.Forall₂ Declares entries declarations ∧ List.Forall₂ Builds declarations nodes := by
  induction entries with
  | nil => exact ⟨[], [], .nil, .nil⟩
  | cons entry entries ih =>
    obtain ⟨⟨declaration, node, hDeclares, hBuilds⟩, hRest⟩ := List.forall_mem_cons.mp h
    obtain ⟨declarations, nodes, hAllDeclared, hAllBuilt⟩ := ih hRest
    exact ⟨declaration :: declarations, node :: nodes, .cons hDeclares hAllDeclared, .cons hBuilds hAllBuilt⟩

theorem IsCommand.builds {entry : String × Value} (h : IsCommand entry) :
    ∃ declaration node, Declares entry declaration ∧ Builds declaration node := by
  induction h with
  | @intro name keyword entries hName hKeyword hWord hOnce hBody hDistinct hBelow hKeys hFree hType hValues ih =>
    obtain ⟨items, kind, attributes, hItems, hGathers⟩ := exists_gathers hKeys hFree hType hValues
    have hSomeKeyword := isIdentifier_ne_empty hWord
    cases hChildren : valuesOf childrenKey entries with
    | nil =>
      exact ⟨_, _, .bare hName.all hKeyword (fun _ => hWord) hItems hChildren, .bare hName.some hSomeKeyword hGathers⟩
    | cons value others =>
      have hMem : value ∈ valuesOf childrenKey entries := by simp [hChildren]
      obtain ⟨children, rfl, hSome⟩ := hBody value hMem
      obtain rfl : others = [] := by simpa [hChildren] using hOnce
      obtain ⟨declarations, nodes, hDeclares, hBuilds⟩ := exists_builds (ih children hMem)
      have hNames := names_of_builds hDeclares hBuilds
      exact ⟨_, _, .body hName.all hKeyword (fun _ => hWord) hItems hChildren hSome hDeclares,
        .body hName.some hSomeKeyword hGathers hBuilds (hNames ▸ hDistinct children hMem)⟩

/-! ## Documents -/

/-- A value is declared and built without a report exactly when it is a document. -/
theorem isDocument_iff {value : Value} : IsDocument value ↔
    ∃ declared tree, declarations value = (declared, []) ∧ canonicalize declared = (tree, []) := by
  constructor
  · rintro ⟨hVersion, hSome, hDistinct, hEach⟩
    obtain ⟨declared, nodes, hDeclares, hBuilds⟩ := exists_builds fun entry hMem => (hEach entry hMem).builds
    rw [← names_of_builds hDeclares hBuilds] at hDistinct
    refine ⟨declared, ⟨nodes⟩, declarations_ok_iff.mpr ⟨_, rfl, ?_, hVersion, hDeclares⟩,
      canonicalize_ok_iff.mpr ⟨hBuilds, hDistinct⟩⟩
    rintro rfl
    exact hSome (List.forall₂_nil_right_iff.mp hDeclares)
  · rintro ⟨declared, tree, hDeclared, hTree⟩
    obtain ⟨entries, rfl, hSome, hVersion, hDeclares⟩ := declarations_ok_iff.mp hDeclared
    obtain ⟨hBuilds, hDistinct⟩ := canonicalize_ok_iff.mp hTree
    refine .intro hVersion ?_ (names_of_builds hDeclares hBuilds ▸ hDistinct)
      (areCommands_of_declares declared hDeclares hBuilds).1
    intro hNone
    rw [hNone, List.forall₂_nil_left_iff] at hDeclares
    exact hSome hDeclares

theorem documentGives_of_ok {value : Value} {declared : List Declaration} {tree : Tree}
    (hDeclared : declarations value = (declared, [])) (hTree : canonicalize declared = (tree, [])) :
    DocumentGives value tree := by
  obtain ⟨entries, rfl, -, -, hDeclares⟩ := declarations_ok_iff.mp hDeclared
  cases tree
  exact .intro (areCommands_of_declares declared hDeclares (canonicalize_ok_iff.mp hTree).1).2

/-- Nothing is reported for a value exactly when it is a document, and its tree is then the one that the
document holds. -/
theorem document_accepted (value : Value) :
    ((declarations value).2 = [] ∧ (canonicalize (declarations value).1).2 = [] ↔ IsDocument value) ∧
      (IsDocument value → DocumentGives value (canonicalize (declarations value).1).1) := by
  constructor
  · rw [isDocument_iff]
    constructor
    · rintro ⟨hDeclared, hTree⟩
      exact ⟨_, _, Prod.ext rfl hDeclared, Prod.ext rfl hTree⟩
    · rintro ⟨declared, tree, hDeclared, hTree⟩
      rw [hDeclared]
      exact ⟨rfl, by rw [hTree]⟩
  · intro h
    obtain ⟨declared, tree, hDeclared, hTree⟩ := isDocument_iff.mp h
    rw [hDeclared, hTree]
    exact documentGives_of_ok hDeclared hTree

/-- A dialog with a type, a whole number, a list and one command below it, behind the version. -/
def sizedDialog : Value :=
  .object [("version", .integer 1),
    ("info", .object [("type", .string "modal"), ("keyword", .string "dialog"), ("size", .integer 3),
      ("tags", .array [.string "a", .bool true]),
      ("children", .object [("ok", .object [("keyword", .string "action")])])])]

theorem document_accepted_sized :
    IsDocument sizedDialog ∧ DocumentGives sizedDialog (canonicalize (declarations sizedDialog).1).1 := by
  have hAccepted := document_accepted sizedDialog
  have hDocument : IsDocument sizedDialog := hAccepted.1.mp ⟨by rfl, by rfl⟩
  exact ⟨hDocument, hAccepted.2 hDocument⟩

end Json

end DialogTree
