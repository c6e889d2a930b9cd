import DialogTree.Proofs.Structure

/-!
# Nothing is lost silently

Declarations become commands one for one, in their order and with all that was written in them, unless
something is reported. Something is reported exactly when, at whatever depth, a name, a keyword or a key is not
as it has to be.
-/

namespace DialogTree

/-! ## Proper declarations -/

/-- Keys that attributes may have, no two of them the same, and a text under the key of the type. -/
structure ProperAttributes (items : List DeclaredAttribute) : Prop where
  free : ∀ item ∈ items, item.key ≠ keywordKey ∧ item.key ≠ childrenKey ∧ item.key ≠ nameKey
  distinct : (items.map DeclaredAttribute.key).Nodup
  typed : ∀ item ∈ items, item.key = typeKey → ∃ text, item.value = .string text

/-- A declaration with a name, a keyword and proper attributes, whose body holds proper declarations of
distinct names. -/
inductive Declaration.Proper : Declaration → Prop where
  | intro {name keyword : String} {position : Option Position} {items : List DeclaredAttribute}
      {body : Option (List Declaration)} (hName : name ≠ "") (hKeyword : keyword ≠ "")
      (hItems : ProperAttributes items)
      (hDistinct : ∀ declarations ∈ body, (declarations.map Declaration.name).Nodup)
      (hBelow : ∀ declarations ∈ body, ∀ declaration ∈ declarations, declaration.Proper) :
      Declaration.Proper ⟨name, keyword, position, items, body⟩

/-! ## Commands that keep everything -/

structure KeepsAttributes (items : List DeclaredAttribute) (kind : Option String) (attributes : AttributeMap) :
    Prop where
  kind : kind = (items.find? (·.key = typeKey)).bind (·.value.asString?)
  attributes : attributes.entries = (items.filter (·.key ≠ typeKey)).map fun item => (item.key, item.value)

/-- A declaration and the command that has everything written in it: name, keyword, place and attributes, and
for each declaration of its body one command, in the same order. -/
inductive Mirrors : Declaration → String × Node → Prop where
  | bare {name keyword : String} {position : Option Position} {items : List DeclaredAttribute}
      {kind : Option String} {attributes : AttributeMap} (hItems : KeepsAttributes items kind attributes) :
      Mirrors ⟨name, keyword, position, items, none⟩ (name, ⟨keyword, kind, attributes, none, position⟩)
  | body {name keyword : String} {position : Option Position} {items : List DeclaredAttribute}
      {kind : Option String} {attributes : AttributeMap} {declarations : List Declaration}
      {nodes : List (String × Node)} (hItems : KeepsAttributes items kind attributes)
      (hBelow : List.Forall₂ Mirrors declarations nodes) :
      Mirrors ⟨name, keyword, position, items, some declarations⟩
        (name, ⟨keyword, kind, attributes, some ⟨nodes⟩, position⟩)

/-! ## Attributes -/

variable {items : List DeclaredAttribute} {kind : Option String} {attributes : AttributeMap}

theorem not_mem_reservedKeys {key : String} :
    key ∉ reservedKeys ↔ key ≠ keywordKey ∧ key ≠ childrenKey ∧ key ≠ nameKey := by
  simp [reservedKeys]

theorem Gathers.proper (h : Gathers items kind attributes) : ProperAttributes items where
  free item hMem := not_mem_reservedKeys.mp (h.free item hMem)
  distinct := h.distinct
  typed item hMem hType := by
    have hValue : item.value ∈ (items.filter (·.key = typeKey)).map DeclaredAttribute.value :=
      List.mem_map.mpr ⟨item, List.mem_filter.mpr ⟨hMem, decide_eq_true hType⟩, rfl⟩
    rw [h.kind] at hValue
    obtain ⟨text, -, hText⟩ := List.mem_map.mp hValue
    exact ⟨text, hText.symm⟩

theorem Gathers.keeps (h : Gathers items kind attributes) : KeepsAttributes items kind attributes where
  kind := by
    have hKind := h.kind
    rw [← List.head?_filter]
    cases hTypes : items.filter (·.key = typeKey) with
    | nil =>
      rw [hTypes] at hKind
      cases kind with
      | none => rfl
      | some text => cases hKind
    | cons item others =>
      rw [hTypes] at hKind
      cases kind with
      | none => cases hKind
      | some text =>
        have hText : item.value = .string text := (List.cons.inj hKind).1
        simp [hText, Value.asString?]
  attributes := h.attributes

theorem ProperAttributes.exists_gathers (h : ProperAttributes items) :
    ∃ kind attributes, Gathers items kind attributes :=
  Gathers.exists (fun item hMem => not_mem_reservedKeys.mpr (h.free item hMem)) h.distinct h.typed

/-! ## Commands -/

theorem Builds.names_eq {declarations : List Declaration} {nodes : List (String × Node)}
    (h : List.Forall₂ Builds declarations nodes) : declarations.map Declaration.name = nodes.map Prod.fst := by
  induction h with
  | nil => rfl
  | cons hFirst _ ih => rw [List.map_cons, List.map_cons, hFirst.name_eq, ih]

mutual

theorem Builds.lossless : ∀ (declaration : Declaration) {entry : String × Node}, Builds declaration entry →
    declaration.Proper ∧ Mirrors declaration entry
  | ⟨_, _, _, _, none⟩, _, .bare hName hKeyword hHeader =>
    ⟨.intro hName hKeyword hHeader.proper (fun _ h => by cases h) (fun _ h => by cases h), .bare hHeader.keeps⟩
  | ⟨_, _, _, _, some declarations⟩, _, .body hName hKeyword hHeader hBelow hDistinct => by
    obtain ⟨hProper, hMirrors⟩ := Builds.allLossless declarations hBelow
    rw [← Builds.names_eq hBelow] at hDistinct
    refine ⟨.intro hName hKeyword hHeader.proper ?_ ?_, .body hHeader.keeps hMirrors⟩
    · rintro _ ⟨⟩
      exact hDistinct
    · rintro _ ⟨⟩
      exact hProper

theorem Builds.allLossless : ∀ (declarations : List Declaration) {nodes : List (String × Node)},
    List.Forall₂ Builds declarations nodes →
      (∀ declaration ∈ declarations, declaration.Proper) ∧ List.Forall₂ Mirrors declarations nodes
  | [], _, .nil => ⟨by simp, .nil⟩
  | declaration :: rest, _, .cons hFirst hRest => by
    obtain ⟨hProper, hMirrors⟩ := Builds.lossless declaration hFirst
    obtain ⟨hOthers, hAll⟩ := Builds.allLossless rest hRest
    rw [List.forall_mem_cons]
    exact ⟨⟨hProper, hOthers⟩, .cons hMirrors hAll⟩

end

theorem Declaration.Proper.builds {declaration : Declaration} (h : declaration.Proper) :
    ∃ entry, Builds declaration entry := by
  induction h with
  | @intro name keyword position items body hName hKeyword hItems hDistinct _ ih =>
    obtain ⟨kind, attributes, hHeader⟩ := hItems.exists_gathers
    cases body with
    | none => exact ⟨_, .bare hName hKeyword hHeader⟩
    | some declarations =>
      obtain ⟨nodes, hBelow⟩ := exists_forall₂ (ih declarations rfl)
      have hNames := hDistinct declarations rfl
      rw [Builds.names_eq hBelow] at hNames
      exact ⟨_, .body hName hKeyword hHeader hBelow hNames⟩

/-! ## Documents -/

/-- Nothing is reported for declarations exactly when they are proper and of distinct names, and each of them
has then become the command that mirrors it. -/
theorem canonicalize_lossless (declarations : List Declaration) :
    ((canonicalize declarations).2 = [] ↔
      (∀ declaration ∈ declarations, declaration.Proper) ∧ (declarations.map Declaration.name).Nodup) ∧
      ((canonicalize declarations).2 = [] →
        List.Forall₂ Mirrors declarations (canonicalize declarations).1.nodes) := by
  have hBuilt : (canonicalize declarations).2 = [] →
      List.Forall₂ Builds declarations (canonicalize declarations).1.nodes ∧
        (canonicalize declarations).1.names.Nodup :=
    fun h => canonicalize_ok_iff.mp (Prod.ext rfl h)
  refine ⟨⟨fun h => ?_, ?_⟩, fun h => (Builds.allLossless declarations (hBuilt h).1).2⟩
  · obtain ⟨hBuilds, hDistinct⟩ := hBuilt h
    rw [Builds.names_eq hBuilds]
    exact ⟨(Builds.allLossless declarations hBuilds).1, hDistinct⟩
  · rintro ⟨hProper, hDistinct⟩
    obtain ⟨nodes, hBuilds⟩ := exists_forall₂ fun declaration hMem => (hProper declaration hMem).builds
    rw [Builds.names_eq hBuilds] at hDistinct
    have hTree : canonicalize declarations = (⟨nodes⟩, []) := canonicalize_ok_iff.mpr ⟨hBuilds, hDistinct⟩
    rw [hTree]

/-- A dialog with a type behind another attribute, and below it a command with an empty body and one that has
the name of its parent. -/
def nestedDialog : List Declaration :=
  [⟨"ask", "dialog", some ⟨10, 2, 1⟩, [⟨"size", .integer 3, none⟩, ⟨typeKey, .string "modal", none⟩],
    some [⟨"ask", "action", none, [], none⟩, ⟨"more", "group", none, [⟨"on", .bool true, none⟩], some []⟩]⟩]

theorem canonicalize_lossless_nested : (canonicalize nestedDialog).2 = [] ∧
    List.Forall₂ Mirrors nestedDialog (canonicalize nestedDialog).1.nodes :=
  have hNone : (canonicalize nestedDialog).2 = [] := by rfl
  ⟨hNone, (canonicalize_lossless nestedDialog).2 hNone⟩

end DialogTree
