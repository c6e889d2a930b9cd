import DialogTree.Proofs.Drafts
import DialogTree.Proofs.Rules.Forms
import DialogTree.Proofs.Violations

/-!
# Coercion under a schema

A schema that is built from rules declares every attribute once. The values of its attributes in accepted
form are accepted unchanged, so that a command in accepted form has the findings that it had before.
-/

namespace DialogTree

/-! ## Schemas that are built from rules -/

def SchemaDraft.Ruled (draft : SchemaDraft) : Prop :=
  ∀ entry ∈ draft.entries, ∃ rule, entry.check = .rule rule

section Ruled

variable [PatternEngine]

/-- Every schema is built from attributes that are declared under rules. -/
def Registry.Ruled (registry : Registry) : Prop :=
  ∀ entry ∈ registry.entries, ∃ draft : SchemaDraft, draft.Ruled ∧ draft.build = .ok entry.2

/-- Every attribute is declared once and checked by a rule. -/
structure Schema.Ruled (schema : Schema) : Prop where
  distinct : (schema.attributes.map AttributeSpec.name).Nodup
  ruled : ∀ spec ∈ schema.attributes, ∃ rule : Rule, spec.checker = rule.checker

theorem SchemaDraft.Ruled.build {draft : SchemaDraft} {schema : Schema} (hRuled : draft.Ruled)
    (h : draft.build = .ok schema) : schema.Ruled := by
  refine ⟨SchemaDraft.distinct_of_build h, fun spec hSpec => ?_⟩
  obtain ⟨-, rfl⟩ := SchemaDraft.build_ok_iff.mp h
  obtain ⟨entry, hEntry, rfl⟩ := List.mem_map.mp hSpec
  obtain ⟨rule, hRule⟩ := hRuled entry hEntry
  exact ⟨rule, by rw [SchemaEntry.compiled, hRule]⟩

theorem Registry.Ruled.lookup {registry : Registry} {keyword kind : String} {schema : Schema}
    (hRuled : registry.Ruled) (h : registry.lookup? keyword kind = some schema) : schema.Ruled := by
  obtain ⟨entry, hFound, rfl⟩ := Option.map_eq_some_iff.mp h
  obtain ⟨draft, hDraft, hBuild⟩ := hRuled entry (List.mem_of_find?_eq_some hFound)
  exact hDraft.build hBuild

end Ruled

/-! ## Values -/

section Values

variable {schema : Schema}

theorem Registry.coerceValue_undeclared {key : String} (h : ¬ schema.Declares key) (value : Value) :
    coerceValue schema key value = value := by
  rw [coerceValue, Option.isNone_iff_eq_none.mp (attribute?_isNone_iff.mpr h)]

variable [PatternEngine]

theorem attribute?_eq_some_iff (hRuled : schema.Ruled) {spec : AttributeSpec} {key : String} :
    schema.attribute? key = some spec ↔ spec ∈ schema.attributes ∧ spec.name = key := by
  constructor
  · intro h
    exact ⟨List.mem_of_find?_eq_some h, by simpa using List.find?_some h⟩
  · rintro ⟨hMem, rfl⟩
    cases hFound : schema.attribute? spec.name with
    | none => exact absurd ⟨spec, hMem, rfl⟩ (attribute?_isNone_iff.mp (Option.isNone_iff_eq_none.mpr hFound))
    | some other =>
      have hName : other.name = spec.name := by simpa using List.find?_some hFound
      rw [List.inj_on_of_nodup_map hRuled.distinct (List.mem_of_find?_eq_some hFound) hMem hName]

theorem Schema.Ruled.check_accepted (hRuled : schema.Ruled) {spec : AttributeSpec} {value accepted : Value}
    (hSpec : spec ∈ schema.attributes) (h : spec.checker.check value = .ok accepted) :
    spec.checker.check accepted = .ok accepted := by
  obtain ⟨rule, hRule⟩ := hRuled.ruled spec hSpec
  rw [hRule] at h ⊢
  exact Rule.check_accepted h

namespace Registry

theorem coerceValue_accepted (hRuled : schema.Ruled) {spec : AttributeSpec} {value accepted : Value}
    (hSpec : spec ∈ schema.attributes) (hCheck : spec.checker.check value = .ok accepted) :
    coerceValue schema spec.name value = accepted := by
  rw [coerceValue, (attribute?_eq_some_iff hRuled).mpr ⟨hSpec, rfl⟩]
  simp only [hCheck]

theorem coerceValue_rejected (hRuled : schema.Ruled) {spec : AttributeSpec} {value : Value} {reason : CheckError}
    (hSpec : spec ∈ schema.attributes) (hCheck : spec.checker.check value = .error reason) :
    coerceValue schema spec.name value = value := by
  rw [coerceValue, (attribute?_eq_some_iff hRuled).mpr ⟨hSpec, rfl⟩]
  simp only [hCheck]

/-- A checker says the same of a value and of its coerced form. -/
theorem check_coerceValue (hRuled : schema.Ruled) {spec : AttributeSpec} (hSpec : spec ∈ schema.attributes)
    (value : Value) : spec.checker.check (coerceValue schema spec.name value) = spec.checker.check value := by
  cases hCheck : spec.checker.check value with
  | ok accepted => rw [coerceValue_accepted hRuled hSpec hCheck, hRuled.check_accepted hSpec hCheck]
  | error reason => rw [coerceValue_rejected hRuled hSpec hCheck, hCheck]

theorem coerceValue_coerceValue (hRuled : schema.Ruled) (key : String) (value : Value) :
    coerceValue schema key (coerceValue schema key value) = coerceValue schema key value := by
  by_cases hDeclared : schema.Declares key
  · obtain ⟨spec, hSpec, rfl⟩ := hDeclared
    cases hCheck : spec.checker.check value with
    | ok accepted =>
      rw [coerceValue_accepted hRuled hSpec hCheck,
        coerceValue_accepted hRuled hSpec (hRuled.check_accepted hSpec hCheck)]
    | error reason => rw [coerceValue_rejected hRuled hSpec hCheck, coerceValue_rejected hRuled hSpec hCheck]
  · rw [coerceValue_undeclared hDeclared, coerceValue_undeclared hDeclared]

end Registry

end Values

/-! ## Commands -/

variable {schema : Schema} {registry : Registry} {node coerced : Node} {mode : ValidationMode} {path : String}

/-- The second command is the first with its attributes in coerced form, up to what lies below it. -/
structure CoercedHead (registry : Registry) (node coerced : Node) : Prop where
  keyword : coerced.keyword = node.keyword
  kind : coerced.kind = node.kind
  attributes : coerced.attributes = registry.coerceAttributes node
  count : coerced.childCount = node.childCount
  position : coerced.position = node.position

namespace CoercedHead

theorem schemaOf? (h : CoercedHead registry node coerced) : registry.schemaOf? coerced = registry.schemaOf? node := by
  rw [Registry.schemaOf?, Node.schemaType, h.keyword, h.kind]
  rfl

theorem keys (h : CoercedHead registry node coerced) : coerced.attributes.keys = node.attributes.keys := by
  rw [h.attributes, Registry.coerceAttributes]
  split
  · rfl
  · exact AttributeMap.keys_mapValues _ _

variable [PatternEngine]

theorem findings (h : CoercedHead registry node coerced) (hSchema : registry.schemaOf? node = some schema)
    (hRuled : schema.Ruled) {spec : AttributeSpec} (hSpec : spec ∈ schema.attributes) :
    spec.findings path coerced = spec.findings path node := by
  have hAttributes : coerced.attributes = node.attributes.mapValues (Registry.coerceValue schema) := by
    rw [h.attributes, Registry.coerceAttributes, hSchema]
  rw [AttributeSpec.findings, AttributeSpec.findings, hAttributes, AttributeMap.get?_mapValues, h.position]
  cases node.attributes.get? spec.name with
  | none => rfl
  | some value => simp only [Option.map_some, Registry.check_coerceValue hRuled hSpec]

theorem nodeReport (h : CoercedHead registry node coerced) (hRuled : registry.Ruled) :
    registry.nodeReport mode path coerced = registry.nodeReport mode path node := by
  rw [Registry.nodeReport, Registry.nodeReport, h.schemaOf?]
  cases hSchema : registry.schemaOf? node with
  | none => simp only [h.keyword, Node.schemaType, h.kind, h.position]
  | some schema =>
    have hDeclared : (schema.attributes.flatMap fun spec => spec.findings path coerced) =
        schema.attributes.flatMap fun spec => spec.findings path node :=
      List.flatMap_congr fun spec hSpec => h.findings hSchema (hRuled.lookup hSchema) hSpec
    simp only [Schema.report, hDeclared, Schema.undeclaredReport, Schema.undeclared, h.keys, h.position,
      Schema.childErrors, h.count]

end CoercedHead

end DialogTree
