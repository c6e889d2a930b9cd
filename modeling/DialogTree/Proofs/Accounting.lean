import DialogTree.Proofs.Drafts
import DialogTree.Proofs.Leniency

/-!
# Attributes accounted for

The declarations of a schema and the attributes of a command are gone through one after the other. Names are distinct
on both sides, so that what is reported about one attribute is the finding of its declaration, or else the one finding
that nothing declares it.
-/

namespace DialogTree

/-! ## What a report says about one attribute -/

namespace Report

def about (report : Report) (key : String) : Report :=
  ⟨report.errors.filter fun error => error.attribute? = some key,
    report.warnings.filter fun warning => warning.name = key⟩

/-- The number of attributes that are reported as undeclared. -/
def extraCount (report : Report) : Nat :=
  report.errors.countP ValidationError.isExtra + report.warnings.length

structure OnlyAbout (report : Report) (key : String) : Prop where
  errors : ∀ error ∈ report.errors, error.attribute? = some key
  warnings : ∀ warning ∈ report.warnings, warning.name = key

variable {a b report : Report} {key other : String}

theorem about_append (a b : Report) (key : String) : (a ++ b).about key = a.about key ++ b.about key :=
  ext_of (List.filter_append _ _) (List.filter_append _ _)

theorem extraCount_append (a b : Report) : (a ++ b).extraCount = a.extraCount + b.extraCount := by
  rw [extraCount, extraCount, extraCount, errors_append, warnings_append, List.countP_append, List.length_append]
  omega

theorem extraCount_ofErrors {errors : List ValidationError} (h : ∀ error ∈ errors, error.isExtra = false) :
    (ofErrors errors).extraCount = 0 := by
  refine Nat.add_eq_zero_iff.mpr ⟨List.countP_eq_zero.mpr fun error hError => ?_, rfl⟩
  rw [h error hError]
  exact Bool.false_ne_true

theorem OnlyAbout.about_self (h : report.OnlyAbout key) : report.about key = report :=
  ext_of (List.filter_eq_self.mpr fun error hError => decide_eq_true (h.errors error hError))
    (List.filter_eq_self.mpr fun warning hWarning => decide_eq_true (h.warnings warning hWarning))

theorem OnlyAbout.about_other (h : report.OnlyAbout key) (hOther : other ≠ key) : report.about other = .empty := by
  refine ext_of (List.filter_eq_nil_iff.mpr fun error hError hNames => ?_)
    (List.filter_eq_nil_iff.mpr fun warning hWarning hNames => ?_)
  · exact hOther (Option.some.inj ((of_decide_eq_true hNames).symm.trans (h.errors error hError)))
  · exact hOther ((of_decide_eq_true hNames).symm.trans (h.warnings warning hWarning))

section Joined

variable {α : Type} {f : α → Report} {name : α → String} {items : List α}

theorem about_joined_of_not_mem (hOwn : ∀ a ∈ items, (f a).OnlyAbout (name a)) (hKey : key ∉ items.map name) :
    (joined f items).about key = .empty := by
  induction items with
  | nil => rfl
  | cons a items ih =>
    rw [List.map_cons, List.mem_cons, not_or] at hKey
    rw [List.forall_mem_cons] at hOwn
    rw [joined_cons, about_append, hOwn.1.about_other hKey.1, ih hOwn.2 hKey.2, append_empty]

theorem about_joined (hOwn : ∀ a ∈ items, (f a).OnlyAbout (name a)) (hDistinct : (items.map name).Nodup) {a : α}
    (ha : a ∈ items) : (joined f items).about (name a) = f a := by
  induction items with
  | nil => cases ha
  | cons first items ih =>
    rw [List.map_cons, List.nodup_cons] at hDistinct
    rw [List.forall_mem_cons] at hOwn
    rw [joined_cons, about_append]
    rcases List.mem_cons.mp ha with rfl | ha
    · rw [hOwn.1.about_self, about_joined_of_not_mem hOwn.2 hDistinct.1, append_empty]
    · have hOther : name a ≠ name first := fun hSame => hDistinct.1 (hSame ▸ List.mem_map_of_mem ha)
      rw [hOwn.1.about_other hOther, ih hOwn.2 hDistinct.2 ha, empty_append]

end Joined

end Report

/-! ## The findings of one command -/

variable {schema : Schema} {mode : ValidationMode} {path key : String} {node : Node}

theorem findings_onlyAbout (spec : AttributeSpec) :
    (Report.ofErrors (spec.findings path node)).OnlyAbout spec.name := by
  refine ⟨fun error hError => ?_, fun warning hWarning => absurd hWarning List.not_mem_nil⟩
  change error ∈ spec.findings path node at hError
  rw [AttributeSpec.findings] at hError
  split at hError
  · split at hError
    · cases hError
    · rw [List.mem_singleton.mp hError]
      rfl
  · split at hError
    · rw [List.mem_singleton.mp hError]
      rfl
    · cases hError

theorem undeclaredEntry_onlyAbout (entry : String × Value) :
    (schema.undeclaredEntry mode path node entry).OnlyAbout entry.1 := by
  unfold Schema.undeclaredEntry
  split
  · cases mode with
    | strict => exact ⟨by simp [ValidationError.attribute?], by simp⟩
    | lenient => exact ⟨by simp, by simp⟩
  · exact ⟨by simp, by simp⟩

theorem childErrors_about : (Report.ofErrors (schema.childErrors path node)).about key = .empty := by
  refine Report.ext_of (List.filter_eq_nil_iff.mpr fun error hError hNames => ?_) rfl
  change error ∈ schema.childErrors path node at hError
  rw [Schema.childErrors] at hError
  split at hError
  · cases hError
  · split at hError
    · cases hError
    · rw [List.mem_singleton.mp hError] at hNames
      cases of_decide_eq_true hNames

theorem report_about (schema : Schema) (mode : ValidationMode) (path : String) (node : Node) (key : String) :
    (schema.report mode path node).about key =
      (Report.joined (fun spec => .ofErrors (AttributeSpec.findings spec path node)) schema.attributes).about key ++
        (Report.joined (schema.undeclaredEntry mode path node) node.attributes.entries).about key := by
  rw [Schema.report, declaredReport_eq, undeclaredReport_eq, Report.about_append, Report.about_append,
    childErrors_about, Report.append_empty]

theorem declares_iff : schema.Declares key ↔ key ∈ schema.attributes.map AttributeSpec.name := by
  rw [Schema.Declares, List.mem_map]

theorem report_about_declared (hDistinct : (schema.attributes.map AttributeSpec.name).Nodup) {spec : AttributeSpec}
    (hSpec : spec ∈ schema.attributes) :
    (schema.report mode path node).about spec.name = .ofErrors (spec.findings path node) := by
  have hUndeclared : (Report.joined (schema.undeclaredEntry mode path node) node.attributes.entries).about spec.name =
      .empty := by
    by_cases hCarried : spec.name ∈ node.attributes.keys
    · obtain ⟨entry, hEntry, hName⟩ := List.mem_map.mp hCarried
      have hKnown : schema.undeclaredEntry mode path node entry = .empty := by
        refine if_neg fun hTest => (undeclared_test_iff.mp hTest).2 ⟨spec, hSpec, hName.symm⟩
      rw [← hName, Report.about_joined (fun entry _ => undeclaredEntry_onlyAbout entry) node.attributes.nodup hEntry,
        hKnown]
    · exact Report.about_joined_of_not_mem (fun entry _ => undeclaredEntry_onlyAbout entry) hCarried
  rw [report_about, hUndeclared, Report.append_empty]
  exact Report.about_joined (fun spec _ => findings_onlyAbout spec) hDistinct hSpec

theorem report_about_other (hUndeclared : ¬ schema.Declares key) : (schema.report mode path node).about key =
    (Report.joined (schema.undeclaredEntry mode path node) node.attributes.entries).about key := by
  rw [report_about, Report.about_joined_of_not_mem (fun spec _ => findings_onlyAbout spec)
    (declares_iff.not.mp hUndeclared), Report.empty_append]

/-- What is reported about any other attribute is what the attribute itself is reported for. -/
theorem report_about_undeclared (hUndeclared : ¬ schema.Declares key) {value : Value}
    (hCarries : node.Carries key value) :
    (schema.report mode path node).about key = schema.undeclaredEntry mode path node (key, value) := by
  rw [report_about_other hUndeclared]
  have hOwn : ∀ entry ∈ node.attributes.entries,
      (schema.undeclaredEntry mode path node entry).OnlyAbout (Prod.fst entry) :=
    fun entry _ => undeclaredEntry_onlyAbout entry
  exact Report.about_joined hOwn node.attributes.nodup hCarries

theorem report_about_unknown (hUndeclared : ¬ schema.Declares key) (hAbsent : ∀ value, ¬ node.Carries key value) :
    (schema.report mode path node).about key = .empty := by
  have hKey : key ∉ node.attributes.entries.map Prod.fst := by
    intro hMem
    obtain ⟨⟨_, value⟩, hEntry, rfl⟩ := List.mem_map.mp hMem
    exact hAbsent value hEntry
  rw [report_about_other hUndeclared]
  exact Report.about_joined_of_not_mem (fun entry _ => undeclaredEntry_onlyAbout entry) hKey

/-! ## Counting -/

/-- Undeclared attributes are errors in one mode and warnings in the other, and nothing else counts. -/
theorem extraCount_report : (schema.report mode path node).extraCount = (schema.undeclared node).length := by
  have hDeclared : ∀ error ∈ schema.attributes.flatMap fun spec => spec.findings path node, error.isExtra = false := by
    intro error hError
    obtain ⟨spec, -, hFinding⟩ := List.mem_flatMap.mp hError
    exact findings_not_extra error hFinding
  have hExtras : (schema.undeclaredReport mode path node).extraCount = (schema.undeclared node).length := by
    cases mode with
    | strict =>
      change ((schema.undeclared node).map _).countP _ + 0 = _
      rw [List.countP_map, Nat.add_zero]
      exact List.countP_eq_length.mpr fun _ _ => rfl
    | lenient =>
      change 0 + ((schema.undeclared node).map _).length = _
      rw [List.length_map, Nat.zero_add]
  rw [Schema.report, Report.extraCount_append, Report.extraCount_append, Report.extraCount_ofErrors hDeclared,
    Report.extraCount_ofErrors childErrors_not_extra, hExtras, Nat.zero_add, Nat.add_zero]

/-- The declared attributes that a command carries, as its schema lists them. -/
def Schema.present (schema : Schema) (node : Node) : List AttributeSpec :=
  schema.attributes.filter fun spec => node.attributes.contains spec.name

theorem present_perm (hDistinct : (schema.attributes.map AttributeSpec.name).Nodup) :
    ((schema.present node).map AttributeSpec.name).Perm
      (node.attributes.keys.filter fun key => (schema.attribute? key).isSome) := by
  have hPresent : ((schema.present node).map AttributeSpec.name).Nodup :=
    hDistinct.sublist (List.filter_sublist.map _)
  refine (List.perm_ext_iff_of_nodup hPresent (node.attributes.nodup.filter _)).mpr fun key => ?_
  have hSome : (schema.attribute? key).isSome = true ↔ schema.Declares key := by
    rw [← not_iff_not, ← attribute?_isNone_iff]
    simp
  rw [List.mem_map, List.mem_filter, hSome, Schema.Declares]
  constructor
  · rintro ⟨spec, hSpec, rfl⟩
    obtain ⟨hSpec, hCarried⟩ := List.mem_filter.mp hSpec
    exact ⟨AttributeMap.contains_iff.mp hCarried, spec, hSpec, rfl⟩
  · rintro ⟨hCarried, spec, hSpec, rfl⟩
    exact ⟨spec, List.mem_filter.mpr ⟨hSpec, AttributeMap.contains_iff.mpr hCarried⟩, rfl⟩

theorem length_undeclared_add (hDistinct : (schema.attributes.map AttributeSpec.name).Nodup)
    (hOrdinary : ∀ key ∈ node.attributes.keys, key ∉ structuralKeys) :
    (schema.undeclared node).length + (schema.present node).length = node.attributes.size := by
  have hUndeclared : schema.undeclared node =
      node.attributes.keys.filter fun key => !(schema.attribute? key).isSome := by
    refine List.filter_congr fun key hKey => ?_
    have hNot : structuralKeys.contains key = false := by
      rw [← Bool.not_eq_true, List.contains_iff_mem]
      exact hOrdinary key hKey
    rw [hNot]
    cases schema.attribute? key <;> rfl
  have hPresent : (schema.present node).length =
      (node.attributes.keys.filter fun key => (schema.attribute? key).isSome).length := by
    rw [← (present_perm hDistinct).length_eq, List.length_map]
  rw [hUndeclared, hPresent, Nat.add_comm, ← List.length_eq_length_filter_add]
  exact List.length_map _

/-! ## Accounts -/

/-- Each attribute of a command has its one finding or none in the report. A declared one has the finding of its
declaration: the reason of its checker, or that it is missing. One that is not declared is an error or a warning once.
Nothing else is named. The undeclared attributes are those that are left beside the declared ones. -/
structure AccountedOnce (schema : Schema) (mode : ValidationMode) (path : String) (node : Node) (report : Report) :
    Prop where
  declared : ∀ spec ∈ schema.attributes, DeclaredFinding path node spec (report.about spec.name)
  undeclared : ∀ key value, node.Carries key value → ¬ schema.Declares key →
    report.about key =
      match mode with
      | .strict => ⟨[.extraAttribute path key node.position], []⟩
      | .lenient => ⟨[], [⟨path, key, node.position⟩]⟩
  unknown : ∀ key, (∀ value, ¬ node.Carries key value) → ¬ schema.Declares key → report.about key = .empty
  count : report.extraCount + (schema.present node).length = node.attributes.size

/-- Under a schema that was built from declarations, a command without structural keys among its attributes has each
of them accounted for once, in either mode. -/
theorem nodeReport_accounts [PatternEngine] {registry : Registry} {draft : SchemaDraft} (mode : ValidationMode) (path : String)
    (hSchema : registry.schemaOf? node = some schema) (hBuilt : draft.build = .ok schema)
    (hOrdinary : ∀ key ∈ node.attributes.keys, key ∉ structuralKeys) :
    AccountedOnce schema mode path node (registry.nodeReport mode path node) := by
  have hReport : registry.nodeReport mode path node = schema.report mode path node := by
    rw [Registry.nodeReport, hSchema]
  have hDistinct := SchemaDraft.distinct_of_build hBuilt
  rw [hReport]
  refine ⟨?_, ?_, ?_, ?_⟩
  · intro spec hSpec
    exact declaredFinding_iff.mpr (report_about_declared hDistinct hSpec)
  · intro key value hCarries hUndeclared
    have hKey : key ∉ structuralKeys := hOrdinary key (List.mem_map_of_mem hCarries)
    rw [report_about_undeclared hUndeclared hCarries]
    exact if_pos (undeclared_test_iff.mpr ⟨hKey, hUndeclared⟩)
  · exact fun key hAbsent hUndeclared => report_about_unknown hUndeclared hAbsent
  · rw [extraCount_report]
    exact length_undeclared_add hDistinct hOrdinary

/-- A message that is required, a title that is required, and a width that may be given. -/
def noticeDraft : SchemaDraft :=
  SchemaDraft.empty.require "message" .nonEmpty |>.require "title" (.string .any)
    |>.allow "width" (.integer .any)

def noticeSchema [PatternEngine] : Schema :=
  ⟨noticeDraft.entries.map SchemaEntry.compiled, none⟩

/-- An empty message, a width, no title, and a color that is not declared. -/
def coloredNotice : Node :=
  ⟨"dialog", some "notice", .ofList [("color", .string "red"), ("message", .string ""), ("width", .integer 3)],
    none, none⟩

theorem nodeReport_accounts_notice :
    letI := Pattern.engine
    Registry.schemaOf? ⟨[(⟨"dialog", "notice"⟩, noticeSchema)], true⟩ coloredNotice = some noticeSchema ∧
    noticeDraft.build = .ok noticeSchema ∧
    (∀ key ∈ coloredNotice.attributes.keys, key ∉ structuralKeys) ∧
    AccountedOnce noticeSchema .lenient "d" coloredNotice
      (Registry.nodeReport ⟨[(⟨"dialog", "notice"⟩, noticeSchema)], true⟩ .lenient "d" coloredNotice) := by
  let _ := Pattern.engine
  have hSchema : Registry.schemaOf? ⟨[(⟨"dialog", "notice"⟩, noticeSchema)], true⟩ coloredNotice =
      some noticeSchema := rfl
  have hOrdinary : ∀ key ∈ coloredNotice.attributes.keys, key ∉ structuralKeys := by decide +kernel
  have hBuilt : noticeDraft.build = .ok noticeSchema := by rfl
  exact ⟨hSchema, hBuilt, hOrdinary, nodeReport_accounts .lenient "d" hSchema hBuilt hOrdinary⟩

end DialogTree
