import DialogTree.Proofs.Violations

/-!
# Strict and lenient reports

The two modes report the same about a tree except for undeclared attributes: what is an error in the strict
report is a warning in the lenient one. Both reports join those of the commands, so that it is enough to
compare them command by command.
-/

namespace DialogTree

def ValidationError.isExtra : ValidationError → Bool
  | extraAttribute _ _ _ => true
  | _ => false

def ValidationWarning.toError (warning : ValidationWarning) : ValidationError :=
  .extraAttribute warning.path warning.name warning.position

namespace Report

/-- The second report has warnings in place of the first one's errors about undeclared attributes. -/
structure Softens (strict lenient : Report) : Prop where
  unwarned : strict.warnings = []
  errors : lenient.errors = strict.errors.filter fun error => !error.isExtra
  warnings : lenient.warnings.map ValidationWarning.toError = strict.errors.filter ValidationError.isExtra

theorem softens_empty : empty.Softens empty :=
  ⟨rfl, rfl, rfl⟩

theorem softens_ofErrors {errors : List ValidationError} (h : ∀ error ∈ errors, error.isExtra = false) :
    (ofErrors errors).Softens (ofErrors errors) where
  unwarned := rfl
  errors := (List.filter_eq_self.mpr fun error hMem => by simp [h error hMem]).symm
  warnings := (List.filter_eq_nil_iff.mpr fun error hMem => by simp [h error hMem]).symm

theorem Softens.append {a b c d : Report} (hFirst : a.Softens b) (hRest : c.Softens d) : (a ++ c).Softens (b ++ d) where
  unwarned := by rw [warnings_append, hFirst.unwarned, hRest.unwarned, List.append_nil]
  errors := by rw [errors_append, errors_append, List.filter_append, hFirst.errors, hRest.errors]
  warnings := by
    rw [warnings_append, errors_append, List.filter_append, List.map_append, hFirst.warnings, hRest.warnings]

theorem softens_joined {α : Type} {f g : α → Report} {items : List α} (h : ∀ a ∈ items, (f a).Softens (g a)) :
    (joined f items).Softens (joined g items) := by
  induction items with
  | nil => exact softens_empty
  | cons a items ih =>
    rw [List.forall_mem_cons] at h
    rw [joined_cons, joined_cons]
    exact h.1.append (ih h.2)

/-- Without an error in the strict report there is nothing in the lenient one. -/
theorem Softens.errors_eq_nil_iff {strict lenient : Report} (h : strict.Softens lenient) :
    strict.errors = [] ↔ lenient.errors = [] ∧ lenient.warnings = [] := by
  constructor
  · intro hNone
    have hErrors := h.errors
    have hWarnings := h.warnings
    rw [hNone] at hErrors hWarnings
    exact ⟨hErrors, List.map_eq_nil_iff.mp hWarnings⟩
  · rintro ⟨hErrors, hWarnings⟩
    have hOthers := h.errors.symm.trans hErrors
    have hExtras := h.warnings.symm.trans (congrArg (List.map ValidationWarning.toError) hWarnings)
    rw [List.filter_eq_nil_iff] at hOthers
    rw [List.map_nil, List.filter_eq_nil_iff] at hExtras
    refine List.eq_nil_iff_forall_not_mem.mpr fun error hMem => ?_
    exact hOthers error hMem (by simpa using hExtras error hMem)

end Report

/-! ## The reports of one command -/

variable {schema : Schema} {path : String} {node : Node}

theorem findings_not_extra {spec : AttributeSpec} : ∀ error ∈ spec.findings path node, error.isExtra = false := by
  intro error hMem
  rw [AttributeSpec.findings] at hMem
  split at hMem
  · split at hMem
    · cases hMem
    · obtain rfl := List.mem_singleton.mp hMem
      rfl
  · split at hMem
    · obtain rfl := List.mem_singleton.mp hMem
      rfl
    · cases hMem

theorem childErrors_not_extra : ∀ error ∈ schema.childErrors path node, error.isExtra = false := by
  intro error hMem
  rw [Schema.childErrors] at hMem
  split at hMem
  · cases hMem
  · split at hMem
    · cases hMem
    · obtain rfl := List.mem_singleton.mp hMem
      rfl

theorem undeclaredReport_softens :
    (schema.undeclaredReport .strict path node).Softens (schema.undeclaredReport .lenient path node) := by
  have hExtras : ∀ error ∈ (schema.undeclared node).map (ValidationError.extraAttribute path · node.position),
      error.isExtra = true := by
    simp [ValidationError.isExtra]
  refine ⟨rfl, ?_, ?_⟩
  · exact (List.filter_eq_nil_iff.mpr fun error hMem => by simp [hExtras error hMem]).symm
  · exact List.map_map.trans (List.filter_eq_self.mpr hExtras).symm

theorem report_softens : (schema.report .strict path node).Softens (schema.report .lenient path node) := by
  have hDeclared : ∀ error ∈ schema.attributes.flatMap fun spec => spec.findings path node, error.isExtra = false := by
    intro error hMem
    obtain ⟨spec, -, hFinding⟩ := List.mem_flatMap.mp hMem
    exact findings_not_extra error hFinding
  exact ((Report.softens_ofErrors hDeclared).append undeclaredReport_softens).append
    (Report.softens_ofErrors childErrors_not_extra)

theorem nodeReport_softens (registry : Registry) :
    (registry.nodeReport .strict path node).Softens (registry.nodeReport .lenient path node) := by
  unfold Registry.nodeReport
  cases registry.schemaOf? node with
  | none => exact Report.softens_ofErrors (by simp [ValidationError.isExtra])
  | some schema => exact report_softens

/-! ## The reports of a tree -/

theorem validate_softens (registry : Registry) (tree : Tree) :
    (registry.validate .strict tree).Softens (registry.validate .lenient tree) := by
  rw [validate_eq, validate_eq]
  exact Report.softens_joined fun command _ => nodeReport_softens registry

/-- A strict report has no warnings. The lenient report of the same tree keeps its errors but for those about
undeclared attributes, and has one warning for each of these, in order. A tree that is valid in strict mode
is the same as one that is valid without warnings in lenient mode. -/
theorem strict_lenient_differ_in_extras (registry : Registry) (tree : Tree) :
    (registry.validate .strict tree).warnings = [] ∧
    (registry.validate .lenient tree).errors =
      (registry.validate .strict tree).errors.filter (fun error => !error.isExtra) ∧
    (registry.validate .lenient tree).warnings.map ValidationWarning.toError =
      (registry.validate .strict tree).errors.filter ValidationError.isExtra ∧
    ((registry.validate .strict tree).errors = [] ↔
      (registry.validate .lenient tree).errors = [] ∧ (registry.validate .lenient tree).warnings = []) := by
  have h := validate_softens registry tree
  exact ⟨h.unwarned, h.errors, h.warnings, h.errors_eq_nil_iff⟩

end DialogTree
