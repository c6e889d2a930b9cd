import DialogTree.Proofs.Tree.PreOrder
import DialogTree.Validation

/-!
# The contract violations of a tree

What one command is reported for is stated by relations between a command and its findings. The report of a
tree joins the findings of its commands in pre-order, and nothing else.
-/

namespace DialogTree

/-! ## The findings of one command -/

def Node.Carries (node : Node) (key : String) (value : Value) : Prop :=
  (key, value) ∈ node.attributes.entries

def Schema.Declares (schema : Schema) (key : String) : Prop :=
  ∃ spec ∈ schema.attributes, spec.name = key

/-- What a declared attribute is reported for. -/
inductive DeclaredFinding (path : String) (node : Node) (spec : AttributeSpec) : Report → Prop where
  | accepted {value accepted : Value} (hCarries : node.Carries spec.name value)
      (hCheck : spec.checker.check value = .ok accepted) : DeclaredFinding path node spec .empty
  | rejected {value : Value} {reason : CheckError} (hCarries : node.Carries spec.name value)
      (hCheck : spec.checker.check value = .error reason) :
      DeclaredFinding path node spec ⟨[.invalidAttribute path spec.name reason node.position], []⟩
  | missing (hAbsent : ∀ value, ¬ node.Carries spec.name value) (hRequired : spec.required = true) :
      DeclaredFinding path node spec ⟨[.missingAttribute path spec.name node.position], []⟩
  | omitted (hAbsent : ∀ value, ¬ node.Carries spec.name value) (hOptional : spec.required = false) :
      DeclaredFinding path node spec .empty

/-- What an attribute of a command is reported for when its schema does not declare it. -/
inductive UndeclaredFinding (schema : Schema) (path : String) (node : Node) :
    ValidationMode → String × Value → Report → Prop where
  | known {mode : ValidationMode} {key : String} {value : Value}
      (hKnown : key ∈ structuralKeys ∨ schema.Declares key) :
      UndeclaredFinding schema path node mode (key, value) .empty
  | extra {key : String} {value : Value} (hStructural : key ∉ structuralKeys)
      (hUndeclared : ¬ schema.Declares key) :
      UndeclaredFinding schema path node .strict (key, value) ⟨[.extraAttribute path key node.position], []⟩
  | warned {key : String} {value : Value} (hStructural : key ∉ structuralKeys)
      (hUndeclared : ¬ schema.Declares key) :
      UndeclaredFinding schema path node .lenient (key, value) ⟨[], [⟨path, key, node.position⟩]⟩

/-- The number of commands directly below a command; without a body there is none. -/
inductive Node.HasChildren (node : Node) : Nat → Prop where
  | bare (hBody : node.children = none) : node.HasChildren 0
  | body {children : Tree} (hBody : node.children = some children) :
      node.HasChildren children.nodes.length

def ChildBounds.Allows (bounds : ChildBounds) (count : Nat) : Prop :=
  bounds.min ≤ count ∧ ∀ max ∈ bounds.max, count ≤ max

inductive ChildFinding (schema : Schema) (path : String) (node : Node) : Report → Prop where
  | unbounded (hBounds : schema.children = none) : ChildFinding schema path node .empty
  | allowed {bounds : ChildBounds} {count : Nat} (hBounds : schema.children = some bounds)
      (hCount : node.HasChildren count) (hAllowed : bounds.Allows count) :
      ChildFinding schema path node .empty
  | violated {bounds : ChildBounds} {count : Nat} (hBounds : schema.children = some bounds)
      (hCount : node.HasChildren count) (hViolated : ¬ bounds.Allows count) :
      ChildFinding schema path node ⟨[.childCount path bounds count node.position], []⟩

/-- The findings of the items of a list, joined in their order. -/
inductive InOrder {α : Type} (Finding : α → Report → Prop) : List α → Report → Prop where
  | nil : InOrder Finding [] .empty
  | cons {a : α} {items : List α} {first rest : Report} (hFirst : Finding a first)
      (hRest : InOrder Finding items rest) : InOrder Finding (a :: items) (first ++ rest)

/-- What a command is reported for: it has no schema, or its declared attributes come first, then its
undeclared ones, then its children. -/
inductive CommandFinding (registry : Registry) (mode : ValidationMode) : List String × Node → Report → Prop where
  | unknown {names : List String} {node : Node} (hSchema : registry.lookup? node.keyword (node.kind.getD "") = none) :
      CommandFinding registry mode (names, node)
        ⟨[.unknownSchema (".".intercalate names) ⟨node.keyword, node.kind.getD ""⟩ node.position], []⟩
  | known {names : List String} {node : Node} {schema : Schema} {declared undeclared children : Report}
      (hSchema : registry.lookup? node.keyword (node.kind.getD "") = some schema)
      (hDeclared : InOrder (DeclaredFinding (".".intercalate names) node) schema.attributes declared)
      (hUndeclared : InOrder (UndeclaredFinding schema (".".intercalate names) node mode)
        node.attributes.entries undeclared)
      (hChildren : ChildFinding schema (".".intercalate names) node children) :
      CommandFinding registry mode (names, node) (declared ++ undeclared ++ children)

/-- The command obeys its schema: required attributes are there, declared ones are accepted, there are no
others, and the children are as many as they may be. -/
structure Meets (schema : Schema) (node : Node) : Prop where
  present : ∀ spec ∈ schema.attributes, spec.required = true → ∃ value, node.Carries spec.name value
  accepted : ∀ spec ∈ schema.attributes, ∀ value, node.Carries spec.name value →
    ∃ result, spec.checker.check value = .ok result
  declared : ∀ key value, node.Carries key value → key ∈ structuralKeys ∨ schema.Declares key
  children : ∀ bounds ∈ schema.children, ∀ count, node.HasChildren count → bounds.Allows count

/-! ## Joining reports -/

namespace Report

@[simp] theorem errors_append (a b : Report) : (a ++ b).errors = a.errors ++ b.errors := rfl

@[simp] theorem warnings_append (a b : Report) : (a ++ b).warnings = a.warnings ++ b.warnings := rfl

@[simp] theorem errors_empty : empty.errors = [] := rfl

@[simp] theorem warnings_empty : empty.warnings = [] := rfl

theorem ext_of {a b : Report} (hErrors : a.errors = b.errors) (hWarnings : a.warnings = b.warnings) :
    a = b := by
  cases a; cases b; simp_all

@[simp] theorem append_empty (a : Report) : a ++ empty = a :=
  ext_of (by simp) (by simp)

@[simp] theorem empty_append (a : Report) : empty ++ a = a :=
  ext_of (by simp) (by simp)

theorem append_assoc (a b c : Report) : a ++ b ++ c = a ++ (b ++ c) :=
  ext_of (by simp) (by simp)

def joined {α : Type} (f : α → Report) (items : List α) : Report :=
  ⟨items.flatMap fun a => (f a).errors, items.flatMap fun a => (f a).warnings⟩

variable {α : Type} {f : α → Report} {a : α} {items : List α}

@[simp] theorem joined_nil : joined f [] = empty := rfl

@[simp] theorem joined_cons : joined f (a :: items) = f a ++ joined f items := rfl

theorem joined_append (items others : List α) : joined f (items ++ others) = joined f items ++ joined f others :=
  ext_of (by simp [joined]) (by simp [joined])

end Report

/-- Where each finding is unique, so is the joined report. -/
theorem inOrder_iff {α : Type} {Finding : α → Report → Prop} {f : α → Report} {items : List α}
    {report : Report} (h : ∀ a ∈ items, ∀ r, Finding a r ↔ r = f a) :
    InOrder Finding items report ↔ report = Report.joined f items := by
  induction items generalizing report with
  | nil =>
    constructor
    · intro hNil
      cases hNil
      rfl
    · rintro rfl
      exact .nil
  | cons a items ih =>
    have hItems := fun b hb => h b (List.mem_cons_of_mem a hb)
    constructor
    · intro hCons
      cases hCons with
      | cons hFirst hRest =>
        rw [(h a List.mem_cons_self _).mp hFirst, (ih hItems).mp hRest, Report.joined_cons]
    · rintro rfl
      exact .cons ((h a List.mem_cons_self _).mpr rfl) ((ih hItems).mpr rfl)

/-! ## The findings are what the validator reports -/

variable {registry : Registry} {mode : ValidationMode} {schema : Schema} {path : String} {node : Node}
  {report : Report}

theorem declaredFinding_iff {spec : AttributeSpec} :
    DeclaredFinding path node spec report ↔ report = .ofErrors (spec.findings path node) := by
  constructor
  · intro h
    cases h with
    | accepted hCarries hCheck =>
      rw [AttributeSpec.findings, AttributeMap.get?_eq_some_iff.mpr hCarries]
      simp only [hCheck]
      rfl
    | rejected hCarries hCheck =>
      rw [AttributeSpec.findings, AttributeMap.get?_eq_some_iff.mpr hCarries]
      simp only [hCheck]
      rfl
    | missing hAbsent hRequired =>
      rw [AttributeSpec.findings, AttributeMap.get?_eq_none_iff.mpr hAbsent]
      simp only [hRequired, if_true]
      rfl
    | omitted hAbsent hOptional =>
      rw [AttributeSpec.findings, AttributeMap.get?_eq_none_iff.mpr hAbsent]
      simp only [hOptional]
      rfl
  · rintro rfl
    rw [AttributeSpec.findings]
    cases hValue : node.attributes.get? spec.name with
    | some value =>
      have hCarries : node.Carries spec.name value := AttributeMap.get?_eq_some_iff.mp hValue
      cases hCheck : spec.checker.check value with
      | ok accepted =>
        simp only [hCheck]
        exact .accepted hCarries hCheck
      | error reason =>
        simp only [hCheck]
        exact .rejected hCarries hCheck
    | none =>
      have hAbsent : ∀ value, ¬ node.Carries spec.name value := AttributeMap.get?_eq_none_iff.mp hValue
      cases hRequired : spec.required with
      | true => exact .missing hAbsent hRequired
      | false => exact .omitted hAbsent hRequired

theorem attribute?_isNone_iff {key : String} :
    (schema.attribute? key).isNone = true ↔ ¬ schema.Declares key := by
  simp [Schema.attribute?, Schema.Declares]

def Schema.undeclaredEntry (schema : Schema) (mode : ValidationMode) (path : String) (node : Node)
    (entry : String × Value) : Report :=
  if (!structuralKeys.contains entry.1 && (schema.attribute? entry.1).isNone) = true then
    match mode with
    | .strict => ⟨[.extraAttribute path entry.1 node.position], []⟩
    | .lenient => ⟨[], [⟨path, entry.1, node.position⟩]⟩
  else .empty

theorem undeclared_test_iff {key : String} :
    (!structuralKeys.contains key && (schema.attribute? key).isNone) = true ↔
      key ∉ structuralKeys ∧ ¬ schema.Declares key := by
  rw [Bool.and_eq_true, attribute?_isNone_iff]
  simp

theorem undeclaredFinding_iff {entry : String × Value} :
    UndeclaredFinding schema path node mode entry report ↔
      report = schema.undeclaredEntry mode path node entry := by
  obtain ⟨key, value⟩ := entry
  unfold Schema.undeclaredEntry
  constructor
  · intro h
    cases h with
    | known hKnown =>
      rw [if_neg]
      intro hTest
      obtain ⟨hStructural, hUndeclared⟩ := undeclared_test_iff.mp hTest
      exact hKnown.elim hStructural hUndeclared
    | extra hStructural hUndeclared =>
      rw [if_pos (undeclared_test_iff.mpr ⟨hStructural, hUndeclared⟩)]
    | warned hStructural hUndeclared =>
      rw [if_pos (undeclared_test_iff.mpr ⟨hStructural, hUndeclared⟩)]
  · rintro rfl
    split
    · rename_i hTest
      obtain ⟨hStructural, hUndeclared⟩ := undeclared_test_iff.mp hTest
      cases mode with
      | strict => exact .extra hStructural hUndeclared
      | lenient => exact .warned hStructural hUndeclared
    · rename_i hTest
      apply UndeclaredFinding.known
      by_cases hStructural : key ∈ structuralKeys
      · exact .inl hStructural
      · by_cases hDeclared : schema.Declares key
        · exact .inr hDeclared
        · exact absurd (undeclared_test_iff.mpr ⟨hStructural, hDeclared⟩) hTest

theorem undeclaredReport_eq : schema.undeclaredReport mode path node =
    Report.joined (schema.undeclaredEntry mode path node) node.attributes.entries := by
  unfold Schema.undeclaredReport Schema.undeclared AttributeMap.keys
  generalize node.attributes.entries = entries
  induction entries with
  | nil => cases mode <;> rfl
  | cons entry entries ih =>
    rw [Report.joined_cons, ← ih, List.map_cons, List.filter_cons]
    unfold Schema.undeclaredEntry
    by_cases hTest : (!structuralKeys.contains entry.1 && (schema.attribute? entry.1).isNone) = true
    · rw [if_pos hTest, if_pos hTest]
      cases mode with
      | strict => rfl
      | lenient => rfl
    · rw [if_neg hTest, if_neg hTest, Report.empty_append]

theorem hasChildren_iff {count : Nat} : node.HasChildren count ↔ count = node.childCount := by
  unfold Node.childCount
  constructor
  · intro h
    cases h with
    | bare hBody => rw [hBody]
    | body hBody =>
      rw [hBody]
      rfl
  · rintro rfl
    cases hBody : node.children with
    | none => exact .bare hBody
    | some children => exact .body hBody

theorem childFinding_iff : ChildFinding schema path node report ↔
    report = .ofErrors (schema.childErrors path node) := by
  unfold Schema.childErrors
  constructor
  · intro h
    cases h with
    | unbounded hBounds =>
      rw [hBounds]
      rfl
    | allowed hBounds hCount hAllowed =>
      rw [hasChildren_iff] at hCount
      subst hCount
      rw [hBounds]
      simp only
      rw [if_pos (ChildBounds.contains_iff.mpr hAllowed)]
      rfl
    | violated hBounds hCount hViolated =>
      rw [hasChildren_iff] at hCount
      subst hCount
      rw [hBounds]
      simp only
      rw [if_neg (fun h => hViolated (ChildBounds.contains_iff.mp h))]
      rfl
  · rintro rfl
    have hCount : node.HasChildren node.childCount := hasChildren_iff.mpr rfl
    cases hBounds : schema.children with
    | none => exact .unbounded hBounds
    | some bounds =>
      simp only
      split
      · rename_i hContains
        exact .allowed hBounds hCount (ChildBounds.contains_iff.mp hContains)
      · rename_i hContains
        exact .violated hBounds hCount (fun h => hContains (ChildBounds.contains_iff.mpr h))

theorem declaredReport_eq : Report.ofErrors (schema.attributes.flatMap fun spec => spec.findings path node) =
    Report.joined (fun spec => .ofErrors (AttributeSpec.findings spec path node)) schema.attributes :=
  Report.ext_of rfl (by simp [Report.joined, Report.ofErrors])

/-- The findings of a command are what the validator reports for it, no more and no less. -/
theorem commandFinding_iff {names : List String} : CommandFinding registry mode (names, node) report ↔
    report = registry.nodeReport mode (".".intercalate names) node := by
  have hDeclared : ∀ (schema : Schema) {r}, InOrder (DeclaredFinding (".".intercalate names) node)
      schema.attributes r ↔ r = _ := fun schema r => inOrder_iff fun _ _ _ => declaredFinding_iff
  have hUndeclared : ∀ (schema : Schema) {r}, InOrder (UndeclaredFinding schema (".".intercalate names) node
      mode) node.attributes.entries r ↔ r = _ := fun schema r => inOrder_iff fun _ _ _ => undeclaredFinding_iff
  unfold Registry.nodeReport Registry.schemaOf? Node.schemaType
  constructor
  · intro h
    cases h with
    | unknown hSchema =>
      rw [hSchema]
      rfl
    | @known _ _ schema _ _ _ hSchema hFirst hSecond hThird =>
      rw [hSchema, (hDeclared schema).mp hFirst, (hUndeclared schema).mp hSecond, childFinding_iff.mp hThird,
        ← declaredReport_eq, ← undeclaredReport_eq]
      rfl
  · rintro rfl
    cases hSchema : registry.lookup? node.keyword (node.kind.getD "") with
    | none => exact .unknown hSchema
    | some schema =>
      simp only
      rw [Schema.report, declaredReport_eq, undeclaredReport_eq]
      exact .known hSchema ((hDeclared schema).mpr rfl) ((hUndeclared schema).mpr rfl)
        (childFinding_iff.mpr rfl)

/-! ## The walk visits the commands in pre-order -/

def Registry.reportAt (registry : Registry) (mode : ValidationMode) (command : List String × Node) : Report :=
  registry.nodeReport mode (".".intercalate command.1) command.2

mutual

theorem walkNode_eq (registry : Registry) (mode : ValidationMode) (names : List String) (hNames : names ≠ []) :
    ∀ node : Node, registry.walkNode mode (".".intercalate names) node =
      registry.reportAt mode (names, node) ++
        Report.joined (registry.reportAt mode) (node.commandsBelow names)
  | ⟨_, _, _, none, _⟩ => by
    rw [Registry.walkNode, Node.commandsBelow, Report.joined_nil, Report.append_empty]
    rfl
  | ⟨_, _, _, some children, _⟩ => by
    have hPath : parentPath names = some (".".intercalate names) := if_neg hNames
    rw [Registry.walkNode, Node.commandsBelow, ← hPath, walkTree_eq registry mode names children]
    rfl

theorem walkTree_eq (registry : Registry) (mode : ValidationMode) (above : List String) :
    ∀ tree : Tree, registry.walkTree mode (parentPath above) tree =
      Report.joined (registry.reportAt mode) (tree.commandsUnder above)
  | ⟨nodes⟩ => by
    rw [Registry.walkTree, Tree.commandsUnder, walkNodes_eq registry mode above nodes]

theorem walkNodes_eq (registry : Registry) (mode : ValidationMode) (above : List String) :
    ∀ nodes : List (String × Node), registry.walkNodes mode (parentPath above) nodes =
      Report.joined (registry.reportAt mode) (commandsOf above nodes)
  | [] => by
    rw [Registry.walkNodes, commandsOf, Report.joined_nil]
  | (name, node) :: rest => by
    rw [Registry.walkNodes, commandsOf, childPath_parentPath,
      walkNode_eq registry mode (above ++ [name]) (by simp) node, walkNodes_eq registry mode above rest,
      Report.joined_cons, Report.joined_append, Report.append_assoc]

end

theorem validate_eq (registry : Registry) (mode : ValidationMode) (tree : Tree) :
    registry.validate mode tree = Report.joined (registry.reportAt mode) tree.commands :=
  walkTree_eq registry mode [] tree

/-! ## Valid trees -/

theorem findings_eq_nil_iff {spec : AttributeSpec} : spec.findings path node = [] ↔
    (spec.required = true → ∃ value, node.Carries spec.name value) ∧
      ∀ value, node.Carries spec.name value → ∃ result, spec.checker.check value = .ok result := by
  rw [AttributeSpec.findings]
  cases hValue : node.attributes.get? spec.name with
  | some value =>
    have hCarries : node.Carries spec.name value := AttributeMap.get?_eq_some_iff.mp hValue
    have hOnly : ∀ other, node.Carries spec.name other → other = value := by
      intro other hOther
      rw [Node.Carries, ← AttributeMap.get?_eq_some_iff, hValue] at hOther
      exact (Option.some.inj hOther).symm
    cases hCheck : spec.checker.check value with
    | ok accepted =>
      simp only [hCheck, true_iff]
      refine ⟨fun _ => ⟨value, hCarries⟩, fun other hOther => ⟨accepted, ?_⟩⟩
      rw [hOnly other hOther, hCheck]
    | error reason =>
      simp only [hCheck, List.cons_ne_nil, false_iff]
      rintro ⟨-, hAccepted⟩
      obtain ⟨result, hResult⟩ := hAccepted value hCarries
      rw [hCheck] at hResult
      cases hResult
  | none =>
    have hAbsent : ∀ value, ¬ node.Carries spec.name value := AttributeMap.get?_eq_none_iff.mp hValue
    have hVacuous : ∀ value, node.Carries spec.name value → ∃ result, spec.checker.check value = .ok result :=
      fun value hCarries => absurd hCarries (hAbsent value)
    cases hRequired : spec.required with
    | true => simp [hAbsent]
    | false => simpa using hVacuous

theorem childErrors_eq_nil_iff : schema.childErrors path node = [] ↔
    ∀ bounds ∈ schema.children, ∀ count, node.HasChildren count → bounds.Allows count := by
  rw [Schema.childErrors]
  simp only [hasChildren_iff, forall_eq]
  cases hBounds : schema.children with
  | none => simp
  | some bounds =>
    simp only [Option.mem_def, Option.some.injEq, forall_eq']
    have hContains : bounds.contains node.childCount = true ↔ bounds.Allows node.childCount :=
      ChildBounds.contains_iff
    rw [← hContains]
    split
    · simp [*]
    · simp [*]

theorem undeclared_eq_nil_iff : schema.undeclared node = [] ↔
    ∀ key value, node.Carries key value → key ∈ structuralKeys ∨ schema.Declares key := by
  rw [Schema.undeclared, List.filter_eq_nil_iff]
  simp only [undeclared_test_iff, AttributeMap.keys, List.mem_map, not_and, Classical.not_not]
  constructor
  · intro h key value hCarries
    by_cases hStructural : key ∈ structuralKeys
    · exact .inl hStructural
    · exact .inr (h key ⟨(key, value), hCarries, rfl⟩ hStructural)
  · rintro h key ⟨⟨_, value⟩, hMem, rfl⟩ hStructural
    exact (h _ value hMem).resolve_left hStructural

theorem strict_report_eq_nil_iff : (schema.report .strict path node).errors = [] ↔ Meets schema node := by
  have hErrors : (schema.report .strict path node).errors =
      (schema.attributes.flatMap fun spec => spec.findings path node) ++
        (schema.undeclared node).map (.extraAttribute path · node.position) ++ schema.childErrors path node := rfl
  rw [hErrors, List.append_eq_nil_iff, List.append_eq_nil_iff, List.flatMap_eq_nil_iff, List.map_eq_nil_iff,
    undeclared_eq_nil_iff, childErrors_eq_nil_iff]
  simp only [findings_eq_nil_iff]
  constructor
  · rintro ⟨⟨hDeclared, hUndeclared⟩, hChildren⟩
    exact ⟨fun spec hSpec => (hDeclared spec hSpec).1, fun spec hSpec => (hDeclared spec hSpec).2, hUndeclared,
      hChildren⟩
  · rintro ⟨hPresent, hAccepted, hDeclared, hChildren⟩
    exact ⟨⟨fun spec hSpec => ⟨hPresent spec hSpec, hAccepted spec hSpec⟩, hDeclared⟩, hChildren⟩

/-- A command has a schema and obeys it. -/
def Registry.Admits (registry : Registry) (node : Node) : Prop :=
  ∃ schema, registry.lookup? node.keyword (node.kind.getD "") = some schema ∧ Meets schema node

theorem strict_nodeReport_eq_nil_iff : (registry.nodeReport .strict path node).errors = [] ↔
    registry.Admits node := by
  unfold Registry.nodeReport Registry.schemaOf? Node.schemaType Registry.Admits
  cases hSchema : registry.lookup? node.keyword (node.kind.getD "") with
  | none => simp [Report.ofErrors]
  | some schema => simpa using strict_report_eq_nil_iff

theorem strict_validate_eq_nil_iff {tree : Tree} : (registry.validate .strict tree).errors = [] ↔
    ∀ names node, CommandAt tree names node → registry.Admits node := by
  rw [validate_eq, Report.joined, List.flatMap_eq_nil_iff]
  constructor
  · intro h names node hAt
    exact strict_nodeReport_eq_nil_iff.mp (h (names, node) (mem_commands_iff.mpr hAt))
  · rintro h ⟨names, node⟩ hMem
    exact strict_nodeReport_eq_nil_iff.mpr (h names node (mem_commands_iff.mp hMem))

/-- The report of a tree joins the findings of its commands in pre-order and is determined by them. A strict
report is free of errors exactly when every command at every depth has a schema and obeys it. -/
theorem validate_reports_violations (registry : Registry) (tree : Tree) :
    (∀ mode report, registry.validate mode tree = report ↔
      InOrder (CommandFinding registry mode) tree.commands report) ∧
    ((registry.validate .strict tree).errors = [] ↔
      ∀ names node, CommandAt tree names node → registry.Admits node) := by
  refine ⟨?_, strict_validate_eq_nil_iff⟩
  intro mode report
  have hFindings : ∀ command ∈ tree.commands, ∀ r,
      CommandFinding registry mode command r ↔ r = registry.reportAt mode command :=
    fun _ _ _ => commandFinding_iff
  rw [inOrder_iff hFindings, validate_eq, eq_comm]

end DialogTree
