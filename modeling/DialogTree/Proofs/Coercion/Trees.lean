import DialogTree.Proofs.Coercion.Schemas

/-!
# Trees in accepted form

A tree is accepted exactly when it is valid. What is given back differs from it in the values of declared
attributes alone, has the same findings, and is accepted as it is.
-/

namespace DialogTree

variable {registry : Registry} {mode : ValidationMode}

/-! ## What acceptance may change -/

/-- The value of an attribute in accepted form: what the checker of its declaration returns, or itself where
the schema of the command does not declare it. -/
inductive AcceptedValue (registry : Registry) (keyword kind key : String) : Value → Value → Prop where
  | undeclared {value : Value}
      (hUndeclared : ∀ schema, registry.lookup? keyword kind = some schema → ¬ schema.Declares key) :
      AcceptedValue registry keyword kind key value value
  | declared {schema : Schema} {spec : AttributeSpec} {value accepted : Value}
      (hSchema : registry.lookup? keyword kind = some schema) (hSpec : spec ∈ schema.attributes)
      (hName : spec.name = key) (hCheck : spec.checker.check value = .ok accepted) :
      AcceptedValue registry keyword kind key value accepted

inductive AcceptedEntry (registry : Registry) (keyword kind : String) : String × Value → String × Value → Prop where
  | intro {key : String} {value accepted : Value} (hValue : AcceptedValue registry keyword kind key value accepted) :
      AcceptedEntry registry keyword kind (key, value) (key, accepted)

mutual

inductive AcceptedNode (registry : Registry) : Node → Node → Prop where
  | bare {keyword : String} {kind : Option String} {attributes accepted : AttributeMap}
      {position : Option Position}
      (hAttributes : List.Forall₂ (AcceptedEntry registry keyword (kind.getD "")) attributes.entries accepted.entries) :
      AcceptedNode registry ⟨keyword, kind, attributes, none, position⟩ ⟨keyword, kind, accepted, none, position⟩
  | body {keyword : String} {kind : Option String} {attributes accepted : AttributeMap}
      {position : Option Position} {children others : Tree}
      (hAttributes : List.Forall₂ (AcceptedEntry registry keyword (kind.getD "")) attributes.entries accepted.entries)
      (hChildren : AcceptedTree registry children others) :
      AcceptedNode registry ⟨keyword, kind, attributes, some children, position⟩
        ⟨keyword, kind, accepted, some others, position⟩

inductive AcceptedTree (registry : Registry) : Tree → Tree → Prop where
  | nil : AcceptedTree registry ⟨[]⟩ ⟨[]⟩
  | cons {name : String} {node accepted : Node} {rest others : List (String × Node)}
      (hNode : AcceptedNode registry node accepted) (hRest : AcceptedTree registry ⟨rest⟩ ⟨others⟩) :
      AcceptedTree registry ⟨(name, node) :: rest⟩ ⟨(name, accepted) :: others⟩

end

/-! ## Coercion keeps the findings -/

theorem length_coerceNodes (registry : Registry) (nodes : List (String × Node)) :
    (registry.coerceNodes nodes).length = nodes.length := by
  induction nodes with
  | nil => rfl
  | cons entry nodes ih => rw [Registry.coerceNodes, List.length_cons, List.length_cons, ih]

theorem coercedHead_coerceNode (registry : Registry) (node : Node) :
    CoercedHead registry node (registry.coerceNode node) := by
  obtain ⟨keyword, kind, attributes, children, position⟩ := node
  cases children with
  | none => exact ⟨rfl, rfl, rfl, rfl, rfl⟩
  | some children =>
    obtain ⟨nodes⟩ := children
    have hCount : (registry.coerceNodes nodes).length = nodes.length := length_coerceNodes registry nodes
    exact ⟨rfl, rfl, rfl, hCount, rfl⟩

section Ruled

variable [PatternEngine]

theorem coerceAttributes_coerceAttributes (hRuled : registry.Ruled) {node coerced : Node}
    (h : CoercedHead registry node coerced) : registry.coerceAttributes coerced = coerced.attributes := by
  rw [Registry.coerceAttributes, h.schemaOf?, h.attributes, Registry.coerceAttributes]
  cases hSchema : registry.schemaOf? node with
  | none => rfl
  | some schema =>
    have hTwice := Registry.coerceValue_coerceValue (hRuled.lookup hSchema)
    simp [AttributeMap.mapValues, hTwice]

mutual

theorem walkNode_coerceNode (hRuled : registry.Ruled) (path : String) : ∀ node : Node,
    registry.walkNode mode path (registry.coerceNode node) = registry.walkNode mode path node
  | ⟨keyword, kind, attributes, none, position⟩ =>
    (coercedHead_coerceNode registry ⟨keyword, kind, attributes, none, position⟩).nodeReport hRuled
  | ⟨keyword, kind, attributes, some children, position⟩ => by
    have hHead : registry.nodeReport mode path
        (registry.coerceNode ⟨keyword, kind, attributes, some children, position⟩) =
          registry.nodeReport mode path ⟨keyword, kind, attributes, some children, position⟩ :=
      (coercedHead_coerceNode registry _).nodeReport hRuled
    rw [Registry.coerceNode] at hHead ⊢
    rw [Registry.walkNode, Registry.walkNode, hHead, walkTree_coerceTree hRuled (some path) children]

theorem walkTree_coerceTree (hRuled : registry.Ruled) (parent : Option String) : ∀ tree : Tree,
    registry.walkTree mode parent (registry.coerceTree tree) = registry.walkTree mode parent tree
  | ⟨nodes⟩ => by
    rw [Registry.coerceTree, Registry.walkTree, Registry.walkTree, walkNodes_coerceNodes hRuled parent nodes]

theorem walkNodes_coerceNodes (hRuled : registry.Ruled) (parent : Option String) :
    ∀ nodes : List (String × Node),
      registry.walkNodes mode parent (registry.coerceNodes nodes) = registry.walkNodes mode parent nodes
  | [] => by rw [Registry.coerceNodes]
  | (name, node) :: rest => by
    rw [Registry.coerceNodes, Registry.walkNodes, Registry.walkNodes,
      walkNode_coerceNode hRuled (childPath parent name) node, walkNodes_coerceNodes hRuled parent rest]

end

theorem validate_coerceTree (hRuled : registry.Ruled) (mode : ValidationMode) (tree : Tree) :
    registry.validate mode (registry.coerceTree tree) = registry.validate mode tree :=
  walkTree_coerceTree hRuled none tree

/-! ## Coercion happens once -/

mutual

theorem coerceNode_coerceNode (hRuled : registry.Ruled) : ∀ node : Node,
    registry.coerceNode (registry.coerceNode node) = registry.coerceNode node
  | ⟨keyword, kind, attributes, none, position⟩ => by
    have hAttributes := coerceAttributes_coerceAttributes hRuled
      (coercedHead_coerceNode registry ⟨keyword, kind, attributes, none, position⟩)
    rw [Registry.coerceNode] at hAttributes ⊢
    rw [Registry.coerceNode, hAttributes]
  | ⟨keyword, kind, attributes, some children, position⟩ => by
    have hAttributes := coerceAttributes_coerceAttributes hRuled
      (coercedHead_coerceNode registry ⟨keyword, kind, attributes, none, position⟩)
    rw [Registry.coerceNode] at hAttributes
    rw [Registry.coerceNode, Registry.coerceNode, hAttributes, coerceTree_coerceTree hRuled children]

theorem coerceTree_coerceTree (hRuled : registry.Ruled) : ∀ tree : Tree,
    registry.coerceTree (registry.coerceTree tree) = registry.coerceTree tree
  | ⟨nodes⟩ => by
    rw [Registry.coerceTree, Registry.coerceTree, coerceNodes_coerceNodes hRuled nodes]

theorem coerceNodes_coerceNodes (hRuled : registry.Ruled) : ∀ nodes : List (String × Node),
    registry.coerceNodes (registry.coerceNodes nodes) = registry.coerceNodes nodes
  | [] => by rw [Registry.coerceNodes, Registry.coerceNodes]
  | (name, node) :: rest => by
    rw [Registry.coerceNodes, Registry.coerceNodes, coerceNode_coerceNode hRuled node,
      coerceNodes_coerceNodes hRuled rest]

end

end Ruled

/-! ## The accepted form of a valid tree -/

theorem Report.errors_append_eq_nil {a b : Report} (h : (a ++ b).errors = []) : a.errors = [] ∧ b.errors = [] :=
  List.append_eq_nil_iff.mp h

theorem accept_of_valid {tree : Tree} (h : (registry.validate mode tree).errors = []) :
    registry.accept mode tree = .ok (registry.coerceTree tree, (registry.validate mode tree).warnings) := by
  rw [Registry.accept]
  simp only [h]

theorem accept_of_invalid {tree : Tree} (h : (registry.validate mode tree).errors ≠ []) :
    registry.accept mode tree = .error (registry.validate mode tree).errors := by
  rw [Registry.accept]
  split
  · rename_i hNil
    exact absurd hNil h
  · rfl

theorem accept_ok {tree accepted : Tree} {warnings : List ValidationWarning}
    (h : registry.accept mode tree = .ok (accepted, warnings)) :
    (registry.validate mode tree).errors = [] ∧ accepted = registry.coerceTree tree := by
  by_cases hValid : (registry.validate mode tree).errors = []
  · rw [accept_of_valid hValid] at h
    cases h
    exact ⟨hValid, rfl⟩
  · rw [accept_of_invalid hValid] at h
    cases h

section Accepted

variable [PatternEngine]

theorem accepted_of_nodeReport (hRuled : registry.Ruled) {path : String} {node : Node}
    (h : (registry.nodeReport mode path node).errors = []) :
    List.Forall₂ (AcceptedEntry registry node.keyword (node.kind.getD "")) node.attributes.entries
      (registry.coerceAttributes node).entries := by
  rw [Registry.nodeReport] at h
  cases hSchema : registry.schemaOf? node with
  | none => simp [hSchema, Report.ofErrors] at h
  | some schema =>
    simp only [hSchema, Schema.report] at h
    have hDeclared := (Report.errors_append_eq_nil (Report.errors_append_eq_nil h).1).1
    rw [Report.ofErrors, List.flatMap_eq_nil_iff] at hDeclared
    simp only [Registry.coerceAttributes, hSchema, AttributeMap.mapValues, List.forall₂_map_right_iff,
      List.forall₂_same]
    rintro ⟨key, value⟩ hCarries
    refine .intro ?_
    by_cases hName : schema.Declares key
    · obtain ⟨spec, hSpec, rfl⟩ := hName
      obtain ⟨accepted, hCheck⟩ := (findings_eq_nil_iff.mp (hDeclared spec hSpec)).2 value hCarries
      rw [Registry.coerceValue_accepted (hRuled.lookup hSchema) hSpec hCheck]
      exact .declared hSchema hSpec rfl hCheck
    · rw [Registry.coerceValue_undeclared hName]
      refine .undeclared fun other hOther => ?_
      obtain rfl := Option.some.inj (hSchema.symm.trans hOther)
      exact hName

mutual

theorem acceptedNode_coerceNode (hRuled : registry.Ruled) (path : String) : ∀ node : Node,
    (registry.walkNode mode path node).errors = [] → AcceptedNode registry node (registry.coerceNode node)
  | ⟨keyword, kind, attributes, none, position⟩ => by
    intro h
    rw [Registry.walkNode] at h
    rw [Registry.coerceNode]
    exact .bare (accepted_of_nodeReport hRuled h)
  | ⟨keyword, kind, attributes, some children, position⟩ => by
    intro h
    rw [Registry.walkNode] at h
    obtain ⟨hHead, hBelow⟩ := Report.errors_append_eq_nil h
    rw [Registry.coerceNode]
    exact .body (accepted_of_nodeReport hRuled hHead) (acceptedTree_coerceTree hRuled (some path) children hBelow)

theorem acceptedTree_coerceTree (hRuled : registry.Ruled) (parent : Option String) : ∀ tree : Tree,
    (registry.walkTree mode parent tree).errors = [] → AcceptedTree registry tree (registry.coerceTree tree)
  | ⟨nodes⟩ => by
    intro h
    rw [Registry.walkTree] at h
    rw [Registry.coerceTree]
    exact acceptedNodes_coerceNodes hRuled parent nodes h

theorem acceptedNodes_coerceNodes (hRuled : registry.Ruled) (parent : Option String) :
    ∀ nodes : List (String × Node), (registry.walkNodes mode parent nodes).errors = [] →
      AcceptedTree registry ⟨nodes⟩ ⟨registry.coerceNodes nodes⟩
  | [] => by
    intro _
    rw [Registry.coerceNodes]
    exact .nil
  | (name, node) :: rest => by
    intro h
    rw [Registry.walkNodes] at h
    obtain ⟨hFirst, hRest⟩ := Report.errors_append_eq_nil h
    rw [Registry.coerceNodes]
    exact .cons (acceptedNode_coerceNode hRuled (childPath parent name) node hFirst)
      (acceptedNodes_coerceNodes hRuled parent rest hRest)

end

/-- A tree is refused with the errors that validation reports, if there are any. Otherwise its accepted form
is given back with the warnings; that form is as valid, with the same warnings, and is accepted as it is. -/
theorem accept_coerces (hRuled : registry.Ruled) (mode : ValidationMode) (tree : Tree) :
    ((registry.validate mode tree).errors ≠ [] →
      registry.accept mode tree = .error (registry.validate mode tree).errors) ∧
    ((registry.validate mode tree).errors = [] → ∃ accepted, AcceptedTree registry tree accepted ∧
      registry.accept mode tree = .ok (accepted, (registry.validate mode tree).warnings) ∧
      registry.validate mode accepted = registry.validate mode tree ∧
      registry.accept mode accepted = .ok (accepted, (registry.validate mode tree).warnings)) := by
  refine ⟨accept_of_invalid, fun hValid => ⟨registry.coerceTree tree, ?_, accept_of_valid hValid, ?_, ?_⟩⟩
  · exact acceptedTree_coerceTree hRuled none tree hValid
  · exact validate_coerceTree hRuled mode tree
  · have hSame := validate_coerceTree hRuled mode tree
    have hAgain : (registry.validate mode (registry.coerceTree tree)).errors = [] := by rw [hSame, hValid]
    rw [accept_of_valid hAgain, hSame, coerceTree_coerceTree hRuled tree]

end Accepted

/-- Dialogs have a list of whole sizes. -/
def sizedDialogs [PatternEngine] : Registry :=
  ⟨[(⟨"dialog", ""⟩, ⟨[⟨"sizes", true, (Rule.list (.integer .any) none none).checker⟩], none⟩)], true⟩

/-- A dialog with a size that is written as a float, and with a note that is not declared. -/
def sizedDialog : Tree :=
  ⟨[("info", ⟨"dialog", none, .ofList [("sizes", .list [.float (.ofInt 3)]), ("note", .string "wide")], none, none⟩)]⟩

theorem sizedDialogs_ruled [PatternEngine] : sizedDialogs.Ruled := by
  intro entry hMem
  obtain rfl := List.mem_singleton.mp hMem
  refine ⟨SchemaDraft.empty.require "sizes" (.list (.integer .any) none none), fun declared hDeclared => ?_, rfl⟩
  obtain rfl := List.mem_singleton.mp hDeclared
  exact ⟨_, rfl⟩

theorem accept_coerces_sizes :
    letI := Pattern.engine
    sizedDialogs.Ruled ∧ (sizedDialogs.validate .lenient sizedDialog).errors = [] ∧
      ∃ accepted, AcceptedTree sizedDialogs sizedDialog accepted ∧
        sizedDialogs.accept .lenient sizedDialog = .ok (accepted, [⟨"info", "note", none⟩]) ∧
        sizedDialogs.accept .lenient accepted = .ok (accepted, [⟨"info", "note", none⟩]) := by
  let _ := Pattern.engine
  have hReport : sizedDialogs.validate .lenient sizedDialog = ⟨[], [⟨"info", "note", none⟩]⟩ :=
    Report.ext_of (by decide +kernel) (by decide +kernel)
  obtain ⟨accepted, hAccepted, hFirst, -, hAgain⟩ :=
    (accept_coerces sizedDialogs_ruled .lenient sizedDialog).2 (congrArg Report.errors hReport)
  rw [hReport] at hFirst hAgain
  exact ⟨sizedDialogs_ruled, congrArg Report.errors hReport, accepted, hAccepted, hFirst, hAgain⟩

end DialogTree
