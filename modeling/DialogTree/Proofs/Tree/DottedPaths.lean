import DialogTree.Proofs.Canonical.Problems
import DialogTree.Proofs.Naming.Readers
import DialogTree.Proofs.Tree.Siblings
import DialogTree.Proofs.Violations

/-!
# Dotted paths

A path joins the names that lead to a command by dots, and a name may hold dots itself. Two commands have the same path
exactly when their ways part at two siblings one of whose names is the other one, a dot and more, and when both ways
spell the same from there on. Where no name holds a dot, the path of a report leads to one command.
-/

namespace DialogTree

/-! ## Joined names -/

/-- Two ways part at a name and at one that begins with it and a dot. From there on they spell the same. -/
inductive PartsAtDot : List String → List String → Prop where
  | intro {around below others : List String} {name more : String} (hBelow : below ≠ [])
      (hSame : ".".intercalate below = ".".intercalate (more :: others)) :
      PartsAtDot (around ++ name :: below) (around ++ (name ++ "." ++ more) :: others)

/-- What joined names spell behind another name. -/
def spelledBehind (names : List String) : String :=
  if names = [] then "" else "." ++ ".".intercalate names

variable {names others : List String} {first second : String}

theorem intercalate_cons (first : String) (names : List String) :
    ".".intercalate (first :: names) = first ++ spelledBehind names := by
  by_cases hNames : names = []
  · simp [hNames, spelledBehind, String.intercalate_singleton]
  · rw [String.intercalate_cons_of_ne_nil hNames, spelledBehind, if_neg hNames, String.append_assoc]

theorem append_eq_append {s t u v : String} (h : s ++ t = u ++ v) :
    (∃ more, u = s ++ more ∧ t = more ++ v) ∨ ∃ more, s = u ++ more ∧ v = more ++ t := by
  have hList := congrArg String.toList h
  rw [String.toList_append, String.toList_append, List.append_eq_append_iff] at hList
  refine hList.imp ?_ ?_
  all_goals
    rintro ⟨more, hFront, hBack⟩
    refine ⟨.ofList more, ?_, ?_⟩
    · rw [← String.toList_inj, hFront, String.toList_append, String.toList_ofList]
    · rw [← String.toList_inj, hBack, String.toList_append, String.toList_ofList]

/-- A longer name takes in a dot, and what the other way spells behind that. -/
theorem partsAtDot_of_longer {taken : String} (hTaken : taken ≠ "")
    (h : spelledBehind names = taken ++ spelledBehind others) (first : String) :
    PartsAtDot (first :: names) ((first ++ taken) :: others) := by
  by_cases hNames : names = []
  · rw [spelledBehind, if_pos hNames] at h
    exact absurd (String.append_eq_empty_iff.mp h.symm).1 hTaken
  obtain ⟨more, rfl, hMore⟩ : ∃ more, taken = "." ++ more ∧ ".".intercalate names = more ++ spelledBehind others := by
    rw [spelledBehind, if_neg hNames] at h
    obtain ⟨more, rfl, hMore⟩ | ⟨more, hDot, hMore⟩ := append_eq_append h
    · exact ⟨more, rfl, hMore⟩
    · -- The dot is a single character, so that nothing of it is left behind the name.
      have hChars := congrArg String.toList hDot
      rw [String.toList_append] at hChars
      obtain ⟨hFirst, hRest⟩ : taken.toList = ['.'] ∧ more.toList = [] := by
        rcases List.append_eq_singleton_iff.mp hChars.symm with ⟨hNone, -⟩ | hBoth
        · exact absurd (String.toList_eq_nil_iff.mp hNone) hTaken
        · exact hBoth
      obtain rfl := String.toList_eq_nil_iff.mp hRest
      exact ⟨"", String.toList_inj.mp hFirst, by simp [hMore]⟩
  rw [← String.append_assoc, ← List.nil_append (first :: names), ← List.nil_append (_ :: others)]
  exact .intro hNames (hMore.trans (intercalate_cons more others).symm)

theorem spelledBehind_ne (hNames : names ≠ []) : spelledBehind names ≠ "" := by
  rw [spelledBehind, if_neg hNames]
  intro hEmpty
  exact absurd (String.append_eq_empty_iff.mp hEmpty).1 (by decide)

theorem PartsAtDot.cons (h : PartsAtDot names others) (first : String) :
    PartsAtDot (first :: names) (first :: others) := by
  cases h with
  | @intro around below others name more hBelow hSame =>
    rw [← List.cons_append, ← List.cons_append]
    exact .intro hBelow hSame

theorem PartsAtDot.intercalate_eq (h : PartsAtDot names others) : ".".intercalate names = ".".intercalate others := by
  cases h with
  | @intro around below others name more hBelow hSame =>
    have hParted : ".".intercalate (name :: below) = ".".intercalate ((name ++ "." ++ more) :: others) := by
      rw [String.intercalate_cons_of_ne_nil hBelow, hSame, intercalate_cons, intercalate_cons]
      simp only [String.append_assoc]
    by_cases hAround : around = []
    · rw [hAround, List.nil_append, List.nil_append, hParted]
    · rw [String.intercalate_append_of_ne_nil hAround (List.cons_ne_nil _ _),
        String.intercalate_append_of_ne_nil hAround (List.cons_ne_nil _ _), hParted]

theorem spelledBehind_inj (h : spelledBehind names = spelledBehind others) :
    names = [] ∧ others = [] ∨ names ≠ [] ∧ others ≠ [] ∧ ".".intercalate names = ".".intercalate others := by
  by_cases hNames : names = []
  · by_cases hOthers : others = []
    · exact .inl ⟨hNames, hOthers⟩
    · rw [hNames] at h
      exact absurd h.symm (spelledBehind_ne hOthers)
  · by_cases hOthers : others = []
    · rw [hOthers] at h
      exact absurd h (spelledBehind_ne hNames)
    · rw [spelledBehind, spelledBehind, if_neg hNames, if_neg hOthers, String.append_right_inj] at h
      exact .inr ⟨hNames, hOthers, h⟩

theorem parts_of_intercalate_eq (hNames : names ≠ []) (hOthers : others ≠ [])
    (h : ".".intercalate names = ".".intercalate others) :
    names = others ∨ PartsAtDot names others ∨ PartsAtDot others names := by
  induction names generalizing others with
  | nil => exact absurd rfl hNames
  | cons first names ih =>
    obtain ⟨second, others, rfl⟩ := List.exists_cons_of_ne_nil hOthers
    rw [intercalate_cons, intercalate_cons] at h
    by_cases hFirst : first = second
    · subst hFirst
      rw [String.append_right_inj] at h
      obtain ⟨rfl, rfl⟩ | ⟨hSome, hMore, hBehind⟩ := spelledBehind_inj h
      · exact .inl rfl
      · exact (ih hSome hMore hBehind).imp (congrArg _) (Or.imp (·.cons first) (·.cons first))
    · obtain ⟨taken, rfl, hBehind⟩ | ⟨taken, rfl, hBehind⟩ := append_eq_append h
      · exact .inr (.inl (partsAtDot_of_longer (fun hNone => hFirst (by simp [hNone])) hBehind first))
      · exact .inr (.inr (partsAtDot_of_longer (fun hNone => hFirst (by simp [hNone])) hBehind second))

/-- Two ways spell the same exactly if they are the same or part at a dot. -/
theorem intercalate_eq_iff (hNames : names ≠ []) (hOthers : others ≠ []) :
    ".".intercalate names = ".".intercalate others ↔
      names = others ∨ PartsAtDot names others ∨ PartsAtDot others names := by
  constructor
  · exact parts_of_intercalate_eq hNames hOthers
  · rintro (rfl | hParts | hParts)
    · rfl
    · exact hParts.intercalate_eq
    · exact hParts.intercalate_eq.symm

theorem PartsAtDot.exists_dot (h : PartsAtDot names others) : ∃ name ∈ others, '.' ∈ name.toList := by
  cases h with
  | @intro around below others name more hBelow hSame =>
    refine ⟨name ++ "." ++ more, by simp, ?_⟩
    simp [String.toList_append]

/-! ## Paths -/

/-- The path of the command that the names lead to, built on the way from the root. -/
def pathTo (names : List String) : Option String :=
  names.foldl (fun parent name => some (childPath parent name)) none

theorem pathTo_eq (names : List String) : pathTo names = parentPath names := by
  induction names using List.reverseRecOn with
  | nil => rfl
  | append_singleton names name ih => rw [parentPath_concat, ← ih, pathTo, List.foldl_concat, pathTo]

theorem pathTo_eq_some_iff (hNames : names ≠ []) {path : String} :
    pathTo names = some path ↔ ".".intercalate names = path := by
  rw [pathTo_eq, parentPath, if_neg hNames, Option.some.injEq]

theorem pathTo_eq_iff (hNames : names ≠ []) (hOthers : others ≠ []) :
    pathTo names = pathTo others ↔ names = others ∨ PartsAtDot names others ∨ PartsAtDot others names := by
  rw [pathTo_eq, pathTo_eq, parentPath, parentPath, if_neg hNames, if_neg hOthers, Option.some.injEq,
    intercalate_eq_iff hNames hOthers]

theorem eq_of_pathTo_eq (hNames : names ≠ []) (hOthers : others ≠ []) (hDots : ∀ name ∈ names, '.' ∉ name.toList)
    (hOtherDots : ∀ name ∈ others, '.' ∉ name.toList) (h : pathTo names = pathTo others) : names = others := by
  obtain hSame | hParts | hParts := (pathTo_eq_iff hNames hOthers).mp h
  · exact hSame
  · obtain ⟨name, hMem, hDot⟩ := hParts.exists_dot
    exact absurd hDot (hOtherDots name hMem)
  · obtain ⟨name, hMem, hDot⟩ := hParts.exists_dot
    exact absurd hDot (hDots name hMem)

/-! ## Commands of a tree -/

theorem CommandNamed.children {name : String} {node : Node} {children : Tree} (h : CommandNamed (name, node))
    (hChildren : node.children = some children) : children.Named := by
  cases h with
  | @intro _ _ _ _ body _ _ _ _ _ hSome hDistinct hBelow =>
    obtain ⟨nodes⟩ := children
    exact ⟨hSome nodes hChildren, hDistinct nodes hChildren, hBelow nodes hChildren⟩

theorem Tree.Named.distinctThroughout {tree : Tree} (h : tree.Named) : tree.DistinctThroughout := by
  intro path scope hScope
  induction path generalizing tree with
  | nil =>
    obtain rfl := hScope
    exact h.distinct
  | cons name path ih =>
    obtain ⟨node, children, hMem, hChildren, hBelow⟩ := hScope
    exact ih ((h.each _ hMem).children hChildren) hBelow

variable {tree : Tree} {node other : Node}

theorem CommandAt.ne_nil (h : CommandAt tree names node) : names ≠ [] := by
  obtain ⟨name, -, below, rfl⟩ := h.head_mem
  exact List.cons_ne_nil name below

theorem Tree.DistinctThroughout.node_eq (h : tree.DistinctThroughout) (hNode : CommandAt tree names node)
    (hOther : CommandAt tree names other) : node = other := by
  have hDistinct : (tree.commands.map Prod.fst).Nodup := nodup_commandsUnder [] tree h
  have hSame := List.inj_on_of_nodup_map hDistinct (mem_commands_iff.mpr hNode) (mem_commands_iff.mpr hOther) rfl
  exact (Prod.mk.inj hSame).2

/-! ## Reports about a command -/

structure Report.OnlyAt (report : Report) (path : String) : Prop where
  errors : ∀ error ∈ report.errors, error.path = path
  warnings : ∀ warning ∈ report.warnings, warning.path = path

variable {path : String} {registry : Registry} {mode : ValidationMode}

theorem Report.onlyAt_ofErrors {errors : List ValidationError} (h : ∀ error ∈ errors, error.path = path) :
    (Report.ofErrors errors).OnlyAt path := ⟨h, fun _ hMem => by cases hMem⟩

theorem Report.OnlyAt.append {a b : Report} (ha : a.OnlyAt path) (hb : b.OnlyAt path) : (a ++ b).OnlyAt path := by
  constructor
  · rw [Report.errors_append, List.forall_mem_append]
    exact ⟨ha.errors, hb.errors⟩
  · rw [Report.warnings_append, List.forall_mem_append]
    exact ⟨ha.warnings, hb.warnings⟩

theorem findings_path (spec : AttributeSpec) (path : String) (node : Node) :
    ∀ error ∈ spec.findings path node, error.path = path := by
  unfold AttributeSpec.findings
  split
  · split <;> simp [ValidationError.path]
  · split <;> simp [ValidationError.path]

theorem undeclaredReport_onlyAt (schema : Schema) (mode : ValidationMode) (path : String) (node : Node) :
    (schema.undeclaredReport mode path node).OnlyAt path := by
  cases mode with
  | strict => exact Report.onlyAt_ofErrors (by simp [ValidationError.path])
  | lenient => exact ⟨fun _ hMem => (by cases hMem), by simp [Schema.undeclaredReport]⟩

theorem childErrors_path (schema : Schema) (path : String) (node : Node) :
    ∀ error ∈ schema.childErrors path node, error.path = path := by
  unfold Schema.childErrors
  split
  · simp
  · split <;> simp [ValidationError.path]

theorem nodeReport_onlyAt (registry : Registry) (mode : ValidationMode) (path : String) (node : Node) :
    (registry.nodeReport mode path node).OnlyAt path := by
  unfold Registry.nodeReport
  split
  · exact Report.onlyAt_ofErrors (by simp [ValidationError.path])
  · rename_i schema _
    have hDeclared : ∀ error ∈ schema.attributes.flatMap fun spec => spec.findings path node, error.path = path := by
      intro error hMem
      obtain ⟨spec, -, hError⟩ := List.mem_flatMap.mp hMem
      exact findings_path spec path node error hError
    exact ((Report.onlyAt_ofErrors hDeclared).append (undeclaredReport_onlyAt schema mode path node)).append
      (Report.onlyAt_ofErrors (childErrors_path schema path node))

/-- A report of a tree is one about the command that its path is built for. -/
theorem exists_command_of_error {error : ValidationError} (h : error ∈ (registry.validate mode tree).errors) :
    ∃ names node, CommandAt tree names node ∧ pathTo names = some error.path ∧
      error ∈ (registry.nodeReport mode error.path node).errors := by
  rw [validate_eq] at h
  obtain ⟨⟨names, node⟩, hMem, hError⟩ := List.mem_flatMap.mp h
  have hAt := mem_commands_iff.mp hMem
  have hPath : error.path = ".".intercalate names := (nodeReport_onlyAt registry mode _ node).errors error hError
  exact ⟨names, node, hAt, (pathTo_eq_some_iff hAt.ne_nil).mpr hPath.symm, hPath ▸ hError⟩

theorem exists_command_of_warning {warning : ValidationWarning} (h : warning ∈ (registry.validate mode tree).warnings) :
    ∃ names node, CommandAt tree names node ∧ pathTo names = some warning.path ∧
      warning ∈ (registry.nodeReport mode warning.path node).warnings := by
  rw [validate_eq] at h
  obtain ⟨⟨names, node⟩, hMem, hWarning⟩ := List.mem_flatMap.mp h
  have hAt := mem_commands_iff.mp hMem
  have hPath : warning.path = ".".intercalate names :=
    (nodeReport_onlyAt registry mode _ node).warnings warning hWarning
  exact ⟨names, node, hAt, (pathTo_eq_some_iff hAt.ne_nil).mpr hPath.symm, hPath ▸ hWarning⟩

/-! ## Structural reports about a declaration -/

/-- The path of the command that an error is about. A command without a name has none. -/
def StructureError.path? : StructureError → Option String
  | duplicateCommand path _ => some path
  | duplicateAttribute path _ _ => some path
  | reservedAttribute path _ _ => some path
  | invalidType path _ _ => some path
  | emptyName _ => none
  | emptyKeyword path _ => some path

def Placed.namesTo (placed : Placed) : List String :=
  placed.around.map Declaration.name ++ [placed.declaration.name]

theorem Placed.namesTo_ne_nil (placed : Placed) : placed.namesTo ≠ [] := by simp [namesTo]

theorem Placed.pathTo_namesTo (placed : Placed) : pathTo placed.namesTo = some placed.path := by
  rw [pathTo_eq, namesTo, parentPath_concat, Placed.path, parent]

theorem attributeReport?_path {entry : List DeclaredAttribute × DeclaredAttribute} {error : StructureError}
    (h : attributeReport? path entry = some error) : error.path? = some path := by
  unfold attributeReport? at h
  split at h
  · cases h
    rfl
  split at h
  · cases h
    rfl
  split at h
  · cases h
    rfl
  · cases h

theorem Placed.path_of_mem_problems {placed : Placed} {error : StructureError} (h : error ∈ placed.problems)
    (hPath : error.path? = some path) : path = placed.path := by
  rw [problems, List.mem_append, List.mem_append] at h
  have hOwn : error.path? = none ∨ error.path? = some placed.path := by
    obtain (hName | hKeyword) | hAttribute := h
    · unfold nameProblems at hName
      split at hName
      · rw [List.mem_singleton.mp hName]
        exact .inl rfl
      · unfold repeatReport? at hName
        split at hName
        · rw [List.mem_singleton.mp hName]
          exact .inr rfl
        · cases hName
    · unfold Declaration.keywordReports at hKeyword
      split at hKeyword
      · rw [List.mem_singleton.mp hKeyword]
        exact .inr rfl
      · cases hKeyword
    · obtain ⟨entry, -, hEntry⟩ := List.mem_filterMap.mp hAttribute
      exact .inr (attributeReport?_path hEntry)
  rw [hPath] at hOwn
  simpa using hOwn

theorem Placed.path_of_mem_reports {placed : Placed} {error : StructureError} (h : error ∈ placed.reports)
    (hPath : error.path? = some path) : path = placed.path := by
  unfold reports at h
  split at h
  · cases h
  split at h
  · exact path_of_mem_problems (List.mem_append_left _ (List.mem_append_left _ h)) hPath
  · exact path_of_mem_problems h hPath

/-! ## Which command a path leads to -/

def Tree.Dotless (tree : Tree) : Prop :=
  ∀ names node, CommandAt tree names node → ∀ name ∈ names, '.' ∉ name.toList

/-- The command is the only one of the tree with the path. -/
def Tree.LeadsTo (tree : Tree) (path : String) (names : List String) (node : Node) : Prop :=
  CommandAt tree names node ∧ pathTo names = some path ∧
    ∀ others other, CommandAt tree others other → pathTo others = some path → others = names ∧ other = node

/-- What the paths of a tree tell about its commands. -/
structure Tree.Located (tree : Tree) : Prop where
  same_path_iff : ∀ names others node other, CommandAt tree names node → CommandAt tree others other →
    (pathTo names = pathTo others ↔
      names = others ∧ node = other ∨ PartsAtDot names others ∨ PartsAtDot others names)
  distinct : tree.Dotless → (tree.commands.map fun command => pathTo command.1).Nodup
  /-- A report has the path of a command that it is about, and without dots of that command only. -/
  error : ∀ (registry : Registry) mode, ∀ error ∈ (registry.validate mode tree).errors,
    ∃ names node, CommandAt tree names node ∧ pathTo names = some error.path ∧
      error ∈ (registry.nodeReport mode error.path node).errors ∧
        (tree.Dotless → tree.LeadsTo error.path names node)
  warning : ∀ (registry : Registry) mode, ∀ warning ∈ (registry.validate mode tree).warnings,
    ∃ names node, CommandAt tree names node ∧ pathTo names = some warning.path ∧
      warning ∈ (registry.nodeReport mode warning.path node).warnings ∧
        (tree.Dotless → tree.LeadsTo warning.path names node)

theorem Tree.DistinctThroughout.leadsTo (h : tree.DistinctThroughout) (hDots : tree.Dotless)
    (hAt : CommandAt tree names node) (hPath : pathTo names = some path) : tree.LeadsTo path names node := by
  refine ⟨hAt, hPath, fun others other hOther hOtherPath => ?_⟩
  obtain rfl := eq_of_pathTo_eq hOther.ne_nil hAt.ne_nil (hDots others other hOther) (hDots names node hAt)
    (hOtherPath.trans hPath.symm)
  exact ⟨rfl, h.node_eq hOther hAt⟩

theorem Tree.DistinctThroughout.located (h : tree.DistinctThroughout) : tree.Located where
  same_path_iff names others node other hNode hOther := by
    rw [pathTo_eq_iff hNode.ne_nil hOther.ne_nil]
    refine or_congr_left ⟨?_, And.left⟩
    rintro rfl
    exact ⟨rfl, h.node_eq hNode hOther⟩
  distinct hDots := by
    have hNames : (tree.commands.map Prod.fst).Nodup := nodup_commandsUnder [] tree h
    have hPaths : ((tree.commands.map Prod.fst).map pathTo).Nodup := by
      refine hNames.map_on fun first hFirst second hSecond hSame => ?_
      obtain ⟨⟨_, node⟩, hNode, rfl⟩ := List.mem_map.mp hFirst
      obtain ⟨⟨_, other⟩, hOther, rfl⟩ := List.mem_map.mp hSecond
      have hAt := mem_commands_iff.mp hNode
      have hOtherAt := mem_commands_iff.mp hOther
      exact eq_of_pathTo_eq hAt.ne_nil hOtherAt.ne_nil (hDots _ node hAt) (hDots _ other hOtherAt) hSame
    rwa [List.map_map] at hPaths
  error registry mode error hError := by
    obtain ⟨names, node, hAt, hPath, hOwn⟩ := exists_command_of_error hError
    exact ⟨names, node, hAt, hPath, hOwn, fun hDots => h.leadsTo hDots hAt hPath⟩
  warning registry mode warning hWarning := by
    obtain ⟨names, node, hAt, hPath, hOwn⟩ := exists_command_of_warning hWarning
    exact ⟨names, node, hAt, hPath, hOwn, fun hDots => h.leadsTo hDots hAt hPath⟩

/-- A structural report has the path of a declaration that it is about. Without dots all declarations with that path
stand under the same names. -/
def ReportsLocated (declarations : List Declaration) : Prop :=
  ∀ error ∈ (canonicalize declarations).2, ∀ path, error.path? = some path →
    ∃ placed ∈ commandsIn declarations, error ∈ placed.reports ∧ placed.path = path ∧
      ((∀ placed ∈ commandsIn declarations, ∀ name ∈ placed.namesTo, '.' ∉ name.toList) →
        ∀ other ∈ commandsIn declarations, other.path = path → other.namesTo = placed.namesTo)

theorem reportsLocated (declarations : List Declaration) : ReportsLocated declarations := by
  intro error hError path hPath
  rw [(canonicalize_reports declarations).1] at hError
  obtain ⟨placed, hMem, hReport⟩ := List.mem_flatMap.mp hError
  obtain rfl := Placed.path_of_mem_reports hReport hPath
  refine ⟨placed, hMem, hReport, rfl, fun hDots other hOther hSame => ?_⟩
  exact eq_of_pathTo_eq other.namesTo_ne_nil placed.namesTo_ne_nil (hDots other hOther) (hDots placed hMem)
    (by rw [other.pathTo_namesTo, placed.pathTo_namesTo, hSame])

/-- In whatever is read, two commands share a path only where their ways part at a dot in a name. So a report leads to
one command, unless there are dots in names. -/
theorem read_located (source document : String) :
    (∀ tree, readText source document = .ok tree ∨ readJson source document = .ok tree → tree.Located) ∧
      ReportsLocated (Grammar.document source).1 ∧ ReportsLocated (Json.document source).1 :=
  ⟨fun _ hRead => (read_named hRead).distinctThroughout.located, reportsLocated _, reportsLocated _⟩

/-- Two commands of one name, in different scopes. -/
def nestedJson : String :=
  "\x7b\"a\": \x7b\"keyword\": \"dialog\", \"children\": \x7b\"b\": \x7b\"keyword\": \"action\"\x7d\x7d\x7d, \"b\": \x7b\"keyword\": \"window\"\x7d\x7d"

/-- A name with a dot beside the name that the dot follows. -/
def dottedJson : String :=
  "\x7b\"a\": \x7b\"keyword\": \"dialog\", \"children\": \x7b\"b\": \x7b\"keyword\": \"action\"\x7d\x7d\x7d, \"a.b\": \x7b\"keyword\": \"window\"\x7d\x7d"

theorem read_located_nested :
    (readJson nestedJson "info").isOk = true ∧ ∃ tree, readJson nestedJson "info" = .ok tree ∧ tree.Located := by
  have hRead : (readJson nestedJson "info").isOk = true := by decide +kernel
  refine ⟨hRead, ?_⟩
  cases hResult : readJson nestedJson "info" with
  | error problems =>
    rw [hResult] at hRead
    cases hRead
  | ok tree => exact ⟨tree, rfl, (read_located nestedJson "info").1 tree (.inr hResult)⟩

/-- What a command of a tree is told by: the names that lead to it, its keyword and its place. -/
def Tree.outline (tree : Tree) : List (List String × String × Option Position) :=
  tree.commands.map fun command => (command.1, command.2.keyword, command.2.position)

/-- Two commands that are read without a place have one path. -/
theorem dotted_name_shares_path :
    ∃ tree, readJson dottedJson "info" = .ok tree ∧
      ∃ node other, CommandAt tree ["a", "b"] node ∧ CommandAt tree ["a.b"] other ∧ node ≠ other ∧
        node.position = none ∧ other.position = none ∧ pathTo ["a", "b"] = pathTo ["a.b"] := by
  have hOutline : (readJson dottedJson "info").toOption.map Tree.outline =
      some [(["a"], "dialog", none), (["a", "b"], "action", none), (["a.b"], "window", none)] := by
    decide +kernel
  cases hResult : readJson dottedJson "info" with
  | error problems =>
    rw [hResult] at hOutline
    cases hOutline
  | ok tree =>
    rw [hResult] at hOutline
    have hCommands : tree.outline =
        [(["a"], "dialog", none), (["a", "b"], "action", none), (["a.b"], "window", none)] :=
      Option.some.inj hOutline
    have hAt : ∀ names keyword position, (names, keyword, position) ∈ tree.outline →
        ∃ node, CommandAt tree names node ∧ node.keyword = keyword ∧ node.position = position := by
      intro names keyword position hMem
      obtain ⟨⟨_, node⟩, hCommand, hSame⟩ := List.mem_map.mp hMem
      cases hSame
      exact ⟨node, mem_commands_iff.mp hCommand, rfl, rfl⟩
    obtain ⟨node, hNode, hAction, hNodePlace⟩ := hAt ["a", "b"] "action" none (by simp [hCommands])
    obtain ⟨other, hOther, hWindow, hOtherPlace⟩ := hAt ["a.b"] "window" none (by simp [hCommands])
    refine ⟨tree, rfl, node, other, hNode, hOther, ?_, hNodePlace, hOtherPlace, by decide⟩
    rintro rfl
    exact absurd (hAction.symm.trans hWindow) (by decide)

end DialogTree
