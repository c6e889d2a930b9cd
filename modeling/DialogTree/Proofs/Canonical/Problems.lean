import DialogTree.Proofs.Canonical.Scopes

/-!
# Every structural problem is reported

The reports of a document are the problems of its commands, each once, in pre-order. This holds below commands that
are dropped because their name is taken as well. A command without a name is reported for that alone, and what stands
inside of it is not looked at.
-/

namespace DialogTree

/-! ## Commands at every depth -/

/-- A declaration where it stands: in the bodies of others, the outermost first, and behind others of its scope. -/
structure Placed where
  around : List Declaration
  earlier : List Declaration
  declaration : Declaration

mutual

/-- The declarations in a body, in pre-order. -/
def Declaration.placedBelow (around : List Declaration) : Declaration → List Placed
  | ⟨_, _, _, _, none⟩ => []
  | ⟨name, keyword, position, attributes, some body⟩ =>
    placedIn (around ++ [⟨name, keyword, position, attributes, some body⟩]) [] body

def placedIn (around earlier : List Declaration) : List Declaration → List Placed
  | [] => []
  | declaration :: rest =>
    ⟨around, earlier, declaration⟩ ::
      (declaration.placedBelow around ++ placedIn around (earlier ++ [declaration]) rest)

end

def commandsIn (declarations : List Declaration) : List Placed :=
  placedIn [] [] declarations

namespace Placed

def parent (placed : Placed) : Option String :=
  parentPath (placed.around.map Declaration.name)

def path (placed : Placed) : String :=
  childPath placed.parent placed.declaration.name

def nameProblems (placed : Placed) : List StructureError :=
  if placed.declaration.name = "" then [.emptyName placed.declaration.position]
  else (repeatReport? placed.parent (placed.earlier, placed.declaration)).toList

def problems (placed : Placed) : List StructureError :=
  placed.nameProblems ++ placed.declaration.keywordReports placed.path ++
    (withEarlier [] placed.declaration.attributes).filterMap (attributeReport? placed.path)

/-- The problems that are reported: all of them where the command and those around it have names. -/
def reports (placed : Placed) : List StructureError :=
  if placed.around.any (·.name = "") then []
  else if placed.declaration.name = "" then placed.nameProblems
  else placed.problems

end Placed

variable {around earlier declarations : List Declaration} {placed : Placed}

/-! ## The reports of a document -/

mutual

theorem around_placedBelow : ∀ (declaration : Declaration) {around : List Declaration} {placed : Placed},
    placed ∈ declaration.placedBelow around → (around ++ [declaration]) <+: placed.around
  | ⟨_, _, _, _, none⟩, _, _, h => by
    rw [Declaration.placedBelow] at h
    cases h
  | ⟨_, _, _, _, some body⟩, _, _, h => by
    rw [Declaration.placedBelow] at h
    exact around_placedIn body h

theorem around_placedIn : ∀ (scope : List Declaration) {around earlier : List Declaration} {placed : Placed},
    placed ∈ placedIn around earlier scope → around <+: placed.around
  | [], _, _, _, h => by
    rw [placedIn] at h
    cases h
  | declaration :: rest, around, earlier, placed, h => by
    rw [placedIn, List.mem_cons, List.mem_append] at h
    rcases h with rfl | hBelow | hRest
    · exact List.prefix_rfl
    · exact (List.prefix_append _ _).trans (around_placedBelow declaration hBelow)
    · exact around_placedIn rest hRest

end

theorem reports_below_unnamed {declaration : Declaration} (hName : declaration.name = "") (around : List Declaration) :
    (declaration.placedBelow around).flatMap Placed.reports = [] := by
  rw [List.flatMap_eq_nil_iff]
  intro placed hMem
  -- The declaration itself is among those around whatever stands below it.
  have hPrefix := around_placedBelow declaration hMem
  have hAround : declaration ∈ placed.around := hPrefix.subset (by simp)
  rw [Placed.reports, if_pos]
  rw [List.any_eq_true]
  exact ⟨declaration, hAround, decide_eq_true hName⟩

theorem reports_toNode (path : String) (declaration : Declaration) : (declaration.toNode path).2 =
    declaration.keywordReports path ++
      (withEarlier [] declaration.attributes).filterMap (attributeReport? path) ++ declaration.bodyReports path := by
  rw [Declaration.toNode_eq, Header.holds_empty.reports path]

theorem declarationReports_unnamed {declaration : Declaration} (hAround : ∀ outer ∈ around, outer.name ≠ "")
    (hName : declaration.name = "") :
    declarationReports (parentPath (around.map Declaration.name)) (earlier, declaration) =
      (Placed.mk around earlier declaration).reports := by
  have hOuter : around.any (·.name = "") = false := by simpa using hAround
  simp [declarationReports, Placed.reports, Placed.nameProblems, hOuter, hName]

theorem declarationReports_named {declaration : Declaration} (hAround : ∀ outer ∈ around, outer.name ≠ "")
    (hName : declaration.name ≠ "") :
    declarationReports (parentPath (around.map Declaration.name)) (earlier, declaration) =
      (Placed.mk around earlier declaration).reports ++
        declaration.bodyReports (childPath (parentPath (around.map Declaration.name)) declaration.name) := by
  have hOuter : around.any (·.name = "") = false := by simpa using hAround
  simp [declarationReports, reports_toNode, Placed.reports, Placed.problems, Placed.nameProblems, Placed.path,
    Placed.parent, hOuter, hName]

mutual

theorem bodyReports_eq : ∀ (declaration : Declaration) {around : List Declaration},
    (∀ outer ∈ around ++ [declaration], outer.name ≠ "") →
      declaration.bodyReports (childPath (parentPath (around.map Declaration.name)) declaration.name) =
        (declaration.placedBelow around).flatMap Placed.reports
  | ⟨_, _, _, _, none⟩, _, _ => by
    rw [Declaration.placedBelow]
    rfl
  | ⟨name, _, _, _, some body⟩, around, hNamed => by
    have hBody := scopeReports_eq _ body names_empty hNamed
    rw [List.map_append, List.map_singleton, parentPath_concat] at hBody
    rw [Declaration.placedBelow]
    exact hBody

theorem scopeReports_eq : ∀ (around scope : List Declaration) {earlier : List Declaration} {tree : Tree},
    tree.Names earlier → (∀ outer ∈ around, outer.name ≠ "") →
      (addDeclarations (parentPath (around.map Declaration.name)) tree scope).2 =
        (placedIn around earlier scope).flatMap Placed.reports
  | _, [], _, _, _, _ => by
    rw [placedIn]
    rfl
  | around, declaration :: rest, earlier, tree, hTree, hAround => by
    rw [addDeclarations_cons hTree, scopeReports_eq around rest (hTree.grown _ declaration) hAround, placedIn,
      List.flatMap_cons, List.flatMap_append, ← List.append_assoc]
    by_cases hName : declaration.name = ""
    · rw [declarationReports_unnamed hAround hName, reports_below_unnamed hName, List.append_nil]
    · have hAll : ∀ outer ∈ around ++ [declaration], outer.name ≠ "" :=
        List.forall_mem_append.mpr ⟨hAround, by simpa using hName⟩
      rw [declarationReports_named hAround hName, bodyReports_eq declaration hAll]

end

/-! ## The list of commands is complete -/

mutual

theorem scopeIn_placedBelow : ∀ (declaration : Declaration) {around earlier after : List Declaration}
    {placed : Placed}, ScopeIn declarations around (earlier ++ declaration :: after) →
      placed ∈ declaration.placedBelow around →
      ∃ after, ScopeIn declarations placed.around (placed.earlier ++ placed.declaration :: after)
  | ⟨_, _, _, _, none⟩, _, _, _, _, _, hMem => by
    rw [Declaration.placedBelow] at hMem
    cases hMem
  | ⟨_, _, _, _, some body⟩, _, _, _, _, hScope, hMem => by
    rw [Declaration.placedBelow] at hMem
    exact scopeIn_placedIn [] body (hScope.body (by simp) rfl) hMem

theorem scopeIn_placedIn : ∀ (earlier rest : List Declaration) {around : List Declaration} {placed : Placed},
    ScopeIn declarations around (earlier ++ rest) → placed ∈ placedIn around earlier rest →
      ∃ after, ScopeIn declarations placed.around (placed.earlier ++ placed.declaration :: after)
  | _, [], _, _, _, hMem => by
    rw [placedIn] at hMem
    cases hMem
  | _, declaration :: rest, _, _, hScope, hMem => by
    rw [placedIn, List.mem_cons, List.mem_append] at hMem
    rcases hMem with rfl | hBelow | hRest
    · exact ⟨rest, hScope⟩
    · exact scopeIn_placedBelow declaration hScope hBelow
    · exact scopeIn_placedIn _ rest (by rwa [← List.append_cons]) hRest

end

mutual

theorem placedBelow_below : ∀ (declaration : Declaration) {around : List Declaration} {placed : Placed},
    placed ∈ declaration.placedBelow around →
      placed.declaration.placedBelow placed.around ⊆ declaration.placedBelow around
  | ⟨_, _, _, _, none⟩, _, _, hMem => by
    rw [Declaration.placedBelow] at hMem
    cases hMem
  | ⟨_, _, _, _, some body⟩, _, _, hMem => by
    rw [Declaration.placedBelow] at hMem ⊢
    exact placedIn_below body hMem

theorem placedIn_below : ∀ (scope : List Declaration) {around earlier : List Declaration} {placed : Placed},
    placed ∈ placedIn around earlier scope →
      placed.declaration.placedBelow placed.around ⊆ placedIn around earlier scope
  | [], _, _, _, hMem => by
    rw [placedIn] at hMem
    cases hMem
  | declaration :: rest, _, _, _, hMem => by
    rw [placedIn] at hMem ⊢
    rcases List.mem_cons.mp hMem with rfl | hMem
    · exact fun _ h => List.mem_cons_of_mem _ (List.mem_append_left _ h)
    · rcases List.mem_append.mp hMem with hBelow | hRest
      · exact fun _ h => List.mem_cons_of_mem _ (List.mem_append_left _ (placedBelow_below declaration hBelow h))
      · exact fun _ h => List.mem_cons_of_mem _ (List.mem_append_right _ (placedIn_below rest hRest h))

end

theorem mem_placedIn (around front before : List Declaration) (declaration : Declaration) (after : List Declaration) :
    ⟨around, front ++ before, declaration⟩ ∈ placedIn around front (before ++ declaration :: after) := by
  induction before generalizing front with
  | nil =>
    rw [List.nil_append, placedIn, List.append_nil]
    exact List.mem_cons_self
  | cons first before ih =>
    have hRest := ih (front ++ [first])
    rw [← List.append_cons] at hRest
    rw [List.cons_append, placedIn]
    exact List.mem_cons_of_mem _ (List.mem_append_right _ hRest)

theorem ScopeIn.mem_commandsIn {scope : List Declaration} (h : ScopeIn declarations around scope) :
    ∀ {before after : List Declaration} {declaration : Declaration}, scope = before ++ declaration :: after →
      ⟨around, before, declaration⟩ ∈ commandsIn declarations := by
  induction h with
  | document =>
    rintro before after declaration rfl
    exact mem_placedIn [] [] before declaration after
  | @body around scope inner outer _ hMem hBody ih =>
    rintro before after declaration rfl
    obtain ⟨front, back, hScope⟩ := List.append_of_mem hMem
    apply placedIn_below _ (ih hScope)
    obtain ⟨name, keyword, position, attributes, body⟩ := outer
    obtain rfl : body = some _ := hBody
    rw [Declaration.placedBelow]
    exact mem_placedIn _ [] before declaration after

theorem mem_commandsIn_iff {declaration : Declaration} :
    ⟨around, earlier, declaration⟩ ∈ commandsIn declarations ↔
      ∃ after, ScopeIn declarations around (earlier ++ declaration :: after) := by
  constructor
  · exact scopeIn_placedIn [] declarations .document
  · rintro ⟨after, hScope⟩
    exact hScope.mem_commandsIn rfl

/-- The reports of a document are those of its declarations in pre-order, whichever scope they stand in. -/
theorem canonicalize_reports (declarations : List Declaration) :
    (canonicalize declarations).2 = (commandsIn declarations).flatMap Placed.reports ∧
      ∀ around earlier declaration, ⟨around, earlier, declaration⟩ ∈ commandsIn declarations ↔
        ∃ after, ScopeIn declarations around (earlier ++ declaration :: after) :=
  ⟨scopeReports_eq [] declarations names_empty (by simp), fun _ _ _ => mem_commandsIn_iff⟩

def namelessAction : Declaration := ⟨"", "action", some ⟨23, 3, 3⟩, [], none⟩

def namelessDialog : Declaration := ⟨"", "dialog", some ⟨10, 2, 1⟩, [], some [namelessAction]⟩

/-- The empty name of a command inside a command without a name is not reported. -/
theorem nameless_inside_unreported :
    ⟨[namelessDialog], [], namelessAction⟩ ∈ commandsIn [namelessDialog] ∧ namelessAction.name = "" ∧
      .emptyName namelessAction.position ∉ (canonicalize [namelessDialog]).2 := by
  have hReports : (canonicalize [namelessDialog]).2 = [.emptyName (some ⟨10, 2, 1⟩)] := rfl
  refine ⟨?_, rfl, ?_⟩
  · exact mem_commandsIn_iff.mpr ⟨[], .body .document (List.mem_singleton_self _) rfl⟩
  · rw [hReports]
    decide

end DialogTree
