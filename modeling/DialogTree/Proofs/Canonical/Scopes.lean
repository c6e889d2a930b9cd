import DialogTree.Proofs.Canonical.Attributes
import DialogTree.Proofs.Tree.PreOrder

/-!
# Names in a scope

A scope becomes one command for each of its names, built from the first declaration of the name. Every later
declaration of the name is reported once, and so are the problems inside of it. A declaration without a name is
reported and left aside.
-/

namespace DialogTree

/-! ## First and later declarations of a name -/

def isNew (earlier : List Declaration) (name : String) : Bool :=
  name != "" && !earlier.any (·.name == name)

def isRepeated (earlier : List Declaration) (name : String) : Bool :=
  name != "" && earlier.any (·.name == name)

def firstOccurrences (scope : List Declaration) : List Declaration :=
  ((withEarlier [] scope).filter fun entry => isNew entry.1 entry.2.name).map Prod.snd

def repetitions (scope : List Declaration) : List Declaration :=
  ((withEarlier [] scope).filter fun entry => isRepeated entry.1 entry.2.name).map Prod.snd

variable {earlier scope : List Declaration} {declaration : Declaration} {parent : Option String} {tree : Tree}

theorem isNew_concat (earlier : List Declaration) (declaration : Declaration) (name : String) :
    isNew (earlier ++ [declaration]) name = (isNew earlier name && !name == declaration.name) := by
  simp [isNew, Bool.and_assoc, Bool.beq_comm]

theorem names_first (earlier scope : List Declaration) :
    ((withEarlier earlier scope).filter fun entry => isNew entry.1 entry.2.name).map (·.2.name) =
      ((scope.map Declaration.name).filter (isNew earlier)).eraseDups := by
  induction scope generalizing earlier with
  | nil => rfl
  | cons declaration rest ih =>
    have hRest := ih (earlier ++ [declaration])
    rw [withEarlier, List.filter_cons, List.map_cons, List.filter_cons]
    cases hNew : isNew earlier declaration.name with
    | true =>
      rw [if_pos rfl, if_pos rfl, List.map_cons, hRest, List.eraseDups_cons, List.filter_filter]
      congr 3
      funext name
      rw [isNew_concat, Bool.and_comm]
    | false =>
      -- A name that is new does not come back as the one that was just found to be known.
      have hSame : isNew (earlier ++ [declaration]) = isNew earlier := by
        funext name
        rw [isNew_concat]
        cases hName : isNew earlier name with
        | false => rfl
        | true =>
          have hOther : name ≠ declaration.name := by
            rintro rfl
            rw [hNew] at hName
            cases hName
          simpa using hOther
      rw [if_neg Bool.false_ne_true, if_neg Bool.false_ne_true, hRest, hSame]

theorem isRepeated_of_isNew {name : String} (hNew : isNew earlier name = true) : isRepeated earlier name = false := by
  simp only [isNew, isRepeated, Bool.and_eq_true, Bool.not_eq_true'] at hNew ⊢
  simp [hNew.2]

theorem isRepeated_of_named {name : String} (hName : name ≠ "") (hNew : isNew earlier name = false) :
    isRepeated earlier name = true := by
  simpa [isNew, isRepeated, hName] using hNew

theorem length_new_add_repeated (earlier scope : List Declaration) :
    ((withEarlier earlier scope).filter fun entry => isNew entry.1 entry.2.name).length +
        ((withEarlier earlier scope).filter fun entry => isRepeated entry.1 entry.2.name).length =
      (scope.filter (·.name ≠ "")).length := by
  induction scope generalizing earlier with
  | nil => rfl
  | cons declaration rest ih =>
    have hRest := ih (earlier ++ [declaration])
    rw [withEarlier, List.filter_cons, List.filter_cons, List.filter_cons]
    by_cases hName : declaration.name = ""
    · simpa [isNew, isRepeated, hName] using hRest
    -- A declaration with a name is either the first one of it or a repetition.
    · cases hNew : isNew earlier declaration.name with
      | true =>
        rw [isRepeated_of_isNew hNew, if_pos rfl, if_neg Bool.false_ne_true, if_pos (decide_eq_true hName),
          List.length_cons, List.length_cons]
        omega
      | false =>
        rw [isRepeated_of_named hName hNew, if_neg Bool.false_ne_true, if_pos rfl, if_pos (decide_eq_true hName),
          List.length_cons, List.length_cons]
        omega

/-! ## The reports of one declaration -/

/-- A later declaration of a name is reported, with the path and the place that it has. -/
def repeatReport? (parent : Option String) (entry : List Declaration × Declaration) : Option StructureError :=
  if isRepeated entry.1 entry.2.name then
    some (.duplicateCommand (childPath parent entry.2.name) entry.2.position)
  else none

/-- What a scope reports for a declaration: the name, and behind it what the declaration itself is reported for. -/
def declarationReports (parent : Option String) (entry : List Declaration × Declaration) : List StructureError :=
  if entry.2.name = "" then [.emptyName entry.2.position]
  else (repeatReport? parent entry).toList ++ (entry.2.toNode (childPath parent entry.2.name)).2

def Tree.Names (tree : Tree) (earlier : List Declaration) : Prop :=
  ∀ name, name ≠ "" → tree.contains name = earlier.any (·.name == name)

def Tree.grown (parent : Option String) (tree : Tree) (declaration : Declaration) : Tree :=
  if declaration.name = "" ∨ tree.contains declaration.name then tree
  else ⟨tree.nodes ++ [(declaration.name, (declaration.toNode (childPath parent declaration.name)).1)]⟩

theorem addDeclarations_cons (h : tree.Names earlier) (declaration : Declaration) (rest : List Declaration) :
    addDeclarations parent tree (declaration :: rest) =
      ((addDeclarations parent (tree.grown parent declaration) rest).1,
        declarationReports parent (earlier, declaration) ++
          (addDeclarations parent (tree.grown parent declaration) rest).2) := by
  rw [addDeclarations]
  by_cases hName : declaration.name = ""
  · simp [Tree.grown, declarationReports, hName]
  · have hContains := h declaration.name hName
    cases hKnown : tree.contains declaration.name with
    | true =>
      rw [hKnown] at hContains
      simp [Tree.grown, declarationReports, repeatReport?, isRepeated, hName, hKnown, ← hContains]
    | false =>
      rw [hKnown] at hContains
      simp [Tree.grown, declarationReports, repeatReport?, isRepeated, hName, hKnown, ← hContains]

theorem Tree.Names.grown (h : tree.Names earlier) (parent : Option String) (declaration : Declaration) :
    (tree.grown parent declaration).Names (earlier ++ [declaration]) := by
  intro name hName
  rw [List.any_append, ← h name hName, Tree.grown]
  split
  · rename_i hSame
    by_cases hOwn : declaration.name = name
    · subst hOwn
      have hKnown := hSame.resolve_left hName
      simp [hKnown]
    · simp [hOwn]
  · simp [Tree.contains]

theorem Tree.nodes_grown (h : tree.Names earlier) (parent : Option String) (declaration : Declaration) :
    (tree.grown parent declaration).nodes =
      tree.nodes ++ if isNew earlier declaration.name then
        [(declaration.name, (declaration.toNode (childPath parent declaration.name)).1)] else [] := by
  unfold Tree.grown
  by_cases hName : declaration.name = ""
  · simp [isNew, hName]
  · cases hKnown : tree.contains declaration.name with
    | true =>
      have hNew : isNew earlier declaration.name = false := by
        simp [isNew, ← h declaration.name hName, hKnown]
      simp [hNew]
    | false =>
      have hNew : isNew earlier declaration.name = true := by
        simp [isNew, ← h declaration.name hName, hKnown, hName]
      simp [hNew, hName]

/-! ## The whole scope -/

theorem reports_addDeclarations (h : tree.Names earlier) (parent : Option String) (scope : List Declaration) :
    (addDeclarations parent tree scope).2 = (withEarlier earlier scope).flatMap (declarationReports parent) := by
  induction scope generalizing tree earlier with
  | nil => rfl
  | cons declaration rest ih =>
    rw [addDeclarations_cons h, withEarlier, List.flatMap_cons, ih (h.grown parent declaration)]

theorem nodes_addDeclarations (h : tree.Names earlier) (parent : Option String) (scope : List Declaration) :
    (addDeclarations parent tree scope).1.nodes =
      tree.nodes ++ ((withEarlier earlier scope).filter fun entry => isNew entry.1 entry.2.name).map
        fun entry => (entry.2.name, (entry.2.toNode (childPath parent entry.2.name)).1) := by
  induction scope generalizing tree earlier with
  | nil => exact (List.append_nil _).symm
  | cons declaration rest ih =>
    rw [addDeclarations_cons h, ih (h.grown parent declaration), Tree.nodes_grown h, withEarlier, List.filter_cons,
      List.append_assoc]
    cases isNew earlier declaration.name <;> rfl

theorem names_empty : Tree.empty.Names [] := fun _ _ => rfl

/-- What a scope becomes and what is reported for it. Of the reports, those about its names are its own; the others
are raised inside its declarations. -/
structure FoldsTo (parent : Option String) (scope : List Declaration) (outcome : Tree × List StructureError) :
    Prop where
  names : outcome.1.names = ((scope.map Declaration.name).filter (· ≠ "")).eraseDups
  nodes : outcome.1.nodes = (firstOccurrences scope).map fun declaration =>
    (declaration.name, (declaration.toNode (childPath parent declaration.name)).1)
  bodies : ∀ declaration ∈ scope, (declaration.toNode (childPath parent declaration.name)).1.children =
    declaration.body.map fun body => (addDeclarations (some (childPath parent declaration.name)) .empty body).1
  reports : outcome.2 = (withEarlier [] scope).flatMap (declarationReports parent)
  repeats : (withEarlier [] scope).filterMap (repeatReport? parent) = (repetitions scope).map fun declaration =>
    .duplicateCommand (childPath parent declaration.name) declaration.position
  count : ((withEarlier [] scope).filterMap (repeatReport? parent)).length +
    ((scope.map Declaration.name).filter (· ≠ "")).eraseDups.length = (scope.filter (·.name ≠ "")).length

theorem firsts_eq (scope : List Declaration) : (firstOccurrences scope).map Declaration.name =
    ((scope.map Declaration.name).filter (· ≠ "")).eraseDups := by
  have hNew : isNew [] = fun name => decide (name ≠ "") := by
    funext name
    simp [isNew, bne, Bool.beq_eq_decide_eq]
  rw [firstOccurrences, List.map_map, ← hNew, ← names_first]
  rfl

theorem repeats_eq (parent : Option String) (scope : List Declaration) :
    (withEarlier [] scope).filterMap (repeatReport? parent) = (repetitions scope).map fun declaration =>
      .duplicateCommand (childPath parent declaration.name) declaration.position := by
  rw [repetitions, List.map_map, ← List.filterMap_eq_map, List.filterMap_filter]
  rfl

theorem scope_folds (parent : Option String) (scope : List Declaration) :
    FoldsTo parent scope (addDeclarations parent .empty scope) := by
  have hNodes : (addDeclarations parent .empty scope).1.nodes = (firstOccurrences scope).map fun declaration =>
      (declaration.name, (declaration.toNode (childPath parent declaration.name)).1) := by
    rw [nodes_addDeclarations names_empty, firstOccurrences, List.map_map]
    rfl
  refine ⟨?_, hNodes, fun declaration _ => ?_, reports_addDeclarations names_empty parent scope,
    repeats_eq parent scope, ?_⟩
  · rw [Tree.names, hNodes, List.map_map, ← firsts_eq]
    rfl
  · rw [Declaration.toNode_eq]
  · rw [repeats_eq, List.length_map, ← firsts_eq, List.length_map, repetitions, List.length_map, firstOccurrences,
      List.length_map, Nat.add_comm]
    exact length_new_add_repeated [] scope

/-! ## Scopes at every depth -/

/-- The declarations of a document, or of a body in it, with the declarations around them from the outermost in. -/
inductive ScopeIn (declarations : List Declaration) : List Declaration → List Declaration → Prop where
  | document : ScopeIn declarations [] declarations
  | body {around scope inner : List Declaration} {declaration : Declaration}
      (hScope : ScopeIn declarations around scope) (hMem : declaration ∈ scope)
      (hBody : declaration.body = some inner) : ScopeIn declarations (around ++ [declaration]) inner

theorem infix_flatMap {α β : Type} {f : α → List β} {items : List α} {item : α} (h : item ∈ items) :
    f item <:+: items.flatMap f := by
  obtain ⟨before, after, rfl⟩ := List.append_of_mem h
  rw [List.flatMap_append, List.flatMap_cons, ← List.append_assoc]
  exact List.infix_append _ _ _

theorem exists_withEarlier {α : Type} {items : List α} {item : α} (h : item ∈ items) (earlier : List α) :
    ∃ front, (front, item) ∈ withEarlier earlier items := by
  induction items generalizing earlier with
  | nil => cases h
  | cons first rest ih =>
    rcases List.mem_cons.mp h with rfl | hRest
    · exact ⟨earlier, List.mem_cons_self⟩
    · obtain ⟨front, hFront⟩ := ih hRest (earlier ++ [first])
      exact ⟨front, List.mem_cons_of_mem _ hFront⟩

theorem ScopeIn.reports {declarations around scope : List Declaration} (h : ScopeIn declarations around scope)
    (hNamed : ∀ declaration ∈ around, declaration.name ≠ "") :
    (addDeclarations (parentPath (around.map Declaration.name)) .empty scope).2 <:+: (canonicalize declarations).2 := by
  induction h with
  | document => exact List.infix_rfl
  | @body around scope inner declaration _ hMem hBody ih =>
    obtain ⟨hAround, hName⟩ := List.forall_mem_append.mp hNamed
    rw [List.map_append, List.map_singleton, parentPath_concat]
    generalize parentPath (around.map Declaration.name) = parent at ih
    refine List.IsInfix.trans ?_ (ih hAround)
    obtain ⟨front, hFront⟩ := exists_withEarlier hMem []
    rw [reports_addDeclarations names_empty parent scope]
    refine List.IsInfix.trans ?_ (infix_flatMap (f := declarationReports parent) hFront)
    rw [declarationReports, if_neg (hName declaration (List.mem_singleton_self _)), Declaration.toNode_eq,
      Declaration.bodyReports, hBody, ← List.append_assoc]
    exact (List.suffix_append _ _).isInfix

/-- Every scope that is read becomes the commands of its distinct names, each built from the first declaration of the
name, and is reported once for every later one. These reports are among those of the document. -/
theorem canonicalize_folds {declarations around scope : List Declaration} (hScope : ScopeIn declarations around scope)
    (hNamed : ∀ declaration ∈ around, declaration.name ≠ "") :
    FoldsTo (parentPath (around.map Declaration.name)) scope
        (addDeclarations (parentPath (around.map Declaration.name)) .empty scope) ∧
      (addDeclarations (parentPath (around.map Declaration.name)) .empty scope).2 <:+:
        (canonicalize declarations).2 :=
  ⟨scope_folds _ scope, hScope.reports hNamed⟩

def repeatedActions : List Declaration :=
  [⟨"yes", "action", some ⟨24, 3, 3⟩, [], none⟩, ⟨"no", "action", some ⟨39, 4, 3⟩, [], none⟩,
    ⟨"yes", "link", some ⟨53, 5, 3⟩, [⟨nameKey, .bool true, none⟩], none⟩, ⟨"", "action", none, [], none⟩,
    ⟨"yes", "action", some ⟨66, 6, 3⟩, [], none⟩]

def repeatingDialog : Declaration := ⟨"ask", "dialog", some ⟨10, 2, 1⟩, [], some repeatedActions⟩

theorem canonicalize_folds_repeating :
    (FoldsTo (parentPath ["ask"]) repeatedActions (addDeclarations (parentPath ["ask"]) .empty repeatedActions) ∧
      (addDeclarations (parentPath ["ask"]) .empty repeatedActions).2 <:+: (canonicalize [repeatingDialog]).2) ∧
    (addDeclarations (parentPath ["ask"]) .empty repeatedActions).1.names = ["yes", "no"] ∧
    (withEarlier [] repeatedActions).filterMap (repeatReport? (parentPath ["ask"])) =
      [.duplicateCommand "ask.yes" (some ⟨53, 5, 3⟩), .duplicateCommand "ask.yes" (some ⟨66, 6, 3⟩)] :=
  have hScope : ScopeIn [repeatingDialog] [repeatingDialog] repeatedActions :=
    .body .document (List.mem_singleton_self repeatingDialog) rfl
  have hNamed : ∀ declaration ∈ [repeatingDialog], declaration.name ≠ "" := by
    rintro declaration hMem
    rw [List.mem_singleton.mp hMem]
    decide
  ⟨canonicalize_folds hScope hNamed, rfl, rfl⟩

end DialogTree
