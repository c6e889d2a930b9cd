import DialogTree.Proofs.Tree.Siblings

/-!
# Trees under use

A tree is used by insertions and by edits of the commands that it holds. An edit may itself use the tree of
children of its command, so that the calls reach every depth. What the calls on a tree do to one of its scopes
is what the calls on that scope alone do to an empty one.
-/

namespace DialogTree

mutual

inductive TreeCall where
  /-- A new command is inserted once it has been edited. -/
  | insert (name keyword : String) (edits : List NodeEdit)
  /-- The command of a name is edited, when there is one. -/
  | edit (name : String) (edits : List NodeEdit)
  /-- Every command is edited, each as its name says. -/
  | editEach (edits : String → List NodeEdit)

inductive NodeEdit where
  | keyword (keyword : String)
  | kind (kind : Option String)
  | attributes (attributes : AttributeMap)
  | position (position : Option Position)
  | dropChildren
  /-- The children become a tree of their own making. -/
  | newChildren (calls : List TreeCall)
  /-- The children that are there are used. -/
  | onChildren (calls : List TreeCall)

end

mutual

/-- The tree behind a call, be it refused or not. -/
def TreeCall.perform : TreeCall → Tree → Tree
  | .insert name keyword edits, tree => (tree.insert name (editAll edits (.ofKeyword keyword))).1
  | .edit name edits, tree => tree.modify name (editAll edits)
  | .editEach edits, tree => tree.mapEntries fun name => editAll (edits name)

def performAll : List TreeCall → Tree → Tree
  | [], tree => tree
  | call :: calls, tree => performAll calls (call.perform tree)

def NodeEdit.apply : NodeEdit → Node → Node
  | .keyword keyword, node => { node with keyword := keyword }
  | .kind kind, node => { node with kind := kind }
  | .attributes attributes, node => { node with attributes := attributes }
  | .position position, node => { node with position := position }
  | .dropChildren, node => { node with children := none }
  | .newChildren calls, node => { node with children := some (performAll calls .empty) }
  | .onChildren calls, node => { node with children := node.children.map (performAll calls) }

def editAll : List NodeEdit → Node → Node
  | [], node => node
  | edit :: edits, node => editAll edits (edit.apply node)

end

def builtBy (calls : List TreeCall) : Tree :=
  performAll calls .empty

variable {tree scope : Tree} {name keyword : String} {node : Node} {edits : List NodeEdit}

theorem performAll_append (calls later : List TreeCall) (tree : Tree) :
    performAll (calls ++ later) tree = performAll later (performAll calls tree) := by
  induction calls generalizing tree with
  | nil => rfl
  | cons call calls ih => exact ih (call.perform tree)

theorem editAll_append (edits later : List NodeEdit) (node : Node) :
    editAll (edits ++ later) node = editAll later (editAll edits node) := by
  induction edits generalizing node with
  | nil => rfl
  | cons edit edits ih => exact ih (edit.apply node)

theorem perform_of_insert_ok {grown : Tree}
    (hGrown : tree.insert name (editAll edits (.ofKeyword keyword)) = (grown, .ok ())) :
    (TreeCall.insert name keyword edits).perform tree = grown := by
  rw [TreeCall.perform, hGrown]

theorem perform_of_insert_error {left : Tree} {error : TreeError}
    (hError : tree.insert name (editAll edits (.ofKeyword keyword)) = (left, .error error)) :
    (TreeCall.insert name keyword edits).perform tree = tree := by
  rw [TreeCall.perform, hError]
  exact (Tree.insert_eq_error_iff.mp hError).1

/-! ## Names -/

/-- The names that a call gives to a tree: that of an insertion which succeeds. -/
def TreeCall.inserted (tree : Tree) : TreeCall → List String
  | .insert name keyword edits =>
    match tree.insert name (editAll edits (.ofKeyword keyword)) with
    | (_, .ok ()) => [name]
    | (_, .error _) => []
  | .edit _ _ => []
  | .editEach _ => []

def insertedBy : List TreeCall → Tree → List String
  | [], _ => []
  | call :: calls, tree => call.inserted tree ++ insertedBy calls (call.perform tree)

theorem TreeCall.names_perform (call : TreeCall) (tree : Tree) :
    (call.perform tree).names = tree.names ++ call.inserted tree := by
  cases call with
  | insert name keyword edits =>
    rcases hInsert : tree.insert name (editAll edits (.ofKeyword keyword)) with ⟨grown, error | ⟨⟩⟩
    · rw [perform_of_insert_error hInsert, inserted, hInsert]
      exact (List.append_nil _).symm
    · obtain ⟨-, -, rfl⟩ := Tree.insert_eq_ok_iff.mp hInsert
      rw [perform_of_insert_ok hInsert, inserted, hInsert]
      simp [Tree.names]
  | edit name edits =>
    rw [perform, Tree.names_modify, inserted, List.append_nil]
  | editEach edits =>
    rw [perform, Tree.names_mapEntries, inserted, List.append_nil]

theorem names_performAll (calls : List TreeCall) (tree : Tree) :
    (performAll calls tree).names = tree.names ++ insertedBy calls tree := by
  induction calls generalizing tree with
  | nil => exact (List.append_nil _).symm
  | cons call calls ih =>
    rw [performAll, ih, call.names_perform, insertedBy, List.append_assoc]

theorem Tree.WellNamed.perform (hTree : tree.WellNamed) (call : TreeCall) : (call.perform tree).WellNamed := by
  have hKeeps : (call.perform tree).names = tree.names → (call.perform tree).WellNamed :=
    fun hNames => ⟨hNames ▸ hTree.distinct, hNames ▸ hTree.nonEmpty⟩
  cases call with
  | insert name keyword edits =>
    rcases hInsert : tree.insert name (editAll edits (.ofKeyword keyword)) with ⟨grown, error | ⟨⟩⟩
    · rw [perform_of_insert_error hInsert]
      exact hTree
    · rw [perform_of_insert_ok hInsert]
      exact hTree.insert hInsert
  | edit name edits =>
    exact hKeeps (by rw [TreeCall.perform, Tree.names_modify])
  | editEach edits =>
    exact hKeeps (by rw [TreeCall.perform, Tree.names_mapEntries])

theorem Tree.WellNamed.performAll (hTree : tree.WellNamed) (calls : List TreeCall) :
    (performAll calls tree).WellNamed := by
  induction calls generalizing tree with
  | nil => exact hTree
  | cons call calls ih => exact ih (hTree.perform call)

theorem wellNamed_builtBy (calls : List TreeCall) : (builtBy calls).WellNamed :=
  Tree.wellNamed_empty.performAll calls

/-! ## The history of a scope -/

/-- The edits that a call makes of the command that has the name afterwards. -/
def TreeCall.editsOf (name : String) (tree : Tree) (call : TreeCall) : List NodeEdit :=
  match call with
  | .insert _ _ edits => if name ∈ call.inserted tree then edits else []
  | .edit edited edits => if edited = name ∧ name ∈ tree.names then edits else []
  | .editEach edits => if name ∈ tree.names then edits name else []

/-- The edits of the command of a name, since it was new. -/
def editsBy (name : String) : List TreeCall → Tree → List NodeEdit
  | [], _ => []
  | call :: calls, tree => call.editsOf name tree ++ editsBy name calls (call.perform tree)

/-- The calls on the children of a command after one more edit, given those before it. -/
def NodeEdit.childCalls (own : Option (List TreeCall)) : NodeEdit → Option (List TreeCall)
  | .keyword _ | .kind _ | .attributes _ | .position _ => own
  | .dropChildren => none
  | .newChildren calls => some calls
  | .onChildren calls => own.map (· ++ calls)

/-- The calls on the scope that the names lead to, since the scope was empty. -/
def callsAt : List String → List TreeCall → Option (List TreeCall)
  | [], calls => some calls
  | name :: path, calls => ((editsBy name calls .empty).foldl NodeEdit.childCalls none).bind (callsAt path)

theorem TreeCall.editsOf_insert_of_ne {added : String} (hOther : name ≠ added) :
    (TreeCall.insert added keyword edits).editsOf name tree = [] := by
  refine if_neg fun hMem => ?_
  rw [inserted] at hMem
  split at hMem
  · exact hOther (List.mem_singleton.mp hMem)
  · cases hMem

theorem TreeCall.get?_perform_of_some (hFound : tree.get? name = some node) (call : TreeCall) :
    (call.perform tree).get? name = some (editAll (call.editsOf name tree) node) := by
  have hKnown : name ∈ tree.names := Tree.get?_isSome_iff.mp ⟨node, hFound⟩
  cases call with
  | insert added keyword edits =>
    rcases hInsert : tree.insert added (editAll edits (.ofKeyword keyword)) with ⟨grown, error | ⟨⟩⟩
    · rw [perform_of_insert_error hInsert, hFound, editsOf, inserted, hInsert]
      simp [editAll]
    · -- What is inserted has another name, as this one is known.
      obtain ⟨-, hNew, rfl⟩ := Tree.insert_eq_ok_iff.mp hInsert
      have hOther : name ≠ added := fun hSame => hNew (hSame ▸ hKnown)
      rw [perform_of_insert_ok hInsert, Tree.get?_concat, hFound, editsOf, inserted, hInsert]
      simp [hOther, editAll]
  | edit edited edits =>
    rw [perform, Tree.get?_modify, hFound, editsOf]
    by_cases hEdited : edited = name
    · simp [hEdited, hKnown]
    · simp [hEdited, editAll]
  | editEach edits =>
    rw [perform, Tree.get?_mapEntries, hFound, editsOf, if_pos hKnown]
    rfl

theorem TreeCall.get?_perform_of_none (hAbsent : tree.get? name = none) (call : TreeCall) :
    ((call.perform tree).get? name = none ∧ call.editsOf name tree = []) ∨
      ∃ keyword, (call.perform tree).get? name = some (editAll (call.editsOf name tree) (.ofKeyword keyword)) := by
  have hUnknown : name ∉ tree.names := Tree.get?_eq_none_iff.mp hAbsent
  cases call with
  | insert added keyword edits =>
    rcases hInsert : tree.insert added (editAll edits (.ofKeyword keyword)) with ⟨grown, error | ⟨⟩⟩
    · rw [perform_of_insert_error hInsert, editsOf, inserted, hInsert]
      exact .inl ⟨hAbsent, by simp⟩
    · obtain ⟨-, -, rfl⟩ := Tree.insert_eq_ok_iff.mp hInsert
      rw [perform_of_insert_ok hInsert, Tree.get?_concat, hAbsent, editsOf, inserted, hInsert]
      by_cases hSame : added = name
      · exact .inr ⟨keyword, by simp [hSame]⟩
      · exact .inl (by simp [hSame, Ne.symm hSame])
  | edit edited edits =>
    rw [perform, Tree.get?_modify, hAbsent, editsOf]
    exact .inl (by simp [hUnknown])
  | editEach edits =>
    rw [perform, Tree.get?_mapEntries, hAbsent, editsOf, if_neg hUnknown]
    exact .inl ⟨rfl, rfl⟩

theorem get?_performAll_of_some (hFound : tree.get? name = some node) (calls : List TreeCall) :
    (performAll calls tree).get? name = some (editAll (editsBy name calls tree) node) := by
  induction calls generalizing tree node with
  | nil => exact hFound
  | cons call calls ih =>
    rw [performAll, editsBy, editAll_append]
    exact ih (call.get?_perform_of_some hFound)

/-- A command is a new one with the edits that the calls make of it. -/
theorem get?_performAll_of_none (hAbsent : tree.get? name = none) (calls : List TreeCall) :
    ((performAll calls tree).get? name = none ∧ editsBy name calls tree = []) ∨
      ∃ keyword, (performAll calls tree).get? name = some (editAll (editsBy name calls tree) (.ofKeyword keyword)) := by
  induction calls generalizing tree with
  | nil => exact .inl ⟨hAbsent, rfl⟩
  | cons call calls ih =>
    rw [performAll, editsBy]
    rcases call.get?_perform_of_none hAbsent with ⟨hStill, hNone⟩ | ⟨keyword, hNew⟩
    · rw [hNone]
      exact ih hStill
    · exact .inr ⟨keyword, by rw [get?_performAll_of_some hNew, editAll_append]⟩

theorem NodeEdit.children_apply {own : Option (List TreeCall)} (hOwn : node.children = own.map builtBy)
    (edit : NodeEdit) : (edit.apply node).children = (edit.childCalls own).map builtBy := by
  cases edit with
  | keyword => exact hOwn
  | kind => exact hOwn
  | attributes => exact hOwn
  | position => exact hOwn
  | dropChildren => rfl
  | newChildren calls => rfl
  | onChildren calls =>
    have hMore : ∀ calls', performAll calls (builtBy calls') = builtBy (calls' ++ calls) :=
      fun calls' => (performAll_append calls' calls .empty).symm
    simp only [apply, childCalls, hOwn, Option.map_map]
    exact congrArg (own.map ·) (funext hMore)

theorem children_editAll {own : Option (List TreeCall)} (hOwn : node.children = own.map builtBy)
    (edits : List NodeEdit) :
    (editAll edits node).children = (edits.foldl NodeEdit.childCalls own).map builtBy := by
  induction edits generalizing node own with
  | nil => exact hOwn
  | cons edit edits ih => exact ih (edit.children_apply hOwn)

/-- The children that a lookup of a name leads to are what the calls on them make. -/
theorem children_builtBy (calls : List TreeCall) (name : String) :
    ((builtBy calls).get? name).bind Node.children =
      ((editsBy name calls .empty).foldl NodeEdit.childCalls none).map builtBy := by
  have hAbsent : Tree.empty.get? name = none := rfl
  rcases get?_performAll_of_none hAbsent calls with ⟨hNone, hEdits⟩ | ⟨keyword, hSome⟩
  · rw [builtBy, hNone, hEdits]
    rfl
  · rw [builtBy, hSome]
    have hChildless : (Node.ofKeyword keyword).children = none := rfl
    exact children_editAll hChildless _

theorem scopeAt_builtBy_iff (path : List String) (calls : List TreeCall) :
    ScopeAt path (builtBy calls) scope ↔ ∃ own, callsAt path calls = some own ∧ scope = builtBy own := by
  -- One name down, the calls on the children take the place of the calls on the tree.
  induction path generalizing calls with
  | nil => simp [ScopeAt, callsAt]
  | cons name path ih =>
    have hChildren : ∀ children, (∃ node, (name, node) ∈ (builtBy calls).nodes ∧ node.children = some children) ↔
        ∃ own, (editsBy name calls .empty).foldl NodeEdit.childCalls none = some own ∧ builtBy own = children := by
      intro children
      rw [← Option.map_eq_some_iff, ← children_builtBy, Option.bind_eq_some_iff]
      simp only [Tree.get?_eq_some_iff (wellNamed_builtBy calls).distinct]
    simp only [ScopeAt, callsAt, Option.bind_eq_some_iff]
    constructor
    · rintro ⟨node, children, hMem, hNode, hScope⟩
      obtain ⟨own, hOwn, rfl⟩ := (hChildren children).mp ⟨node, hMem, hNode⟩
      obtain ⟨inner, hInner, hBuilt⟩ := (ih own).mp hScope
      exact ⟨inner, ⟨own, hOwn, hInner⟩, hBuilt⟩
    · rintro ⟨inner, ⟨own, hOwn, hInner⟩, hBuilt⟩
      obtain ⟨node, hMem, hNode⟩ := (hChildren (builtBy own)).mpr ⟨own, hOwn, rfl⟩
      exact ⟨node, builtBy own, hMem, hNode, (ih own).mpr ⟨inner, hInner, hBuilt⟩⟩

theorem distinctThroughout_builtBy (calls : List TreeCall) : (builtBy calls).DistinctThroughout := by
  intro path scope hScope
  obtain ⟨own, -, rfl⟩ := (scopeAt_builtBy_iff path calls).mp hScope
  exact (wellNamed_builtBy own).distinct

/-! ## A call at a depth -/

/-- A call on the scope that the names lead to, made from the root of the tree. -/
def TreeCall.madeAt (call : TreeCall) : List String → TreeCall
  | [] => call
  | name :: path => .edit name [.onChildren [call.madeAt path]]

theorem builtBy_concat (calls : List TreeCall) (call : TreeCall) :
    builtBy (calls ++ [call]) = call.perform (builtBy calls) :=
  performAll_append calls [call] .empty

theorem editsBy_append (calls later : List TreeCall) (tree : Tree) :
    editsBy name (calls ++ later) tree = editsBy name calls tree ++ editsBy name later (performAll calls tree) := by
  induction calls generalizing tree with
  | nil => rfl
  | cons call calls ih => rw [List.cons_append, editsBy, editsBy, performAll, ih, List.append_assoc]

theorem editsBy_concat (calls : List TreeCall) (call : TreeCall) :
    editsBy name (calls ++ [call]) .empty = editsBy name calls .empty ++ call.editsOf name (builtBy calls) := by
  rw [editsBy_append, editsBy, editsBy, List.append_nil, builtBy]

theorem mem_names_of_childCalls {calls own : List TreeCall}
    (hOwn : (editsBy name calls .empty).foldl NodeEdit.childCalls none = some own) : name ∈ (builtBy calls).names := by
  have hChildren := children_builtBy calls name
  rw [hOwn, Option.map_some, Option.bind_eq_some_iff] at hChildren
  obtain ⟨node, hFound, -⟩ := hChildren
  exact Tree.get?_isSome_iff.mp ⟨node, hFound⟩

theorem callsAt_madeAt {path : List String} {calls own : List TreeCall} (hOwn : callsAt path calls = some own)
    (call : TreeCall) : callsAt path (calls ++ [call.madeAt path]) = some (own ++ [call]) := by
  induction path generalizing calls with
  | nil =>
    obtain rfl := Option.some.inj hOwn
    rfl
  | cons name path ih =>
    obtain ⟨children, hChildren, hBelow⟩ := Option.bind_eq_some_iff.mp hOwn
    have hKnown := mem_names_of_childCalls hChildren
    rw [callsAt, editsBy_concat, TreeCall.madeAt, TreeCall.editsOf, if_pos ⟨rfl, hKnown⟩, List.foldl_append, hChildren]
    exact ih hBelow

/-- A scope off the way to an insertion, and not below the new command, has the same calls as before. -/
theorem callsAt_madeAt_insert {path other : List String} (hAround : ¬ other <+: path)
    (hNew : ¬ path ++ [name] <+: other) (calls : List TreeCall) :
    callsAt other (calls ++ [(TreeCall.insert name keyword edits).madeAt path]) = callsAt other calls := by
  cases other with
  | nil => exact absurd List.nil_prefix hAround
  | cons first other =>
    rw [callsAt, callsAt, editsBy_concat]
    cases path with
    | nil =>
      have hOther : first ≠ name := fun hSame => hNew (by simp [hSame])
      rw [TreeCall.madeAt, TreeCall.editsOf_insert_of_ne hOther, List.append_nil]
    | cons step path =>
      -- The call edits one command. Its children are followed further only when the scope is below it.
      rw [TreeCall.madeAt, TreeCall.editsOf]
      by_cases hStep : step = first ∧ first ∈ (builtBy calls).names
      · obtain ⟨rfl, hKnown⟩ := hStep
        rw [if_pos ⟨rfl, hKnown⟩, List.foldl_append]
        cases hOwn : (editsBy step calls .empty).foldl NodeEdit.childCalls none with
        | none => rfl
        | some own =>
          exact callsAt_madeAt_insert (fun h => hAround (List.cons_prefix_cons.mpr ⟨rfl, h⟩))
            (fun h => hNew (List.cons_prefix_cons.mpr ⟨rfl, h⟩)) own
      · rw [if_neg hStep, List.append_nil]

theorem builtBy_madeAt_eq {path : List String} {calls : List TreeCall} {call : TreeCall}
    (hScope : ScopeAt path (builtBy calls) scope) (hSame : call.perform scope = scope) :
    builtBy (calls ++ [call.madeAt path]) = builtBy calls := by
  induction path generalizing calls with
  | nil =>
    obtain rfl := hScope
    rw [builtBy_concat]
    exact hSame
  | cons name path ih =>
    obtain ⟨node, children, hMem, hChildren, hBelow⟩ := hScope
    obtain ⟨own, -, rfl⟩ := (scopeAt_builtBy_iff [name] calls).mp ⟨node, children, hMem, hChildren, rfl⟩
    have hInner : performAll [call.madeAt path] (builtBy own) = builtBy own :=
      (builtBy_concat own _).symm.trans (ih hBelow)
    have hNode : editAll [.onChildren [call.madeAt path]] node = node := by
      rw [editAll, editAll, NodeEdit.apply, hChildren, Option.map_some, hInner]
      exact node.withChildren_eq hChildren
    rw [builtBy_concat, TreeCall.madeAt, TreeCall.perform]
    exact Tree.modify_eq_self ((Tree.get?_eq_some_iff (wellNamed_builtBy calls).distinct).mpr hMem) hNode

/-! ## Every scope of a tree under use -/

/-- What holds of a scope that the names lead to in the tree that the calls make; `own` are the calls on it. -/
structure OrderlyScope (calls : List TreeCall) (path : List String) (own : List TreeCall) (scope : Tree) : Prop where
  built : scope = builtBy own
  inOrder : scope.names = insertedBy own .empty
  distinct : scope.names.Nodup
  nonEmpty : ∀ name ∈ scope.names, name ≠ ""
  insert_iff : ∀ name node, (∃ grown, scope.insert name node = (grown, .ok ())) ↔ name ≠ "" ∧ name ∉ scope.names
  insert_appends : ∀ name node grown, scope.insert name node = (grown, .ok ()) →
    grown.nodes = scope.nodes ++ [(name, node)]
  /-- An insertion that succeeds changes the scope to the one that it gives. -/
  accepted : ∀ name keyword edits grown,
    scope.insert name (editAll edits (.ofKeyword keyword)) = (grown, .ok ()) →
    ScopeAt path (builtBy (calls ++ [(TreeCall.insert name keyword edits).madeAt path])) grown
  /-- Scopes elsewhere in the tree stay as they are. -/
  elsewhere : ∀ name keyword edits other found, ¬ other <+: path → ¬ path ++ [name] <+: other →
    (ScopeAt other (builtBy (calls ++ [(TreeCall.insert name keyword edits).madeAt path])) found ↔
      ScopeAt other (builtBy calls) found)
  /-- An insertion that fails leaves the scope and the whole tree as they are. -/
  refused : ∀ name keyword edits left error,
    scope.insert name (editAll edits (.ofKeyword keyword)) = (left, .error error) →
    left = scope ∧ builtBy (calls ++ [(TreeCall.insert name keyword edits).madeAt path]) = builtBy calls
  get_iff : ∀ name, (∃ node, scope.get? name = some node) ↔ scope.contains name = true
  contains_iff : ∀ name, scope.contains name = true ↔ name ∈ scope.names
  get_iff_mem : ∀ name node, scope.get? name = some node ↔ (name, node) ∈ scope.nodes
  total : scope.total = {names | ∃ node, CommandAt scope names node}.ncard

/-- Whatever calls make a tree, each of its scopes is what the calls on that scope make. It has the names of the
insertions that succeeded, in their order, and the next insertion succeeds exactly for a name that is neither empty nor
among them. -/
theorem scopes_orderly (calls : List TreeCall) (path : List String) (scope : Tree) :
    ScopeAt path (builtBy calls) scope ↔
      ∃ own, callsAt path calls = some own ∧ OrderlyScope calls path own scope := by
  constructor
  · intro hScope
    obtain ⟨own, hOwn, rfl⟩ := (scopeAt_builtBy_iff path calls).mp hScope
    have hNamed := wellNamed_builtBy own
    refine ⟨own, hOwn, ?_⟩
    exact
      { built := rfl
        inOrder := names_performAll own .empty
        distinct := hNamed.distinct
        nonEmpty := fun name hMem hEmpty => hNamed.nonEmpty (hEmpty ▸ hMem)
        insert_iff := fun name node => by simp [Tree.insert_eq_ok_iff]
        insert_appends := fun name node grown hGrown => by
          obtain ⟨-, -, rfl⟩ := Tree.insert_eq_ok_iff.mp hGrown
          rfl
        accepted := fun name keyword edits grown hGrown => by
          rw [scopeAt_builtBy_iff, callsAt_madeAt hOwn]
          exact ⟨_, rfl, by rw [builtBy_concat, perform_of_insert_ok hGrown]⟩
        elsewhere := fun name keyword edits other found hAround hNew => by
          rw [scopeAt_builtBy_iff, scopeAt_builtBy_iff, callsAt_madeAt_insert hAround hNew]
        refused := fun name keyword edits left error hError =>
          ⟨(Tree.insert_eq_error_iff.mp hError).1, builtBy_madeAt_eq hScope (perform_of_insert_error hError)⟩
        get_iff := fun name => by rw [Tree.get?_isSome_iff, Tree.contains_iff]
        contains_iff := fun name => Tree.contains_iff
        get_iff_mem := fun name node => Tree.get?_eq_some_iff hNamed.distinct
        total := (distinctThroughout_builtBy own).total }
  · rintro ⟨own, hOwn, hOrderly⟩
    exact (scopeAt_builtBy_iff path calls).mpr ⟨own, hOwn, hOrderly.built⟩

/-- Two scopes are filled; one insertion fails on a known name in each of them, and one on the empty name. -/
def usedCalls : List TreeCall :=
  [.insert "main" "window" [.newChildren [.insert "ok" "action" []]],
   .insert "main" "dialog" [],
   .insert "" "dialog" [],
   .insert "help" "link" [.kind (some "external")],
   .edit "main" [.onChildren [.insert "cancel" "action" [], .insert "ok" "link" []]],
   .editEach fun name => [.keyword (if name = "main" then "panel" else "note")]]

theorem scopes_orderly_used :
    ∃ scope, ScopeAt ["main"] (builtBy usedCalls) scope ∧ scope.names = ["ok", "cancel"] ∧
      (builtBy usedCalls).names = ["main", "help"] ∧ (builtBy usedCalls).total = 4 ∧
        ∃ own, callsAt ["main"] usedCalls = some own ∧ OrderlyScope usedCalls ["main"] own scope := by
  have hScope : ScopeAt ["main"] (builtBy usedCalls)
      ⟨[("ok", .ofKeyword "action"), ("cancel", .ofKeyword "action")]⟩ :=
    ⟨_, _, List.mem_cons_self, rfl, rfl⟩
  exact ⟨_, hScope, rfl, rfl, rfl, (scopes_orderly usedCalls ["main"] _).mp hScope⟩

end DialogTree
