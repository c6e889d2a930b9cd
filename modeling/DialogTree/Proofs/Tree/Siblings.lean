import DialogTree.Proofs.Tree.PreOrder
import Mathlib.Data.Set.Card

/-!
# Siblings and scopes

What an insertion does to a scope, what a lookup finds in it, and how many commands a tree holds whose
siblings have names of their own.
-/

namespace DialogTree

variable {tree grown : Tree} {name : String} {node : Node}

namespace Tree

/-- Names that identify the commands of one scope. -/
structure WellNamed (tree : Tree) : Prop where
  distinct : tree.names.Nodup
  nonEmpty : "" ∉ tree.names

theorem wellNamed_empty : Tree.empty.WellNamed := ⟨List.nodup_nil, List.not_mem_nil⟩

theorem insert_emptyName : tree.insert "" node = (tree, .error .emptyName) := if_pos rfl

theorem insert_duplicateName (hName : name ≠ "") (hKnown : name ∈ tree.names) :
    tree.insert name node = (tree, .error (.duplicateName name)) := by
  rw [insert, if_neg hName, if_pos (contains_iff.mpr hKnown)]

theorem insert_of_new (hName : name ≠ "") (hNew : name ∉ tree.names) :
    tree.insert name node = (⟨tree.nodes ++ [(name, node)]⟩, .ok ()) := by
  rw [insert, if_neg hName, if_neg (mt contains_iff.mp hNew)]

theorem insert_eq_ok_iff : tree.insert name node = (grown, .ok ()) ↔
    name ≠ "" ∧ name ∉ tree.names ∧ grown = ⟨tree.nodes ++ [(name, node)]⟩ := by
  by_cases hName : name = ""
  · subst hName
    simp [insert_emptyName]
  · by_cases hKnown : name ∈ tree.names
    · simp [insert_duplicateName hName hKnown, hKnown]
    · simp [insert_of_new hName hKnown, hName, hKnown, eq_comm]

theorem insert_eq_error_iff {error : TreeError} : tree.insert name node = (grown, .error error) ↔
    grown = tree ∧ (name = "" ∧ error = .emptyName ∨
      name ≠ "" ∧ name ∈ tree.names ∧ error = .duplicateName name) := by
  by_cases hName : name = ""
  · subst hName
    simp [insert_emptyName, eq_comm]
  · by_cases hKnown : name ∈ tree.names
    · simp [insert_duplicateName hName hKnown, hName, hKnown, eq_comm]
    · simp [insert_of_new hName hKnown, hName, hKnown]

theorem WellNamed.insert (hTree : tree.WellNamed) (hGrown : tree.insert name node = (grown, .ok ())) :
    grown.WellNamed := by
  obtain ⟨hName, hNew, rfl⟩ := insert_eq_ok_iff.mp hGrown
  have hNames : Tree.names ⟨tree.nodes ++ [(name, node)]⟩ = tree.names ++ [name] := by simp [names]
  refine ⟨?_, ?_⟩
  · rw [hNames, ← List.concat_eq_append]
    exact hTree.distinct.concat hNew
  · rw [hNames, List.mem_append, List.mem_singleton]
    exact fun hMem => hMem.elim hTree.nonEmpty fun hSame => hName hSame.symm

/-! ## Lookups -/

@[simp] theorem get?_nil : Tree.get? ⟨[]⟩ name = none := rfl

theorem get?_cons (key : String) (first : Node) (rest : List (String × Node)) :
    Tree.get? ⟨(key, first) :: rest⟩ name = if key = name then some first else Tree.get? ⟨rest⟩ name := by
  by_cases hKey : key = name
  · simp [get?, hKey]
  · simp [get?, hKey]

theorem get?_concat (key : String) (last : Node) :
    Tree.get? ⟨tree.nodes ++ [(key, last)]⟩ name = (tree.get? name).or (if key = name then some last else none) := by
  have hLast : Tree.get? ⟨[(key, last)]⟩ name = if key = name then some last else none := get?_cons key last []
  rw [← hLast]
  simp only [get?, List.find?_append, Option.map_or]

theorem get?_isSome_iff : (∃ node, tree.get? name = some node) ↔ name ∈ tree.names := by
  obtain ⟨nodes⟩ := tree
  induction nodes with
  | nil => simp [names]
  | cons entry rest ih =>
    obtain ⟨key, first⟩ := entry
    rw [get?_cons]
    by_cases hKey : key = name
    · simp [names, hKey]
    · rw [if_neg hKey, ih]
      simp [names, Ne.symm hKey]

theorem get?_eq_none_iff : tree.get? name = none ↔ name ∉ tree.names := by
  rw [← get?_isSome_iff, ← Option.not_isSome_iff_eq_none, Option.isSome_iff_exists]

theorem get?_eq_some_iff (hDistinct : tree.names.Nodup) :
    tree.get? name = some node ↔ (name, node) ∈ tree.nodes :=
  find?_key_eq_some_iff hDistinct

/-! ## Changes in place -/

@[simp] theorem names_mapEntries (f : String → Node → Node) : (tree.mapEntries f).names = tree.names := by
  simp [mapEntries, names]

@[simp] theorem names_modify (f : Node → Node) : (tree.modify name f).names = tree.names := by
  obtain ⟨nodes⟩ := tree
  induction nodes with
  | nil => rfl
  | cons entry rest ih =>
    obtain ⟨key, first⟩ := entry
    simp only [names, modify, modify.go] at ih ⊢
    split
    · rfl
    · rw [List.map_cons, List.map_cons, ih]

theorem get?_mapEntries (f : String → Node → Node) : (tree.mapEntries f).get? name = (tree.get? name).map (f name) := by
  obtain ⟨nodes⟩ := tree
  induction nodes with
  | nil => rfl
  | cons entry rest ih =>
    obtain ⟨key, first⟩ := entry
    rw [mapEntries, List.map_cons, get?_cons, get?_cons]
    by_cases hKey : key = name
    · simp [hKey]
    · rw [if_neg hKey, if_neg hKey]
      exact ih

theorem get?_modify (edited : String) (f : Node → Node) :
    (tree.modify edited f).get? name = if edited = name then (tree.get? name).map f else tree.get? name := by
  obtain ⟨nodes⟩ := tree
  induction nodes with
  | nil => simp [modify, modify.go]
  | cons entry rest ih =>
    obtain ⟨key, first⟩ := entry
    simp only [modify] at ih
    simp only [modify, modify.go]
    by_cases hKey : key = edited
    · subst hKey
      by_cases hName : key = name
      · simp [get?_cons, hName]
      · simp [get?_cons, hName]
    · rw [if_neg hKey, get?_cons, get?_cons, ih]
      by_cases hName : key = name
      · simp [hName, show edited ≠ name from fun h => hKey (hName.trans h.symm)]
      · simp [hName]

theorem modify_eq_self {f : Node → Node} (hFound : tree.get? name = some node) (hSame : f node = node) :
    tree.modify name f = tree := by
  obtain ⟨nodes⟩ := tree
  induction nodes with
  | nil => cases hFound
  | cons entry rest ih =>
    obtain ⟨key, first⟩ := entry
    simp only [modify, mk.injEq] at ih
    rw [get?_cons] at hFound
    simp only [modify, modify.go]
    by_cases hKey : key = name
    · rw [if_pos hKey] at hFound ⊢
      rw [Option.some.inj hFound, hSame]
    · rw [if_neg hKey] at hFound ⊢
      rw [ih hFound]

end Tree

theorem Node.withChildren_eq (node : Node) {children : Option Tree} (hChildren : node.children = children) :
    { node with children := children } = node := by
  cases node
  cases hChildren
  rfl

/-! ## The scopes of a tree -/

/-- The names lead to the scope, from the root of the tree down. -/
def ScopeAt : List String → Tree → Tree → Prop
  | [], tree, scope => scope = tree
  | name :: path, tree, scope =>
    ∃ node children, (name, node) ∈ tree.nodes ∧ node.children = some children ∧ ScopeAt path children scope

/-! ## Counting -/

mutual

theorem Node.total_eq (above : List String) : ∀ node : Node, node.total = 1 + (node.commandsBelow above).length
  | ⟨_, _, _, none, _⟩ => rfl
  | ⟨_, _, _, some children, _⟩ => by
    rw [Node.total, Node.commandsBelow, Tree.total_eq above children]

theorem Tree.total_eq (above : List String) : ∀ tree : Tree, tree.total = (tree.commandsUnder above).length
  | ⟨nodes⟩ => by
    rw [Tree.total, Tree.commandsUnder]
    exact totalNodes_eq above nodes

theorem totalNodes_eq (above : List String) : ∀ nodes : List (String × Node),
    totalNodes nodes = (commandsOf above nodes).length
  | [] => rfl
  | (name, node) :: rest => by
    rw [totalNodes, commandsOf, Node.total_eq (above ++ [name]) node, totalNodes_eq above rest, List.length_cons,
      List.length_append]
    omega

end

/-- Siblings have names of their own in every scope. -/
def Tree.DistinctThroughout (tree : Tree) : Prop :=
  ∀ path scope, ScopeAt path tree scope → scope.names.Nodup

theorem Tree.DistinctThroughout.rest {key : String} {first : Node} {rest : List (String × Node)}
    (h : Tree.DistinctThroughout ⟨(key, first) :: rest⟩) : Tree.DistinctThroughout ⟨rest⟩ := by
  intro path scope hScope
  cases path with
  | nil =>
    obtain rfl := hScope
    exact (List.nodup_cons.mp (h [] _ rfl)).2
  | cons name path =>
    obtain ⟨node, children, hMem, hChildren, hBelow⟩ := hScope
    exact h (name :: path) scope ⟨node, children, List.mem_cons_of_mem _ hMem, hChildren, hBelow⟩

theorem Tree.DistinctThroughout.children {children : Tree} (h : tree.DistinctThroughout)
    (hMem : (name, node) ∈ tree.nodes) (hChildren : node.children = some children) :
    children.DistinctThroughout :=
  fun path scope hScope => h (name :: path) scope ⟨node, children, hMem, hChildren, hScope⟩

theorem CommandAt.head_mem {names : List String} (h : CommandAt tree names node) :
    ∃ name ∈ tree.names, ∃ below, names = name :: below := by
  cases h with
  | top hMem => exact ⟨_, List.mem_map_of_mem hMem, [], rfl⟩
  | inner hMem _ _ => exact ⟨_, List.mem_map_of_mem hMem, _, rfl⟩

mutual

theorem nodup_commandsBelow (above : List String) : ∀ node : Node,
    (∀ children, node.children = some children → children.DistinctThroughout) →
      ((node.commandsBelow above).map Prod.fst).Nodup
  | ⟨_, _, _, none, _⟩, _ => List.nodup_nil
  | ⟨_, _, _, some children, _⟩, h => by
    rw [Node.commandsBelow]
    exact nodup_commandsUnder above children (h children rfl)

theorem nodup_commandsUnder (above : List String) : ∀ tree : Tree, tree.DistinctThroughout →
    ((tree.commandsUnder above).map Prod.fst).Nodup
  | ⟨nodes⟩, h => by
    rw [Tree.commandsUnder]
    exact nodup_commandsOf above nodes h

theorem nodup_commandsOf (above : List String) : ∀ nodes : List (String × Node),
    Tree.DistinctThroughout ⟨nodes⟩ → ((commandsOf above nodes).map Prod.fst).Nodup
  | [], _ => List.nodup_nil
  | (name, first) :: rest, h => by
    have hFresh : name ∉ Tree.names ⟨rest⟩ := (List.nodup_cons.mp (h [] _ rfl)).1
    -- Names that lead below the first command have its name and more; those to later ones have another name there.
    have hBelow : ∀ names ∈ (first.commandsBelow (above ++ [name])).map Prod.fst,
        ∃ inner below, names = above ++ name :: inner :: below := by
      intro names hNames
      obtain ⟨⟨_, node⟩, hMem, rfl⟩ := List.mem_map.mp hNames
      obtain ⟨children, below, -, rfl, hAt⟩ := (mem_commandsBelow _ _ _ _).mp hMem
      obtain ⟨inner, -, below, rfl⟩ := hAt.head_mem
      exact ⟨inner, below, by simp⟩
    have hLater : ∀ names ∈ (commandsOf above rest).map Prod.fst,
        ∃ later below, later ≠ name ∧ names = above ++ later :: below := by
      intro names hNames
      obtain ⟨⟨_, node⟩, hMem, rfl⟩ := List.mem_map.mp hNames
      obtain ⟨below, rfl, hAt⟩ := (mem_commandsOf _ _ _ _).mp hMem
      obtain ⟨later, hLater, below, rfl⟩ := hAt.head_mem
      exact ⟨later, below, fun hSame => hFresh (hSame ▸ hLater), rfl⟩
    rw [commandsOf, List.map_cons, List.map_append, List.nodup_cons, List.nodup_append]
    refine ⟨?_, nodup_commandsBelow _ first fun children => h.children List.mem_cons_self,
      nodup_commandsOf above rest h.rest, ?_⟩
    · rw [List.mem_append]
      rintro (hMem | hMem)
      · obtain ⟨inner, below, hNames⟩ := hBelow _ hMem
        simp at hNames
      · obtain ⟨later, below, hNe, hNames⟩ := hLater _ hMem
        simp only [List.append_cancel_left_eq, List.cons.injEq] at hNames
        exact hNe hNames.1.symm
    · rintro names hNames others hOthers rfl
      obtain ⟨inner, below, rfl⟩ := hBelow _ hNames
      obtain ⟨later, below', hNe, hNames⟩ := hLater _ hOthers
      simp only [List.append_cancel_left_eq, List.cons.injEq] at hNames
      exact hNe hNames.1.symm

end

theorem Tree.DistinctThroughout.total (h : tree.DistinctThroughout) :
    tree.total = {names | ∃ node, CommandAt tree names node}.ncard := by
  have hPaths : {names | ∃ node, CommandAt tree names node} = (tree.commands.map Prod.fst).toFinset := by
    ext names
    simp [mem_commands_iff]
  have hDistinct : (tree.commands.map Prod.fst).Nodup := nodup_commandsUnder [] tree h
  rw [hPaths, Set.ncard_coe_finset, List.toFinset_card_of_nodup hDistinct, List.length_map]
  exact Tree.total_eq [] tree

end DialogTree
