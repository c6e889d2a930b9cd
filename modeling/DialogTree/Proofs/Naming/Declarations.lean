import DialogTree.Proofs.Structure

/-!
# Names in trees and in declarations

In a named tree every scope holds commands, of distinct names, and every name, keyword and key is one that a
document can write. Declarations that a reader lets through give such a tree as soon as no structural
problem is found in them.
-/

namespace DialogTree

/-! ## Named trees -/

/-- A command whose name, keyword and keys can be written, and whose body, if it has one, holds distinct
commands of the same kind. -/
inductive CommandNamed : String × Node → Prop where
  | intro {name keyword : String} {kind : Option String} {attributes : AttributeMap} {children : Option Tree}
      {position : Option Position} (hName : IsName name) (hKeyword : isIdentifier keyword = true)
      (hKeys : ∀ key ∈ attributes.keys,
        isIdentifier key = true ∧ key ∉ [keywordKey, typeKey, childrenKey, nameKey])
      (hDistinctKeys : attributes.keys.Nodup)
      (hSome : ∀ nodes, children = some ⟨nodes⟩ → nodes ≠ [])
      (hDistinct : ∀ nodes, children = some ⟨nodes⟩ → (nodes.map Prod.fst).Nodup)
      (hBelow : ∀ nodes, children = some ⟨nodes⟩ → ∀ entry ∈ nodes, CommandNamed entry) :
      CommandNamed (name, ⟨keyword, kind, attributes, children, position⟩)

structure Tree.Named (tree : Tree) : Prop where
  some : tree.nodes ≠ []
  distinct : tree.names.Nodup
  each : ∀ entry ∈ tree.nodes, CommandNamed entry

/-! ## Declarations that a reader lets through -/

/-- Names, keywords and keys are of the right characters and no body is empty. Empty names and keywords are
left to the tree, and so are repeated and reserved ones. -/
inductive DeclarationNamed : Declaration → Prop where
  | intro {name keyword : String} {position : Option Position} {attributes : List DeclaredAttribute}
      {body : Option (List Declaration)} (hName : ∀ x ∈ name.toList, isNameChar x = true)
      (hKeyword : keyword ≠ "" → isIdentifier keyword = true)
      (hKeys : ∀ item ∈ attributes, isIdentifier item.key = true)
      (hSome : ∀ declarations, body = some declarations → declarations ≠ [])
      (hBelow : ∀ declarations, body = some declarations → ∀ below ∈ declarations, DeclarationNamed below) :
      DeclarationNamed ⟨name, keyword, position, attributes, body⟩

/-! ## Declarations without a problem -/

theorem Gathers.named {items : List DeclaredAttribute} {kind : Option String} {attributes : AttributeMap}
    (h : Gathers items kind attributes) (hKeys : ∀ item ∈ items, isIdentifier item.key = true) :
    ∀ key ∈ attributes.keys, isIdentifier key = true ∧ key ∉ [keywordKey, typeKey, childrenKey, nameKey] := by
  intro key hKey
  rw [AttributeMap.keys, h.attributes, List.map_map] at hKey
  obtain ⟨item, hMem, rfl⟩ := List.mem_map.mp hKey
  obtain ⟨hItem, hType⟩ := List.mem_filter.mp hMem
  have hFree := h.free item hItem
  simp only [reservedKeys, List.mem_cons, List.not_mem_nil, or_false, not_or] at hFree ⊢
  exact ⟨hKeys item hItem, hFree.1, of_decide_eq_true hType, hFree.2⟩

theorem Builds.named {declaration : Declaration} {entry : String × Node} (h : Builds declaration entry)
    (hNamed : DeclarationNamed declaration) : CommandNamed entry := by
  induction hNamed generalizing entry with
  | @intro name keyword position items body hName hKeyword hKeys hSome _ ih =>
    cases h with
    | @bare _ _ _ _ _ attributes hSomeName hSomeKeyword hHeader =>
      exact .intro ⟨hSomeName, hName⟩ (hKeyword hSomeKeyword) (hHeader.named hKeys) attributes.nodup
        (fun _ hNodes => by cases hNodes) (fun _ hNodes => by cases hNodes) (fun _ hNodes => by cases hNodes)
    | @body _ _ _ _ _ attributes declarations nodes hSomeName hSomeKeyword hHeader hBelow hDistinct =>
      refine .intro ⟨hSomeName, hName⟩ (hKeyword hSomeKeyword) (hHeader.named hKeys) attributes.nodup ?_ ?_ ?_
      · rintro _ ⟨⟩ rfl
        exact hSome declarations rfl (List.forall₂_nil_right_iff.mp hBelow)
      · rintro _ ⟨⟩
        exact hDistinct
      · rintro _ ⟨⟩ entry hMem
        obtain ⟨declaration, hDeclaration, hBuilds⟩ := exists_left_of_forall₂ hBelow entry hMem
        exact ih declarations rfl declaration hDeclaration hBuilds

theorem canonicalize_named {declarations : List Declaration} {tree : Tree} (hSome : declarations ≠ [])
    (hNamed : ∀ declaration ∈ declarations, DeclarationNamed declaration)
    (h : canonicalize declarations = (tree, [])) : tree.Named := by
  obtain ⟨hBuilds, hDistinct⟩ := canonicalize_ok_iff.mp h
  refine ⟨fun hNone => ?_, hDistinct, fun entry hMem => ?_⟩
  · rw [hNone] at hBuilds
    exact hSome (List.forall₂_nil_right_iff.mp hBuilds)
  · obtain ⟨declaration, hDeclaration, hEntry⟩ := exists_left_of_forall₂ hBuilds entry hMem
    exact hEntry.named (hNamed declaration hDeclaration)

end DialogTree
