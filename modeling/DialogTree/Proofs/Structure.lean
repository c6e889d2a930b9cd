import DialogTree.Canonical
import DialogTree.Proofs.Written.Commands
import Mathlib.Data.List.Forall2

/-!
# Declarations without a structural problem

A declaration that nothing is reported for gives a command of the same name, keyword, place and body: its type
is the text of its type attribute, and its other attributes are kept in order. The report is empty only then.
-/

namespace DialogTree

/-! ## Lists related item by item -/

theorem exists_forall₂ {α β : Type} {R : α → β → Prop} {items : List α} (h : ∀ item ∈ items, ∃ image, R item image) :
    ∃ images, List.Forall₂ R items images := by
  induction items with
  | nil => exact ⟨[], .nil⟩
  | cons item items ih =>
    obtain ⟨⟨image, hFirst⟩, hRest⟩ := List.forall_mem_cons.mp h
    obtain ⟨images, hImages⟩ := ih hRest
    exact ⟨image :: images, .cons hFirst hImages⟩

theorem exists_right_of_forall₂ {α β : Type} {R : α → β → Prop} {items : List α} {images : List β}
    (h : List.Forall₂ R items images) : ∀ item ∈ items, ∃ image ∈ images, R item image := by
  induction h with
  | nil => simp
  | @cons item image items images hFirst _ ih =>
    rw [List.forall_mem_cons]
    refine ⟨⟨image, List.mem_cons_self, hFirst⟩, fun other hMem => ?_⟩
    obtain ⟨image, hImage, hOther⟩ := ih other hMem
    exact ⟨image, List.mem_cons_of_mem _ hImage, hOther⟩

theorem exists_left_of_forall₂ {α β : Type} {R : α → β → Prop} {items : List α} {images : List β}
    (h : List.Forall₂ R items images) : ∀ image ∈ images, ∃ item ∈ items, R item image :=
  exists_right_of_forall₂ (R := flip R) h.flip

/-! ## Declarations and what they build -/

/-- Attributes of free, distinct keys of which the type is a text, with what is gathered from them. -/
structure Gathers (items : List DeclaredAttribute) (kind : Option String) (attributes : AttributeMap) : Prop where
  free : ∀ item ∈ items, item.key ∉ reservedKeys
  distinct : (items.map DeclaredAttribute.key).Nodup
  kind : (items.filter (·.key = typeKey)).map DeclaredAttribute.value = kind.toList.map Value.string
  attributes : attributes.entries = (items.filter (·.key ≠ typeKey)).map DeclaredAttribute.pair

/-- A declaration without a structural problem and the command it gives. -/
inductive Builds : Declaration → String × Node → Prop where
  | bare {name keyword : String} {position : Option Position} {items : List DeclaredAttribute} {kind : Option String}
      {attributes : AttributeMap} (hName : name ≠ "") (hKeyword : keyword ≠ "")
      (hHeader : Gathers items kind attributes) :
      Builds ⟨name, keyword, position, items, none⟩ (name, ⟨keyword, kind, attributes, none, position⟩)
  | body {name keyword : String} {position : Option Position} {items : List DeclaredAttribute} {kind : Option String}
      {attributes : AttributeMap} {declarations : List Declaration} {nodes : List (String × Node)} (hName : name ≠ "")
      (hKeyword : keyword ≠ "") (hHeader : Gathers items kind attributes)
      (hBelow : List.Forall₂ Builds declarations nodes) (hDistinct : (nodes.map Prod.fst).Nodup) :
      Builds ⟨name, keyword, position, items, some declarations⟩
        (name, ⟨keyword, kind, attributes, some ⟨nodes⟩, position⟩)

theorem Builds.name_eq {declaration : Declaration} {entry : String × Node} (h : Builds declaration entry) :
    declaration.name = entry.1 := by
  cases h with
  | bare => rfl
  | body => rfl

theorem Builds.name_ne {declaration : Declaration} {entry : String × Node} (h : Builds declaration entry) :
    declaration.name ≠ "" := by
  cases h with
  | bare hName => exact hName
  | body hName => exact hName

/-! ## Attributes -/

theorem Header.add_ok_iff {path : String} {header next : Header} {item : DeclaredAttribute} :
    header.add path item = (next, none) ↔
      item.key ∉ reservedKeys ∧ header.has item.key = false ∧
        (item.key = typeKey ∧ (∃ text, item.value = .string text ∧ next = ⟨some text, header.attributes⟩) ∨
          item.key ≠ typeKey ∧ next = ⟨header.kind, header.attributes.insert item.key item.value⟩) := by
  simp only [Header.add, List.contains_iff_mem]
  by_cases hReserved : item.key ∈ reservedKeys
  · simp [hReserved]
  · cases hHas : header.has item.key with
    | true => simp [hReserved]
    | false =>
      by_cases hType : item.key = typeKey
      · have hFree : typeKey ∉ reservedKeys := hType ▸ hReserved
        cases hValue : item.value <;> simp [hFree, hType, eq_comm]
      · simp [hReserved, hType, eq_comm]

theorem Header.has_next {path : String} {header next : Header} {item : DeclaredAttribute}
    (h : header.add path item = (next, none)) (key : String) :
    next.has key = false ↔ header.has key = false ∧ key ≠ item.key := by
  obtain ⟨-, -, ⟨hType, text, -, rfl⟩ | ⟨hType, rfl⟩⟩ := Header.add_ok_iff.mp h
  · by_cases hKey : key = typeKey
    · simp [Header.has, hKey, hType]
    · simp [Header.has, hKey, hType]
  · by_cases hKey : key = typeKey
    · simp [Header.has, hKey, Ne.symm hType]
    · rw [Header.has, if_neg hKey, Header.has, if_neg hKey, Bool.eq_false_iff, Bool.eq_false_iff, ne_eq, ne_eq,
        AttributeMap.contains_iff, AttributeMap.contains_iff, AttributeMap.keys_insert]
      split
      · rename_i hMem
        exact ⟨fun hNew => ⟨hNew, fun hSame => hNew (hSame ▸ hMem)⟩, And.left⟩
      · simp

theorem Header.kind_next {path : String} {header next : Header} {item : DeclaredAttribute}
    (h : header.add path item = (next, none)) : next.kind.toList.map Value.string =
      header.kind.toList.map Value.string ++ ([item].filter (·.key = typeKey)).map DeclaredAttribute.value := by
  obtain ⟨-, hNew, ⟨hType, text, hValue, rfl⟩ | ⟨hType, rfl⟩⟩ := Header.add_ok_iff.mp h
  · rw [Header.has, if_pos hType, Option.isSome_eq_false_iff, Option.isNone_iff_eq_none] at hNew
    simp [hNew, hType, hValue]
  · simp [hType]

theorem Header.entries_next {path : String} {header next : Header} {item : DeclaredAttribute}
    (h : header.add path item = (next, none)) : next.attributes.entries =
      header.attributes.entries ++ ([item].filter (·.key ≠ typeKey)).map DeclaredAttribute.pair := by
  obtain ⟨-, hNew, ⟨hType, text, -, rfl⟩ | ⟨hType, rfl⟩⟩ := Header.add_ok_iff.mp h
  · simp [hType]
  · rw [Header.has, if_neg hType, Bool.eq_false_iff, ne_eq, AttributeMap.contains_iff] at hNew
    simp [AttributeMap.entries_insert_of_not_mem _ hNew, hType, DeclaredAttribute.pair]

theorem Header.addAll_cons_ok_iff {path : String} {header last : Header} {item : DeclaredAttribute}
    {items : List DeclaredAttribute} : header.addAll path (item :: items) = (last, []) ↔
      ∃ next, header.add path item = (next, none) ∧ next.addAll path items = (last, []) := by
  obtain ⟨next, error?, hFirst⟩ : ∃ next error?, header.add path item = (next, error?) := ⟨_, _, rfl⟩
  obtain ⟨reached, errors, hRest⟩ : ∃ reached errors, next.addAll path items = (reached, errors) := ⟨_, _, rfl⟩
  simp only [Header.addAll, hFirst, hRest, Prod.mk.injEq, List.append_eq_nil_iff, Option.toList_eq_nil_iff]
  constructor
  · rintro ⟨rfl, rfl, rfl⟩
    exact ⟨next, ⟨rfl, rfl⟩, hRest⟩
  · rintro ⟨_, ⟨rfl, rfl⟩, hLast⟩
    obtain ⟨rfl, rfl⟩ := Prod.mk.inj (hRest.symm.trans hLast)
    exact ⟨rfl, rfl, rfl⟩

/-- Nothing is reported for a run of attributes when it brings a header from one state to another. -/
structure Header.Grows (header : Header) (items : List DeclaredAttribute) (last : Header) : Prop where
  free : ∀ item ∈ items, item.key ∉ reservedKeys
  fresh : ∀ item ∈ items, header.has item.key = false
  distinct : (items.map DeclaredAttribute.key).Nodup
  kind : last.kind.toList.map Value.string =
    header.kind.toList.map Value.string ++ (items.filter (·.key = typeKey)).map DeclaredAttribute.value
  attributes : last.attributes.entries =
    header.attributes.entries ++ (items.filter (·.key ≠ typeKey)).map DeclaredAttribute.pair

theorem Header.Grows.cons {path : String} {header next last : Header} {item : DeclaredAttribute}
    {items : List DeclaredAttribute} (h : header.add path item = (next, none)) (hRest : next.Grows items last) :
    header.Grows (item :: items) last := by
  obtain ⟨hFree, hNew, -⟩ := Header.add_ok_iff.mp h
  have hOthers := fun other hMem => (Header.has_next h _).mp (hRest.fresh other hMem)
  refine ⟨?_, ?_, ?_, ?_, ?_⟩
  · rw [List.forall_mem_cons]
    exact ⟨hFree, hRest.free⟩
  · rw [List.forall_mem_cons]
    exact ⟨hNew, fun other hMem => (hOthers other hMem).1⟩
  · rw [List.map_cons, List.nodup_cons]
    refine ⟨fun hMem => ?_, hRest.distinct⟩
    obtain ⟨other, hOther, hSame⟩ := List.mem_map.mp hMem
    exact (hOthers other hOther).2 hSame
  · rw [hRest.kind, Header.kind_next h, List.append_assoc, ← List.map_append, ← List.filter_append,
      List.singleton_append]
  · rw [hRest.attributes, Header.entries_next h, List.append_assoc, ← List.map_append, ← List.filter_append,
      List.singleton_append]

theorem Header.Grows.uncons (path : String) {header last : Header} {item : DeclaredAttribute}
    {items : List DeclaredAttribute} (h : header.Grows (item :: items) last) :
    ∃ next, header.add path item = (next, none) ∧ next.Grows items last := by
  obtain ⟨hFree, hFreeRest⟩ := List.forall_mem_cons.mp h.free
  obtain ⟨hNew, hNewRest⟩ := List.forall_mem_cons.mp h.fresh
  obtain ⟨hOther, hDistinct⟩ := List.nodup_cons.mp h.distinct
  obtain ⟨next, hNext⟩ : ∃ next, header.add path item = (next, none) := by
    by_cases hType : item.key = typeKey
    · -- The type of the last header is the value of this item, since the header has none yet.
      obtain ⟨text, hText⟩ : ∃ text, item.value = .string text := by
        have hNone := hNew
        rw [Header.has, if_pos hType, Option.isSome_eq_false_iff, Option.isNone_iff_eq_none] at hNone
        have hKind := h.kind
        rw [hNone] at hKind
        cases hLast : last.kind with
        | none => simp [hLast, hType] at hKind
        | some text =>
          simp only [hLast, List.filter_cons, hType] at hKind
          exact ⟨text, (List.cons.inj hKind).1.symm⟩
      exact ⟨_, Header.add_ok_iff.mpr ⟨hFree, hNew, .inl ⟨hType, text, hText, rfl⟩⟩⟩
    · exact ⟨_, Header.add_ok_iff.mpr ⟨hFree, hNew, .inr ⟨hType, rfl⟩⟩⟩
  refine ⟨next, hNext, hFreeRest, fun other hMem => ?_, hDistinct, ?_, ?_⟩
  · exact (Header.has_next hNext _).mpr
      ⟨hNewRest other hMem, fun hSame => hOther (List.mem_map.mpr ⟨other, hMem, hSame⟩)⟩
  · rw [h.kind, Header.kind_next hNext, List.append_assoc, ← List.map_append, ← List.filter_append,
      List.singleton_append]
  · rw [h.attributes, Header.entries_next hNext, List.append_assoc, ← List.map_append, ← List.filter_append,
      List.singleton_append]

theorem Header.addAll_ok_iff {path : String} {header last : Header} {items : List DeclaredAttribute} :
    header.addAll path items = (last, []) ↔ header.Grows items last := by
  induction items generalizing header with
  | nil =>
    constructor
    · rintro ⟨⟩
      exact ⟨by simp, by simp, by simp, by simp, by simp⟩
    · intro h
      have hKind : last.kind = header.kind := by
        have hTexts := h.kind
        rw [List.filter_nil, List.map_nil, List.append_nil] at hTexts
        have hInjective : Function.Injective (List.map Value.string) :=
          List.map_injective_iff.mpr fun _ _ => Value.string.inj
        have hSame := hInjective hTexts
        cases hLast : last.kind <;> cases hHeader : header.kind <;> simp_all
      have hAttributes : last.attributes = header.attributes := AttributeMap.ext_of (by simpa using h.attributes)
      obtain ⟨kind, attributes⟩ := last
      obtain rfl : kind = _ := hKind
      obtain rfl : attributes = _ := hAttributes
      rfl
  | cons item items ih =>
    rw [Header.addAll_cons_ok_iff]
    constructor
    · rintro ⟨next, hNext, hRest⟩
      exact .cons hNext (ih.mp hRest)
    · intro h
      obtain ⟨next, hNext, hRest⟩ := h.uncons path
      exact ⟨next, hNext, ih.mpr hRest⟩

theorem Header.gathers_iff {path : String} {items : List DeclaredAttribute} {kind : Option String}
    {attributes : AttributeMap} :
    Header.empty.addAll path items = (⟨kind, attributes⟩, []) ↔ Gathers items kind attributes := by
  rw [Header.addAll_ok_iff]
  constructor
  · intro h
    exact ⟨h.free, h.distinct, h.kind.symm, h.attributes⟩
  · intro h
    have hNone : ∀ key, Header.empty.has key = false := by
      intro key
      rw [Header.has]
      split <;> rfl
    exact ⟨h.free, fun item _ => hNone item.key, h.distinct, h.kind.symm, h.attributes⟩

theorem Gathers.exists {items : List DeclaredAttribute} (hFree : ∀ item ∈ items, item.key ∉ reservedKeys)
    (hDistinct : (items.map DeclaredAttribute.key).Nodup)
    (hTyped : ∀ item ∈ items, item.key = typeKey → ∃ text, item.value = .string text) :
    ∃ kind attributes, Gathers items kind attributes := by
  obtain ⟨kind, hKind⟩ : ∃ kind : Option String,
      (items.filter (·.key = typeKey)).map DeclaredAttribute.value = kind.toList.map Value.string := by
    -- Keys are distinct, so that one attribute at most is the type.
    have hOnce : (items.filter (·.key = typeKey)).length ≤ 1 := by
      have hSame : ∀ key ∈ (items.filter (·.key = typeKey)).map DeclaredAttribute.key, key = typeKey := by
        simp +contextual
      have hNodup : ((items.filter (·.key = typeKey)).map DeclaredAttribute.key).Nodup :=
        hDistinct.sublist (List.filter_sublist.map _)
      rw [List.eq_replicate_of_mem hSame, List.nodup_replicate] at hNodup
      simpa using hNodup
    cases hTypes : items.filter (·.key = typeKey) with
    | nil => exact ⟨none, rfl⟩
    | cons item others =>
      obtain rfl : others = [] := by
        rw [hTypes] at hOnce
        simpa using hOnce
      have hMem : item ∈ items.filter (·.key = typeKey) := by simp [hTypes]
      obtain ⟨hItem, hType⟩ := List.mem_filter.mp hMem
      obtain ⟨text, hText⟩ := hTyped item hItem (of_decide_eq_true hType)
      exact ⟨some text, by simp [hText]⟩
  have hNodup : (((items.filter (·.key ≠ typeKey)).map DeclaredAttribute.pair).map Prod.fst).Nodup := by
    rw [List.map_map]
    exact hDistinct.sublist (List.filter_sublist.map _)
  exact ⟨kind, ⟨_, hNodup⟩, hFree, hDistinct, hKind, rfl⟩

/-! ## Commands -/

theorem Tree.names_grown (tree : Tree) (name : String) (node : Node) :
    (Tree.mk (tree.nodes ++ [(name, node)])).names = tree.names ++ [name] := by
  simp [Tree.names]

theorem addDeclarations_cons_ok_iff {parent : Option String} {tree last : Tree} {declaration : Declaration}
    {declarations : List Declaration} : addDeclarations parent tree (declaration :: declarations) = (last, []) ↔
      declaration.name ≠ "" ∧ declaration.name ∉ tree.names ∧
        ∃ node, declaration.toNode (childPath parent declaration.name) = (node, []) ∧
          addDeclarations parent ⟨tree.nodes ++ [(declaration.name, node)]⟩ declarations = (last, []) := by
  obtain ⟨node, errors, hNode⟩ :
      ∃ node errors, declaration.toNode (childPath parent declaration.name) = (node, errors) := ⟨_, _, rfl⟩
  simp only [addDeclarations, hNode, Tree.contains_iff]
  by_cases hName : declaration.name = ""
  · simp [hName]
  · by_cases hKnown : declaration.name ∈ tree.names
    · simp [hName, hKnown]
    · obtain ⟨reached, others, hRest⟩ : ∃ reached errors,
          addDeclarations parent ⟨tree.nodes ++ [(declaration.name, node)]⟩ declarations = (reached, errors) :=
        ⟨_, _, rfl⟩
      simp only [hName, hKnown, hRest, if_false, Prod.mk.injEq, List.append_eq_nil_iff, ne_eq, not_false_eq_true,
        true_and]
      constructor
      · rintro ⟨rfl, rfl, rfl⟩
        exact ⟨node, ⟨rfl, rfl⟩, hRest⟩
      · rintro ⟨_, ⟨rfl, rfl⟩, hLast⟩
        obtain ⟨rfl, rfl⟩ := Prod.mk.inj (hRest.symm.trans hLast)
        exact ⟨rfl, rfl, rfl⟩

mutual

/-- Nothing is reported for a declaration with a name exactly when it builds its command. -/
theorem Declaration.toNode_ok_iff (path : String) : ∀ (declaration : Declaration) {node : Node},
    declaration.name ≠ "" →
      (declaration.toNode path = (node, []) ↔ Builds declaration (declaration.name, node))
  | ⟨name, keyword, position, items, none⟩, node, hName => by
    obtain ⟨⟨kind, attributes⟩, errors, hHeader⟩ :
        ∃ header errors, Header.empty.addAll path items = (header, errors) := ⟨_, _, rfl⟩
    simp only [Declaration.toNode, hHeader, Prod.mk.injEq, List.append_eq_nil_iff, ite_eq_right_iff, List.cons_ne_nil,
      imp_false]
    constructor
    · rintro ⟨rfl, hKeyword, rfl⟩
      exact .bare hName hKeyword (Header.gathers_iff.mp hHeader)
    · intro h
      cases h with
      | bare _ hKeyword hGathers =>
        obtain ⟨hSame, rfl⟩ := Prod.mk.inj (hHeader.symm.trans (Header.gathers_iff.mpr hGathers))
        cases hSame
        exact ⟨rfl, hKeyword, rfl⟩
  | ⟨name, keyword, position, items, some declarations⟩, node, hName => by
    -- The reports of header and body are named first, since what was built decides them and not the other way.
    obtain ⟨⟨kind, attributes⟩, errors, hHeader⟩ :
        ∃ header errors, Header.empty.addAll path items = (header, errors) := ⟨_, _, rfl⟩
    obtain ⟨children, below, hChildren⟩ : ∃ children errors,
        addDeclarations (some path) .empty declarations = (children, errors) := ⟨_, _, rfl⟩
    simp only [Declaration.toNode, hHeader, hChildren, Prod.mk.injEq, List.append_eq_nil_iff, ite_eq_right_iff,
      List.cons_ne_nil, imp_false]
    constructor
    · rintro ⟨rfl, ⟨hKeyword, rfl⟩, rfl⟩
      obtain ⟨nodes, hNodes, hBelow, hDistinct, -⟩ := (addDeclarations_ok_iff (some path) declarations).mp hChildren
      obtain rfl : children = ⟨nodes⟩ := by
        cases children
        exact congrArg Tree.mk hNodes
      exact .body hName hKeyword (Header.gathers_iff.mp hHeader) hBelow hDistinct
    · intro h
      cases h with
      | @body _ _ _ _ _ _ _ nodes _ hKeyword hGathers hBelow hDistinct =>
        have hAll : addDeclarations (some path) .empty declarations = (⟨nodes⟩, []) :=
          (addDeclarations_ok_iff (some path) declarations).mpr
            ⟨nodes, rfl, hBelow, hDistinct, by simp [Tree.names, Tree.empty]⟩
        obtain ⟨hSame, rfl⟩ := Prod.mk.inj (hHeader.symm.trans (Header.gathers_iff.mpr hGathers))
        cases hSame
        obtain ⟨rfl, rfl⟩ := Prod.mk.inj (hChildren.symm.trans hAll)
        exact ⟨rfl, ⟨hKeyword, rfl⟩, rfl⟩

/-- Nothing is reported for a scope exactly when its declarations build commands of new, distinct names. -/
theorem addDeclarations_ok_iff (parent : Option String) : ∀ (declarations : List Declaration) {tree last : Tree},
    addDeclarations parent tree declarations = (last, []) ↔
      ∃ nodes, last.nodes = tree.nodes ++ nodes ∧ List.Forall₂ Builds declarations nodes ∧
        (nodes.map Prod.fst).Nodup ∧ ∀ entry ∈ nodes, entry.1 ∉ tree.names
  | [], tree, last => by
    simp only [addDeclarations, Prod.mk.injEq, and_true, List.forall₂_nil_left_iff]
    constructor
    · rintro rfl
      exact ⟨[], by simp⟩
    · rintro ⟨_, hNodes, rfl, -, -⟩
      cases tree; cases last
      simpa [eq_comm] using hNodes
  | declaration :: declarations, tree, last => by
    rw [addDeclarations_cons_ok_iff]
    constructor
    · rintro ⟨hName, hNew, node, hNode, hRest⟩
      obtain ⟨nodes, hNodes, hBelow, hDistinct, hOthers⟩ := (addDeclarations_ok_iff parent declarations).mp hRest
      have hApart : ∀ entry ∈ nodes, entry.1 ∉ tree.names ∧ entry.1 ≠ declaration.name := by
        simpa [Tree.names_grown] using hOthers
      refine ⟨(declaration.name, node) :: nodes, by simpa using hNodes,
        .cons ((declaration.toNode_ok_iff _ hName).mp hNode) hBelow, ?_, ?_⟩
      · rw [List.map_cons, List.nodup_cons]
        refine ⟨fun hMem => ?_, hDistinct⟩
        obtain ⟨entry, hEntry, hSame⟩ := List.mem_map.mp hMem
        exact (hApart entry hEntry).2 hSame
      · rw [List.forall_mem_cons]
        exact ⟨hNew, fun entry hMem => (hApart entry hMem).1⟩
    · rintro ⟨_, hNodes, hBuilds, hDistinct, hNew⟩
      cases hBuilds with
      | @cons _ entry _ nodes hFirst hBelow =>
        obtain ⟨name, node⟩ := entry
        obtain rfl : declaration.name = name := hFirst.name_eq
        obtain ⟨hOther, hDistinct⟩ := List.nodup_cons.mp hDistinct
        obtain ⟨hFresh, hNew⟩ := List.forall_mem_cons.mp hNew
        refine ⟨hFirst.name_ne, hFresh, node, (declaration.toNode_ok_iff _ hFirst.name_ne).mpr hFirst,
          (addDeclarations_ok_iff parent declarations).mpr ⟨nodes, by simpa using hNodes, hBelow, hDistinct, ?_⟩⟩
        intro entry hMem hKnown
        rw [Tree.names_grown, List.mem_append, List.mem_singleton] at hKnown
        rcases hKnown with hKnown | hSame
        · exact hNew entry hMem hKnown
        · exact hOther (List.mem_map.mpr ⟨entry, hMem, hSame⟩)

end

theorem canonicalize_ok_iff {declarations : List Declaration} {tree : Tree} :
    canonicalize declarations = (tree, []) ↔
      List.Forall₂ Builds declarations tree.nodes ∧ tree.names.Nodup := by
  rw [canonicalize, addDeclarations_ok_iff]
  constructor
  · rintro ⟨nodes, hNodes, hBuilds, hDistinct, -⟩
    obtain rfl : tree.nodes = nodes := hNodes
    exact ⟨hBuilds, hDistinct⟩
  · rintro ⟨hBuilds, hDistinct⟩
    exact ⟨tree.nodes, rfl, hBuilds, hDistinct, by simp [Tree.names, Tree.empty]⟩

end DialogTree
