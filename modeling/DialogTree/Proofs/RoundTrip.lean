import DialogTree.Document
import DialogTree.Proofs.Acceptance
import DialogTree.Proofs.Written.Commands

/-!
# Reading what was written

The text of a well-formed tree is read without a problem as a tree of the same content, which is written as
the same text again.
-/

namespace DialogTree

/-! ## Values equal themselves -/

theorem Binary64.equals_self {x : Binary64} (h : x.isFinite = true) : x.equals x = true := by
  cases x with
  | nan => cases h
  | infinity negative => cases h
  | finite negative units fits => simp [equals, signedUnits]

theorem allEqual_self {items : List Value} (h : ∀ item ∈ items, item.equals item = true) :
    Value.allEqual items items = true := by
  induction items with
  | nil => rfl
  | cons item items ih =>
    rw [Value.allEqual, h item List.mem_cons_self, Bool.true_and]
    exact ih fun other hMem => h other (List.mem_cons_of_mem item hMem)

theorem FiniteFloats.equals_self {value : Value} (h : FiniteFloats value) : value.equals value = true := by
  induction h with
  | string => simp [Value.equals]
  | bool => simp [Value.equals]
  | integer => simp [Value.equals]
  | float hFinite =>
    rw [Value.equals]
    exact Binary64.equals_self hFinite
  | list _ ih =>
    rw [Value.equals]
    exact allEqual_self ih

theorem AttributeMap.equals_self {attributes : AttributeMap}
    (h : ∀ pair ∈ attributes.entries, FiniteFloats pair.2) : attributes.equals attributes = true := by
  rw [AttributeMap.equals, beq_self_eq_true, Bool.true_and]
  apply allEqual_self
  intro value hMem
  obtain ⟨pair, hPair, rfl⟩ := List.mem_map.mp hMem
  exact (h pair hPair).equals_self

/-! ## Attributes are gathered as they were written -/

theorem not_reserved {key : String} (h : key ∉ [keywordKey, typeKey, childrenKey, nameKey]) :
    reservedKeys.contains key = false ∧ key ≠ typeKey := by
  simp only [List.mem_cons, List.not_mem_nil, or_false, not_or] at h
  refine ⟨?_, h.2.1⟩
  simp [reservedKeys, h.1, h.2.2.1, h.2.2.2]

theorem Header.add_attribute (path : String) {header : Header} {item : DeclaredAttribute}
    (hKey : item.key ∉ [keywordKey, typeKey, childrenKey, nameKey]) (hNew : item.key ∉ header.attributes.keys) :
    header.add path item = (⟨header.kind, header.attributes.insert item.key item.value⟩, none) := by
  obtain ⟨hReserved, hType⟩ := not_reserved hKey
  have hHas : header.has item.key = false := by
    rw [Header.has, if_neg hType, Bool.eq_false_iff]
    intro hContains
    exact hNew (AttributeMap.contains_iff.mp hContains)
  rw [Header.add, hReserved, hHas, if_neg Bool.false_ne_true, if_neg Bool.false_ne_true, if_neg hType]

theorem Header.addAll_attributes (path : String) {header : Header} {written : List DeclaredAttribute}
    {attributes : AttributeMap}
    (hKeys : ∀ item ∈ written, item.key ∉ [keywordKey, typeKey, childrenKey, nameKey])
    (hEntries : header.attributes.entries ++ written.map DeclaredAttribute.pair = attributes.entries) :
    header.addAll path written = (⟨header.kind, attributes⟩, []) := by
  induction written generalizing header with
  | nil =>
    rw [List.map_nil, List.append_nil] at hEntries
    rw [Header.addAll, ← AttributeMap.ext_of hEntries]
  | cons item written ih =>
    have hNodup := attributes.nodup
    rw [← hEntries, List.map_append, List.nodup_append] at hNodup
    have hNew : item.key ∉ header.attributes.keys :=
      fun hMem => hNodup.2.2 item.key hMem item.key List.mem_cons_self rfl
    have hStep := Header.add_attribute path (hKeys item List.mem_cons_self) hNew
    have hOthers : (header.attributes.insert item.key item.value).entries ++
        written.map DeclaredAttribute.pair = attributes.entries := by
      rw [AttributeMap.entries_insert_of_not_mem _ hNew, List.append_assoc]
      exact hEntries
    have hRest := @ih ⟨header.kind, header.attributes.insert item.key item.value⟩
      (fun other hMem => hKeys other (List.mem_cons_of_mem item hMem)) hOthers
    rw [Header.addAll, hStep]
    simp only [hRest]
    rfl

theorem Header.addAll_written (path : String) {kind : Option String} {attributes : AttributeMap}
    {written : List DeclaredAttribute}
    (hKeys : ∀ key ∈ attributes.keys, key ∉ [keywordKey, typeKey, childrenKey, nameKey])
    (hPairs : written.map DeclaredAttribute.pair = writtenPairs kind attributes) :
    Header.empty.addAll path written = (⟨kind, attributes⟩, []) := by
  have hItems : ∀ {items : List DeclaredAttribute}, items.map DeclaredAttribute.pair = attributes.entries →
      ∀ item ∈ items, item.key ∉ [keywordKey, typeKey, childrenKey, nameKey] := by
    intro items hMap item hMem
    apply hKeys
    rw [AttributeMap.keys, ← hMap, List.map_map]
    exact List.mem_map.mpr ⟨item, hMem, rfl⟩
  cases kind with
  | none => exact Header.addAll_attributes path (hItems hPairs) hPairs
  | some kind =>
    cases written with
    | nil => cases hPairs
    | cons item items =>
      obtain ⟨key, value, position⟩ := item
      obtain ⟨hFirst, hRest⟩ := List.cons.inj hPairs
      obtain ⟨rfl, rfl⟩ := Prod.mk.inj hFirst
      have hStep : Header.empty.add path ⟨typeKey, .string kind, position⟩ = (⟨some kind, .empty⟩, none) := rfl
      have hOthers := @Header.addAll_attributes path ⟨some kind, .empty⟩ items attributes (hItems hRest) hRest
      rw [Header.addAll, hStep]
      simp only [hOthers]
      rfl

/-! ## Commands are built as they were declared -/

/-- The declaration gives, without a problem, a command of the same content that is written the same. -/
def BuildsSame (declaration : Declaration) (node : Node) : Prop :=
  ∀ path, ∃ built, declaration.toNode path = (built, []) ∧ built.equals node = true ∧
    ∀ depth, Render.node depth built = Render.node depth node

theorem render_body (depth : Nat) (keyword : String) (kind : Option String) (attributes : AttributeMap)
    {nodes : List (String × Node)} (position : Option Position) (h : nodes ≠ []) :
    Render.node depth ⟨keyword, kind, attributes, some ⟨nodes⟩, position⟩ =
      keyword.toList ++ '(' :: Render.commaSeparated (Render.entries kind attributes) ++ ')' ::
        (' ' :: '\x7b' :: '\n' :: Render.nodes (depth + 1) nodes ++ Render.indent depth ++ ['\x7d', '\n']) := by
  cases nodes with
  | nil => exact absurd rfl h
  | cons first rest => simp [Render.node]

theorem Says.name_eq {declaration : Declaration} {entry : String × Node} (h : Says declaration entry) :
    declaration.name = entry.1 := by
  cases h with
  | bare => rfl
  | body => rfl

theorem addDeclarations_built {declarations : List Declaration} {nodes : List (String × Node)} {tree : Tree}
    (parent : Option String) (hSays : SaysAll declarations nodes)
    (hBuilds : ∀ declaration, ∀ entry ∈ nodes, Says declaration entry → BuildsSame declaration entry.2)
    (hNames : ∀ entry ∈ nodes, IsName entry.1) (hDistinct : (tree.names ++ nodes.map Prod.fst).Nodup) :
    ∃ built, addDeclarations parent tree declarations = (⟨tree.nodes ++ built⟩, []) ∧
      equalNodes built nodes = true ∧ ∀ depth, Render.nodes depth built = Render.nodes depth nodes := by
  induction nodes generalizing declarations tree with
  | nil =>
    cases hSays
    cases tree
    refine ⟨[], ?_, rfl, fun _ => rfl⟩
    rw [addDeclarations, List.append_nil]
  | cons entry nodes ih =>
    cases hSays with
    | @cons declaration declarations _ _ hFirst hRest =>
      obtain ⟨name, node⟩ := entry
      have hName : declaration.name = name := hFirst.name_eq
      have hSome : name ≠ "" := (hNames (name, node) List.mem_cons_self).some
      rw [List.map_cons, ← List.singleton_append, ← List.append_assoc] at hDistinct
      have hNew : tree.contains name = false := by
        rw [Bool.eq_false_iff]
        intro hContains
        have hPrefix := (List.nodup_append.mp hDistinct).1
        exact (List.nodup_append.mp hPrefix).2.2 name (Tree.contains_iff.mp hContains) name
          List.mem_cons_self rfl
      obtain ⟨built, hBuilt, hEquals, hText⟩ :=
        hBuilds declaration (name, node) List.mem_cons_self hFirst (childPath parent name)
      have hGrown : (Tree.names ⟨tree.nodes ++ [(name, built)]⟩ ++ nodes.map Prod.fst).Nodup := by
        simpa [Tree.names] using hDistinct
      obtain ⟨others, hOthers, hAllEqual, hAllText⟩ :=
        ih hRest (fun declaration entry hMem => hBuilds declaration entry (List.mem_cons_of_mem _ hMem))
          (fun entry hMem => hNames entry (List.mem_cons_of_mem _ hMem)) hGrown
      refine ⟨(name, built) :: others, ?_, ?_, ?_⟩
      · rw [addDeclarations, hName, if_neg hSome]
        simp only [hBuilt, hNew, hOthers]
        simp
      · simp [equalNodes, hEquals, hAllEqual]
      · intro depth
        rw [Render.nodes, Render.nodes, hText, hAllText]

theorem equalNodes_ne_nil {built nodes : List (String × Node)} (h : equalNodes built nodes = true)
    (hSome : nodes ≠ []) : built ≠ [] := by
  rintro rfl
  cases nodes with
  | nil => exact hSome rfl
  | cons entry nodes => simp [equalNodes] at h

theorem CommandFormed.name {entry : String × Node} (h : CommandFormed entry) : IsName entry.1 := by
  cases h with
  | intro hName _ _ _ _ _ _ => exact hName

theorem CommandFormed.builds {entry : String × Node} (h : CommandFormed entry) (declaration : Declaration)
    (hSays : Says declaration entry) : BuildsSame declaration entry.2 := by
  induction h generalizing declaration with
  | @intro name keyword kind attributes children position _ hKeyword hKeys hValues hSome hDistinct hBelow ih =>
    intro path
    have hSelf := AttributeMap.equals_self hValues
    have hHeader : ∀ {written : List DeclaredAttribute},
        written.map DeclaredAttribute.pair = writtenPairs kind attributes → _ :=
      fun hPairs => Header.addAll_written path (fun key hKey => (hKeys key hKey).2) hPairs
    have hWord := isIdentifier_ne_empty hKeyword
    cases hSays with
    | @bare _ _ _ _ written place _ hPairs =>
      refine ⟨⟨keyword, kind, attributes, none, place⟩, ?_, ?_, fun depth => rfl⟩
      · rw [Declaration.toNode, hHeader hPairs, if_neg hWord]
        rfl
      · simp [Node.equals, hSelf]
    | @body _ _ _ _ written place _ declarations nodes hPairs hBody =>
      obtain ⟨built, hBuilt, hEquals, hText⟩ := @addDeclarations_built declarations nodes .empty (some path) hBody
        (fun declaration entry hMem hSays => ih nodes rfl entry hMem declaration hSays)
        (fun entry hMem => (hBelow nodes rfl entry hMem).name) (hDistinct nodes rfl)
      refine ⟨⟨keyword, kind, attributes, some ⟨built⟩, place⟩, ?_, ?_, ?_⟩
      · rw [Declaration.toNode, hHeader hPairs, if_neg hWord]
        simp only [hBuilt]
        rfl
      · simp [Node.equals, Tree.equals, hSelf, hEquals]
      · intro depth
        have hNodes := hSome nodes rfl
        rw [render_body _ _ _ _ _ hNodes, render_body _ _ _ _ _ (equalNodes_ne_nil hEquals hNodes), hText]

/-! ## Documents -/

theorem header_text :
    "version ".toList ++ (toString supportedVersion).toList ++ ['\n', '\n'] = "version 1\n\n".toList := by
  decide

theorem render_eq (tree : Tree) :
    tree.render = String.ofList ("version 1\n\n".toList ++ Render.nodes 0 tree.nodes) := by
  rw [← header_text]
  unfold Tree.render
  exact rfl

theorem render_passes (name : String) (node : Node) (rest : List (String × Node)) :
    ∃ b d, (Cursor.ofText (Tree.render ⟨(name, node) :: rest⟩)).Passes "version 1\n\n".toList b ∧
      b.Passes ([] ++ (commandText 0 name node ++ '\n' :: (Render.nodes 0 rest ++ Render.indent 0))) d ∧
        d.rest = [] := by
  generalize hStart : Cursor.ofText (Tree.render ⟨(name, node) :: rest⟩) = start
  have hRest : start.rest =
      "version 1\n\n".toList ++ (commandText 0 name node ++ '\n' :: Render.nodes 0 rest) := by
    have hIndent : Render.indent 0 = [] := rfl
    rw [← hStart, Cursor.ofText, render_eq]
    simp only [String.toList_ofList, nodes_cons, hIndent, List.nil_append]
  have hAll := Cursor.passes_skip (List.prefix_refl start.rest)
  generalize start.skip start.rest.length = last at hAll
  have hEnd : last.rest = [] := by simpa using hAll.1
  rw [hRest] at hAll
  obtain ⟨b, hHeader, hCommands⟩ := hAll.split
  exact ⟨b, last, hHeader, by simpa [Render.indent] using hCommands, hEnd⟩

theorem render_header {b : Cursor} {start : Cursor} (h : start.Passes "version 1\n\n".toList b) (hStops : b.Stops) :
    start.Stops ∧ HeaderTo start b := by
  have hVersion : start.Passes ('v' :: "ersion 1\n\n".toList) b := h
  have hLines : start.Passes ("version 1".toList ++ '\n' :: ['\n']) b := h
  exact ⟨hVersion.head (by decide), header_written hLines (by simp [isBlank_newline]) hStops⟩

theorem Tree.WellFormed.derives {tree : Tree} (h : tree.WellFormed) :
    ∃ declarations, Derives tree.render declarations ∧ SaysAll declarations tree.nodes := by
  obtain ⟨nodes⟩ := tree
  cases nodes with
  | nil => exact absurd rfl h.some
  | cons first rest =>
    obtain ⟨name, node⟩ := first
    obtain ⟨b, last, hHeader, hCommands, hEnd⟩ := render_passes name node rest
    have hLast : last.Stops := by simp [Cursor.Stops, hEnd]
    have hFirst : b.Passes (commandText 0 name node ++ '\n' :: (Render.nodes 0 rest ++ Render.indent 0)) last :=
      hCommands
    obtain ⟨_, hText, -⟩ := hFirst.split
    obtain ⟨_, hCommand, -⟩ := (h.each (name, node) List.mem_cons_self).written hText
    obtain ⟨declarations, hScope, hSays⟩ :=
      scope_written (fun entry hMem => (h.each entry hMem).written) (fun _ hMem => by cases hMem) hCommands hLast
    obtain ⟨hStops, hVersion⟩ := render_header hHeader hCommand.stops
    exact ⟨declarations, .intro (Cursor.spacingTo_self hStops) hVersion hScope hEnd, hSays⟩

theorem Tree.WellFormed.finishes (document : String) {tree : Tree} {declarations : List Declaration}
    (h : tree.WellFormed) (hSays : SaysAll declarations tree.nodes) :
    ∃ read, finishDocument document declarations [] = .ok read ∧ read.equals tree = true := by
  obtain ⟨nodes⟩ := tree
  obtain ⟨built, hBuilt, hEquals, -⟩ := @addDeclarations_built declarations nodes .empty none hSays
    (fun declaration entry hMem hSays => (h.each entry hMem).builds declaration hSays)
    (fun entry hMem => (h.each entry hMem).name) h.distinct
  refine ⟨⟨built⟩, ?_, hEquals⟩
  simp only [finishDocument, canonicalize, hBuilt]
  rfl

/-- A well-formed tree is read back from its text with the same content, and written as the same text. -/
theorem read_render (document : String) {tree : Tree} (h : tree.WellFormed) :
    ∃ read, readText tree.render document = .ok read ∧ read.equals tree = true ∧ read.render = tree.render := by
  obtain ⟨declarations, hDerives, hSays⟩ := h.derives
  obtain ⟨nodes⟩ := tree
  obtain ⟨built, hBuilt, hEquals, hText⟩ := @addDeclarations_built declarations nodes .empty none hSays
    (fun declaration entry hMem hSays => (h.each entry hMem).builds declaration hSays)
    (fun entry hMem => (h.each entry hMem).name) h.distinct
  refine ⟨⟨built⟩, ?_, ?_, ?_⟩
  · rw [readText, document_of_derives hDerives]
    simp only [finishDocument, canonicalize, hBuilt]
    rfl
  · exact hEquals
  · simp only [render_eq, hText]

/-- A dialog with a quoted text, nested numbers and a button. -/
def greeting : Tree :=
  ⟨[("info1", ⟨"dialog", some "info", .ofList [("message", .string "say \"hi\"\n"),
      ("sizes", .list [.integer 3, .list [.float (.ofRatio true 1 2)]])],
    some ⟨[("ok", ⟨"action", none, .empty, none, none⟩)]⟩, none⟩)]⟩

theorem greeting_wellFormed : greeting.WellFormed := by
  have hButton : CommandFormed ("ok", ⟨"action", none, .empty, none, none⟩) :=
    .intro ⟨by decide, List.all_eq_true.mp (by decide)⟩ (by decide) (by decide) (fun _ hMem => by cases hMem) (fun _ h => by cases h)
      (fun _ h => by cases h) (fun _ h => by cases h)
  have hHalf : (Binary64.ofRatio true 1 2).isFinite = true := by decide +kernel
  have hSizes : FiniteFloats (.list [.integer 3, .list [.float (.ofRatio true 1 2)]]) := by
    refine .list fun item hMem => ?_
    rcases List.mem_cons.mp hMem with rfl | hMem
    · exact .integer
    · obtain rfl := List.mem_singleton.mp hMem
      refine .list fun item hMem => ?_
      obtain rfl := List.mem_singleton.mp hMem
      exact .float hHalf
  have hEntries : (AttributeMap.ofList [("message", .string "say \"hi\"\n"),
      ("sizes", .list [.integer 3, .list [.float (.ofRatio true 1 2)]])]).entries =
        [("message", .string "say \"hi\"\n"),
          ("sizes", .list [.integer 3, .list [.float (.ofRatio true 1 2)]])] := rfl
  refine ⟨List.cons_ne_nil _ _, by decide, fun entry hMem => ?_⟩
  obtain rfl := List.mem_singleton.mp hMem
  refine .intro ⟨by decide, List.all_eq_true.mp (by decide)⟩ (by decide) ?_ ?_ ?_ ?_ ?_
  · rw [AttributeMap.keys, hEntries]
    decide
  · rw [hEntries]
    intro pair hMem
    rcases List.mem_cons.mp hMem with rfl | hMem
    · exact .string
    · obtain rfl := List.mem_singleton.mp hMem
      exact hSizes
  · rintro nodes ⟨⟩
    exact List.cons_ne_nil _ _
  · rintro nodes ⟨⟩
    decide
  · rintro nodes ⟨⟩ entry hMem
    obtain rfl := List.mem_singleton.mp hMem
    exact hButton

theorem read_render_greeting : greeting.WellFormed ∧
    ∃ read, readText greeting.render "greeting" = .ok read ∧ read.equals greeting = true ∧
      read.render = greeting.render :=
  ⟨greeting_wellFormed, read_render "greeting" greeting_wellFormed⟩

end DialogTree
