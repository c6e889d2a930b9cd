import DialogTree.Proofs.Json.Reading
import DialogTree.Proofs.RoundTrip
import DialogTree.Proofs.Tree.PreOrder

/-!
# Trees read back from JSON

The JSON of a tree declares what the tree holds, also where a command has the name of the version entry. What
is written for it is read back when it nests no deeper than the reader allows and its floats are read back.
-/

namespace DialogTree

/-! ## Depth and floats -/

namespace Json

mutual

def Value.depth : Value → Nat
  | .array items => depthItems items + 1
  | .object entries => depthEntries entries + 1
  | _ => 0

def depthItems : List Value → Nat
  | [] => 0
  | item :: rest => max item.depth (depthItems rest)

def depthEntries : List (String × Value) → Nat
  | [] => 0
  | (_, value) :: rest => max value.depth (depthEntries rest)

end

theorem depth_le_items {items : List Value} : ∀ item ∈ items, item.depth ≤ depthItems items := by
  induction items with
  | nil => simp
  | cons first rest ih =>
    rw [List.forall_mem_cons, depthItems]
    exact ⟨Nat.le_max_left _ _, fun item hMem => Nat.le_trans (ih item hMem) (Nat.le_max_right _ _)⟩

theorem depth_le_entries {entries : List (String × Value)} :
    ∀ entry ∈ entries, entry.2.depth ≤ depthEntries entries := by
  induction entries with
  | nil => simp
  | cons first rest ih =>
    rw [List.forall_mem_cons, depthEntries]
    exact ⟨Nat.le_max_left _ _, fun entry hMem => Nat.le_trans (ih entry hMem) (Nat.le_max_right _ _)⟩

theorem Readable.array_of_depth {items : List Value} {depth : Nat} (hDepth : (Value.array items).depth ≤ depth)
    (hItems : ∀ item ∈ items, ∀ below, item.depth ≤ below → Readable below item) :
    Readable depth (.array items) := by
  rw [Value.depth] at hDepth
  obtain ⟨below, rfl⟩ := Nat.exists_eq_add_one.mpr (Nat.zero_lt_of_lt hDepth)
  exact .array fun item hMem => hItems item hMem below (by have := depth_le_items item hMem; omega)

theorem Readable.object_of_depth {entries : List (String × Value)} {depth : Nat}
    (hDepth : (Value.object entries).depth ≤ depth)
    (hEntries : ∀ entry ∈ entries, ∀ below, entry.2.depth ≤ below → Readable below entry.2) :
    Readable depth (.object entries) := by
  rw [Value.depth] at hDepth
  obtain ⟨below, rfl⟩ := Nat.exists_eq_add_one.mpr (Nat.zero_lt_of_lt hDepth)
  exact .object fun entry hMem => hEntries entry hMem below (by have := depth_le_entries entry hMem; omega)

end Json

mutual

def Value.floats : Value → List Binary64
  | .string _ | .bool _ | .integer _ => []
  | .float x => [x]
  | .list items => allFloats items

def allFloats : List Value → List Binary64
  | [] => []
  | item :: rest => item.floats ++ allFloats rest

end

def Tree.floats (tree : Tree) : List Binary64 :=
  tree.commands.flatMap fun command => command.2.attributes.entries.flatMap fun pair => pair.2.floats

/-- The float is read back from what is written for it in JSON. -/
def ReadsBack (x : Binary64) : Prop :=
  Json.read (FloatStyle.json.text x).toList = .ok (.float x)

def readsBack (x : Binary64) : Bool :=
  match Json.read (FloatStyle.json.text x).toList with
  | .ok (.float y) => y == x
  | _ => false

theorem readsBack_iff {x : Binary64} : readsBack x = true ↔ ReadsBack x := by
  unfold readsBack ReadsBack
  split
  · rename_i y hRead
    rw [hRead, beq_iff_eq, Except.ok.injEq, Json.Value.float.injEq]
  · rename_i hOther
    exact iff_of_false Bool.false_ne_true (hOther x)

instance (x : Binary64) : Decidable (ReadsBack x) :=
  decidable_of_iff _ readsBack_iff

/-! ## What is written for a tree can be read -/

theorem integer_readable (depth : Nat) (n : Int64) : Json.Readable depth (.integer n.toInt) := by
  have hLow := n.le_toInt
  have hHigh := n.toInt_lt
  exact .integer (by omega) (by omega)

mutual

theorem Value.toJson_readable : ∀ (value : Value) (depth : Nat), value.toJson.depth ≤ depth →
    (∀ x ∈ value.floats, ReadsBack x) → Json.Readable depth value.toJson
  | .string _, _, _, _ => .string
  | .bool _, _, _, _ => .bool
  | .integer n, depth, _, _ => integer_readable depth n
  | .float x, _, _, hFloats => .float (hFloats x (List.mem_singleton.mpr rfl))
  | .list items, _, hDepth, hFloats => .array_of_depth hDepth fun item hMem below hBelow =>
    valuesToJson_readable items hFloats item hMem below hBelow

theorem valuesToJson_readable : ∀ items : List Value, (∀ x ∈ allFloats items, ReadsBack x) →
    ∀ item ∈ valuesToJson items, ∀ depth, item.depth ≤ depth → Json.Readable depth item
  | [], _ => by simp [valuesToJson]
  | first :: rest, hFloats => by
    rw [allFloats, List.forall_mem_append] at hFloats
    rw [valuesToJson, List.forall_mem_cons]
    exact ⟨fun depth hDepth => first.toJson_readable depth hDepth hFloats.1, valuesToJson_readable rest hFloats.2⟩

end

def jsonPair (pair : String × Value) : String × Json.Value :=
  (pair.1, pair.2.toJson)

theorem node_toJson (keyword : String) (kind : Option String) (attributes : AttributeMap) (children : Option Tree)
    (position : Option Position) : Node.toJson ⟨keyword, kind, attributes, children, position⟩ =
      .object ((keywordKey, .string keyword) :: ((writtenPairs kind attributes).map jsonPair ++
        (children.map fun tree => (childrenKey, tree.toJson)).toList)) := by
  have hPairs : (writtenPairs kind attributes).map jsonPair =
      (kind.map fun kind => (typeKey, .string kind)).toList ++ attributes.toJsonEntries := by
    rw [writtenPairs, List.map_append]
    cases kind <;> rfl
  rw [hPairs]
  cases children with
  | none => rw [Node.toJson.eq_def]; rfl
  | some tree => rw [Node.toJson.eq_def]; rfl

theorem mem_floats_iff {tree : Tree} {x : Binary64} : x ∈ tree.floats ↔
    ∃ names node, CommandAt tree names node ∧ ∃ pair ∈ node.attributes.entries, x ∈ pair.2.floats := by
  simp only [Tree.floats, List.mem_flatMap, Prod.exists, mem_commands_iff]

theorem nodesToJson_eq_map (nodes : List (String × Node)) :
    nodesToJson nodes = nodes.map fun entry => (entry.1, entry.2.toJson) := by
  induction nodes with
  | nil => rfl
  | cons entry nodes ih => rw [nodesToJson, ih, List.map_cons]

theorem nodes_readable {nodes : List (String × Node)} {depth : Nat} (hDepth : (Tree.toJson ⟨nodes⟩).depth ≤ depth)
    (hNodes : ∀ entry ∈ nodes, ∀ below, entry.2.toJson.depth ≤ below → Json.Readable below entry.2.toJson) :
    Json.Readable depth (Tree.toJson ⟨nodes⟩) := by
  rw [Tree.toJson, nodesToJson_eq_map] at hDepth ⊢
  refine .object_of_depth hDepth fun entry hMem below hBelow => ?_
  obtain ⟨written, hWritten, rfl⟩ := List.mem_map.mp hMem
  exact hNodes written hWritten below hBelow

theorem CommandFormed.readable {entry : String × Node} (h : CommandFormed entry)
    (hFloats : ∀ x ∈ Tree.floats ⟨[entry]⟩, ReadsBack x) :
    ∀ depth, entry.2.toJson.depth ≤ depth → Json.Readable depth entry.2.toJson := by
  induction h with
  | @intro name keyword kind attributes children position _ _ _ _ _ _ _ ih =>
    intro depth hDepth
    have hPairs : ∀ pair ∈ writtenPairs kind attributes, ∀ x ∈ pair.2.floats, ReadsBack x := by
      refine forall_writtenPairs (fun _ x hx => by cases hx) fun pair hPair x hx => ?_
      exact hFloats x (mem_floats_iff.mpr ⟨[name], _, .top List.mem_cons_self, pair, hPair, hx⟩)
    rw [node_toJson] at hDepth ⊢
    refine .object_of_depth hDepth fun entry hMem below hBelow => ?_
    rcases List.mem_cons.mp hMem with rfl | hMem
    · exact .string
    rcases List.mem_append.mp hMem with hMem | hMem
    · obtain ⟨pair, hPair, rfl⟩ := List.mem_map.mp hMem
      exact pair.2.toJson_readable below hBelow (hPairs pair hPair)
    · cases children with
      | none => cases hMem
      | some tree =>
        obtain ⟨nodes⟩ := tree
        obtain rfl := List.mem_singleton.mp hMem
        refine nodes_readable hBelow fun entry hEntry => ih nodes rfl entry hEntry fun x hx => ?_
        obtain ⟨names, node, hAt, hHere⟩ := mem_floats_iff.mp hx
        have hBelow := hAt.of_mem hEntry
        exact hFloats x (mem_floats_iff.mpr ⟨name :: names, node, .inner List.mem_cons_self rfl hBelow, hHere⟩)

theorem Tree.WellFormed.readable {tree : Tree} (h : tree.WellFormed) (hFloats : ∀ x ∈ tree.floats, ReadsBack x)
    {depth : Nat} (hDepth : tree.toJson.depth ≤ depth) : Json.Readable depth tree.toJson := by
  obtain ⟨nodes⟩ := tree
  refine nodes_readable hDepth fun entry hMem => (h.each entry hMem).readable fun x hx => ?_
  obtain ⟨names, node, hAt, hHere⟩ := mem_floats_iff.mp hx
  exact hFloats x (mem_floats_iff.mpr ⟨names, node, hAt.of_mem hMem, hHere⟩)

/-! ## What the JSON of a tree declares -/

theorem isInt64_toInt (n : Int64) : Json.Value.isInt64 n.toInt = true := by
  simp only [Json.Value.isInt64, Bool.and_eq_true, decide_eq_true_eq]
  exact ⟨n.le_toInt, n.toInt_lt⟩

mutual

theorem literalValue_toJson : ∀ value : Value, Json.literalValue value.toJson = .ok value
  | .string _ => rfl
  | .bool _ => rfl
  | .integer n => by
    rw [Value.toJson, Json.literalValue, if_pos (isInt64_toInt n), Int64.ofInt_toInt]
  | .float _ => rfl
  | .list items => by
    rw [Value.toJson, Json.literalValue, literalValues_toJson items]
    rfl

theorem literalValues_toJson : ∀ items : List Value, Json.literalValues (valuesToJson items) = .ok items
  | [] => rfl
  | item :: rest => by
    rw [valuesToJson, Json.literalValues, literalValue_toJson item, literalValues_toJson rest]
    rfl

end

namespace Json

variable {path : String} {fields next last : Fields}

theorem readFields_attribute {pair : String × DialogTree.Value} (hKey : isIdentifier pair.1 = true)
    (hPlain : pair.1 ≠ keywordKey ∧ pair.1 ≠ childrenKey) {rest : List (String × Value)}
    (hRest : readFields path { fields with attributes := fields.attributes ++ [⟨pair.1, pair.2, none⟩] } rest =
      (last, [])) : readFields path fields (jsonPair pair :: rest) = (last, []) := by
  have hAdd : fields.addAttribute path pair.1 pair.2.toJson =
      ({ fields with attributes := fields.attributes ++ [⟨pair.1, pair.2, none⟩] }, []) := by
    simp only [Fields.addAttribute, hKey, if_true, literalValue_toJson]
  simp only [readFields, jsonPair, if_neg hPlain.1, if_neg hPlain.2, hAdd, hRest, List.append_nil]

def declared (pair : String × DialogTree.Value) : DeclaredAttribute :=
  ⟨pair.1, pair.2, none⟩

theorem readFields_attributes {pairs : List (String × DialogTree.Value)}
    (hPairs : ∀ pair ∈ pairs, isIdentifier pair.1 = true ∧ pair.1 ≠ keywordKey ∧ pair.1 ≠ childrenKey)
    {rest : List (String × Value)}
    (hRest : readFields path { fields with attributes := fields.attributes ++ pairs.map declared } rest = (last, [])) :
    readFields path fields (pairs.map jsonPair ++ rest) = (last, []) := by
  induction pairs generalizing fields with
  | nil => simpa using hRest
  | cons pair pairs ih =>
    rw [List.forall_mem_cons] at hPairs
    refine readFields_attribute hPairs.1.1 hPairs.1.2 (ih hPairs.2 ?_)
    simpa [declared] using hRest

theorem readFields_keyword {keyword : String} {rest : List (String × Value)}
    (hRest : readFields path ⟨some keyword, [], none⟩ rest = (last, [])) :
    readFields path .empty ((keywordKey, .string keyword) :: rest) = (last, []) := by
  have hAdd : Fields.empty.addKeyword path (.string keyword) = (⟨some keyword, [], none⟩, []) := rfl
  simp only [readFields, if_true, hAdd, hRest, List.append_nil]

theorem readFields_children {entries : List (String × Value)} {declarations : List Declaration}
    (hSome : entries ≠ []) (hNone : fields.body = none)
    (hEntries : readCommands (some path) entries = (declarations, [])) :
    readFields path fields [(childrenKey, .object entries)] = ({ fields with body := some declarations }, []) := by
  have hKey : childrenKey ≠ keywordKey := by decide
  have hBody : readBody path fields (.object entries) = ({ fields with body := some declarations }, []) := by
    simp [readBody, hNone, hEntries, hSome]
  simp only [readFields, if_neg hKey, if_true, hBody, List.append_nil]

theorem declare_named {name keyword : String} {attributes : List DeclaredAttribute}
    {body : Option (List Declaration)} (hName : IsName name) (hKeyword : isIdentifier keyword = true) :
    declare path name ⟨some keyword, attributes, body⟩ = (some ⟨name, keyword, none, attributes, body⟩, []) := by
  have hAll : name.toList.all isNameChar = true := List.all_eq_true.mpr hName.all
  simp [declare, hKeyword, hAll]

theorem nameErrors_named {name : String} (hName : IsName name) : nameErrors path name = [] := by
  rw [nameErrors, if_pos (List.all_eq_true.mpr hName.all)]

theorem readCommand_pairs {parent : Option String} {name keyword : String}
    {pairs : List (String × DialogTree.Value)} {body : Option (List Declaration)} {rest : List (String × Value)}
    (hName : IsName name) (hKeyword : isIdentifier keyword = true)
    (hPairs : ∀ pair ∈ pairs, isIdentifier pair.1 = true ∧ pair.1 ≠ keywordKey ∧ pair.1 ≠ childrenKey)
    (hRest : readFields (childPath parent name) ⟨some keyword, pairs.map declared, none⟩ rest =
      (⟨some keyword, pairs.map declared, body⟩, [])) :
    readCommand parent name (.object ((keywordKey, .string keyword) :: (pairs.map jsonPair ++ rest))) =
      (some ⟨name, keyword, none, pairs.map declared, body⟩, []) := by
  have hFields := readFields_keyword (readFields_attributes hPairs hRest)
  simp only [readCommand, hFields, declare_named hName hKeyword, nameErrors_named hName, List.append_nil]

end Json

/-- The JSON of the command declares what it holds. -/
def CommandDumped (entry : String × Node) : Prop :=
  ∀ parent, ∃ declaration, Json.readCommand parent entry.1 entry.2.toJson = (some declaration, []) ∧
    Says declaration entry

theorem readCommands_dumped {nodes : List (String × Node)} (hEach : ∀ entry ∈ nodes, CommandDumped entry)
    (parent : Option String) : ∃ declarations,
      Json.readCommands parent (nodesToJson nodes) = (declarations, []) ∧ SaysAll declarations nodes := by
  induction nodes with
  | nil => exact ⟨[], rfl, .nil⟩
  | cons entry nodes ih =>
    rw [List.forall_mem_cons] at hEach
    obtain ⟨declaration, hFirst, hSays⟩ := hEach.1 parent
    obtain ⟨declarations, hRest, hAll⟩ := ih hEach.2
    refine ⟨declaration :: declarations, ?_, .cons hSays hAll⟩
    simp [nodesToJson, Json.readCommands, hFirst, hRest]

theorem CommandFormed.dumped {entry : String × Node} (h : CommandFormed entry) : CommandDumped entry := by
  induction h with
  | @intro name keyword kind attributes children position hName hKeyword hKeys _ hSome _ _ ih =>
    intro parent
    have hPairs : ∀ pair ∈ writtenPairs kind attributes,
        isIdentifier pair.1 = true ∧ pair.1 ≠ keywordKey ∧ pair.1 ≠ childrenKey := by
      have hType : typeKey ≠ keywordKey ∧ typeKey ≠ childrenKey := by decide
      refine forall_writtenPairs (fun _ => ⟨isIdentifier_typeKey, hType⟩) fun pair hMem => ?_
      obtain ⟨hKey, hFree⟩ := hKeys pair.1 (AttributeMap.key_mem hMem)
      simp only [List.mem_cons, List.not_mem_nil, or_false, not_or] at hFree
      exact ⟨hKey, hFree.1, hFree.2.2.1⟩
    have hItems : ((writtenPairs kind attributes).map Json.declared).map DeclaredAttribute.pair =
        writtenPairs kind attributes := by
      rw [List.map_map]
      exact List.map_id _
    rw [node_toJson]
    cases children with
    | none => exact ⟨_, Json.readCommand_pairs hName hKeyword hPairs rfl, .bare hItems⟩
    | some tree =>
      obtain ⟨nodes⟩ := tree
      obtain ⟨declarations, hDeclared, hSays⟩ := readCommands_dumped (ih nodes rfl) (some (childPath parent name))
      have hEntries : nodesToJson nodes ≠ [] := by
        rw [nodesToJson_eq_map]
        simpa using hSome nodes rfl
      exact ⟨_, Json.readCommand_pairs hName hKeyword hPairs (Json.readFields_children hEntries rfl hDeclared),
        .body hItems hSays⟩

/-! ## Documents -/

/-- A command is an object, which is never taken for the version. -/
theorem isVersionEntry_node (name : String) (node : Node) : Json.isVersionEntry name node.toJson = false := by
  obtain ⟨keyword, kind, attributes, children, position⟩ := node
  rw [node_toJson]
  rfl

theorem readEntriesOfDocument_dumped {nodes : List (String × Node)}
    (hEach : ∀ entry ∈ nodes, CommandDumped entry) : ∃ declarations,
      Json.readEntriesOfDocument (nodesToJson nodes) = (declarations, []) ∧ SaysAll declarations nodes := by
  induction nodes with
  | nil => exact ⟨[], rfl, .nil⟩
  | cons entry nodes ih =>
    rw [List.forall_mem_cons] at hEach
    obtain ⟨declaration, hFirst, hSays⟩ := hEach.1 none
    obtain ⟨declarations, hRest, hAll⟩ := ih hEach.2
    refine ⟨declaration :: declarations, ?_, .cons hSays hAll⟩
    simp [nodesToJson, Json.readEntriesOfDocument, isVersionEntry_node, hFirst, hRest]

theorem Tree.WellFormed.declared {tree : Tree} (h : tree.WellFormed) :
    ∃ declarations, Json.declarations tree.toJson = (declarations, []) ∧ SaysAll declarations tree.nodes := by
  obtain ⟨nodes⟩ := tree
  obtain ⟨declarations, hRead, hSays⟩ := readEntriesOfDocument_dumped fun entry hMem => (h.each entry hMem).dumped
  refine ⟨declarations, ?_, hSays⟩
  rw [Tree.toJson, Json.declarations, hRead]
  cases hSays with
  | nil => exact absurd rfl h.some
  | cons => rfl

/-- A well-formed tree is read back from every layout of its JSON. -/
theorem Tree.WellFormed.read_layout (document : String) {tree : Tree} (h : tree.WellFormed)
    (hDepth : tree.toJson.depth ≤ Json.maxDepth) (hFloats : ∀ x ∈ tree.floats, ReadsBack x) {text : List Char}
    (hText : Json.Layout tree.toJson text) :
    ∃ read, readJson (String.ofList text) document = .ok read ∧ read.equals tree = true := by
  obtain ⟨declarations, hDeclared, hSays⟩ := h.declared
  have hDocument : Json.document (String.ofList text) = (declarations, []) := by
    rw [Json.document, String.toList_ofList, hText.relax, Json.read_layout (h.readable hFloats hDepth) hText]
    exact hDeclared
  rw [readJson, hDocument]
  exact h.finishes document hSays

/-- A well-formed tree is read back from its JSON, on one line and over several lines. -/
theorem read_dump (document : String) {tree : Tree} (h : tree.WellFormed) (hDepth : tree.toJson.depth ≤ 127)
    (hFloats : ∀ x ∈ tree.floats, ReadsBack x) :
    (∃ read, readJson tree.toJson.text document = .ok read ∧ read.equals tree = true) ∧
      ∃ read, readJson tree.toJson.prettyText document = .ok read ∧ read.equals tree = true :=
  ⟨h.read_layout document hDepth hFloats (Json.compact_layout tree.toJson),
    h.read_layout document hDepth hFloats (Json.pretty_layout tree.toJson 0)⟩

/-- Commands that are named like the version entry, with texts that look like comments and closing brackets. -/
def versionedTree : Tree :=
  ⟨[("version", ⟨"info", some "say \"hi\"", .ofList [("note", .string "# // ,] \\"),
      ("sizes", .list [.integer (-3), .list [.float (.ofRatio false 3 2)]])],
    some ⟨[("version", ⟨"action", none, .empty, none, none⟩)]⟩, none⟩)]⟩

theorem read_dump_versioned : versionedTree.WellFormed ∧ versionedTree.toJson.depth ≤ 127 ∧
    (∀ x ∈ versionedTree.floats, ReadsBack x) ∧
    (∃ read, readJson versionedTree.toJson.text "info" = .ok read ∧ read.equals versionedTree = true) ∧
      ∃ read, readJson versionedTree.toJson.prettyText "info" = .ok read ∧ read.equals versionedTree = true := by
  have hFormed : versionedTree.WellFormed := by decide +kernel
  have hDepth : versionedTree.toJson.depth ≤ 127 := by decide +kernel
  have hFloats : ∀ x ∈ versionedTree.floats, ReadsBack x := by decide +kernel
  exact ⟨hFormed, hDepth, hFloats, read_dump "info" hFormed hDepth hFloats⟩

end DialogTree
