import DialogTree.Proofs.Completeness.Commands
import DialogTree.Proofs.Written.Values

/-!
# Commands as they are written

The text of well-formed commands derives declarations that say the same. A command is written on lines of
its own, so that a line end separates it from the next one. Whether a tree is well-formed can be decided.
-/

namespace DialogTree

open Grammar

variable {c d : Cursor}

/-! ## Well-formed trees -/

structure IsName (name : String) : Prop where
  some : name ≠ ""
  all : ∀ x ∈ name.toList, isNameChar x = true

/-- A command whose names, keywords and keys can be written, whose numbers are finite, and whose body, if it
has one, holds distinct commands of the same kind. -/
inductive CommandFormed : String × Node → Prop where
  | intro {name keyword : String} {kind : Option String} {attributes : AttributeMap} {children : Option Tree}
      {position : Option Position} (hName : IsName name) (hKeyword : isIdentifier keyword = true)
      (hKeys : ∀ key ∈ attributes.keys,
        isIdentifier key = true ∧ key ∉ [keywordKey, typeKey, childrenKey, nameKey])
      (hValues : ∀ pair ∈ attributes.entries, FiniteFloats pair.2)
      (hSome : ∀ nodes, children = some ⟨nodes⟩ → nodes ≠ [])
      (hDistinct : ∀ nodes, children = some ⟨nodes⟩ → (nodes.map Prod.fst).Nodup)
      (hBelow : ∀ nodes, children = some ⟨nodes⟩ → ∀ entry ∈ nodes, CommandFormed entry) :
      CommandFormed (name, ⟨keyword, kind, attributes, children, position⟩)

structure Tree.WellFormed (tree : Tree) : Prop where
  some : tree.nodes ≠ []
  distinct : tree.names.Nodup
  each : ∀ entry ∈ tree.nodes, CommandFormed entry

def isName (name : String) : Bool :=
  name ≠ "" && name.toList.all isNameChar

theorem isName_iff {name : String} : isName name = true ↔ IsName name := by
  simp only [isName, Bool.and_eq_true, decide_eq_true_eq, List.all_eq_true]
  exact ⟨fun h => ⟨h.1, h.2⟩, fun h => ⟨h.some, h.all⟩⟩

mutual

/-- Whether the command is well-formed but for its name. -/
def Node.isFormed : Node → Bool
  | ⟨keyword, _, attributes, children, _⟩ =>
    isIdentifier keyword &&
      attributes.keys.all (fun key => isIdentifier key && key ∉ [keywordKey, typeKey, childrenKey, nameKey]) &&
      attributes.entries.all (fun pair => pair.2.isFinite) &&
      match children with
      | none => true
      | some tree => tree.isFormed

def Tree.isFormed : Tree → Bool
  | ⟨nodes⟩ => !nodes.isEmpty && decide (nodes.map Prod.fst).Nodup && allFormed nodes

def allFormed : List (String × Node) → Bool
  | [] => true
  | (name, node) :: rest => isName name && node.isFormed && allFormed rest

end

mutual

theorem Node.isFormed_iff (name : String) (hName : IsName name) : ∀ node : Node,
    node.isFormed = true ↔ CommandFormed (name, node)
  | ⟨keyword, kind, attributes, none, position⟩ => by
    simp only [Node.isFormed, Bool.and_true, Bool.and_eq_true, List.all_eq_true, decide_eq_true_eq,
      Value.isFinite_iff]
    constructor
    · rintro ⟨⟨hKeyword, hKeys⟩, hValues⟩
      exact .intro hName hKeyword hKeys hValues (fun _ h => by cases h) (fun _ h => by cases h)
        (fun _ h => by cases h)
    · rintro ⟨-, hKeyword, hKeys, hValues⟩
      exact ⟨⟨hKeyword, hKeys⟩, hValues⟩
  | ⟨keyword, kind, attributes, some tree, position⟩ => by
    have hTree := Tree.isFormed_iff tree
    obtain ⟨nodes⟩ := tree
    simp only [Node.isFormed, Bool.and_eq_true, List.all_eq_true, decide_eq_true_eq, Value.isFinite_iff, hTree]
    constructor
    · rintro ⟨⟨⟨hKeyword, hKeys⟩, hValues⟩, hBody⟩
      refine .intro hName hKeyword hKeys hValues ?_ ?_ ?_
      · rintro _ ⟨⟩
        exact hBody.some
      · rintro _ ⟨⟩
        exact hBody.distinct
      · rintro _ ⟨⟩
        exact hBody.each
    · rintro ⟨-, hKeyword, hKeys, hValues, hSome, hDistinct, hBelow⟩
      exact ⟨⟨⟨hKeyword, hKeys⟩, hValues⟩, hSome nodes rfl, hDistinct nodes rfl, hBelow nodes rfl⟩

theorem Tree.isFormed_iff : ∀ tree : Tree, tree.isFormed = true ↔ tree.WellFormed
  | ⟨nodes⟩ => by
    simp only [Tree.isFormed, Bool.and_eq_true, Bool.not_eq_true', List.isEmpty_eq_false_iff, decide_eq_true_eq,
      allFormed_iff nodes]
    constructor
    · rintro ⟨⟨hSome, hDistinct⟩, hEach⟩
      exact ⟨hSome, hDistinct, hEach⟩
    · rintro ⟨hSome, hDistinct, hEach⟩
      exact ⟨⟨hSome, hDistinct⟩, hEach⟩

theorem allFormed_iff : ∀ nodes : List (String × Node),
    allFormed nodes = true ↔ ∀ entry ∈ nodes, CommandFormed entry
  | [] => by simp [allFormed]
  | (name, node) :: rest => by
    simp only [allFormed, Bool.and_eq_true, isName_iff, List.forall_mem_cons, allFormed_iff rest]
    refine and_congr_left fun _ => ⟨fun h => (node.isFormed_iff name h.1).mp h.2, fun h => ?_⟩
    have hName : IsName name := by
      cases h
      assumption
    exact ⟨hName, (node.isFormed_iff name hName).mpr h⟩

end

instance (tree : Tree) : Decidable tree.WellFormed := decidable_of_iff _ tree.isFormed_iff

/-! ## Declarations that say what a command holds -/

/-- The type and the attributes as they are written, the type first. -/
def writtenPairs (kind : Option String) (attributes : AttributeMap) : List (String × Value) :=
  (kind.map fun kind => (typeKey, Value.string kind)).toList ++ attributes.entries

def DeclaredAttribute.pair (item : DeclaredAttribute) : String × Value := (item.key, item.value)

mutual

/-- The declaration says what the named command holds; places are free. -/
inductive Says : Declaration → String × Node → Prop where
  | bare {name keyword : String} {kind : Option String} {attributes : AttributeMap}
      {written : List DeclaredAttribute} {place position : Option Position}
      (hPairs : written.map DeclaredAttribute.pair = writtenPairs kind attributes) :
      Says ⟨name, keyword, place, written, none⟩ (name, ⟨keyword, kind, attributes, none, position⟩)
  | body {name keyword : String} {kind : Option String} {attributes : AttributeMap}
      {written : List DeclaredAttribute} {place position : Option Position} {declarations : List Declaration}
      {nodes : List (String × Node)}
      (hPairs : written.map DeclaredAttribute.pair = writtenPairs kind attributes)
      (hBody : SaysAll declarations nodes) :
      Says ⟨name, keyword, place, written, some declarations⟩
        (name, ⟨keyword, kind, attributes, some ⟨nodes⟩, position⟩)

inductive SaysAll : List Declaration → List (String × Node) → Prop where
  | nil : SaysAll [] []
  | cons {declaration : Declaration} {declarations : List Declaration} {entry : String × Node}
      {nodes : List (String × Node)} (hFirst : Says declaration entry) (hRest : SaysAll declarations nodes) :
      SaysAll (declaration :: declarations) (entry :: nodes)

end

/-! ## Words -/

theorem word_written {lead body : Char → Bool} {word : String} {x : Char} {rest : List Char}
    (hWord : word.toList = x :: rest) (hLead : lead x = true) (hBody : ∀ y ∈ rest, body y = true)
    (h : c.Passes word.toList d) (hStop : ∀ y ∈ d.rest.head?, body y = false) : WordTo lead body word c d := by
  have hParts : c.Passes ([x] ++ rest) d := by rwa [hWord] at h
  obtain ⟨b, hFirst, hRest⟩ := hParts.split
  have hSpelled : word = String.ofList (x :: rest) := by rw [← hWord, String.ofList_toList]
  rw [hSpelled]
  exact .intro hFirst hLead ⟨hRest, hBody, hStop⟩

theorem name_written {name : String} (hName : IsName name) (h : c.Passes name.toList d)
    (hStop : ∀ y ∈ d.rest.head?, isNameChar y = false) : WordTo isNameChar isNameChar name c d := by
  cases hList : name.toList with
  | nil => exact absurd (String.toList_eq_nil_iff.mp hList) hName.some
  | cons x rest =>
    have hAll := hName.all
    rw [hList] at hAll
    exact word_written hList (hAll x List.mem_cons_self) (fun y hy => hAll y (List.mem_cons_of_mem x hy)) h hStop

theorem identifier_written {word : String} (hWord : isIdentifier word = true) (h : c.Passes word.toList d)
    (hEnd : d.Ends) : WordTo isKeyStart isKeyChar word c d := by
  rw [isIdentifier] at hWord
  cases hList : word.toList with
  | nil =>
    rw [hList] at hWord
    cases hWord
  | cons x rest =>
    rw [hList] at hWord
    simp only [Bool.and_eq_true, List.all_eq_true] at hWord
    exact word_written hList hWord.1 hWord.2 h hEnd

theorem isKeyStart_stops {x : Char} (h : isKeyStart x = true) : startsSpacing x = false := by
  have hHash : x ≠ '#' := by
    rintro rfl
    exact absurd h (by decide)
  have hLetter : 65 ≤ x.toNat ∧ x.toNat ≤ 122 := by
    have hAlpha : x.isAlpha = (decide ('A'.val ≤ x.val ∧ x.val ≤ 'Z'.val) ||
        (decide ('a'.val ≤ x.val) && decide (x.val ≤ 'z'.val))) := rfl
    simp only [isKeyStart, hAlpha, Bool.or_eq_true, Bool.and_eq_true, decide_eq_true_eq, beq_iff_eq] at h
    rcases h with (⟨hLow, hHigh⟩ | ⟨hLow, hHigh⟩) | rfl
    · have hLow : 65 ≤ x.toNat := UInt32.le_iff_toNat_le.mp hLow
      have hHigh : x.toNat ≤ 90 := UInt32.le_iff_toNat_le.mp hHigh
      omega
    · have hLow : 97 ≤ x.toNat := UInt32.le_iff_toNat_le.mp hLow
      have hHigh : x.toNat ≤ 122 := UInt32.le_iff_toNat_le.mp hHigh
      omega
    · decide
  have hBlank : isBlank x = false := by
    simp only [isBlank, Bool.or_eq_false_iff, Bool.and_eq_false_iff, decide_eq_false_iff_not,
      beq_eq_false_iff_ne]
    omega
  simp [startsSpacing, hBlank, hHash]

/-! ## Attributes -/

def pairText (pair : String × Value) : List Char := Render.entry pair.1 (Render.value pair.2)

theorem entries_eq_map (kind : Option String) (attributes : AttributeMap) :
    Render.entries kind attributes = (writtenPairs kind attributes).map pairText := by
  unfold Render.entries writtenPairs
  rw [List.map_append]
  congr 1
  cases kind with
  | none => rfl
  | some kind => simp [pairText, Render.value]

theorem pair_written {pair : String × Value} (hKey : isIdentifier pair.1 = true) (hValue : FiniteFloats pair.2) :
    Written AttributeTo DeclaredAttribute.pair pairText pair := by
  obtain ⟨key, value⟩ := pair
  intro c d hPasses hEnd
  have hParts : c.Passes (key.toList ++ (['='] ++ Render.value value)) d := hPasses
  obtain ⟨b₁, hWord, hParts⟩ := hParts.split
  obtain ⟨b₂, hEquals, hText⟩ := hParts.split
  obtain ⟨_, rfl, hDerived⟩ := value_written hValue hText hEnd
  have hBefore : b₁.SpacingTo [] b₁ := Cursor.spacingTo_self (hEquals.head (by decide))
  have hBehind : b₂.SpacingTo [] b₂ := Cursor.spacingTo_self hDerived.stops
  exact ⟨_, rfl, .intro (identifier_written hKey hWord (hEquals.head (by decide))) hBefore hEquals hBehind
    hDerived⟩

theorem AttributeTo.stops {item : DeclaredAttribute} (h : AttributeTo item c d) : c.Stops := by
  cases h with
  | intro hKey _ _ _ _ =>
    cases hKey with
    | intro hFirst hLead _ => exact hFirst.head (isKeyStart_stops hLead)

theorem attributes_written {pairs : List (String × Value)}
    (hPairs : ∀ pair ∈ pairs, isIdentifier pair.1 = true ∧ FiniteFloats pair.2)
    (h : c.Passes ('(' :: Render.commaSeparated (pairs.map pairText) ++ [')']) d) :
    ∃ written, written.map DeclaredAttribute.pair = pairs ∧ DelimitedTo "(" ")" AttributeTo written c d := by
  have hList : c.Passes ("(".toList ++ (Render.commaSeparated (pairs.map pairText) ++ ")".toList)) d := h
  have hItems : ∀ pair ∈ pairs, Written AttributeTo DeclaredAttribute.pair pairText pair :=
    fun pair hMem => pair_written (hPairs pair hMem).1 (hPairs pair hMem).2
  exact delimitedTo_written (x := ')') hItems AttributeTo.stops rfl (by decide) (by decide) hList

theorem forall_writtenPairs {P : String × Value → Prop} {kind : Option String} {attributes : AttributeMap}
    (hType : ∀ kind, P (typeKey, .string kind)) (hEntries : ∀ pair ∈ attributes.entries, P pair) :
    ∀ pair ∈ writtenPairs kind attributes, P pair := by
  intro pair hMem
  rcases List.mem_append.mp hMem with hMem | hMem
  · cases kind with
    | none => cases hMem
    | some kind =>
      obtain rfl := List.mem_singleton.mp hMem
      exact hType kind
  · exact hEntries pair hMem

theorem isIdentifier_typeKey : isIdentifier typeKey = true := by decide

theorem AttributeMap.key_mem {attributes : AttributeMap} {pair : String × Value} (h : pair ∈ attributes.entries) :
    pair.1 ∈ attributes.keys :=
  List.mem_map.mpr ⟨pair, h, rfl⟩

theorem writtenPairs_formed {kind : Option String} {attributes : AttributeMap}
    (hKeys : ∀ key ∈ attributes.keys, isIdentifier key = true)
    (hValues : ∀ pair ∈ attributes.entries, FiniteFloats pair.2) :
    ∀ pair ∈ writtenPairs kind attributes, isIdentifier pair.1 = true ∧ FiniteFloats pair.2 :=
  forall_writtenPairs (fun _ => ⟨isIdentifier_typeKey, .string⟩) fun pair hMem =>
    ⟨hKeys pair.1 (AttributeMap.key_mem hMem), hValues pair hMem⟩

/-! ## Commands -/

def headText (name keyword : String) (kind : Option String) (attributes : AttributeMap) : List Char :=
  name.toList ++ ([' '] ++ (keyword.toList ++ ('(' :: Render.commaSeparated (Render.entries kind attributes) ++
    [')'])))

theorem head_written {name keyword : String} {kind : Option String} {attributes : AttributeMap}
    (hName : IsName name) (hKeyword : isIdentifier keyword = true)
    (hKeys : ∀ key ∈ attributes.keys, isIdentifier key = true)
    (hValues : ∀ pair ∈ attributes.entries, FiniteFloats pair.2)
    (h : c.Passes (headText name keyword kind attributes) d) :
    ∃ written, written.map DeclaredAttribute.pair = writtenPairs kind attributes ∧
      HeadTo name keyword written c d := by
  unfold headText at h
  rw [entries_eq_map] at h
  obtain ⟨b₁, hFirst, hParts⟩ := h.split
  obtain ⟨b₂, hSpace, hParts⟩ := hParts.split
  obtain ⟨b₃, hSecond, hList⟩ := hParts.split
  obtain ⟨written, hWritten, hAttributes⟩ := attributes_written (writtenPairs_formed hKeys hValues) hList
  have hOpening : ∀ {p : Char → Bool}, p '(' = false → ∀ y ∈ b₃.rest.head?, p y = false := hList.head
  have hWord := identifier_written hKeyword hSecond (hOpening (by decide))
  have hStops : b₂.Stops := by
    cases hWord with
    | intro hStart hLead _ => exact hStart.head (isKeyStart_stops hLead)
  exact ⟨written, hWritten, .intro (name_written hName hFirst (hSpace.head (by decide)))
    (space_spacingTo hSpace hStops) (List.cons_ne_nil _ _) hWord
    (Cursor.spacingTo_self (hOpening (by decide))) hAttributes⟩

/-- A command without the indentation in front of it and the line end behind it. -/
def commandText (depth : Nat) (name : String) : Node → List Char
  | ⟨keyword, kind, attributes, children, _⟩ =>
    headText name keyword kind attributes ++
      match children with
      | none => []
      | some ⟨[]⟩ => []
      | some ⟨first :: rest⟩ =>
        [' '] ++ (['\x7b'] ++ ('\n' :: (Render.nodes (depth + 1) (first :: rest) ++ Render.indent depth) ++
          ['\x7d']))

theorem nodes_cons (depth : Nat) (name : String) (node : Node) (rest : List (String × Node)) :
    Render.nodes depth ((name, node) :: rest) =
      Render.indent depth ++ (commandText depth name node ++ '\n' :: Render.nodes depth rest) := by
  obtain ⟨keyword, kind, attributes, children, position⟩ := node
  rw [Render.nodes]
  cases children with
  | none => simp [Render.node, commandText, headText]
  | some tree =>
    obtain ⟨nodes⟩ := tree
    cases nodes with
    | nil => simp [Render.node, commandText, headText]
    | cons first others => simp [Render.node, commandText, headText]

theorem lines_cons (depth : Nat) (name : String) (node : Node) (rest : List (String × Node)) (behind : List Char) :
    '\n' :: (Render.nodes depth ((name, node) :: rest) ++ behind) = '\n' :: Render.indent depth ++
      (commandText depth name node ++ '\n' :: (Render.nodes depth rest ++ behind)) := by
  simp [nodes_cons]

/-- The parts of a command with a body: its head, the brackets, and what stands between them. -/
theorem body_passes {name keyword : String} {kind : Option String} {attributes : AttributeMap}
    {position : Option Position} {first : String × Node} {rest : List (String × Node)} {depth : Nat}
    (h : c.Passes (commandText depth name ⟨keyword, kind, attributes, some ⟨first :: rest⟩, position⟩) d) :
    ∃ b₁ b₂ b₃ b₄, c.Passes (headText name keyword kind attributes) b₁ ∧ b₁.Passes [' '] b₂ ∧
      b₂.Passes ['\x7b'] b₃ ∧ b₃.Passes ('\n' :: Render.indent (depth + 1) ++
        (commandText (depth + 1) first.1 first.2 ++
          '\n' :: (Render.nodes (depth + 1) rest ++ Render.indent depth))) b₄ ∧ b₄.Passes ['\x7d'] d := by
  obtain ⟨firstName, firstNode⟩ := first
  rw [commandText, lines_cons] at h
  obtain ⟨b₁, hHead, hParts⟩ := h.split
  obtain ⟨b₂, hSpace, hParts⟩ := hParts.split
  obtain ⟨b₃, hOpening, hParts⟩ := hParts.split
  obtain ⟨b₄, hBody, hClosing⟩ := hParts.split
  exact ⟨b₁, b₂, b₃, b₄, hHead, hSpace, hOpening, hBody, hClosing⟩

theorem spacingRun_blank {s rest : List Char} (hBlank : ∀ x ∈ s, isBlank x = true)
    (hStop : ∀ x ∈ rest.head?, startsSpacing x = false) : SpacingRun s rest := by
  induction s with
  | nil => exact .done hStop
  | cons x s ih =>
    exact .blank (hBlank x List.mem_cons_self) (ih fun y hy => hBlank y (List.mem_cons_of_mem x hy))

theorem isBlank_line (depth : Nat) : ∀ x ∈ '\n' :: Render.indent depth, isBlank x = true := by
  intro x hx
  rcases List.mem_cons.mp hx with rfl | hx
  · decide
  · rw [(List.mem_replicate.mp hx).2]
    decide

/-- What is written for the command derives a declaration that says the same. -/
def CommandWritten (entry : String × Node) : Prop :=
  ∀ {c d : Cursor} {depth : Nat}, c.Passes (commandText depth entry.1 entry.2) d →
    ∃ declaration, CommandTo declaration c d ∧ Says declaration entry

theorem tail_written {nodes : List (String × Node)} {depth above : Nat}
    (hEach : ∀ entry ∈ nodes, CommandWritten entry)
    (h : c.Passes ('\n' :: (Render.nodes depth nodes ++ Render.indent above)) d) (hStops : d.Stops) :
    ∃ declarations, TailTo declarations c d ∧ SaysAll declarations nodes := by
  induction nodes generalizing c with
  | nil =>
    have hRun : c.SpacingTo ('\n' :: Render.indent above) d :=
      ⟨h, spacingRun_blank (isBlank_line above) hStops⟩
    exact ⟨[], .separator (.line hRun List.mem_cons_self), .nil⟩
  | cons entry nodes ih =>
    obtain ⟨name, node⟩ := entry
    rw [lines_cons] at h
    obtain ⟨b₁, hLine, hParts⟩ := h.split
    obtain ⟨b₂, hFirst, hRest⟩ := hParts.split
    obtain ⟨declaration, hCommand, hSays⟩ := hEach (name, node) List.mem_cons_self hFirst
    obtain ⟨declarations, hTail, hAll⟩ := ih (fun entry hMem => hEach entry (List.mem_cons_of_mem _ hMem)) hRest
    have hRun : c.SpacingTo ('\n' :: Render.indent depth) b₁ :=
      ⟨hLine, spacingRun_blank (isBlank_line depth) hCommand.stops⟩
    exact ⟨declaration :: declarations, .next (.line hRun List.mem_cons_self) hCommand hTail, .cons hSays hAll⟩

theorem scope_written {name : String} {node : Node} {rest : List (String × Node)} {depth above : Nat}
    {lead : List Char} (hEach : ∀ entry ∈ (name, node) :: rest, CommandWritten entry)
    (hLead : ∀ x ∈ lead, isBlank x = true)
    (h : c.Passes (lead ++ (commandText depth name node ++
      '\n' :: (Render.nodes depth rest ++ Render.indent above))) d) (hStops : d.Stops) :
    ∃ declarations, ScopeTo declarations c d ∧ SaysAll declarations ((name, node) :: rest) := by
  obtain ⟨b₁, hLine, hParts⟩ := h.split
  obtain ⟨b₂, hFirst, hRest⟩ := hParts.split
  obtain ⟨declaration, hCommand, hSays⟩ := hEach (name, node) List.mem_cons_self hFirst
  obtain ⟨declarations, hTail, hAll⟩ :=
    tail_written (fun entry hMem => hEach entry (List.mem_cons_of_mem _ hMem)) hRest hStops
  have hRun : c.SpacingTo lead b₁ := ⟨hLine, spacingRun_blank hLead hCommand.stops⟩
  exact ⟨declaration :: declarations, .intro hRun hCommand hTail, .cons hSays hAll⟩

theorem CommandFormed.written {entry : String × Node} (h : CommandFormed entry) : CommandWritten entry := by
  induction h with
  | @intro name keyword kind attributes children position hName hKeyword hKeys hValues hSome _ _ ih =>
    intro c d depth hPasses
    have hHead : ∀ {c d : Cursor}, c.Passes (headText name keyword kind attributes) d → _ :=
      fun h => head_written hName hKeyword (fun key hKey => (hKeys key hKey).1) hValues h
    cases children with
    | none =>
      rw [commandText, List.append_nil] at hPasses
      obtain ⟨written, hWritten, hDerived⟩ := hHead hPasses
      exact ⟨_, .bare hDerived, .bare hWritten⟩
    | some tree =>
      obtain ⟨nodes⟩ := tree
      cases nodes with
      | nil => exact absurd rfl (hSome [] rfl)
      | cons first rest =>
        obtain ⟨b₁, b₂, b₃, b₄, hFirst, hSpace, hOpening, hBody, hClosing⟩ := body_passes hPasses
        obtain ⟨written, hWritten, hDerived⟩ := hHead hFirst
        obtain ⟨declarations, hScope, hAll⟩ :=
          scope_written (ih _ rfl) (isBlank_line (depth + 1)) hBody (hClosing.head (by decide))
        have hRun := space_spacingTo hSpace (hOpening.head (by decide))
        exact ⟨_, .body hDerived hRun hOpening hScope hClosing, .body hWritten hAll⟩

/-! ## The header -/

theorem header_written {lines : List Char} (h : c.Passes ("version 1".toList ++ '\n' :: lines) d)
    (hLines : ∀ x ∈ lines, isBlank x = true) (hStops : d.Stops) : HeaderTo c d := by
  have hParts : c.Passes ("version".toList ++ ([' '] ++ (['1'] ++ '\n' :: lines))) d := h
  obtain ⟨b₁, hWord, hParts⟩ := hParts.split
  obtain ⟨b₂, hSpace, hParts⟩ := hParts.split
  obtain ⟨b₃, hDigit, hRest⟩ := hParts.split
  have hRun := Cursor.passesRun_digits hDigit ⟨List.cons_ne_nil _ _, by simp⟩ (hRest.head (by decide))
  have hVersion : NaturalTo supportedVersion b₂ b₃ := .intro hRun (List.cons_ne_nil _ _) (by decide)
  have hBlank : ∀ x ∈ '\n' :: lines, isBlank x = true := by
    intro x hx
    rcases List.mem_cons.mp hx with rfl | hx
    · exact isBlank_newline
    · exact hLines x hx
  exact .intro (.inl rfl) hWord (space_spacingTo hSpace (hDigit.head (by decide))) (List.cons_ne_nil _ _)
    hVersion ⟨hRest, spacingRun_blank hBlank hStops⟩ (.inr rfl) (Cursor.spacingTo_self hStops)

end DialogTree
