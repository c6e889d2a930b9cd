import DialogTree.Proofs.Naming.Readers
import DialogTree.Proofs.Places.Positions
import DialogTree.Proofs.Reports
import DialogTree.Proofs.Tree.PreOrder

/-!
# Commands in their places

The position of a command that is read from a text is where its name begins in the text. So the commands of
the tree, each before the commands below it and those before its later siblings, come in the order of the text.
-/

namespace DialogTree

/-! ## Places of commands -/

/-- The position behind a beginning of a source. -/
structure Position.IsBehind (position : Position) (before : String) : Prop where
  offset : position.offset = before.utf8ByteSize
  line : position.line = 1 + before.toList.count '\n'
  column : position.column = 1 + (before.toList.reverse.takeWhile (· ≠ '\n')).length

/-- At the position the source has the name, then spacing, and then the keyword, which no further character of
a keyword follows. -/
def Position.Announces (source : String) (position : Position) (name keyword : String) : Prop :=
  ∃ before spacing behind : String, source = before ++ name ++ spacing ++ keyword ++ behind ∧
    position.IsBehind before ∧ spacing ≠ "" ∧ SpacingRun spacing.toList (keyword ++ behind).toList ∧
    ∀ x ∈ behind.toList.head?, isKeyChar x = false

def Node.Precedes (a b : Node) : Prop :=
  ∃ p q : Position, a.position = some p ∧ b.position = some q ∧ p.offset < q.offset

/-- The commands of a tree where the source has them. -/
structure Tree.TracedIn (source : String) (tree : Tree) : Prop where
  announced : ∀ names node, (names, node) ∈ tree.commands → ∃ name position,
    names.getLast? = some name ∧ node.position = some position ∧ position.Announces source name node.keyword
  ordered : tree.commands.Pairwise fun a b => a.2.Precedes b.2
  siblings : tree.nodes.Pairwise fun a b => a.2.Precedes b.2
  below : ∀ names node children, (names, node) ∈ tree.commands → node.children = some children →
    children.nodes.Pairwise fun a b => a.2.Precedes b.2

/-! ## Cursors behind one another -/

variable {source : String} {c d : Cursor}

theorem Cursor.Reaches.isBehind (h : (Cursor.ofText source).Reaches c) : ∃ before : String,
    source = before ++ .ofList c.rest ∧ c.position.IsBehind before := by
  obtain ⟨before, hSource, hPosition, hOffset⟩ := h.exists_before
  refine ⟨before, hSource, hOffset, ?_, ?_⟩
  · rw [hPosition, Position.line_after]
    rfl
  · rw [hPosition]
    exact Position.column_after_start before.toList

theorem Cursor.Reaches.offset_le (h : c.Reaches d) : c.offset ≤ d.offset := by
  obtain ⟨passed, -, hPosition⟩ := h
  rw [offset, offset, hPosition, Position.offset_after]
  exact Nat.le_add_right _ _

theorem WordTo.passes {lead body : Char → Bool} {word : String} (h : WordTo lead body word c d) :
    c.Passes word.toList d := by
  cases h with
  | intro hFirst _ hRun =>
    rw [String.toList_ofList]
    exact hFirst.trans hRun.passes

theorem WordTo.stops {lead body : Char → Bool} {word : String} (h : WordTo lead body word c d) :
    ∀ x ∈ d.rest.head?, body x = false := by
  cases h with
  | intro _ _ hRun => exact hRun.stops

theorem WordTo.offset_lt {lead body : Char → Bool} {word : String} (h : WordTo lead body word c d) :
    c.offset < d.offset := by
  cases h with
  | @intro _ b _ x _ hFirst _ hRun =>
    have hLast : b.offset ≤ d.offset := hRun.passes.reaches.offset_le
    have hStep : b.offset = c.offset + x.utf8Size := by
      rw [Cursor.offset, hFirst.2]
      exact Position.offset_step c.position x
    have hSize : 0 < x.utf8Size := x.utf8Size_pos
    omega

/-! ## Derivations -/

variable {name keyword : String} {attributes : List DeclaredAttribute}

theorem HeadTo.reaches (h : HeadTo name keyword attributes c d) : c.Reaches d := by
  cases h with
  | intro hName hSpacing _ hKeyword hBefore hAttributes =>
    exact hName.reaches.trans (hSpacing.reaches.trans (hKeyword.reaches.trans (hBefore.reaches.trans
      (hAttributes.reaches fun _ _ _ _ hItem => hItem.reaches))))

theorem HeadTo.offset_lt (h : HeadTo name keyword attributes c d) : c.offset < d.offset := by
  cases h with
  | intro hName hSpacing _ hKeyword hBefore hAttributes =>
    refine Nat.lt_of_lt_of_le hName.offset_lt (Cursor.Reaches.offset_le ?_)
    exact hSpacing.reaches.trans (hKeyword.reaches.trans (hBefore.reaches.trans
      (hAttributes.reaches fun _ _ _ _ hItem => hItem.reaches)))

theorem HeadTo.announces (hc : (Cursor.ofText source).Reaches c) (h : HeadTo name keyword attributes c d) :
    c.position.Announces source name keyword := by
  obtain ⟨before, hSource, hBehind⟩ := hc.isBehind
  cases h with
  | @intro _ b₁ b₂ b₃ _ _ s _ _ _ _ hName hSpacing hRequired hKeyword _ _ =>
    have hText : c.rest = name.toList ++ (s ++ (keyword.toList ++ b₃.rest)) := by
      rw [hName.passes.1, hSpacing.passes.1, hKeyword.passes.1]
    refine ⟨before, .ofList s, .ofList b₃.rest, ?_, hBehind, ?_, ?_, ?_⟩
    · rw [hSource, hText]
      simp only [String.ofList_append, String.ofList_toList, String.append_assoc]
    · intro hNone
      exact hRequired (by simpa using congrArg String.toList hNone)
    · rw [String.toList_ofList, String.toList_append, String.toList_ofList, ← hKeyword.passes.1]
      exact hSpacing.run
    · rw [String.toList_ofList]
      exact hKeyword.stops

mutual

theorem CommandTo.reaches {declaration : Declaration} {c d : Cursor} :
    CommandTo declaration c d → c.Reaches d
  | .bare hHead => hHead.reaches
  | .body hHead hSpacing hOpening hBody hClosing =>
    hHead.reaches.trans (hSpacing.reaches.trans (hOpening.reaches.trans (hBody.reaches.trans hClosing.reaches)))

theorem ScopeTo.reaches {declarations : List Declaration} {c d : Cursor} :
    ScopeTo declarations c d → c.Reaches d
  | .intro hSpacing hFirst hRest => hSpacing.reaches.trans (hFirst.reaches.trans hRest.reaches)

theorem TailTo.reaches {declarations : List Declaration} {c d : Cursor} :
    TailTo declarations c d → c.Reaches d
  | .next hSeparator hCommand hRest => hSeparator.reaches.trans (hCommand.reaches.trans hRest.reaches)
  | .separator hSeparator => hSeparator.reaches
  | .spacing hSpacing => hSpacing.reaches

end

/-! ## Commands between two offsets -/

/-- Commands that the source has from one offset up to another, in its order. -/
structure TracedBetween (source : String) (first last : Nat) (commands : List (List String × Node)) : Prop where
  announced : ∀ command ∈ commands, ∃ name position, command.1.getLast? = some name ∧
    command.2.position = some position ∧ position.Announces source name command.2.keyword ∧
    first ≤ position.offset ∧ position.offset < last
  ordered : commands.Pairwise fun a b => a.2.Precedes b.2

variable {first middle last : Nat} {commands others : List (List String × Node)}

theorem TracedBetween.nil : TracedBetween source first last [] where
  announced _ hMem := absurd hMem List.not_mem_nil
  ordered := .nil

theorem TracedBetween.mono {lower upper : Nat} (h : TracedBetween source first last commands)
    (hFirst : lower ≤ first) (hLast : last ≤ upper) : TracedBetween source lower upper commands where
  announced command hMem := by
    obtain ⟨name, position, hName, hPosition, hAnnounces, hLower, hUpper⟩ := h.announced command hMem
    exact ⟨name, position, hName, hPosition, hAnnounces, Nat.le_trans hFirst hLower, Nat.lt_of_lt_of_le hUpper hLast⟩
  ordered := h.ordered

theorem TracedBetween.append (hLeft : TracedBetween source first middle commands)
    (hRight : TracedBetween source middle last others) (hFirst : first ≤ middle) (hLast : middle ≤ last) :
    TracedBetween source first last (commands ++ others) where
  announced command hMem := by
    rcases List.mem_append.mp hMem with hMem | hMem
    · exact (hLeft.mono (Nat.le_refl _) hLast).announced command hMem
    · exact (hRight.mono hFirst (Nat.le_refl _)).announced command hMem
  ordered := by
    refine List.pairwise_append.mpr ⟨hLeft.ordered, hRight.ordered, fun a ha b hb => ?_⟩
    obtain ⟨-, p, -, hp, -, -, hBelow⟩ := hLeft.announced a ha
    obtain ⟨-, q, -, hq, -, hAbove, -⟩ := hRight.announced b hb
    exact ⟨p, q, hp, hq, Nat.lt_of_lt_of_le hBelow hAbove⟩

theorem TracedBetween.cons {names : List String} {node : Node} (hNames : names.getLast? = some name)
    (hPosition : node.position = some c.position) (hAnnounces : c.position.Announces source name node.keyword)
    (hLess : c.offset < middle) (hBehind : TracedBetween source middle last commands) (hLast : middle ≤ last) :
    TracedBetween source c.offset last ((names, node) :: commands) := by
  have hOne : TracedBetween source c.offset middle [(names, node)] := by
    refine ⟨fun command hMem => ?_, List.pairwise_singleton _ _⟩
    obtain rfl := List.mem_singleton.mp hMem
    exact ⟨name, c.position, hNames, hPosition, hAnnounces, Nat.le_refl _, hLess⟩
  exact hOne.append hBehind (Nat.le_of_lt hLess) hLast

/-! ## Commands of a tree -/

theorem commandsOf_cons (above : List String) (entry : String × Node) (nodes : List (String × Node)) :
    commandsOf above (entry :: nodes) =
      ((above ++ [entry.1], entry.2) :: entry.2.commandsBelow (above ++ [entry.1])) ++ commandsOf above nodes := rfl

mutual

/-- A command that is declared between two cursors, and all below it, has its place between them. -/
theorem CommandTo.traced {declaration : Declaration} {c d : Cursor} (hc : (Cursor.ofText source).Reaches c) :
    CommandTo declaration c d → ∀ {entry : String × Node}, Builds declaration entry → ∀ above : List String,
      TracedBetween source c.offset d.offset
        ((above ++ [entry.1], entry.2) :: entry.2.commandsBelow (above ++ [entry.1]))
  | .bare hHead, _, .bare _ _ _, above =>
    .cons List.getLast?_concat rfl (hHead.announces hc) hHead.offset_lt .nil (Nat.le_refl _)
  | .body hHead hSpacing hOpening hBody hClosing, _, .body _ _ _ hBelow _, above => by
    have hToBody := hSpacing.reaches.trans hOpening.reaches
    have hInner := hBody.traced (hc.trans (hHead.reaches.trans hToBody)) hBelow
    exact .cons List.getLast?_concat rfl (hHead.announces hc)
      (Nat.lt_of_lt_of_le hHead.offset_lt hToBody.offset_le)
      ((hInner _).mono (Nat.le_refl _) hClosing.reaches.offset_le) (hBody.reaches.trans hClosing.reaches).offset_le

theorem ScopeTo.traced {declarations : List Declaration} {c d : Cursor} (hc : (Cursor.ofText source).Reaches c) :
    ScopeTo declarations c d → ∀ {nodes : List (String × Node)}, List.Forall₂ Builds declarations nodes →
      ∀ above : List String, TracedBetween source c.offset d.offset (commandsOf above nodes)
  | .intro hSpacing hFirst hRest, _, .cons hNode hNodes, above => by
    have hOne := (hFirst.traced (hc.trans hSpacing.reaches) hNode above).mono hSpacing.reaches.offset_le
      (Nat.le_refl _)
    have hOthers := hRest.traced (hc.trans (hSpacing.reaches.trans hFirst.reaches)) hNodes above
    rw [commandsOf_cons]
    exact hOne.append hOthers (hSpacing.reaches.trans hFirst.reaches).offset_le hRest.reaches.offset_le

theorem TailTo.traced {declarations : List Declaration} {c d : Cursor} (hc : (Cursor.ofText source).Reaches c) :
    TailTo declarations c d → ∀ {nodes : List (String × Node)}, List.Forall₂ Builds declarations nodes →
      ∀ above : List String, TracedBetween source c.offset d.offset (commandsOf above nodes)
  | .next hSeparator hCommand hRest, _, .cons hNode hNodes, above => by
    have hOne := (hCommand.traced (hc.trans hSeparator.reaches) hNode above).mono hSeparator.reaches.offset_le
      (Nat.le_refl _)
    have hOthers := hRest.traced (hc.trans (hSeparator.reaches.trans hCommand.reaches)) hNodes above
    rw [commandsOf_cons]
    exact hOne.append hOthers (hSeparator.reaches.trans hCommand.reaches).offset_le hRest.reaches.offset_le
  | .separator _, _, .nil, _ => .nil
  | .spacing _, _, .nil, _ => .nil

end

theorem NaturalTo.reaches {n : Nat} (h : NaturalTo n c d) : c.Reaches d := by
  cases h with
  | intro hRun _ _ => exact hRun.passes.reaches

theorem HeaderTo.reaches (h : HeaderTo c d) : c.Reaches d := by
  cases h with
  | intro _ hPasses hSpacing _ hVersion hBefore hSemicolon hBehind =>
    exact hPasses.reaches.trans (hSpacing.reaches.trans (hVersion.reaches.trans (hBefore.reaches.trans
      ((optional_comma_reaches hSemicolon).trans hBehind.reaches))))

theorem Derives.traced {declarations : List Declaration} {nodes : List (String × Node)}
    (h : Derives source declarations) (hBuilds : List.Forall₂ Builds declarations nodes) :
    ∃ last, TracedBetween source 0 last (commandsOf [] nodes) := by
  cases h with
  | intro hSpacing hHeader hScope _ =>
    have hTraced := hScope.traced (hSpacing.reaches.trans hHeader.reaches) hBuilds []
    exact ⟨_, hTraced.mono (Nat.zero_le _) (Nat.le_refl _)⟩

/-! ## Scopes in pre-order -/

theorem entries_sublist (above : List String) (nodes : List (String × Node)) :
    (nodes.map fun entry => (above ++ [entry.1], entry.2)).Sublist (commandsOf above nodes) := by
  induction nodes with
  | nil => exact .slnil
  | cons entry rest ih =>
    rw [List.map_cons, commandsOf_cons, List.cons_append]
    exact (ih.trans (List.sublist_append_right _ _)).cons_cons _

theorem commandsBelow_sublist {above : List String} {entry : String × Node} {nodes : List (String × Node)}
    (hMem : entry ∈ nodes) : (entry.2.commandsBelow (above ++ [entry.1])).Sublist (commandsOf above nodes) := by
  induction nodes with
  | nil => cases hMem
  | cons other rest ih =>
    rw [commandsOf_cons, List.cons_append]
    rcases List.mem_cons.mp hMem with rfl | hMem
    · exact (List.sublist_append_left _ _).cons _
    · exact ((ih hMem).trans (List.sublist_append_right _ _)).cons _

theorem commandsBelow_eq {node : Node} {children : Tree} (h : node.children = some children) (above : List String) :
    node.commandsBelow above = commandsOf above children.nodes := by
  obtain ⟨nodes⟩ := children
  cases node
  cases h
  rfl

theorem commands_eq (tree : Tree) : tree.commands = commandsOf [] tree.nodes := by
  obtain ⟨nodes⟩ := tree
  rfl

theorem CommandAt.sublist {tree : Tree} {names : List String} {node : Node} (h : CommandAt tree names node) :
    ∀ above : List String, (node.commandsBelow (above ++ names)).Sublist (commandsOf above tree.nodes) := by
  induction h with
  | top hMem => exact fun _ => commandsBelow_sublist hMem
  | @inner _ _ name names _ _ hMem hChildren _ ih =>
    intro above
    have hInner := ih (above ++ [name])
    rw [List.append_assoc, List.singleton_append, ← commandsBelow_eq hChildren] at hInner
    exact hInner.trans (commandsBelow_sublist hMem)

theorem pairwise_siblings {above : List String} {nodes : List (String × Node)}
    (h : (commandsOf above nodes).Pairwise fun a b => a.2.Precedes b.2) :
    nodes.Pairwise fun a b => a.2.Precedes b.2 := by
  have hEntries := h.sublist (entries_sublist above nodes)
  rwa [List.pairwise_map] at hEntries

/-! ## Documents -/

/-- The commands of a tree that a text is read as are where the text has them. -/
theorem readText_traced {document : String} {tree : Tree} (h : readText source document = .ok tree) :
    tree.TracedIn source := by
  obtain ⟨declarations, hDerives, hTree⟩ := readText_ok h
  obtain ⟨hBuilds, -⟩ := canonicalize_ok_iff.mp hTree
  obtain ⟨last, hTraced⟩ := hDerives.traced hBuilds
  refine ⟨fun names node hMem => ?_, ?_, pairwise_siblings hTraced.ordered, ?_⟩
  · rw [commands_eq] at hMem
    obtain ⟨name, position, hName, hPosition, hAnnounces, -, -⟩ := hTraced.announced _ hMem
    exact ⟨name, position, hName, hPosition, hAnnounces⟩
  · rw [commands_eq]
    exact hTraced.ordered
  · intro names node children hMem hChildren
    have hBelow := (mem_commands_iff.mp hMem).sublist []
    rw [commandsBelow_eq hChildren] at hBelow
    exact pairwise_siblings (hTraced.ordered.sublist hBelow)

/-- Four commands on two levels, with a comment between a name and its keyword and letters of more than one
byte in front. -/
def commentedText : List Char :=
  "v 1 # größe\n1st # one\n dialog() \x7b a action(); b action() \x7d\n2 link()".toList

theorem readText_traced_commented : ∃ tree, readText (.ofList commentedText) "commented" = .ok tree ∧
    tree.commands.length = 4 ∧ tree.TracedIn (.ofList commentedText) := by
  have hRead : ((readText (.ofList commentedText) "commented").toOption.map fun tree => tree.commands.length) =
      some 4 := by
    rw [readText_ofList]
    decide +kernel
  cases hResult : readText (.ofList commentedText) "commented" with
  | error diagnostics =>
    rw [hResult] at hRead
    cases hRead
  | ok tree =>
    rw [hResult] at hRead
    exact ⟨tree, rfl, Option.some.inj hRead, readText_traced hResult⟩

end DialogTree
