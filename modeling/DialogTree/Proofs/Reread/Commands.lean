import DialogTree.Proofs.Acceptance
import DialogTree.Proofs.Naming.Declarations
import DialogTree.Proofs.Reread.Values

/-!
# Reading written commands again

The text of named commands derives only when all their numbers are finite. Behind a command its text goes on
with the end of the line, so that the place where a derivation may end is fixed, and with it what is derived
from the commands behind.
-/

namespace DialogTree

open Grammar

variable {c d e : Cursor}

/-! ## The first line of a command -/

theorem HeadTo.unique {name keyword other word : String} {attributes items : List DeclaredAttribute}
    (h : HeadTo name keyword attributes c d) (hOther : HeadTo other word items c e) : d = e := by
  obtain ⟨y, hRead, -⟩ := h.yields .empty
  obtain ⟨z, hAgain, -⟩ := hOther.yields .empty
  rw [hRead] at hAgain
  cases hAgain
  rfl

theorem head_rereads {name keyword other word : String} {kind : Option String} {attributes : AttributeMap}
    {written : List DeclaredAttribute} (hName : IsName name) (hKeyword : isIdentifier keyword = true)
    (hKeys : ∀ key ∈ attributes.keys, isIdentifier key = true)
    (h : c.Passes (headText name keyword kind attributes) d) (hHead : HeadTo other word written c e) :
    (∀ pair ∈ attributes.entries, FiniteFloats pair.2) ∧ e = d := by
  have hParts := h
  unfold headText at hParts
  rw [entries_eq_map] at hParts
  obtain ⟨b₁, hFirst, hParts⟩ := hParts.split
  obtain ⟨b₂, hSpace, hParts⟩ := hParts.split
  obtain ⟨b₃, hSecond, hParts⟩ := hParts.split
  have hList : b₃.Passes ("(".toList ++ (Render.commaSeparated ((writtenPairs kind attributes).map pairText) ++
      ")".toList)) d := hParts
  have hStart := name_written hName hFirst (hSpace.head (by decide))
  obtain ⟨x, rest, hWord, hLead⟩ := identifier_head hKeyword
  have hStops : b₂.Stops := by
    rw [hWord] at hSecond
    exact hSecond.head (isKeyStart_stops hLead)
  have hWritten := identifier_written hKeyword hSecond (hParts.head (by decide))
  have hBracket : b₃.Stops := hParts.head (by decide)
  -- The name and the keyword are found where they are written, so that the attributes begin at the same bracket.
  have hFinite : ∀ pair ∈ attributes.entries, FiniteFloats pair.2 := by
    cases hHead with
    | intro hFound hSpacing _ hFoundWord hBefore hAttributes =>
      obtain rfl := hFound.unique hStart
      obtain rfl := hSpacing.unique (space_spacingTo hSpace hStops)
      obtain rfl := hFoundWord.unique hWritten
      obtain rfl := hBefore.stays hBracket
      have hPairs : ∀ pair ∈ writtenPairs kind attributes, isIdentifier pair.1 = true :=
        forall_writtenPairs (fun _ => isIdentifier_typeKey) fun pair hMem =>
          hKeys pair.1 (AttributeMap.key_mem hMem)
      have hAll := delimitedTo_rereads (x := ')') closes_attribute
        (fun pair hMem => pair_rereads (hPairs pair hMem)) (fun pair hMem => pair_begins (hPairs pair hMem)) rfl
        (by decide) hList hAttributes
      exact fun pair hMem => hAll pair (List.mem_append_right _ hMem)
  obtain ⟨_, -, hDerived⟩ := head_written hName hKeyword hKeys hFinite h
  exact ⟨hFinite, hHead.unique hDerived⟩

/-! ## Commands -/

theorem command_head {name : String} {node : Node} {depth : Nat} (hName : IsName name)
    (h : c.Passes (commandText depth name node) d) : c.AtName := by
  obtain ⟨keyword, kind, attributes, children, position⟩ := node
  cases hList : name.toList with
  | nil => exact absurd (String.toList_eq_nil_iff.mp hList) hName.some
  | cons x rest =>
    have hAll := hName.all
    rw [hList] at hAll
    simp only [commandText, headText, hList] at h
    exact ⟨x, _, h.1, hAll x List.mem_cons_self⟩

/-- Whatever derives from the text of the command, in front of no body and with a scope that goes on to its
end behind it, ends with that text, and the command has finite numbers only. -/
def CommandRereads (entry : String × Node) : Prop :=
  ∀ {c d e f : Cursor} {depth : Nat} {declaration : Declaration} {rest : List Declaration} {inBody : Bool},
    c.Passes (commandText depth entry.1 entry.2) d → (∀ b, ¬ d.skipSpacing.Passes ['\x7b'] b) →
      CommandTo declaration c e → TailTo rest e f → atEnd inBody f = true → CommandFormed entry ∧ e = d

theorem line_spacingTo {depth : Nat} (h : c.Passes ('\n' :: Render.indent depth) d) (hStops : d.Stops) :
    c.SpacingTo ('\n' :: Render.indent depth) d :=
  ⟨h, spacingRun_blank (isBlank_line depth) hStops⟩

theorem atEnd_stops {inBody : Bool} (h : atEnd inBody c = true) : c.Stops := by
  intro x hx
  cases hRest : c.rest with
  | nil => simp [hRest] at hx
  | cons y rest =>
    obtain rfl : y = x := by simpa [hRest] using hx
    have hBrace : inBody = true ∧ y = '\x7d' := by
      simpa [atEnd, Cursor.isEmpty, Cursor.peek?, hRest] using h
    rw [hBrace.2]
    decide

/-- The commands behind a line end begin with a name, and where there are none the scope ends. -/
theorem lines_not_brace {nodes : List (String × Node)} {depth above : Nat} {inBody : Bool}
    (hNames : ∀ entry ∈ nodes, IsName entry.1)
    (h : c.Passes ('\n' :: (Render.nodes depth nodes ++ Render.indent above)) d) (hEnd : atEnd inBody d = true)
    (b : Cursor) : ¬ c.skipSpacing.Passes ['\x7b'] b := by
  cases nodes with
  | nil =>
    rw [← (line_spacingTo h (atEnd_stops hEnd)).eq]
    exact atEnd_not_passes hEnd (by decide) b
  | cons entry nodes =>
    obtain ⟨name, node⟩ := entry
    rw [lines_cons] at h
    obtain ⟨b₁, hLine, hParts⟩ := h.split
    obtain ⟨b₂, hFirst, -⟩ := hParts.split
    have hHead := command_head (hNames (name, node) List.mem_cons_self) hFirst
    rw [← (line_spacingTo hLine hHead.stops).eq]
    exact hHead.not_passes (by decide) b

theorem SeparatorTo.unique {s : List Char} (h : SeparatorTo c d) (hSpacing : c.SpacingTo s e)
    (hMark : ∀ b, ¬ e.Passes [';'] b) : d = e := by
  cases h with
  | semicolon hBefore hSemicolon _ =>
    obtain rfl := hBefore.unique hSpacing
    exact absurd hSemicolon (hMark _)
  | line hFound _ => exact hFound.unique hSpacing

theorem tail_rereads {nodes : List (String × Node)} {rest : List Declaration} {depth above : Nat}
    {inBody inOther : Bool} (hNames : ∀ entry ∈ nodes, IsName entry.1)
    (hEach : ∀ entry ∈ nodes, CommandRereads entry)
    (h : c.Passes ('\n' :: (Render.nodes depth nodes ++ Render.indent above)) d) (hEnd : atEnd inBody d = true)
    (hTail : TailTo rest c e) (hLast : atEnd inOther e = true) :
    (∀ entry ∈ nodes, CommandFormed entry) ∧ e = d := by
  induction nodes generalizing c rest with
  | nil =>
    have hRun := line_spacingTo h (atEnd_stops hEnd)
    have hMark := fun b => atEnd_not_passes hEnd (by decide : (';' : Char) ≠ '\x7d') b
    refine ⟨by simp, ?_⟩
    cases hTail with
    | next hSeparator hCommand _ =>
      obtain rfl := hSeparator.unique hRun hMark
      exact absurd hEnd (hCommand.not_atEnd inBody)
    | separator hSeparator => exact hSeparator.unique hRun hMark
    | spacing hSpacing => exact hSpacing.unique hRun
  | cons entry nodes ih =>
    obtain ⟨name, node⟩ := entry
    rw [lines_cons] at h
    obtain ⟨b₁, hLine, hParts⟩ := h.split
    obtain ⟨b₂, hFirst, hRest⟩ := hParts.split
    have hHead := command_head (hNames (name, node) List.mem_cons_self) hFirst
    have hRun := line_spacingTo hLine hHead.stops
    have hMark := fun b => hHead.not_passes (by decide : isNameChar ';' = false) b
    have hOthers := fun entry hMem => hNames entry (List.mem_cons_of_mem (name, node) hMem)
    cases hTail with
    | next hSeparator hCommand hMore =>
      -- The derived command begins at the written one, so that it also ends there.
      obtain rfl := hSeparator.unique hRun hMark
      obtain ⟨hFormed, rfl⟩ := hEach (name, node) List.mem_cons_self hFirst (lines_not_brace hOthers hRest hEnd)
        hCommand hMore hLast
      obtain ⟨hAll, rfl⟩ := ih hOthers (fun entry hMem => hEach entry (List.mem_cons_of_mem _ hMem)) hRest hMore
      rw [List.forall_mem_cons]
      exact ⟨⟨hFormed, hAll⟩, rfl⟩
    | separator hSeparator =>
      obtain rfl := hSeparator.unique hRun hMark
      exact absurd hLast (hHead.not_atEnd inOther)
    | spacing hSpacing =>
      obtain rfl := hSpacing.unique hRun
      exact absurd hLast (hHead.not_atEnd inOther)

theorem scope_rereads {name : String} {node : Node} {rest : List (String × Node)}
    {declarations : List Declaration} {depth above : Nat} {lead : List Char} {inBody inOther : Bool}
    (hNames : ∀ entry ∈ (name, node) :: rest, IsName entry.1)
    (hEach : ∀ entry ∈ (name, node) :: rest, CommandRereads entry) (hLead : ∀ x ∈ lead, isBlank x = true)
    (h : c.Passes (lead ++ (commandText depth name node ++
      '\n' :: (Render.nodes depth rest ++ Render.indent above))) d) (hEnd : atEnd inBody d = true)
    (hScope : ScopeTo declarations c e) (hLast : atEnd inOther e = true) :
    (∀ entry ∈ (name, node) :: rest, CommandFormed entry) ∧ e = d := by
  obtain ⟨b₁, hLine, hParts⟩ := h.split
  obtain ⟨b₂, hFirst, hRest⟩ := hParts.split
  have hHead := command_head (hNames (name, node) List.mem_cons_self) hFirst
  have hRun : c.SpacingTo lead b₁ := ⟨hLine, spacingRun_blank hLead hHead.stops⟩
  have hOthers := fun entry hMem => hNames entry (List.mem_cons_of_mem (name, node) hMem)
  cases hScope with
  | intro hSpacing hCommand hMore =>
    obtain rfl := hSpacing.unique hRun
    obtain ⟨hFormed, rfl⟩ := hEach (name, node) List.mem_cons_self hFirst (lines_not_brace hOthers hRest hEnd)
      hCommand hMore hLast
    obtain ⟨hAll, rfl⟩ := tail_rereads hOthers (fun entry hMem => hEach entry (List.mem_cons_of_mem _ hMem)) hRest
      hEnd hMore hLast
    rw [List.forall_mem_cons]
    exact ⟨⟨hFormed, hAll⟩, rfl⟩

theorem CommandNamed.name {entry : String × Node} (h : CommandNamed entry) : IsName entry.1 := by
  cases h with
  | intro hName _ _ _ _ _ _ => exact hName

theorem CommandNamed.rereads {entry : String × Node} (h : CommandNamed entry) : CommandRereads entry := by
  induction h with
  | @intro name keyword kind attributes children position hName hKeyword hKeys _ hSome hDistinct hBelow ih =>
    intro c d e f depth declaration rest inBody hPasses hBare hCommand hTail hEnd
    have hHead : ∀ {b g other word written}, c.Passes (headText name keyword kind attributes) b →
        HeadTo other word written c g → (∀ pair ∈ attributes.entries, FiniteFloats pair.2) ∧ g = b :=
      fun h hHead => head_rereads hName hKeyword (fun key hKey => (hKeys key hKey).1) h hHead
    cases children with
    | none =>
      rw [commandText, List.append_nil] at hPasses
      cases hCommand with
      | bare hFound =>
        obtain ⟨hFinite, rfl⟩ := hHead hPasses hFound
        exact ⟨.intro hName hKeyword hKeys hFinite (fun _ h => by cases h) (fun _ h => by cases h)
          (fun _ h => by cases h), rfl⟩
      | body hFound hSpacing hOpening _ _ =>
        obtain ⟨-, rfl⟩ := hHead hPasses hFound
        rw [hSpacing.eq] at hOpening
        exact absurd hOpening (hBare _)
    | some tree =>
      obtain ⟨nodes⟩ := tree
      cases nodes with
      | nil => exact absurd rfl (hSome [] rfl)
      | cons first others =>
        obtain ⟨b₁, b₂, b₃, b₄, hFirst, hSpace, hBrace, hBody, hClosed⟩ := body_passes hPasses
        have hRun := space_spacingTo hSpace (hBrace.head (by decide))
        cases hCommand with
        | bare hFound =>
          -- The bracket would be left to the scope, which goes on with a name or ends.
          obtain ⟨-, rfl⟩ := hHead hFirst hFound
          rw [hRun.eq] at hBrace
          exact absurd hBrace (hTail.not_brace hEnd _)
        | body hFound hSpacing hOpening hScope hClosing =>
          obtain ⟨hFinite, rfl⟩ := hHead hFirst hFound
          obtain rfl := hSpacing.unique hRun
          obtain rfl := hOpening.unique hBrace
          have hAtEnd : ∀ {b g : Cursor}, b.Passes ['\x7d'] g → atEnd true b = true :=
            fun h => by simp [atEnd, Cursor.peek?, h.1]
          obtain ⟨hAll, rfl⟩ := scope_rereads (fun entry hMem => (hBelow _ rfl entry hMem).name) (ih _ rfl)
            (isBlank_line (depth + 1)) hBody (hAtEnd hClosed) hScope (hAtEnd hClosing)
          refine ⟨.intro hName hKeyword hKeys hFinite hSome hDistinct ?_, hClosing.unique hClosed⟩
          rintro _ ⟨⟩
          exact hAll

end DialogTree
