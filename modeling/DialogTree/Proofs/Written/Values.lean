import DialogTree.Proofs.Completeness.Values
import DialogTree.Proofs.Written.Numbers
import DialogTree.Render

/-!
# Values as they are written

Every value without an undefined or infinite number derives from the text it is written as, and so do lists
of items that each do.
-/

namespace DialogTree

variable {c d : Cursor}

/-! ## Strings -/

theorem fourHex_spells : ∀ n < 160, (Render.fourHex n).length = 4 ∧
    (∀ x ∈ Render.fourHex n, isDigitIn 16 x = true) ∧ valueIn 16 (Render.fourHex n) = n := by
  have hAll : ∀ n < 160, (Render.fourHex n).length = 4 ∧ (Render.fourHex n).all (isDigitIn 16) = true ∧
      valueIn 16 (Render.fourHex n) = n := by
    decide +kernel
  intro n hn
  obtain ⟨hLength, hDigits, hValue⟩ := hAll n hn
  exact ⟨hLength, List.all_eq_true.mp hDigits, hValue⟩

theorem toNat_lt_of_isControl {x : Char} (h : isControl x = true) : x.toNat < 160 := by
  simp only [isControl, Bool.or_eq_true, Bool.and_eq_true, decide_eq_true_eq] at h
  omega

theorem spells_stringChar (x : Char) (after : List Char) : Spells (Render.stringChar x) x after := by
  unfold Render.stringChar
  split
  · rename_i hQuote
    subst hQuote
    exact .named (by decide)
  split
  · rename_i hBackslash
    subst hBackslash
    exact .named (by decide)
  split
  · rename_i hLine
    subst hLine
    exact .named (by decide)
  split
  · rename_i hTab
    subst hTab
    exact .named (by decide)
  split
  · rename_i hReturn
    subst hReturn
    exact .named (by decide)
  split
  · rename_i hControl
    obtain ⟨hLength, hAll, hValue⟩ := fourHex_spells x.toNat (toNat_lt_of_isControl hControl)
    exact .hex (by rw [hLength]; decide) hAll hValue.symm
  · rename_i hQuote hBackslash _ _ _ _
    exact .itself hQuote hBackslash

theorem spellsString_written (text after : List Char) :
    SpellsString (text.flatMap Render.stringChar ++ ['"']) text after := by
  induction text with
  | nil => exact .close
  | cons x text ih =>
    rw [List.flatMap_cons, List.append_assoc]
    exact .next (spells_stringChar x _) ih

theorem string_literal {text : String} (h : c.Passes (Render.string text) d) : QuotedTo text c d := by
  have hQuoted := QuotedTo.intro h (spellsString_written text.toList d.rest)
  rwa [String.ofList_toList] at hQuoted

theorem bool_literal {b : Bool} (h : c.Passes (toString b).toList d)
    (hEnd : ∀ x ∈ d.rest.head?, isKeyChar x = false) : BoolTo b c d :=
  .intro h hEnd

/-! ## Items in brackets -/

/-- No character of a word or of a number follows. -/
def Cursor.Ends (cursor : Cursor) : Prop := ∀ x ∈ cursor.rest.head?, isKeyChar x = false

def Cursor.Stops (cursor : Cursor) : Prop := ∀ x ∈ cursor.rest.head?, startsSpacing x = false

theorem Cursor.Passes.head {x : Char} {s : List Char} (h : c.Passes (x :: s) d) {p : Char → Bool}
    (hx : p x = false) : ∀ y ∈ c.rest.head?, p y = false := by
  intro y hy
  rw [h.1] at hy
  obtain rfl : x = y := by simpa using hy
  exact hx

theorem space_spacingTo (h : c.Passes [' '] d) (hStops : d.Stops) : c.SpacingTo [' '] d :=
  ⟨h, .blank (by decide) (.done hStops)⟩

theorem not_isDigit_of_ends (h : c.Ends) : ∀ x ∈ c.rest.head?, x.isDigit = false := by
  intro x hx
  have hKey := h x hx
  simp only [isKeyChar, Char.isAlphanum, Bool.or_eq_false_iff] at hKey
  exact hKey.1.2

section Items

variable {α β : Type} {Item : β → Cursor → Cursor → Prop} {content : β → α} {write : α → List Char}

/-- What is written for the item derives, as an item of the same content, wherever no word goes on. -/
def Written (Item : β → Cursor → Cursor → Prop) (content : β → α) (write : α → List Char) (a : α) : Prop :=
  ∀ {c d : Cursor}, c.Passes (write a) d → d.Ends → ∃ b, content b = a ∧ Item b c d

/-- The items behind the first one, each behind a comma and a space. -/
def further (write : α → List Char) (items : List α) : List Char :=
  items.flatMap fun a => ',' :: ' ' :: write a

theorem commaSeparated_cons (a : α) (items : List α) :
    Render.commaSeparated ((a :: items).map write) = write a ++ further write items := by
  induction items generalizing a with
  | nil => simp [Render.commaSeparated, further]
  | cons b items ih =>
    have hRest := ih b
    simp only [List.map_cons, Render.commaSeparated] at hRest ⊢
    rw [hRest]
    rfl

theorem further_ends {items : List α} (h : c.Passes (further write items) d) (hd : d.Ends) : c.Ends := by
  cases items with
  | nil =>
    have hSame : c.rest = d.rest := h.1
    rwa [Cursor.Ends, hSame]
  | cons a items => exact h.head (by decide)

theorem moreTo_written {items : List α} (hItems : ∀ a ∈ items, Written Item content write a)
    (hStops : ∀ {b c d}, Item b c d → c.Stops) (h : c.Passes (further write items) d) (hd : d.Ends) :
    ∃ found, found.map content = items ∧ MoreTo Item found c d := by
  induction items generalizing c with
  | nil =>
    obtain rfl : d = c := h.eq_skip.trans (Cursor.skip_zero c)
    exact ⟨[], rfl, .done⟩
  | cons a items ih =>
    have hParts : c.Passes ([','] ++ ([' '] ++ (write a ++ further write items))) d := by
      simpa [further] using h
    obtain ⟨b₁, hComma, hParts⟩ := hParts.split
    obtain ⟨b₂, hSpace, hParts⟩ := hParts.split
    obtain ⟨b₃, hFirst, hMore⟩ := hParts.split
    obtain ⟨b, hContent, hItem⟩ := hItems a List.mem_cons_self hFirst (further_ends hMore hd)
    obtain ⟨found, hFound, hRest⟩ := ih (fun a ha => hItems a (List.mem_cons_of_mem _ ha)) hMore
    refine ⟨b :: found, by rw [List.map_cons, hContent, hFound], ?_⟩
    have hStart : ∀ x ∈ c.rest.head?, startsSpacing x = false := hComma.head (by decide)
    exact .next (Cursor.spacingTo_self hStart) hComma (space_spacingTo hSpace (hStops hItem)) hItem hRest

theorem delimitedTo_written {opening closing : String} {x : Char} {items : List α}
    (hItems : ∀ a ∈ items, Written Item content write a) (hStops : ∀ {b c d}, Item b c d → c.Stops)
    (hClosing : closing.toList = [x]) (hEnds : isKeyChar x = false) (hSpacing : startsSpacing x = false)
    (h : c.Passes (opening.toList ++ (Render.commaSeparated (items.map write) ++ closing.toList)) d) :
    ∃ found, found.map content = items ∧ DelimitedTo opening closing Item found c d := by
  obtain ⟨b₁, hOpening, hParts⟩ := h.split
  obtain ⟨b₂, hList, hLast⟩ := hParts.split
  have hBracket : b₂.Passes [x] d := by rwa [hClosing] at hLast
  have hStay : b₂.SpacingTo [] b₂ := Cursor.spacingTo_self (hBracket.head hSpacing)
  cases items with
  | nil =>
    obtain rfl : b₂ = b₁ := hList.eq_skip.trans (Cursor.skip_zero b₁)
    exact ⟨[], rfl, .empty hOpening hStay hLast⟩
  | cons a items =>
    rw [commaSeparated_cons] at hList
    obtain ⟨b₃, hFirst, hMore⟩ := hList.split
    have hEnd : b₂.Ends := hBracket.head hEnds
    obtain ⟨b, hContent, hItem⟩ := hItems a List.mem_cons_self hFirst (further_ends hMore hEnd)
    obtain ⟨found, hFound, hRest⟩ :=
      moreTo_written (fun a ha => hItems a (List.mem_cons_of_mem _ ha)) hStops hMore hEnd
    refine ⟨b :: found, by rw [List.map_cons, hContent, hFound], ?_⟩
    exact .items hOpening (Cursor.spacingTo_self (hStops hItem)) hItem hRest hStay (.inr rfl) hStay hLast

end Items

/-! ## Values -/

inductive FiniteFloats : Value → Prop where
  | string {text : String} : FiniteFloats (.string text)
  | bool {b : Bool} : FiniteFloats (.bool b)
  | integer {n : Int64} : FiniteFloats (.integer n)
  | float {x : Binary64} (hFinite : x.isFinite = true) : FiniteFloats (.float x)
  | list {items : List Value} (hItems : ∀ item ∈ items, FiniteFloats item) : FiniteFloats (.list items)

mutual

def Value.isFinite : Value → Bool
  | .string _ | .bool _ | .integer _ => true
  | .float x => x.isFinite
  | .list items => allFinite items

def allFinite : List Value → Bool
  | [] => true
  | item :: rest => item.isFinite && allFinite rest

end

mutual

theorem Value.isFinite_iff : ∀ value : Value, value.isFinite = true ↔ FiniteFloats value
  | .string _ => ⟨fun _ => .string, fun _ => rfl⟩
  | .bool _ => ⟨fun _ => .bool, fun _ => rfl⟩
  | .integer _ => ⟨fun _ => .integer, fun _ => rfl⟩
  | .float x => by
    rw [Value.isFinite]
    constructor
    · exact .float
    · intro h
      cases h with
      | float hFinite => exact hFinite
  | .list items => by
    rw [Value.isFinite, allFinite_iff items]
    constructor
    · exact .list
    · intro h
      cases h with
      | list hItems => exact hItems

theorem allFinite_iff : ∀ items : List Value, allFinite items = true ↔ ∀ item ∈ items, FiniteFloats item
  | [] => by simp [allFinite]
  | item :: rest => by simp [allFinite, item.isFinite_iff, allFinite_iff rest]

end

instance (value : Value) : Decidable (FiniteFloats value) :=
  decidable_of_iff _ value.isFinite_iff

theorem values_eq_map (items : List Value) : Render.values items = items.map Render.value := by
  induction items with
  | nil => rfl
  | cons item items ih => rw [Render.values, ih, List.map_cons]

theorem opening?_stops {x : Char} (h : opening? x ≠ none) : startsSpacing x = false := by
  by_cases hDigit : x.isDigit = true
  · simp only [Char.isDigit, Bool.and_eq_true, decide_eq_true_eq] at hDigit
    have hLow : 48 ≤ x.toNat := UInt32.le_iff_toNat_le.mp hDigit.1
    have hHigh : x.toNat ≤ 57 := UInt32.le_iff_toNat_le.mp hDigit.2
    have hHash : x ≠ '#' := by
      rintro rfl
      exact absurd hLow (by decide)
    have hBlank : isBlank x = false := by
      simp only [isBlank, Bool.or_eq_false_iff, Bool.and_eq_false_iff, decide_eq_false_iff_not,
        beq_eq_false_iff_ne]
      omega
    simp [startsSpacing, hBlank, hHash]
  · unfold opening? at h
    split at h
    · rename_i hIs
      subst hIs
      decide
    split at h
    · rename_i hIs
      subst hIs
      decide
    split at h
    · rename_i hIs
      simp only [Bool.or_eq_true, decide_eq_true_eq] at hIs
      rcases hIs with rfl | rfl <;> decide
    split at h
    · rename_i hIs
      simp only [hDigit, Bool.or_eq_true, decide_eq_true_eq, false_or, Bool.false_eq_true] at hIs
      rcases hIs with rfl | rfl <;> decide
    split at h
    · rename_i hIs
      subst hIs
      decide
    · exact absurd rfl h

theorem ValueTo.stops {value : Value} (h : ValueTo value c d) : c.Stops := by
  intro x hx
  apply opening?_stops
  have hOpening := h.opening?
  have hPeek : c.peek? = some x := hx
  rwa [Cursor.opening?, hPeek] at hOpening

theorem value_written {value : Value} (h : FiniteFloats value) : Written ValueTo id Render.value value := by
  induction h with
  | string =>
    intro c d hPasses _
    rw [Render.value] at hPasses
    exact ⟨_, rfl, .string (string_literal hPasses)⟩
  | bool =>
    intro c d hPasses hEnd
    rw [Render.value] at hPasses
    exact ⟨_, rfl, .bool (bool_literal hPasses hEnd)⟩
  | integer =>
    intro c d hPasses hEnd
    rw [Render.value] at hPasses
    exact ⟨_, rfl, .integer (integer_literal hPasses (not_isDigit_of_ends hEnd))⟩
  | @float x hFinite =>
    intro c d hPasses hEnd
    rw [Render.value] at hPasses
    cases x with
    | nan => cases hFinite
    | infinity negative => cases hFinite
    | finite negative units fits =>
      exact ⟨_, rfl, .float (float_literal hPasses (not_isDigit_of_ends hEnd))⟩
  | @list items hItems ih =>
    intro c d hPasses _
    rw [Render.value, values_eq_map] at hPasses
    have hList : c.Passes ("[".toList ++ (Render.commaSeparated (items.map Render.value) ++ "]".toList)) d :=
      hPasses
    obtain ⟨found, hFound, hItems⟩ :=
      delimitedTo_written (x := ']') ih ValueTo.stops rfl (by decide) (by decide) hList
    rw [List.map_id] at hFound
    exact ⟨_, rfl, .list (hFound ▸ hItems)⟩

end DialogTree
