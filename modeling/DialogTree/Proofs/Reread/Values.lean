import DialogTree.Proofs.Written.Commands

/-!
# Reading written values again

What a value is written as derives only when all its numbers are finite, and then nothing but the whole of it
does. The same holds of attributes and of items in brackets.
-/

namespace DialogTree

variable {c d e : Cursor}

/-! ## Places are determined -/

theorem Cursor.Passes.unique {s : List Char} (h : c.Passes s d) (hOther : c.Passes s e) : d = e :=
  h.eq_skip.trans hOther.eq_skip.symm

theorem Cursor.SpacingTo.unique {s t : List Char} (h : c.SpacingTo s d) (hOther : c.SpacingTo t e) : d = e :=
  h.eq.trans hOther.eq.symm

theorem Cursor.SpacingTo.stays {s : List Char} (h : c.SpacingTo s d) (hStops : c.Stops) : d = c :=
  h.unique (spacingTo_self hStops)

theorem WordTo.unique {lead body : Char → Bool} {word other : String} (h : WordTo lead body word c d)
    (hOther : WordTo lead body other c e) : d = e := by
  have hSame := (identifier_ok_iff.mpr h).symm.trans (identifier_ok_iff.mpr hOther)
  cases hSame
  rfl

/-- At most one item that is read stands at a cursor. -/
theorem Reads.unique {α : Type} {p : Parser α} {Item : α → Cursor → Cursor → Prop} {bound : Nat} {a b : α}
    (hReads : Reads p Item bound) (hLength : c.rest.length < bound) (h : Item a c d) (hOther : Item b c e)
    (hd : d.NoPoint) (he : e.NoPoint) : d = e := by
  obtain ⟨y, hRead, -⟩ := hReads.yields h hLength hd .empty
  obtain ⟨z, hAgain, -⟩ := hReads.yields hOther hLength he .empty
  rw [hRead] at hAgain
  cases hAgain
  rfl

theorem ValueTo.unique {value other : Value} (h : ValueTo value c d) (hOther : ValueTo other c e)
    (hd : d.NoPoint) (he : e.NoPoint) : d = e :=
  (valueWithin_reads (c.rest.length + 1)).unique (Nat.lt_succ_self _) h hOther hd he

/-! ## Items in brackets -/

section Items

variable {α β : Type} {Item : β → Cursor → Cursor → Prop} {write : α → List Char} {Good : α → Prop}
  {closing : String}

/-- Whatever derives from the text of the item ends with that text, and the item is good. -/
def Rereads (Item : β → Cursor → Cursor → Prop) (write : α → List Char) (Good : α → Prop) (a : α) : Prop :=
  ∀ {b : β} {c d e : Cursor}, c.Passes (write a) d → d.Ends → d.NoPoint → Item b c e → e.NoPoint → Good a ∧ e = d

/-- The text of the item begins neither with spacing nor with the closing text. -/
def Begins (closing : String) (write : α → List Char) (a : α) : Prop :=
  ∀ {c d : Cursor}, c.Passes (write a) d → d.Ends → c.Stops ∧ ∀ e, ¬ c.Passes closing.toList e

theorem further_noPoint {items : List α} (h : c.Passes (further write items) d) (hd : d.NoPoint) : c.NoPoint := by
  cases items with
  | nil =>
    have hSame : c.rest = d.rest := h.1
    rwa [Cursor.NoPoint, Cursor.peek?, hSame]
  | cons a items => exact h.noPoint (by decide)

/-- What follows the items of a list, up to its closing text. -/
structure ListEnd (closing : String) (c d : Cursor) : Prop where
  closes : ∃ t u b₁ b₂ b₃, c.SpacingTo t b₁ ∧ (b₁.Passes [','] b₂ ∨ b₂ = b₁) ∧ b₂.SpacingTo u b₃ ∧
    b₃.Passes closing.toList d

theorem ListEnd.noPoint (hCloses : ClosingText closing Item) (h : ListEnd closing c d) : c.NoPoint := by
  obtain ⟨t, u, b₁, b₂, b₃, hBefore, hComma, hBehind, hClosing⟩ := h.closes
  rcases hComma with hComma | rfl
  · exact comma_noPoint hBefore hComma
  · exact hBefore.noPoint (hBehind.noPoint (hCloses.noPoint hClosing))

theorem moreTo_rereads {items : List α} {found : List β} {b f : Cursor} (hCloses : ClosingText closing Item)
    (hItems : ∀ a ∈ items, Rereads Item write Good a) (hBegins : ∀ a ∈ items, Begins closing write a)
    (h : c.Passes (further write items) d) (hEnds : d.Ends) (hPoint : d.NoPoint) (hMore : MoreTo Item found c b)
    (hEnd : ListEnd closing b f) : ∀ a ∈ items, Good a := by
  induction items generalizing c found with
  | nil => simp
  | cons a items ih =>
    have hParts : c.Passes ([','] ++ ([' '] ++ (write a ++ further write items))) d := by
      simpa [further] using h
    obtain ⟨b₁, hComma, hParts⟩ := hParts.split
    obtain ⟨b₂, hSpace, hParts⟩ := hParts.split
    obtain ⟨b₃, hFirst, hFurther⟩ := hParts.split
    have hStops : c.Stops := hComma.head (by decide)
    have hFirstEnds := further_ends hFurther hEnds
    obtain ⟨hStart, hNoClosing⟩ := hBegins a List.mem_cons_self hFirst hFirstEnds
    cases hMore with
    | done =>
      -- A list that ends here would close at the comma or behind it.
      obtain ⟨t, u, b₄, b₅, b₆, hBefore, hLast, hBehind, hClosing⟩ := hEnd.closes
      obtain rfl := hBefore.stays hStops
      rcases hLast with hLast | rfl
      · obtain rfl := hLast.unique hComma
        obtain rfl := hBehind.unique (space_spacingTo hSpace hStart)
        exact absurd hClosing (hNoClosing _)
      · obtain rfl := hBehind.stays hStops
        exact absurd hComma (hCloses.comma hClosing)
    | next hBefore hFound hBehind hItem hRest =>
      obtain rfl := hBefore.stays hStops
      obtain rfl := hFound.unique hComma
      obtain rfl := hBehind.unique (space_spacingTo hSpace hStart)
      obtain ⟨hGood, rfl⟩ := hItems a List.mem_cons_self hFirst hFirstEnds (further_noPoint hFurther hPoint) hItem
        (hRest.noPoint (hEnd.noPoint hCloses))
      rw [List.forall_mem_cons]
      exact ⟨hGood, ih (fun a ha => hItems a (List.mem_cons_of_mem _ ha))
        (fun a ha => hBegins a (List.mem_cons_of_mem _ ha)) hFurther hRest⟩

theorem delimitedTo_rereads {opening : String} {x : Char} {items : List α} {found : List β}
    (hCloses : ClosingText closing Item) (hItems : ∀ a ∈ items, Rereads Item write Good a)
    (hBegins : ∀ a ∈ items, Begins closing write a) (hClosing : closing.toList = [x]) (hEnds : isKeyChar x = false)
    (h : c.Passes (opening.toList ++ (Render.commaSeparated (items.map write) ++ closing.toList)) d)
    (hDelimited : DelimitedTo opening closing Item found c e) : ∀ a ∈ items, Good a := by
  cases items with
  | nil => simp
  | cons a items =>
    obtain ⟨b₁, hOpening, hParts⟩ := h.split
    obtain ⟨b₂, hList, hLast⟩ := hParts.split
    rw [commaSeparated_cons] at hList
    obtain ⟨b₃, hFirst, hMore⟩ := hList.split
    have hListEnds : b₂.Ends := by
      rw [hClosing] at hLast
      exact hLast.head hEnds
    have hFirstEnds := further_ends hMore hListEnds
    obtain ⟨hStart, hNoClosing⟩ := hBegins a List.mem_cons_self hFirst hFirstEnds
    cases hDelimited with
    | empty hFound hSpacing hClosed =>
      obtain rfl := hFound.unique hOpening
      obtain rfl := hSpacing.stays hStart
      exact absurd hClosed (hNoClosing _)
    | items hFound hSpacing hItem hRest hBefore hComma hBehind hClosed =>
      obtain rfl := hFound.unique hOpening
      obtain rfl := hSpacing.stays hStart
      have hEnd := ListEnd.mk ⟨_, _, _, _, _, hBefore, hComma, hBehind, hClosed⟩
      have hPoint := hCloses.noPoint hLast
      obtain ⟨hGood, rfl⟩ := hItems a List.mem_cons_self hFirst hFirstEnds (further_noPoint hMore hPoint) hItem
        (hRest.noPoint (hEnd.noPoint hCloses))
      rw [List.forall_mem_cons]
      exact ⟨hGood, moreTo_rereads hCloses (fun a ha => hItems a (List.mem_cons_of_mem _ ha))
        (fun a ha => hBegins a (List.mem_cons_of_mem _ ha)) hMore hListEnds hPoint hRest hEnd⟩

end Items

/-! ## Values -/

theorem FiniteFloats.rereads {value : Value} (h : FiniteFloats value) :
    Rereads ValueTo Render.value FiniteFloats value := by
  intro found c d e hPasses hEnds hPoint hFound hFoundPoint
  obtain ⟨_, rfl, hWritten⟩ := value_written h hPasses hEnds
  exact ⟨h, hFound.unique hWritten hFoundPoint hPoint⟩

theorem FiniteFloats.begins {value : Value} (h : FiniteFloats value) : Begins "]" Render.value value := by
  intro c d hPasses hEnds
  obtain ⟨_, rfl, hWritten⟩ := value_written h hPasses hEnds
  exact ⟨hWritten.stops, fun e hClosing => closes_value.noItem hClosing hWritten⟩

/-- A sign is followed by a digit in every number. -/
theorem ValueTo.digit {value : Value} {x : Char} {rest : List Char} (h : ValueTo value c d)
    (hRest : c.rest = '-' :: x :: rest) : x.isDigit = true := by
  have hOpening : c.opening? = some .number := (Cursor.passes_cons hRest).opening?
  have hDigit : ∀ {sign digits : List Char} {b e : Cursor}, IsSign sign → c.Passes sign b →
      b.PassesRun Char.isDigit digits e → digits ≠ [] → x.isDigit = true := by
    intro sign digits b e hSign hPasses hRun hDigits
    obtain ⟨y, more, hHead, hDigit⟩ := hRun.head_digit hDigits
    have hText := hPasses.1
    rw [hRest, hHead] at hText
    cases hSign with
    | none =>
      obtain rfl : '-' = y := (List.cons.inj hText).1
      exact absurd hDigit (by decide)
    | plus => exact absurd (List.cons.inj hText).1 (by decide)
    | minus =>
      obtain rfl : x = y := (List.cons.inj (List.cons.inj hText).2).1
      exact hDigit
  cases h with
  | string h => simp [h.opening?] at hOpening
  | raw h => simp [h.opening?] at hOpening
  | bool h => simp [h.opening?] at hOpening
  | float h =>
    cases h with
    | intro hSign hPasses hWhole hDigits _ _ _ => exact hDigit hSign hPasses hWhole hDigits
  | integer h =>
    cases h with
    | intro hSign hPasses hRun hDigits _ => exact hDigit hSign hPasses hRun hDigits
  | list h =>
    obtain ⟨b, hList⟩ := h.opens
    exact absurd ((Cursor.passes_cons hRest).head_eq hList) (by decide)

theorem float_rereads (x : Binary64) : Rereads ValueTo Render.value FiniteFloats (.float x) := by
  intro found c d e hPasses hEnds hPoint hFound hFoundPoint
  rw [Render.value] at hPasses
  cases x with
  | finite negative units fits =>
    have hFinite : FiniteFloats (.float (.finite negative units fits)) := .float rfl
    rw [← Render.value] at hPasses
    exact hFinite.rereads hPasses hEnds hPoint hFound hFoundPoint
  | nan =>
    have hStart : c.opening? = none := hPasses.opening?
    exact absurd hStart hFound.opening?
  | infinity negative =>
    cases negative with
    | false =>
      have hStart : c.opening? = none := hPasses.opening?
      exact absurd hStart hFound.opening?
    | true => exact absurd (hFound.digit hPasses.1) (by decide)

theorem begins_of_head {value : Value} {x : Char} {rest : List Char} (h : Render.value value = x :: rest)
    (hStops : startsSpacing x = false) (hOther : x ≠ ']') : Begins "]" Render.value value := by
  intro c d hPasses _
  rw [h] at hPasses
  exact ⟨hPasses.head hStops, fun e hClosing => hOther (hPasses.head_eq hClosing)⟩

theorem value_begins (value : Value) : Begins "]" Render.value value := by
  cases value with
  | string text => exact FiniteFloats.string.begins
  | bool b => exact FiniteFloats.bool.begins
  | integer n => exact FiniteFloats.integer.begins
  | float x =>
    cases x with
    | finite negative units fits => exact (FiniteFloats.float rfl).begins
    | nan => exact begins_of_head rfl (by decide) (by decide)
    | infinity negative =>
      cases negative with
      | false => exact begins_of_head rfl (by decide) (by decide)
      | true => exact begins_of_head rfl (by decide) (by decide)
  | list items => exact begins_of_head (Render.value.eq_def _) (by decide) (by decide)

theorem list_rereads {items : List Value} (hItems : ∀ item ∈ items, Rereads ValueTo Render.value FiniteFloats item) :
    Rereads ValueTo Render.value FiniteFloats (.list items) := by
  intro found c d e hPasses hEnds hPoint hFound hFoundPoint
  have hList := hPasses
  rw [Render.value, values_eq_map] at hList
  have hText : c.Passes ("[".toList ++ (Render.commaSeparated (items.map Render.value) ++ "]".toList)) d := hList
  have hOpening : c.opening? = some .list := hList.opening?
  have hFinite : ∀ item ∈ items, FiniteFloats item := by
    cases hFound with
    | string h => simp [h.opening?] at hOpening
    | raw h => simp [h.opening?] at hOpening
    | bool h => simp [h.opening?] at hOpening
    | float h => simp [h.opening?] at hOpening
    | integer h => simp [h.opening?] at hOpening
    | list h =>
      exact delimitedTo_rereads (x := ']') closes_value hItems (fun item _ => value_begins item) rfl (by decide)
        hText h
  exact (FiniteFloats.list hFinite).rereads hPasses hEnds hPoint hFound hFoundPoint

theorem value_rereads (value : Value) : Rereads ValueTo Render.value FiniteFloats value := by
  cases value with
  | string => exact FiniteFloats.string.rereads
  | bool => exact FiniteFloats.bool.rereads
  | integer => exact FiniteFloats.integer.rereads
  | float x => exact float_rereads x
  | list items => exact list_rereads fun item _ => value_rereads item

/-! ## Attributes -/

theorem identifier_head {word : String} (h : isIdentifier word = true) :
    ∃ x rest, word.toList = x :: rest ∧ isKeyStart x = true := by
  rw [isIdentifier] at h
  cases hList : word.toList with
  | nil =>
    rw [hList] at h
    cases h
  | cons x rest =>
    rw [hList, Bool.and_eq_true] at h
    exact ⟨x, rest, rfl, h.1⟩

theorem pair_begins {pair : String × Value} (hKey : isIdentifier pair.1 = true) : Begins ")" pairText pair := by
  intro c d hPasses _
  obtain ⟨x, rest, hWord, hLead⟩ := identifier_head hKey
  rw [pairText, Render.entry, hWord] at hPasses
  refine ⟨hPasses.head (isKeyStart_stops hLead), fun e hClosing => ?_⟩
  obtain rfl := hPasses.head_eq hClosing
  exact absurd hLead (by decide)

theorem pair_rereads {pair : String × Value} (hKey : isIdentifier pair.1 = true) :
    Rereads AttributeTo pairText (fun pair => FiniteFloats pair.2) pair := by
  obtain ⟨key, value⟩ := pair
  intro found c d e hPasses hEnds hPoint hFound hFoundPoint
  have hParts : c.Passes (key.toList ++ (['='] ++ Render.value value)) d := hPasses
  obtain ⟨b₁, hWord, hParts⟩ := hParts.split
  obtain ⟨b₂, hEquals, hText⟩ := hParts.split
  have hWritten := identifier_written hKey hWord (hEquals.head (by decide))
  have hStops : b₁.Stops := hEquals.head (by decide)
  cases hFound with
  | intro hFoundKey hBefore hSign hBehind hValue =>
    obtain rfl := hFoundKey.unique hWritten
    obtain rfl := hBefore.stays hStops
    obtain rfl := hSign.unique hEquals
    obtain rfl := hBehind.stays (value_begins value hText hEnds).1
    exact value_rereads value hText hEnds hPoint hValue hFoundPoint

end DialogTree
