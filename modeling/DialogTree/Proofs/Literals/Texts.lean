import DialogTree.Proofs.Literals.Numerals
import DialogTree.Proofs.Naming.Readers
import DialogTree.Proofs.Reread.Documents

/-!
# Texts around a literal

A text in the document grammar with one command and one attribute leaves a place for the value of the attribute.
The text is read exactly when a value can be read at that place, whatever spacing there is.
-/

namespace DialogTree

/-! ## The place of a literal -/

inductive KeyedTo (key : String) (literal : List Char) : Cursor → Cursor → Prop where
  | intro {c b₁ b₂ b₃ b₄ d : Cursor} {s t : List Char} (hKey : WordTo isKeyStart isKeyChar key c b₁)
      (hBefore : b₁.SpacingTo s b₂) (hEquals : b₂.Passes ['='] b₃) (hBehind : b₃.SpacingTo t b₄)
      (hLiteral : b₄.Passes literal d) : KeyedTo key literal c d

inductive BracketedTo (key : String) (literal : List Char) : Cursor → Cursor → Prop where
  | intro {c b₁ b₂ b₃ b₄ b₅ b₆ d : Cursor} {s t u : List Char} (hOpening : c.Passes ['('] b₁)
      (hSpacing : b₁.SpacingTo s b₂) (hKeyed : KeyedTo key literal b₂ b₃) (hBefore : b₃.SpacingTo t b₄)
      (hComma : b₄.Passes [','] b₅ ∨ b₅ = b₄) (hBehind : b₅.SpacingTo u b₆) (hClosing : b₆.Passes [')'] d) :
      BracketedTo key literal c d

/-- A whole text of one command with one attribute, whose value is written as the literal. -/
inductive TextWrites (name keyword key : String) (literal : List Char) : String → Prop where
  | intro {source : String} {b₁ b₂ b₃ b₄ b₅ b₆ b₇ b₈ d : Cursor} {s t u v : List Char}
      (hSpacing : (Cursor.ofText source).SpacingTo s b₁) (hHeader : HeaderTo b₁ b₂) (hFirst : b₂.SpacingTo t b₃)
      (hName : WordTo isNameChar isNameChar name b₃ b₄) (hGap : b₄.SpacingTo u b₅) (hRequired : u ≠ [])
      (hKeyword : WordTo isKeyStart isKeyChar keyword b₅ b₆) (hBefore : b₆.SpacingTo v b₇)
      (hAttribute : BracketedTo key literal b₇ b₈) (hTail : TailTo [] b₈ d) (hEnd : d.rest = []) :
      TextWrites name keyword key literal source

/-! ## The plain text -/

/-- The header on a line of its own, and the command without further spacing. -/
def plainText (name keyword key : String) (literal : List Char) : List Char :=
  ("version 1".toList ++ '\n' :: []) ++ (name.toList ++ ([' '] ++ (keyword.toList ++
    (['('] ++ (key.toList ++ (['='] ++ (literal ++ [')'])))))))

theorem WordTo.stopsAt {lead body : Char → Bool} {word : String} {c d : Cursor} (h : WordTo lead body word c d)
    (hLead : ∀ {x}, lead x = true → startsSpacing x = false) : c.Stops := by
  cases h with
  | intro hFirst hStart _ => exact hFirst.head (hLead hStart)

theorem textWrites_plain {name keyword key source : String} {literal : List Char} (hName : IsName name)
    (hKeyword : isIdentifier keyword = true) (hKey : isIdentifier key = true)
    (hLiteral : ∃ x rest, literal = x :: rest ∧ startsSpacing x = false)
    (hSource : source.toList = plainText name keyword key literal) : TextWrites name keyword key literal source := by
  obtain ⟨d, hWhole, hEnd⟩ : ∃ d, (Cursor.ofText source).Passes source.toList d ∧ d.rest = [] := by
    have hPasses : (Cursor.ofText source).Passes source.toList _ := Cursor.passes_skip List.prefix_rfl
    exact ⟨_, hPasses, List.self_eq_append_right.mp hPasses.1⟩
  rw [hSource] at hWhole
  unfold plainText at hWhole
  obtain ⟨b₁, hHeader, hWhole⟩ := hWhole.split
  obtain ⟨b₂, hNamed, hWhole⟩ := hWhole.split
  obtain ⟨b₃, hSpace, hWhole⟩ := hWhole.split
  obtain ⟨b₄, hWord, hWhole⟩ := hWhole.split
  obtain ⟨b₅, hOpening, hWhole⟩ := hWhole.split
  obtain ⟨b₆, hKeyed, hWhole⟩ := hWhole.split
  obtain ⟨b₇, hEquals, hWhole⟩ := hWhole.split
  obtain ⟨b₈, hValue, hClosing⟩ := hWhole.split
  have hName := name_written hName hNamed (hSpace.head (by decide))
  have hKeyword := identifier_written hKeyword hWord (hOpening.head (by decide))
  have hKey := identifier_written hKey hKeyed (hEquals.head (by decide))
  have hHeaderStops : (Cursor.ofText source).Stops := by
    have hText : "version 1".toList = 'v' :: "ersion 1".toList := by decide
    have hParts := hHeader
    rw [hText] at hParts
    exact hParts.head (by decide)
  have hNameStops := hName.stopsAt startsSpacing_of_isNameChar
  have hLiteralStops : b₇.Stops := by
    obtain ⟨x, rest, hText, hStops⟩ := hLiteral
    rw [hText] at hValue
    exact hValue.head hStops
  have hHere : ∀ {c : Cursor}, c.Stops → c.SpacingTo [] c := Cursor.spacingTo_self
  have hAttribute : BracketedTo key literal b₄ d :=
    .intro hOpening (hHere (hKey.stopsAt isKeyStart_stops))
      (.intro hKey (hHere (hEquals.head (by decide))) hEquals (hHere hLiteralStops) hValue)
      (hHere (hClosing.head (by decide))) (.inr rfl) (hHere (hClosing.head (by decide))) hClosing
  exact .intro (hHere hHeaderStops) (header_written hHeader (fun _ hx => by cases hx) hNameStops)
    (hHere hNameStops) hName (space_spacingTo hSpace (hKeyword.stopsAt isKeyStart_stops)) (List.cons_ne_nil _ _)
    hKeyword (hHere (hOpening.head (by decide))) hAttribute (.spacing (hHere fun x hx => by rw [hEnd] at hx; cases hx))
    hEnd

/-! ## What follows a literal -/

variable {c d e : Cursor} {name keyword key source : String} {literal : List Char}

theorem startsSpacing_digit {x : Char} (h : startsSpacing x = true) : x.isDigit = false := by
  rw [Bool.eq_false_iff]
  intro hDigit
  have hOpening : opening? x ≠ none := by simp [opening?_digit hDigit]
  rw [opening?_stops hOpening] at h
  cases h

theorem Numeral.Bounds.of_spacing {s : List Char} (h : c.SpacingTo s d) (hBounds : Numeral.Bounds d) :
    Numeral.Bounds c := by
  intro x hx
  have hHead := h.run.head
  rw [h.passes.1] at hx
  cases s with
  | nil => exact hBounds x hx
  | cons y s =>
    obtain rfl : y = x := by simpa using hx
    have hStarts := hHead y rfl
    refine ⟨startsSpacing_digit hStarts, ?_⟩
    rintro rfl
    rw [startsSpacing_point] at hStarts
    cases hStarts

theorem Numeral.bounds_of_passes {x : Char} {s : List Char} (h : c.Passes (x :: s) d) (hDigit : x.isDigit = false)
    (hPoint : x ≠ '.') : Numeral.Bounds c := by
  intro y hy
  rw [h.1] at hy
  obtain rfl : x = y := by simpa using hy
  exact ⟨hDigit, hPoint⟩

theorem bounds_behind {b₁ b₂ b₃ : Cursor} {t u : List Char} (hBefore : c.SpacingTo t b₁)
    (hComma : b₁.Passes [','] b₂ ∨ b₂ = b₁) (hBehind : b₂.SpacingTo u b₃) (hClosing : b₃.Passes [')'] d) :
    Numeral.Bounds c := by
  rcases hComma with hComma | rfl
  · exact (Numeral.bounds_of_passes hComma rfl (by decide)).of_spacing hBefore
  · exact ((Numeral.bounds_of_passes hClosing rfl (by decide)).of_spacing hBehind).of_spacing hBefore

theorem WordTo.not_passes {lead body : Char → Bool} {word : String} (h : WordTo lead body word c d) {x : Char}
    (hx : lead x = false) : ¬ c.Passes [x] e := by
  intro hPasses
  cases h with
  | intro hFirst hLead _ =>
    obtain rfl := hFirst.head_eq hPasses
    rw [hx] at hLead
    cases hLead

theorem Numeral.text_head (numeral : Numeral) : ∃ x rest, numeral.text = x :: rest ∧ startsSpacing x = false := by
  have hDigit : ∀ {x : Char}, x.isDigit = true → startsSpacing x = false := by
    intro x hx
    rw [Bool.eq_false_iff]
    intro hStarts
    rw [startsSpacing_digit hStarts] at hx
    cases hx
  obtain ⟨x, rest, hWhole, hx⟩ := numeral.isWhole.head
  rw [text, sign, hWhole]
  split
  · exact ⟨'-', _, rfl, by decide⟩
  · exact ⟨x, _, rfl, hDigit hx⟩

/-! ## Reading the literal -/

/-- A value that is read wherever the literal stands in front of a comma or a bracket. -/
def ReadsLiteral (literal : List Char) (value : Value) : Prop :=
  ∀ {c d : Cursor}, c.Passes literal d → Numeral.Bounds d → ValueTo value c d

theorem BracketedTo.derives {value : Value} (h : BracketedTo key literal c d) (hValue : ReadsLiteral literal value) :
    ∃ position, DelimitedTo "(" ")" AttributeTo [⟨key, value, some position⟩] c d := by
  cases h with
  | intro hOpening hSpacing hKeyed hBefore hComma hBehind hClosing =>
    have hBounds := bounds_behind hBefore hComma hBehind hClosing
    cases hKeyed with
    | intro hKey hGap hEquals hNext hLiteral =>
      exact ⟨_, .items hOpening hSpacing (.intro hKey hGap hEquals hNext (hValue hLiteral hBounds)) .done hBefore
        hComma hBehind hClosing⟩

theorem TextWrites.derives {value : Value} (h : TextWrites name keyword key literal source)
    (hValue : ReadsLiteral literal value) : ∃ p q,
      Derives source [⟨name, keyword, some p, [⟨key, value, some q⟩], none⟩] := by
  cases h with
  | intro hSpacing hHeader hFirst hName hGap hRequired hKeyword hBefore hAttribute hTail hEnd =>
    obtain ⟨q, hAttributes⟩ := hAttribute.derives hValue
    have hHead := HeadTo.intro hName hGap hRequired hKeyword hBefore hAttributes
    exact ⟨_, q, .intro hSpacing hHeader (.intro hFirst (.bare hHead) hTail) hEnd⟩

def ReadAtLiteral (literal : List Char) (value : Value) : Prop :=
  ∃ c d e : Cursor, c.Passes literal d ∧ Numeral.Bounds d ∧ ValueTo value c e

theorem WordTo.word_eq {lead body : Char → Bool} {word other : String} (h : WordTo lead body word c d)
    (hOther : WordTo lead body other c e) : word = other := by
  have hSame := (identifier_ok_iff.mpr h).symm.trans (identifier_ok_iff.mpr hOther)
  cases hSame
  rfl

/-- Any attributes that are read there have the key, with a value that is read where the literal stands. -/
theorem BracketedTo.value {items : List DeclaredAttribute} (h : BracketedTo key literal c d)
    (hItems : DelimitedTo "(" ")" AttributeTo items c e) :
    ∃ item ∈ items, item.key = key ∧ ReadAtLiteral literal item.value := by
  cases h with
  | intro hOpening hSpacing hKeyed hBefore hComma hBehind hClosing =>
    have hBounds := bounds_behind hBefore hComma hBehind hClosing
    cases hKeyed with
    | intro hKey hGap hEquals hNext hLiteral =>
      cases hItems with
      | empty hOpening' hSpacing' hClosing' =>
        obtain rfl := hOpening'.unique hOpening
        obtain rfl := hSpacing'.unique hSpacing
        exact absurd hClosing' (hKey.not_passes (by decide))
      | items hOpening' hSpacing' hItem _ _ _ _ _ =>
        obtain rfl := hOpening'.unique hOpening
        obtain rfl := hSpacing'.unique hSpacing
        cases hItem with
        | intro hKey' hGap' hEquals' hNext' hValue =>
          have hName := hKey'.word_eq hKey
          obtain rfl := hKey'.unique hKey
          obtain rfl := hGap'.unique hGap
          obtain rfl := hEquals'.unique hEquals
          obtain rfl := hNext'.unique hNext
          exact ⟨_, List.mem_cons_self, hName, _, _, _, hLiteral, hBounds, hValue⟩

theorem TextWrites.value {declarations : List Declaration} (h : TextWrites name keyword key literal source)
    (hDerives : Derives source declarations) : ∃ declaration ∈ declarations, ∃ item ∈ declaration.attributes,
      item.key = key ∧ ReadAtLiteral literal item.value := by
  cases h with
  | intro hSpacing hHeader hFirst hName hGap _ hKeyword hBefore hAttribute _ _ =>
    cases hDerives with
    | intro hSpacing' hHeader' hScope _ =>
      -- Part by part the derivation comes to the cursors of the written text, up to the bracket of the attributes.
      obtain rfl := hSpacing'.unique hSpacing
      have hStay := hFirst.stays hHeader.stops
      subst hStay
      obtain rfl := hHeader'.unique hHeader (fun _ => hScope.starts hHeader'.stops)
        fun _ => hName.not_passes (by decide)
      cases hScope with
      | @intro _ _ _ _ _ command _ hFirst' hCommand _ =>
        obtain rfl := hFirst'.stays hHeader.stops
        obtain ⟨name', keyword', items, f, hItems, hHead⟩ : ∃ name' keyword' items f,
            command.attributes = items ∧ HeadTo name' keyword' items _ f := by
          cases hCommand with
          | bare hHead => exact ⟨_, _, _, _, rfl, hHead⟩
          | body hHead _ _ _ _ => exact ⟨_, _, _, _, rfl, hHead⟩
        cases hHead with
        | intro hName' hGap' _ hKeyword' hBefore' hAttributes =>
          obtain rfl := hName'.unique hName
          obtain rfl := hGap'.unique hGap
          obtain rfl := hKeyword'.unique hKeyword
          obtain rfl := hBefore'.unique hBefore
          subst hItems
          exact ⟨_, List.mem_cons_self, hAttribute.value hAttributes⟩

end DialogTree
