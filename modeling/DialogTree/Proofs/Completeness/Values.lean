import DialogTree.Proofs.Reports
import DialogTree.Proofs.Soundness.Values

/-!
# Values that derive are read

An integer in front of a point derives, while the reader takes it for the start of a float. Where a value
stands in brackets no point follows it, and there each derivation is what is read.
-/

namespace DialogTree

open DialogTree.Parser

variable {α : Type} {Item : α → Cursor → Cursor → Prop} {c d : Cursor} {p : Parser α} {a : α}

/-! ## Lexemes -/

theorem literal_yields (text : String) (h : c.Passes text.toList d) :
    (literal text).parser.Yields c text d :=
  yields_lexeme (literal_ok_iff.mpr ⟨h, rfl⟩)

theorem spacing_yields {s : List Char} (h : c.SpacingTo s d) : spacing.parser.Yields c c.spacing d := by
  apply yields_lexeme
  rw [h.eq, spacing]

theorem refuses_of_sound (hp : p.Silent) (hSound : Sound p Item) (h : ∀ a d, ¬ Item a c d) :
    p.Refuses c :=
  refuses_of_silent hp fun _ d a _ hOk => h a d (hSound hOk)

theorem literal_refuses (text : String) (h : ∀ d, ¬ c.Passes text.toList d) :
    (literal text).parser.Refuses c :=
  refuses_of_silent (keeps_lexeme _) fun _ d _ _ hOk => h d (literal_parsed hOk)

theorem Cursor.Passes.head_eq {x y : Char} {s t : List Char} (hx : c.Passes (x :: s) d) {e : Cursor}
    (hy : c.Passes (y :: t) e) : x = y := by
  have h := hx.1.symm.trans hy.1
  simpa using congrArg List.head? h

/-! ## The first character of a value -/

inductive Opening where
  | string
  | raw
  | bool
  | number
  | list
deriving DecidableEq

/-- What a value begins with, if the character begins one at all. -/
def opening? (c : Char) : Option Opening :=
  if c = '"' then some .string
  else if c = '\x60' then some .raw
  else if c = 't' || c = 'f' then some .bool
  else if c.isDigit || c = '+' || c = '-' then some .number
  else if c = '[' then some .list
  else none

def Cursor.opening? (cursor : Cursor) : Option Opening :=
  cursor.peek?.bind DialogTree.opening?

theorem Cursor.Passes.opening? {x : Char} {s : List Char} (h : c.Passes (x :: s) d) :
    c.opening? = DialogTree.opening? x := by
  simp [Cursor.opening?, Cursor.peek?, h.1]

theorem opening?_digit {x : Char} (h : x.isDigit = true) : opening? x = some .number := by
  have hNot : ∀ y : Char, y.isDigit = false → x ≠ y := by
    rintro y hy rfl
    simp [h] at hy
  simp [opening?, h, hNot '"' rfl, hNot '\x60' rfl, hNot 't' rfl, hNot 'f' rfl]

theorem QuotedTo.opening? {text : String} (h : QuotedTo text c d) : c.opening? = some .string := by
  cases h with | intro hPasses _ => exact hPasses.opening?

theorem RawTo.opening? {text : String} (h : RawTo text c d) : c.opening? = some .raw := by
  cases h with | intro hPasses _ => exact hPasses.opening?

theorem BoolTo.opening? {b : Bool} (h : BoolTo b c d) : c.opening? = some .bool := by
  cases h with
  | intro hWord _ =>
    cases b with
    | true => exact hWord.opening?
    | false => exact hWord.opening?

theorem Cursor.Passes.opening?_number {b e : Cursor} {sign digits : List Char} (hSign : IsSign sign)
    (hPasses : c.Passes sign b) (hRun : b.PassesRun Char.isDigit digits e) (hDigits : digits ≠ []) :
    c.opening? = some .number := by
  cases hSign with
  | none =>
    obtain ⟨x, rest, hRest, hDigit⟩ := hRun.head_digit hDigits
    have hStart : c.rest = x :: rest := hPasses.1.trans hRest
    rw [(passes_cons hStart).opening?, opening?_digit hDigit]
  | plus => exact hPasses.opening?
  | minus => exact hPasses.opening?

theorem FloatTo.opening? {x : Binary64} (h : FloatTo x c d) : c.opening? = some .number := by
  cases h with | intro hSign hPasses hWhole hDigits _ _ _ => exact hPasses.opening?_number hSign hWhole hDigits

theorem IntegerTo.opening? {n : Int64} (h : IntegerTo n c d) : c.opening? = some .number := by
  cases h with | intro hSign hPasses hRun hDigits _ => exact hPasses.opening?_number hSign hRun hDigits

theorem DelimitedTo.opens {opening closing : String} {items : List α}
    (h : DelimitedTo opening closing Item items c d) : ∃ b, c.Passes opening.toList b := by
  cases h with
  | empty hOpening _ _ => exact ⟨_, hOpening⟩
  | items hOpening _ _ _ _ _ _ _ => exact ⟨_, hOpening⟩

theorem ValueTo.opening? {value : Value} (h : ValueTo value c d) : c.opening? ≠ none := by
  cases h with
  | string h => simp [h.opening?]
  | raw h => simp [h.opening?]
  | bool h => simp [h.opening?]
  | float h => simp [h.opening?]
  | integer h => simp [h.opening?]
  | list h =>
    obtain ⟨b, hOpening⟩ := h.opens
    have hList : c.opening? = some .list := hOpening.opening?
    simp [hList]

/-! ## Items in brackets -/

def Cursor.NoPoint (cursor : Cursor) : Prop := cursor.peek? ≠ some '.'

theorem startsSpacing_point : startsSpacing '.' = false := by decide

theorem Cursor.Passes.noPoint {x : Char} {s : List Char} (h : c.Passes (x :: s) d) (hx : x ≠ '.') :
    c.NoPoint := by
  simpa [Cursor.NoPoint, Cursor.peek?, h.1] using hx

theorem SpacingRun.head {s rest : List Char} (h : SpacingRun s rest) :
    ∀ x ∈ s.head?, startsSpacing x = true := by
  intro x hx
  cases h with
  | done _ => simp at hx
  | blank hBlank _ =>
    obtain rfl := by simpa using hx
    simp [startsSpacing, hBlank]
  | comment _ _ _ =>
    obtain rfl := by simpa using hx
    rfl

theorem Cursor.SpacingTo.noPoint {s : List Char} (h : c.SpacingTo s d) (hd : d.NoPoint) : c.NoPoint := by
  have hHead := h.run.head
  cases s with
  | nil =>
    have hRest : c.rest = d.rest := h.passes.1
    rwa [NoPoint, peek?, hRest]
  | cons x s =>
    apply h.passes.noPoint
    rintro rfl
    have hPoint := hHead '.' rfl
    rw [startsSpacing_point] at hPoint
    cases hPoint

/-- Items that a parser reads wherever no point follows, in bounded texts. -/
structure Reads (p : Parser α) (Item : α → Cursor → Cursor → Prop) (bound : Nat) : Prop where
  silent : p.Silent
  sound : Sound p Item
  reaches : ∀ {a c d}, Item a c d → c.Reaches d
  yields : ∀ {a} {c d : Cursor}, Item a c d → c.rest.length < bound → d.NoPoint → p.Yields c a d

/-- A closing text that cannot be mistaken for spacing, a comma, a point or an item. -/
structure ClosingText (closing : String) (Item : α → Cursor → Cursor → Prop) : Prop where
  comma : ∀ {c d e : Cursor}, c.Passes closing.toList d → ¬ c.Passes [','] e
  noPoint : ∀ {c d : Cursor}, c.Passes closing.toList d → c.NoPoint
  noItem : ∀ {a} {c d e : Cursor}, c.Passes closing.toList d → ¬ Item a c e

variable {bound : Nat} {opening closing : String}

theorem Reads.refuses (hReads : Reads p Item bound) (h : ∀ a d, ¬ Item a c d) : p.Refuses c :=
  refuses_of_sound hReads.silent hReads.sound h

theorem comma_noPoint {s : List Char} {b : Cursor} (hBefore : c.SpacingTo s b) (hComma : b.Passes [','] d) :
    c.NoPoint :=
  hBefore.noPoint (hComma.noPoint (by decide))

theorem following_yields {s t : List Char} {b₁ b₂ b₃ : Cursor} (hBefore : c.SpacingTo s b₁)
    (hComma : b₁.Passes [','] b₂) (hBehind : b₂.SpacingTo t b₃) (hItem : p.Yields b₃ a d) :
    (Grammar.following p).Yields c a d :=
  (spacing_yields hBefore).bind ((literal_yields _ hComma).bind ((spacing_yields hBehind).bind hItem))

theorem MoreTo.noPoint {items : List α} (h : MoreTo Item items c d) (hd : d.NoPoint) : c.NoPoint := by
  cases h with
  | done => exact hd
  | next hBefore hComma _ _ _ => exact comma_noPoint hBefore hComma

theorem MoreTo.yields (hReads : Reads p Item bound) {items : List α} (h : MoreTo Item items c d)
    (hLength : c.rest.length < bound) (hd : d.NoPoint)
    (hStop : (Grammar.following p).Refuses d) : (Grammar.following p).many.Yields c items d := by
  induction h with
  | done => exact hStop.many
  | next hBefore hComma hBehind hItem hMore ih =>
    have hSpacing := hBefore.passes.length_eq
    have hPast := hComma.length_eq
    have hGap := hBehind.passes.length_eq
    have hForward := (hReads.reaches hItem).length_le
    simp only [List.length_cons, List.length_nil] at hPast
    have hFirst := hReads.yields hItem (by omega) (hMore.noPoint hd)
    have hRest := ih (by omega) hd hStop
    exact (following_yields hBefore hComma hBehind hFirst).many (by omega) hRest

/-- Behind the last item no further one is found, whether a comma stands there or not. -/
theorem following_refuses (hReads : Reads p Item bound) (hCloses : ClosingText closing Item)
    {t u : List Char} {b₁ b₂ b₃ : Cursor} (hBefore : c.SpacingTo t b₁)
    (hComma : b₁.Passes [','] b₂ ∨ b₂ = b₁) (hBehind : b₂.SpacingTo u b₃)
    (hClosing : b₃.Passes closing.toList d) : (Grammar.following p).Refuses c := by
  apply (spacing_yields hBefore).bind_refuses
  rcases hComma with hComma | rfl
  · apply (literal_yields "," hComma).bind_refuses
    apply (spacing_yields hBehind).bind_refuses
    exact hReads.refuses fun a e => hCloses.noItem hClosing
  · have hSame : b₃ = b₂ := hBehind.eq.trans (Cursor.skipSpacing_of_stops hBefore.run.stops)
    rw [hSame] at hClosing
    exact (literal_refuses _ fun e => hCloses.comma hClosing).bind

theorem optional_comma_yields {u : List Char} {b e : Cursor} (hCloses : ClosingText closing Item)
    (hStops : ∀ x ∈ c.rest.head?, startsSpacing x = false) (hComma : c.Passes [','] b ∨ b = c)
    (hBehind : b.SpacingTo u d) (hClosing : d.Passes closing.toList e) :
    ∃ o, (literal ",").parser.optional.Yields c o b := by
  rcases hComma with hComma | rfl
  · exact ⟨_, (literal_yields "," hComma).optional⟩
  · have hSame : d = b := hBehind.eq.trans (Cursor.skipSpacing_of_stops hStops)
    rw [hSame] at hClosing
    exact ⟨_, (literal_refuses _ fun e => hCloses.comma hClosing).optional⟩

theorem DelimitedTo.yields {items : List α} (hReads : Reads p Item bound)
    (hCloses : ClosingText closing Item) (hOpens : opening.toList ≠ [])
    (h : DelimitedTo opening closing Item items c d) (hLength : c.rest.length ≤ bound) :
    (Grammar.delimited opening p closing).Yields c items d := by
  cases h with
  | @empty _ b₁ b₂ _ s hOpening hSpacing hClosing =>
    have hNone : (Grammar.separated p).Refuses b₂ :=
      (hReads.refuses fun a e => hCloses.noItem hClosing).bind
    have hStay : spacing.parser.Yields b₂ b₂.spacing b₂ :=
      spacing_yields (Cursor.spacingTo_self hSpacing.run.stops)
    exact (literal_yields _ hOpening).bind ((spacing_yields hSpacing).bind (hNone.optional.bind
      (hStay.bind ((literal_yields _ hClosing).bind (yields_pure d [])))))
  | @items _ b₁ b₂ b₃ b₄ b₅ b₆ b₇ _ s t u item items hOpening hSpacing hItem hMore hBefore hComma hBehind
      hClosing =>
    have hPast := hOpening.length_eq
    have hGap := hSpacing.passes.length_eq
    have hForward := (hReads.reaches hItem).length_le
    have hPositive := List.length_pos_iff.mpr hOpens
    -- Spacing, a comma or the closing text follows the last item, and never a point.
    have hLast : b₄.NoPoint := by
      rcases hComma with hComma | rfl
      · exact comma_noPoint hBefore hComma
      · exact hBefore.noPoint (hBehind.noPoint (hCloses.noPoint hClosing))
    have hFirst := hReads.yields hItem (by omega) (hMore.noPoint hLast)
    have hStop := following_refuses hReads hCloses hBefore hComma hBehind hClosing
    have hRest := hMore.yields hReads (by omega) hLast hStop
    obtain ⟨o, hOptional⟩ := optional_comma_yields hCloses hBefore.run.stops hComma hBehind hClosing
    have hSeparated : (Grammar.separated p).Yields b₂ (item :: items) b₆ :=
      hFirst.bind (hRest.bind ((spacing_yields hBefore).bind (hOptional.bind (yields_pure b₆ _))))
    exact (literal_yields _ hOpening).bind ((spacing_yields hSpacing).bind (hSeparated.optional.bind
      ((spacing_yields hBehind).bind ((literal_yields _ hClosing).bind (yields_pure d _)))))

/-! ## Values -/

theorem closes_value : ClosingText "]" ValueTo where
  comma hClosing hComma := absurd (hClosing.head_eq hComma) (by decide)
  noPoint hClosing := hClosing.noPoint (by decide)
  noItem hClosing hItem := hItem.opening? hClosing.opening?

/-- A value whose first character announces another kind is refused. -/
theorem refuses_of_opening {β : Type} {l : Lexeme β} {f : β → α} {kind : Opening}
    (hKind : ∀ d b, l c = .ok (d, b) → c.opening? = some kind) (h : c.opening? ≠ some kind) :
    (f <$> l.parser).Refuses c :=
  refuses_map_lexeme fun d b hOk => h (hKind d b hOk)

theorem quotedString_opening? (d : Cursor) (text : String) (h : quotedString c = .ok (d, text)) :
    c.opening? = some .string :=
  (quotedString_ok_iff.mp h).opening?

theorem rawString_opening? (d : Cursor) (text : String) (h : rawString c = .ok (d, text)) :
    c.opening? = some .raw :=
  (rawString_ok_iff.mp h).opening?

theorem boolean_opening? (d : Cursor) (b : Bool) (h : boolean c = .ok (d, b)) :
    c.opening? = some .bool :=
  (boolean_ok_iff.mp h).opening?

theorem floatLiteral_opening? (d : Cursor) (x : Binary64) (h : floatLiteral c = .ok (d, x)) :
    c.opening? = some .number :=
  (floatLiteral_ok_iff.mp h).opening?

theorem integerLiteral_opening? (d : Cursor) (n : Int64) (h : integerLiteral c = .ok (d, n)) :
    c.opening? = some .number :=
  (integerLiteral_ok_iff.mp h).opening?

theorem IntegerTo.not_float {n : Int64} (h : IntegerTo n c d) (hd : d.NoPoint) {x : Binary64} {e : Cursor} :
    ¬ FloatTo x c e := by
  intro hFloat
  cases h with
  | @intro _ b _ sign digits _ hSign hPasses hRun hDigits _ =>
    cases hFloat with
    | @intro _ b' p q _ sign' whole fraction hSign' hPasses' hWhole hDigits' hPoint _ _ =>
      obtain ⟨y, rest, hRest, hDigit⟩ := hRun.head_digit hDigits
      obtain ⟨y', rest', hRest', hDigit'⟩ := hWhole.head_digit hDigits'
      have hStart : b = b' :=
        (skipSign_of_passes hSign hPasses hRest hDigit).1.symm.trans
          (skipSign_of_passes hSign' hPasses' hRest' hDigit').1
      subst hStart
      have hEnd : d = p := hRun.eq.2.trans hWhole.eq.2.symm
      subst hEnd
      apply hd
      simp [Cursor.peek?, hPoint.1]

theorem valueWithin_reads (n : Nat) : Reads (Grammar.valueWithin n) ValueTo n := by
  induction n with
  | zero =>
    exact ⟨valueWithin_silent 0, valueWithin_sound 0, ValueTo.reaches, fun _ hLength _ => by omega⟩
  | succ n ih =>
    refine ⟨valueWithin_silent (n + 1), valueWithin_sound (n + 1), ValueTo.reaches, ?_⟩
    intro value c d h hLength hd
    unfold Grammar.valueWithin
    apply Yields.labeled
    -- Other alternatives are refused by the first character, but for a float in the place of an integer.
    cases h with
    | string h => exact (yields_lexeme (quotedString_ok_iff.mpr h)).map.orElse
    | raw h =>
      have hOpening := h.opening?
      apply (refuses_of_opening quotedString_opening? (by simp [hOpening])).orElse
      exact (yields_lexeme (rawString_ok_iff.mpr h)).map.orElse
    | bool h =>
      have hOpening := h.opening?
      apply (refuses_of_opening quotedString_opening? (by simp [hOpening])).orElse
      apply (refuses_of_opening rawString_opening? (by simp [hOpening])).orElse
      exact (yields_lexeme (boolean_ok_iff.mpr h)).map.orElse
    | float h =>
      have hOpening := h.opening?
      apply (refuses_of_opening quotedString_opening? (by simp [hOpening])).orElse
      apply (refuses_of_opening rawString_opening? (by simp [hOpening])).orElse
      apply (refuses_of_opening boolean_opening? (by simp [hOpening])).orElse
      exact (yields_lexeme (floatLiteral_ok_iff.mpr h)).map.orElse
    | integer h =>
      have hOpening := h.opening?
      have hNoFloat : ∀ e x, floatLiteral c ≠ .ok (e, x) :=
        fun e x hOk => h.not_float hd (floatLiteral_ok_iff.mp hOk)
      apply (refuses_of_opening quotedString_opening? (by simp [hOpening])).orElse
      apply (refuses_of_opening rawString_opening? (by simp [hOpening])).orElse
      apply (refuses_of_opening boolean_opening? (by simp [hOpening])).orElse
      apply (refuses_map_lexeme hNoFloat).orElse
      exact (yields_lexeme (integerLiteral_ok_iff.mpr h)).map.orElse
    | list h =>
      obtain ⟨b, hBracket⟩ := h.opens
      have hOpening : c.opening? = some .list := hBracket.opening?
      apply (refuses_of_opening quotedString_opening? (by simp [hOpening])).orElse
      apply (refuses_of_opening rawString_opening? (by simp [hOpening])).orElse
      apply (refuses_of_opening boolean_opening? (by simp [hOpening])).orElse
      apply (refuses_of_opening floatLiteral_opening? (by simp [hOpening])).orElse
      apply (refuses_of_opening integerLiteral_opening? (by simp [hOpening])).orElse
      exact (h.yields ih closes_value (by decide) (by omega)).map

theorem ValueTo.yields {value : Value} (h : ValueTo value c d) (hd : d.NoPoint) :
    Grammar.value.Yields c value d := by
  intro x
  have hLength := Nat.lt_succ_self c.rest.length
  obtain ⟨y, hRead, hSilent⟩ := (valueWithin_reads (c.rest.length + 1)).yields h hLength hd x
  refine ⟨y, ?_, hSilent⟩
  rw [Grammar.value]
  exact hRead

/-! ## Attributes -/

theorem identifier_yields {lead body : Char → Bool} {word : String} (h : WordTo lead body word c d) :
    (identifier lead body).parser.Yields c word d :=
  yields_lexeme (identifier_ok_iff.mpr h)

theorem AttributeTo.yields {item : DeclaredAttribute} (h : AttributeTo item c d) (hd : d.NoPoint) :
    Grammar.declaredAttribute.Yields c item d := by
  cases h with
  | intro hKey hBefore hEquals hBehind hValue =>
    exact (identifier_yields hKey).labeled.located.bind ((spacing_yields hBefore).bind
      ((literal_yields "=" hEquals).bind ((spacing_yields hBehind).bind
        ((hValue.yields hd).bind (yields_pure d _)))))

theorem declaredAttribute_reads (n : Nat) : Reads Grammar.declaredAttribute AttributeTo n :=
  ⟨declaredAttribute_silent, declaredAttribute_sound, AttributeTo.reaches, fun h _ hd => h.yields hd⟩

theorem closes_attribute : ClosingText ")" AttributeTo where
  comma hClosing hComma := absurd (hClosing.head_eq hComma) (by decide)
  noPoint hClosing := hClosing.noPoint (by decide)
  noItem hClosing hItem := by
    cases hItem with
    | intro hKey _ _ _ _ =>
      cases hKey with
      | intro hFirst hLead _ =>
        rw [← hClosing.head_eq hFirst] at hLead
        exact absurd hLead (by decide)

theorem attributes_yields {items : List DeclaredAttribute}
    (h : DelimitedTo "(" ")" AttributeTo items c d) : Grammar.attributes.Yields c items d :=
  h.yields (declaredAttribute_reads c.rest.length) closes_attribute (by decide) (Nat.le_refl _)

end DialogTree
