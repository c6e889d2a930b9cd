import DialogTree.Proofs.Json.Relayout
import DialogTree.Proofs.Literals.JsonNumbers

/-!
# JSON texts around a literal

A JSON text with one command and one attribute leaves a place for the value of the attribute. The outcome of the
text is the one of the literal, put into the entries around it, however the tokens are laid out.
-/

namespace DialogTree

namespace Json

variable {scan : Scan} {text tail rest : List Char} {depth : Nat}

/-! ## Strings as they are printed -/

theorem isStringBody_char (c : Char) {body : List Char} (hBody : IsStringBody body) :
    IsStringBody (stringChar c ++ body) := by
  rcases stringChar_cases c with ⟨hText, hQuote, hBackslash, hControl⟩ | ⟨letter, hText, hShort⟩ | ⟨hControl, hText⟩
  · rw [hText]
    exact .plain hQuote hBackslash (Nat.le_of_not_lt hControl) hBody
  · have hLetter : letter ∈ ['"', '\\', '/', 'b', 'f', 'n', 'r', 't'] := by
      unfold shortEscape? at hShort
      split at hShort <;> simp_all
    rw [hText]
    exact .short hLetter hBody
  · obtain ⟨hLength, hDigits, -⟩ := fourHex_spells c.toNat (by omega)
    rw [hText]
    exact .unicode hLength hDigits hBody

theorem isStringBody_chars (text : List Char) : IsStringBody (text.flatMap stringChar) := by
  induction text with
  | nil => exact .nil
  | cons c text ih =>
    rw [List.flatMap_cons]
    exact isStringBody_char c ih

theorem isString_stringText (text : String) : IsString (stringText text) :=
  .intro (isStringBody_chars text.toList)

/-! ## Entries -/

theorem SettlesTo.string (depth : Nat) (text : String) :
    SettlesTo (readValue depth) (stringText text) (some (.string text)) := by
  intro scan rest hScan _
  have hHead : scan.rest = '"' :: (text.toList.flatMap stringChar ++ '"' :: rest) := by
    simpa [stringText] using hScan
  obtain ⟨next, hRead, hNext⟩ := readString_text (rest_skip_cons hHead)
  have hValue : readValue depth scan = .ok (.string text, next) := by
    rw [readValue.eq_def]
    simp only [skipSpace_of_head hHead (by decide), hHead]
    simp [hRead, Except.map]
  rw [hValue]
  exact .read hNext

def entryText (key : String) (text : List Char) : List Char :=
  stringText key ++ ':' :: text

theorem entryText_head (key : String) (text : List Char) : ∃ more, entryText key text = '"' :: more :=
  ⟨_, rfl⟩

theorem SettlesTo.entry {outcome : Option Value} (key : String) (h : SettlesTo (readValue depth) text outcome) :
    SettlesTo (readEntry (readValue depth)) (entryText key text) (outcome.map fun value => (key, value)) := by
  intro scan rest hScan hEnds
  have hHead : scan.rest = '"' :: (key.toList.flatMap stringChar ++ '"' :: (':' :: (text ++ rest))) := by
    simpa [entryText, stringText] using hScan
  obtain ⟨colon, hString, hColon⟩ := readString_text (rest_skip_cons hHead)
  have hEntry : readEntry (readValue depth) scan =
      (readValue depth (colon.skip 1)).map fun found => ((key, found.1), found.2) := by
    rw [readEntry]
    simp only [hString, readColon_text hColon, Bind.bind, Except.bind, Except.map]
  rw [hEntry]
  exact (h _ rest (rest_skip_cons hColon) hEnds).map fun value => (key, value)

def EntriesSettle (depth : Nat) (isFirst : Bool) (text : List Char) (outcome : Option (List (String × Value))) : Prop :=
  ∀ (bound : Nat) (scan : Scan) (rest : List Char), text.length < bound → scan.rest = text ++ rest →
    Settles rest outcome (readEntries (readValue depth) bound isFirst scan)

section Entries

variable {key : String} {outcome : Option Value} {others : Option (List (String × Value))}

theorem EntriesSettle.close (depth : Nat) (isFirst : Bool) : EntriesSettle depth isFirst ['\x7d'] (some []) := by
  intro bound scan rest hBound hScan
  obtain ⟨bound, rfl⟩ := Nat.exists_eq_add_one.mpr (Nat.zero_lt_of_lt hBound)
  have hEnd : scan.skipSpace.rest = '\x7d' :: rest := by rw [skipSpace_of_head hScan (by decide), hScan]; rfl
  rw [(readEntries_parts (readValue depth)).close hEnd]
  exact .read (rest_skip_cons hEnd)

theorem settles_entries (hValue : SettlesTo (readValue depth) text outcome)
    (hTail : EntriesSettle depth false tail others) (hMark : EndsNumeral (tail ++ rest)) {bound : Nat}
    (hBound : tail.length < bound) (h : scan.rest = entryText key text ++ (tail ++ rest)) :
    Settles rest (outcome.bind fun value => others.map ((key, value) :: ·))
      (consPart (readEntry (readValue depth) scan) (readEntries (readValue depth) bound false)) := by
  have hAll : Settles rest ((outcome.map fun value => (key, value)).bind fun entry => others.map (entry :: ·))
      (consPart (readEntry (readValue depth) scan) (readEntries (readValue depth) bound false)) :=
    (hValue.entry key scan _ h hMark).bind fun entry next _ hNext =>
      (hTail bound next rest hBound hNext).map (entry :: ·)
  rwa [Option.bind_map] at hAll

theorem EntriesSettle.first (key : String) (hValue : SettlesTo (readValue depth) text outcome)
    (hTail : EntriesSettle depth false tail others) (hMark : ∀ rest, EndsNumeral (tail ++ rest)) :
    EntriesSettle depth true (entryText key text ++ tail)
      (outcome.bind fun value => others.map ((key, value) :: ·)) := by
  intro bound scan rest hBound hScan
  obtain ⟨bound, rfl⟩ := Nat.exists_eq_add_one.mpr (Nat.zero_lt_of_lt hBound)
  rw [List.append_assoc] at hScan
  obtain ⟨more, hHead⟩ := entryText_head key text
  have hSpace : scan.skipSpace = scan := skipSpace_of_head (hHead ▸ hScan) (by decide)
  rw [(readEntries_parts (readValue depth)).first (by rw [hSpace, hScan, hHead]; rfl) rfl, hSpace]
  exact settles_entries hValue hTail (hMark rest) (by simp [hHead] at hBound; omega) hScan

theorem EntriesSettle.next (key : String) (hValue : SettlesTo (readValue depth) text outcome)
    (hTail : EntriesSettle depth false tail others) (hMark : ∀ rest, EndsNumeral (tail ++ rest)) :
    EntriesSettle depth false (',' :: (entryText key text ++ tail))
      (outcome.bind fun value => others.map ((key, value) :: ·)) := by
  intro bound scan rest hBound hScan
  obtain ⟨bound, rfl⟩ := Nat.exists_eq_add_one.mpr (Nat.zero_lt_of_lt hBound)
  have hComma : scan.rest = ',' :: (entryText key text ++ (tail ++ rest)) := by simpa using hScan
  have hStart := rest_skip_cons hComma
  obtain ⟨more, hHead⟩ := entryText_head key text
  have hSpace : scan.skipSpace = scan := skipSpace_of_head hComma (by decide)
  have hBehind : (scan.skip 1).skipSpace = scan.skip 1 := skipSpace_of_head (hHead ▸ hStart) (by decide)
  rw [(readEntries_parts (readValue depth)).next (by rw [hSpace, hComma])
    (by rw [hSpace, hBehind, hStart, hHead]; rfl) rfl, hSpace, hBehind]
  exact settles_entries hValue hTail (hMark rest) (by simp [hHead] at hBound; omega) hStart

theorem EntriesSettle.object (h : EntriesSettle depth true text others) :
    SettlesTo (readValue (depth + 1)) ('\x7b' :: text) (others.map Value.object) := by
  intro scan rest hScan _
  have hHead : scan.rest = '\x7b' :: (text ++ rest) := hScan
  have hBound : text.length < scan.rest.length := by rw [hHead, List.length_cons, List.length_append]; omega
  rw [readValue_object depth hHead]
  exact (h _ _ rest hBound (rest_skip_cons hHead)).map Value.object

end Entries

/-! ## One attribute -/

def attributeTokens (name keyword key : String) (literal : List Char) : TokenTree :=
  .object [(stringText name,
    .object [(stringText keywordKey, .scalar (stringText keyword)), (stringText key, .scalar literal)])]

def attributeEntries (keyword key : String) (value : Value) : List (String × Value) :=
  [(keywordKey, .string keyword), (key, value)]

def attributeDocument (name keyword key : String) (value : Value) : Value :=
  .object [(name, .object (attributeEntries keyword key value))]

variable {name keyword key : String} {literal : List Char} {outcome : Option Value}

/-- The text of the tokens without spaces. -/
def attributeText (name keyword key : String) (literal : List Char) : List Char :=
  '\x7b' :: (entryText name ('\x7b' :: (entryText keywordKey (stringText keyword) ++
    ',' :: (entryText key literal ++ ['\x7d']))) ++ ['\x7d'])

theorem attributeText_settles (h : ∀ depth, SettlesTo (readValue depth) literal outcome) (depth : Nat) :
    SettlesTo (readValue (depth + 2)) (attributeText name keyword key literal)
      (outcome.map (attributeDocument name keyword key)) := by
  have hClosing : ∀ rest, EndsNumeral (['\x7d'] ++ rest) := by
    rintro rest c ⟨⟩
    rfl
  have hComma : ∀ more rest, EndsNumeral ((',' :: more) ++ rest) := by
    rintro more rest c ⟨⟩
    rfl
  have hAttribute : EntriesSettle depth false _ _ := .next key (h depth) (.close depth false) hClosing
  have hKeyword : EntriesSettle depth true _ _ := .first keywordKey (.string depth keyword) hAttribute (hComma _)
  have hCommand : EntriesSettle (depth + 1) true _ _ :=
    .first name hKeyword.object (.close (depth + 1) false) hClosing
  have hText := hCommand.object
  cases outcome with
  | none => exact hText
  | some value => exact hText

theorem attributeText_spells {style : Style} (hNone : style.gap []) (hLast : style.last [])
    (hLiteral : IsScalar literal) :
    Spells style (attributeTokens name keyword key literal) (attributeText name keyword key literal) := by
  have hKeyword : Entry style (Written style) (stringText keywordKey, .scalar (stringText keyword)) _ :=
    .intro (isString_stringText _) hNone hNone (.scalar (.string (isString_stringText _)))
  have hAttribute : Entry style (Written style) (stringText key, .scalar literal) _ :=
    .intro (isString_stringText _) hNone hNone (.scalar hLiteral)
  have hCommand : Entry style (Written style) (stringText name, .object _) _ :=
    .intro (isString_stringText _) hNone hNone
      (.object (.parts hNone hKeyword (.more hNone hNone hAttribute (.ending (.bare hNone)))))
  have hText : Spells style (attributeTokens name keyword key literal) _ :=
    .intro hNone (.object (.parts hNone hCommand (.ending (.bare hNone)))) hLast
  refine Eq.mp (congrArg (Spells style _) ?_) hText
  simp [attributeText, entryText]

/-- Whatever the layout, the text is read when the literal is, and then holds its value. -/
theorem read_attribute {source : List Char} (hLiteral : IsScalar literal)
    (h : ∀ depth, SettlesTo (readValue depth) literal outcome)
    (hSource : Spells .relaxed (attributeTokens name keyword key literal) source) (value : Value) :
    read (relax source) = .ok value ↔ outcome.map (attributeDocument name keyword key) = some value := by
  -- All texts of the tokens have one outcome, and the text without spaces shows which one it is.
  obtain ⟨whole, hWhole⟩ := Spells.settles (attributeTokens name keyword key literal)
  rw [hWhole _ hSource.relax, ← hWhole _ (attributeText_spells isSpaces_nil isSpaces_nil hLiteral)]
  exact (attributeText_settles h 125).read_iff

end Json

end DialogTree
