import DialogTree.Proofs.Acceptance
import DialogTree.Proofs.Canonical.Lossless
import DialogTree.Proofs.Json.Accepted
import DialogTree.Proofs.Literals.JsonTexts
import DialogTree.Proofs.Literals.Texts

/-!
# Numerals as attribute values

A numeral is written as the value of one attribute in a text of the document grammar and in a JSON text. An
integer in range and a finite float give the same value from both. The languages part where a whole number is
out of range, which the document grammar reports and JSON rounds, where zero has a minus sign, and where a number
with a point is beyond the finite floats.
-/

namespace DialogTree

variable {numeral : Numeral} {name keyword key source : String} {value : Value}

/-! ## Trees of one attribute -/

def Tree.HasOnly (name keyword key : String) (value : Value) (tree : Tree) : Prop :=
  ∃ (attributes : AttributeMap) (position : Option Position), attributes.entries = [(key, value)] ∧
    tree = ⟨[(name, ⟨keyword, none, attributes, none, position⟩)]⟩

def ReadsOnly (name keyword key : String) (value : Value) (outcome : Except Diagnostics Tree) : Prop :=
  ∃ tree, outcome = .ok tree ∧ tree.HasOnly name keyword key value

/-- The keys under which no number may stand. -/
def numberless : List String := typeKey :: reservedKeys

theorem canonicalize_attribute {position position' : Option Position} (hName : name ≠ "") (hKeyword : keyword ≠ "")
    (hKey : key ∉ numberless) : ∃ tree, tree.HasOnly name keyword key value ∧
      canonicalize [⟨name, keyword, position, [⟨key, value, position'⟩], none⟩] = (tree, []) := by
  obtain ⟨hType, hFree⟩ : key ≠ typeKey ∧ key ∉ reservedKeys := by simpa [numberless] using hKey
  have hGathers : Gathers [⟨key, value, position'⟩] none ⟨[(key, value)], List.pairwise_singleton _ key⟩ :=
    ⟨by simpa using hFree, List.pairwise_singleton _ key, by simp [hType],
      by simp [hType, DeclaredAttribute.pair]⟩
  exact ⟨_, ⟨_, position, rfl, rfl⟩,
    canonicalize_ok_iff.mpr ⟨.cons (.bare hName hKeyword hGathers) .nil, List.pairwise_singleton _ name⟩⟩

theorem Builds.value_numberless {declaration : Declaration} {entry : String × Node} (h : Builds declaration entry)
    {item : DeclaredAttribute} (hItem : item ∈ declaration.attributes) (hKey : item.key ∈ numberless) :
    ∃ text, item.value = .string text := by
  cases (Builds.lossless declaration h).1 with
  | intro _ _ hItems _ _ =>
    rcases List.mem_cons.mp hKey with hType | hReserved
    · exact hItems.typed item hItem hType
    · exact absurd hReserved (not_mem_reservedKeys.mpr (hItems.free item hItem))

/-! ## Texts of the document grammar -/

theorem WordTo.ne_empty {lead body : Char → Bool} {word : String} {c d : Cursor} (h : WordTo lead body word c d) :
    word ≠ "" := by
  cases h with
  | intro => simp

theorem TextWrites.words {literal : List Char} (h : TextWrites name keyword key literal source) :
    IsName name ∧ isIdentifier keyword = true ∧ isIdentifier key = true := by
  cases h with
  | intro _ _ _ hName _ _ hKeyword _ hAttribute _ _ =>
    cases hAttribute with
    | intro _ _ hKeyed _ _ _ _ =>
      cases hKeyed with
      | intro hKey _ _ _ _ => exact ⟨⟨hName.ne_empty, hName.all⟩, hKeyword.isIdentifier, hKey.isIdentifier⟩

theorem TextWrites.readsOnly {literal : List Char} (h : TextWrites name keyword key literal source)
    (hValue : ReadsLiteral literal value) (hKey : key ∉ numberless) (document : String) :
    ReadsOnly name keyword key value (readText source document) := by
  obtain ⟨hName, hKeyword, -⟩ := h.words
  obtain ⟨p, q, hDerives⟩ := h.derives hValue
  obtain ⟨tree, hTree, hCanonical⟩ := @canonicalize_attribute name keyword key value (some p) (some q) hName.some
    (isIdentifier_ne_empty hKeyword) hKey
  refine ⟨tree, ?_, hTree⟩
  rw [readText_eq, document_of_derives hDerives, finishDocument, hCanonical]
  rfl

theorem TextWrites.value_of_ok {literal : List Char} {document : String} {tree : Tree}
    (h : TextWrites name keyword key literal source) (hTree : readText source document = .ok tree) :
    ∃ value, ReadAtLiteral literal value ∧ (key ∈ numberless → ∃ text, value = .string text) := by
  obtain ⟨declarations, hDerives, hCanonical⟩ := readText_ok hTree
  obtain ⟨declaration, hMem, item, hItem, rfl, hValue⟩ := h.value hDerives
  obtain ⟨entry, -, hBuilds⟩ := exists_right_of_forall₂ (canonicalize_ok_iff.mp hCanonical).1 declaration hMem
  exact ⟨item.value, hValue, hBuilds.value_numberless hItem⟩

theorem isOk_eq_false {outcome : Except Diagnostics Tree} (h : ∀ tree, outcome ≠ .ok tree) : outcome.isOk = false := by
  cases outcome with
  | error problems => rfl
  | ok tree => exact absurd rfl (h tree)

theorem TextWrites.refused_key (h : TextWrites name keyword key numeral.text source) (hKey : key ∈ numberless)
    (document : String) : (readText source document).isOk = false := by
  refine isOk_eq_false fun tree hTree => ?_
  obtain ⟨value, ⟨c, d, e, hPasses, hBounds, hValue⟩, hString⟩ := h.value_of_ok hTree
  obtain ⟨text, hText⟩ := hString hKey
  exact Numeral.not_string hPasses hBounds hValue text hText

theorem TextWrites.refused_range (h : TextWrites name keyword key numeral.text source) (hWhole : numeral.fraction = [])
    (hBeyond : ∀ n : Int64, n.toInt ≠ numeral.toInt) (document : String) :
    (readText source document).isOk = false := by
  refine isOk_eq_false fun tree hTree => ?_
  obtain ⟨value, ⟨c, d, e, hPasses, hBounds, hValue⟩, -⟩ := h.value_of_ok hTree
  obtain ⟨n, -, hNumber⟩ := Numeral.integer_of_valueTo hPasses hBounds hWhole hValue
  exact hBeyond n hNumber

/-! ## JSON texts -/

namespace Json

variable {json : String} {written : Value}

theorem read_numeral (hJson : Spells .relaxed (attributeTokens name keyword key numeral.text) json.toList)
    (value : Value) : read (relax json.toList) = .ok value ↔
      ∃ written, read numeral.text = .ok written ∧ value = attributeDocument name keyword key written := by
  obtain ⟨outcome, hSettles, hRead⟩ := numeral.settles
  simp only [read_attribute (.number numeral.isNumber) hSettles hJson, hRead, Option.map_eq_some_iff, @eq_comm _ value]

theorem commandEntries_attribute :
    commandEntries [(name, Value.object (attributeEntries keyword key written))] =
      [(name, .object (attributeEntries keyword key written))] :=
  rfl

theorem declarations_attribute (hName : IsName name) (hKeyword : isIdentifier keyword = true)
    (hKey : isIdentifier key = true) (hFree : key ∉ numberless) {value : DialogTree.Value}
    (hValue : Denotes written value) :
    declarations (attributeDocument name keyword key written) =
      ([⟨name, keyword, none, [⟨key, value, none⟩], none⟩], []) := by
  have hNames : key ≠ typeKey ∧ key ≠ keywordKey ∧ key ≠ childrenKey ∧ key ≠ nameKey := by
    simpa [numberless, reservedKeys] using hFree
  obtain ⟨-, hNotKeyword, hNotChildren, -⟩ := hNames
  have hOne : valuesOf keywordKey (attributeEntries keyword key written) = [.string keyword] := by
    simp [valuesOf, attributeEntries, hNotKeyword]
  have hNone : valuesOf childrenKey (attributeEntries keyword key written) = [] := by
    simp [valuesOf, attributeEntries, hNotChildren, childrenKey_ne.symm]
  have hRest : writtenOf (attributeEntries keyword key written) = [(key, written)] := by
    simp [writtenOf, attributeEntries, hNotKeyword, hNotChildren]
  have hItems : List.Forall₂ DeclaresItem (writtenOf (attributeEntries keyword key written)) [⟨key, value, none⟩] := by
    rw [hRest]
    exact .cons ⟨hKey, rfl, hValue, rfl⟩ .nil
  have hDeclares : Declares (name, .object (attributeEntries keyword key written)) _ :=
    .bare hName.all hOne (fun _ => hKeyword) hItems hNone
  refine declarations_ok_iff.mpr ⟨_, rfl, List.cons_ne_nil _ _, ?_, ?_⟩
  · rintro entry hMem
    obtain rfl := List.mem_singleton.mp hMem
    rintro ⟨⟩
  · rw [commandEntries_attribute]
    exact .cons hDeclares .nil

theorem not_isDocument_attribute (hKey : key ∈ numberless)
    (hNumber : (∃ n, written = .integer n) ∨ ∃ x, written = .float x) :
    ¬ IsDocument (attributeDocument name keyword key written) := by
  have hString : ∀ text, written ≠ .string text := by
    rcases hNumber with ⟨n, rfl⟩ | ⟨x, rfl⟩ <;> simp
  have hObject : ∀ children, written ≠ .object children := by
    rcases hNumber with ⟨n, rfl⟩ | ⟨x, rfl⟩ <;> simp
  have hMem : (key, written) ∈ attributeEntries keyword key written := by simp [attributeEntries]
  have hValues : written ∈ valuesOf key (attributeEntries keyword key written) :=
    List.mem_map.mpr ⟨_, List.mem_filter.mpr ⟨hMem, by simp⟩, rfl⟩
  rintro ⟨-, -, -, hEach⟩
  rw [commandEntries_attribute] at hEach
  -- The type and the keyword have to be strings, the children an object, and a name is no attribute at all.
  cases hEach _ List.mem_cons_self with
  | intro _ hKeyword _ _ hBody _ _ _ hFree hType _ =>
    simp only [numberless, reservedKeys, List.mem_cons, List.not_mem_nil, or_false] at hKey
    rcases hKey with rfl | rfl | rfl | rfl
    · obtain ⟨text, hText⟩ := hType written hValues
      exact hString text hText
    · rw [hKeyword, List.mem_singleton] at hValues
      exact hString _ hValues
    · obtain ⟨children, hChildren, -⟩ := hBody written hValues
      exact hObject children hChildren
    · have hNameKey : nameKey ≠ keywordKey ∧ nameKey ≠ childrenKey := by decide
      have hWritten : (nameKey, written) ∈ writtenOf (attributeEntries keyword nameKey written) :=
        List.mem_filter.mpr ⟨hMem, decide_eq_true hNameKey⟩
      exact (hFree _ hWritten).2 rfl

theorem readsOnly_numeral (hName : IsName name) (hKeyword : isIdentifier keyword = true)
    (hKey : isIdentifier key = true) (hFree : key ∉ numberless)
    (hJson : Spells .relaxed (attributeTokens name keyword key numeral.text) json.toList)
    (hRead : read numeral.text = .ok written) {value : DialogTree.Value} (hValue : Denotes written value)
    (document : String) :
    ReadsOnly name keyword key value (readJson json document) := by
  obtain ⟨tree, hTree, hCanonical⟩ := @canonicalize_attribute name keyword key value none none hName.some
    (isIdentifier_ne_empty hKeyword) hFree
  refine ⟨tree, readJson_ok_iff.mpr ⟨_, (read_numeral hJson _).mpr ⟨_, hRead, rfl⟩, ?_⟩, hTree⟩
  rw [declarations_attribute hName hKeyword hKey hFree hValue, finishDocument, hCanonical]
  rfl

theorem refused_numeral (hJson : Spells .relaxed (attributeTokens name keyword key numeral.text) json.toList)
    (hRead : ∀ written, read numeral.text ≠ .ok written) (document : String) : (readJson json document).isOk = false := by
  refine isOk_eq_false fun tree hTree => ?_
  obtain ⟨value, hValue, -⟩ := readJson_ok_iff.mp hTree
  obtain ⟨written, hWritten, -⟩ := (read_numeral hJson value).mp hValue
  exact hRead written hWritten

theorem refused_key (hJson : Spells .relaxed (attributeTokens name keyword key numeral.text) json.toList)
    (hKey : key ∈ numberless)
    (hNumber : ∀ written, read numeral.text = .ok written → (∃ n, written = .integer n) ∨ ∃ x, written = .float x)
    (document : String) : (readJson json document).isOk = false := by
  refine isOk_eq_false fun tree hTree => ?_
  obtain ⟨value, hValue, hFinish⟩ := readJson_ok_iff.mp hTree
  obtain ⟨written, hWritten, rfl⟩ := (read_numeral hJson value).mp hValue
  obtain ⟨hErrors, hCanonical⟩ := finishDocument_ok hFinish
  exact not_isDocument_attribute hKey (hNumber written hWritten)
    (isDocument_iff.mpr ⟨_, tree, Prod.ext rfl hErrors, hCanonical⟩)

end Json

/-! ## Both texts -/

/-- What becomes of a numeral in a text of the document grammar and in JSON, under one key of one command. -/
structure NumeralOutcomes (numeral : Numeral) (name keyword key : String) (text json : Except Diagnostics Tree) :
    Prop where
  /-- Some keys are for no number. -/
  refused : key ∈ numberless → text.isOk = false ∧ json.isOk = false
  /-- An integer in range, unless zero is written with a minus sign. -/
  integer : key ∉ numberless → ∀ n : Int64, numeral.fraction = [] → n.toInt = numeral.toInt →
    (numeral.negative = true → numeral.magnitude ≠ 0) →
      ReadsOnly name keyword key (.integer n) text ∧ ReadsOnly name keyword key (.integer n) json
  /-- An integer out of range is reported in one language and rounded in the other. -/
  beyond : key ∉ numberless → numeral.fraction = [] → (∀ n : Int64, n.toInt ≠ numeral.toInt) →
    text.isOk = false ∧ (numeral.nearest.isFinite = true → ReadsOnly name keyword key (.float numeral.nearest) json) ∧
      (numeral.nearest.isFinite = false → json.isOk = false)
  /-- A number with a point is rounded in both. -/
  float : key ∉ numberless → numeral.fraction ≠ [] → numeral.nearest.isFinite = true →
    ReadsOnly name keyword key (.float numeral.nearest) text ∧ ReadsOnly name keyword key (.float numeral.nearest) json

/-- The same numeral as the value of the same attribute of the same command: if JSON reads numerals with a point,
and whole numbers that fit no word, as the nearest float, both languages agree on integers in range and on finite
floats. -/
theorem numeral_outcomes {json : String} (hText : TextWrites name keyword key numeral.text source)
    (hJson : Json.Spells .relaxed (Json.attributeTokens name keyword key numeral.text) json.toList)
    (hRounds : numeral.fraction ≠ [] ∨ Json.wordLimit ≤ numeral.magnitude → numeral.RoundedInJson)
    (document document' : String) :
    NumeralOutcomes numeral name keyword key (readText source document) (readJson json document') := by
  obtain ⟨hName, hKeyword, hKey⟩ := hText.words
  constructor
  · intro hReserved
    exact ⟨hText.refused_key hReserved document,
      Json.refused_key hJson hReserved (fun _ => Numeral.number_of_read hRounds) document'⟩
  · intro hFree n hWhole hValue hZero
    have hRead := Numeral.read_integer hWhole hValue hZero
    exact ⟨hText.readsOnly (fun hPasses hBounds => Numeral.integer_valueTo hPasses hBounds hWhole hValue) hFree document,
      Json.readsOnly_numeral hName hKeyword hKey hFree hJson hRead (.integer rfl) document'⟩
  · intro hFree hWhole hBeyond
    refine ⟨hText.refused_range hWhole hBeyond document, fun hFinite => ?_, fun hInfinite => ?_⟩
    · obtain ⟨written, hRead, hWritten⟩ := Numeral.read_beyond hRounds hWhole hBeyond hFinite
      exact Json.readsOnly_numeral hName hKeyword hKey hFree hJson hRead hWritten document'
    · exact Json.refused_numeral hJson (Numeral.read_infinite hRounds hInfinite) document'
  · intro hFree hFraction hFinite
    have hRead := (hRounds (.inl hFraction) (.float numeral.nearest)).mpr ⟨hFinite, rfl⟩
    exact ⟨hText.readsOnly (fun hPasses hBounds => Numeral.float_valueTo hPasses hBounds hFraction) hFree document,
      Json.readsOnly_numeral hName hKeyword hKey hFree hJson hRead (.float _) document'⟩

def negativePointed : Numeral where
  negative := true
  whole := ['1', '2']
  fraction := ['5']
  isWhole := .digits rfl (by decide) (List.all_eq_true.mp (by decide))
  isFraction := List.all_eq_true.mp (by decide)

/-- The least whole number beyond the signed 64-bit range. -/
def leastBeyond : Numeral where
  negative := false
  whole := '9' :: "223372036854775808".toList
  fraction := []
  isWhole := .digits rfl (by decide) (List.all_eq_true.mp (by decide +kernel))
  isFraction := by simp

theorem size_texts {json : String} (hSource : source.toList = plainText "info" "dialog" "size" numeral.text)
    (hJson : json.toList = Json.attributeText "info" "dialog" "size" numeral.text) :
    TextWrites "info" "dialog" "size" numeral.text source ∧
      Json.Spells .relaxed (Json.attributeTokens "info" "dialog" "size" numeral.text) json.toList := by
  refine ⟨textWrites_plain (isName_iff.mp (by decide)) (by decide) (by decide) numeral.text_head hSource, ?_⟩
  rw [hJson]
  exact Json.attributeText_spells .nil (.gap .nil) (.number numeral.isNumber)

theorem numeral_outcomes_pointed :
    TextWrites "info" "dialog" "size" negativePointed.text "version 1\ninfo dialog(size=-12.5)" ∧
      Json.Spells .relaxed (Json.attributeTokens "info" "dialog" "size" negativePointed.text)
        "\x7b\"info\":\x7b\"keyword\":\"dialog\",\"size\":-12.5\x7d\x7d".toList ∧
      negativePointed.RoundedInJson ∧
      ReadsOnly "info" "dialog" "size" (.float (.ofRatio true 125 10))
        (readText "version 1\ninfo dialog(size=-12.5)" "info") ∧
      ReadsOnly "info" "dialog" "size" (.float (.ofRatio true 125 10))
        (readJson "\x7b\"info\":\x7b\"keyword\":\"dialog\",\"size\":-12.5\x7d\x7d" "info") := by
  obtain ⟨hText, hJson⟩ := @size_texts negativePointed "version 1\ninfo dialog(size=-12.5)"
    "\x7b\"info\":\x7b\"keyword\":\"dialog\",\"size\":-12.5\x7d\x7d" (by decide +kernel) (by decide +kernel)
  have hRounds : negativePointed.RoundedInJson := Numeral.roundedInJson_short (by decide) (by decide) (by decide)
  have hFinite : negativePointed.nearest.isFinite = true := by decide +kernel
  have hOutcomes := numeral_outcomes hText hJson (fun _ => hRounds) "info" "info"
  exact ⟨hText, hJson, hRounds, hOutcomes.float (by decide) (by decide) hFinite⟩

/-- Both texts are reported, or both give the same value. -/
def SameOutcome (name keyword key : String) (text json : Except Diagnostics Tree) : Prop :=
  text.isOk = false ∧ json.isOk = false ∨
    ∃ value, ReadsOnly name keyword key value text ∧ ReadsOnly name keyword key value json

/-- A whole number out of range is reported in a text and rounded in JSON, so that the outcomes differ. -/
theorem outcomes_differ_leastBeyond :
    TextWrites "info" "dialog" "size" leastBeyond.text "version 1\ninfo dialog(size=9223372036854775808)" ∧
      Json.Spells .relaxed (Json.attributeTokens "info" "dialog" "size" leastBeyond.text)
        "\x7b\"info\":\x7b\"keyword\":\"dialog\",\"size\":9223372036854775808\x7d\x7d".toList ∧
      leastBeyond.fraction = [] ∧ leastBeyond.magnitude < Json.wordLimit ∧
      ¬ SameOutcome "info" "dialog" "size" (readText "version 1\ninfo dialog(size=9223372036854775808)" "info")
        (readJson "\x7b\"info\":\x7b\"keyword\":\"dialog\",\"size\":9223372036854775808\x7d\x7d" "info") := by
  obtain ⟨hText, hJson⟩ := @size_texts leastBeyond "version 1\ninfo dialog(size=9223372036854775808)"
    "\x7b\"info\":\x7b\"keyword\":\"dialog\",\"size\":9223372036854775808\x7d\x7d" (by decide +kernel)
    (by decide +kernel)
  have hShort : leastBeyond.magnitude < Json.wordLimit := by decide +kernel
  have hNumber : leastBeyond.toInt = 2 ^ 63 := by decide +kernel
  have hBeyond : ∀ n : Int64, n.toInt ≠ leastBeyond.toInt := by
    intro n
    have hHigh := n.toInt_lt
    omega
  have hFinite : leastBeyond.nearest.isFinite = true := by decide +kernel
  have hRounds : leastBeyond.fraction ≠ [] ∨ Json.wordLimit ≤ leastBeyond.magnitude → leastBeyond.RoundedInJson := by
    rintro (hFraction | hLong)
    · exact absurd rfl hFraction
    · omega
  refine ⟨hText, hJson, rfl, hShort, ?_⟩
  obtain ⟨written, hRead, hWritten⟩ := Numeral.read_beyond hRounds rfl hBeyond hFinite
  obtain ⟨hName, hKeyword, hKey⟩ := hText.words
  have hRefused := hText.refused_range rfl hBeyond "info"
  rintro (⟨-, hNone⟩ | ⟨value, ⟨tree, hTree, -⟩, -⟩)
  · obtain ⟨tree, hTree, -⟩ := Json.readsOnly_numeral hName hKeyword hKey (by decide) hJson hRead hWritten "info"
    rw [hTree] at hNone
    cases hNone
  · rw [hTree] at hRefused
    cases hRefused

/-! ## Where the languages part -/

section Parting

variable {json : String} (hText : TextWrites name keyword key numeral.text source)
  (hJson : Json.Spells .relaxed (Json.attributeTokens name keyword key numeral.text) json.toList)
  (hFree : key ∉ numberless)

include hText hJson hFree

/-- Zero with a minus sign is the integer in a text, and in JSON the float that keeps the sign. -/
theorem minus_zero_outcomes (hWhole : numeral.fraction = []) (hNegative : numeral.negative = true)
    (hZero : numeral.magnitude = 0) (document document' : String) :
    ReadsOnly name keyword key (.integer 0) (readText source document) ∧
      ReadsOnly name keyword key (.float (.ofRatio true 0 1)) (readJson json document') := by
  obtain ⟨hName, hKeyword, hKey⟩ := hText.words
  have hValue : (0 : Int64).toInt = numeral.toInt := by
    rw [Numeral.toInt_of_negative hNegative, hZero]
    rfl
  have hRead : Json.read numeral.text = .ok (.float (.ofRatio true 0 1)) := by
    rw [Numeral.read_short hWhole (by rw [hZero]; decide), Json.wholeNumber, hNegative, hZero]
    rfl
  exact ⟨hText.readsOnly (fun hPasses hBounds => Numeral.integer_valueTo hPasses hBounds hWhole hValue) hFree document,
    Json.readsOnly_numeral hName hKeyword hKey hFree hJson hRead (.float _) document'⟩

/-- A number with a point beyond the finite floats is an infinity in a text, and JSON refuses it. -/
theorem infinite_outcomes (hFraction : numeral.fraction ≠ []) (hInfinite : numeral.nearest.isFinite = false)
    (hRounds : numeral.RoundedInJson) (document document' : String) :
    ReadsOnly name keyword key (.float numeral.nearest) (readText source document) ∧
      (readJson json document').isOk = false :=
  ⟨hText.readsOnly (fun hPasses hBounds => Numeral.float_valueTo hPasses hBounds hFraction) hFree document,
    Json.refused_numeral hJson (Numeral.read_infinite (fun _ => hRounds) hInfinite) document'⟩

end Parting

end DialogTree
