import DialogTree.Proofs.Json.Reading
import DialogTree.Proofs.Json.Spelling
import DialogTree.Proofs.Naming.Readers

/-!
# Texts of the same tokens are read alike

What is read depends on the tokens of a text alone. Comments, spaces and commas behind last parts, wherever they
stand between tokens, change neither whether a text is read nor the tree that it gives.
-/

namespace DialogTree

namespace Json

variable {scan : Scan} {text rest : List Char} {depth : Nat}

/-- Every text of the part has the same outcome. -/
def PartSettles {α β : Type} (reader : Reader β) (Part : α → List Char → Prop) (part : α) : Prop :=
  ∃ outcome, ∀ text, Part part text → ∀ (scan : Scan) (rest : List Char), scan.rest = text ++ rest →
    EndsNumeral rest → Settles rest outcome (reader scan)

/-! ## Gaps -/

theorem IsSpaces.skip {gap : List Char} {c : Char} (h : IsSpaces gap) (hScan : scan.rest = gap ++ c :: rest)
    (hc : Scan.isSpace c = false) : scan.skipSpace.rest = c :: rest := by
  rw [skipSpace_rest, hScan, List.dropWhile_append_of_pos h]
  simp [hc]

theorem OpensText.head (h : OpensText text) : ∃ c more, text = c :: more ∧ Scan.isSpace c = false := by
  obtain ⟨c, more, rfl, hOpens⟩ := h
  exact ⟨c, more, rfl, hOpens.notSpace⟩

theorem isSpace_endsNumeral {c : Char} (h : Scan.isSpace c = true) (rest : List Char) : EndsNumeral (c :: rest) := by
  rintro d ⟨⟩
  simp only [Scan.isSpace, Bool.or_eq_true, decide_eq_true_eq] at h
  rcases h with ((rfl | rfl) | rfl) | rfl <;> rfl

theorem IsSpaces.endsNumeral {gap : List Char} (h : IsSpaces gap) (hRest : EndsNumeral rest) :
    EndsNumeral (gap ++ rest) := by
  cases gap with
  | nil => exact hRest
  | cons c gap => exact isSpace_endsNumeral (h c List.mem_cons_self) _

theorem Tail.endsNumeral {α : Type} {Part : α → List Char → Prop} {closing : Char} {parts : List α}
    (h : Tail .strict Part closing parts text) (hClosing : isNumeral closing = false) (rest : List Char) :
    EndsNumeral (text ++ rest) := by
  have hMark : ∀ {c : Char} {more : List Char}, isNumeral c = false → EndsNumeral (c :: more) := by
    rintro c more hc _ ⟨⟩
    exact hc
  cases h with
  | ending hEnding =>
    cases hEnding with
    | bare hGap =>
      rw [List.append_assoc]
      exact IsSpaces.endsNumeral hGap (hMark hClosing)
    | comma hTrailing => exact hTrailing.elim
  | more hBefore =>
    rw [List.append_assoc]
    exact IsSpaces.endsNumeral hBefore (hMark rfl)

/-! ## Arrays and objects -/

def consPart {β : Type} (first : Except Refusal (β × Scan)) (others : Reader (List β)) :
    Except Refusal (List β × Scan) :=
  first.bind fun found => (others found.2).map fun further => (found.1 :: further.1, further.2)

/-- The reader reads parts of the given beginnings, with commas between them, up to the closing character. -/
structure ReadsParts {β : Type} (reader : Nat → Bool → Reader (List β)) (part : Reader β) (Starts : Char → Prop)
    (closing : Char) : Prop where
  close : ∀ {bound : Nat} {isFirst : Bool} {scan : Scan} {rest : List Char}, scan.skipSpace.rest = closing :: rest →
    reader (bound + 1) isFirst scan = .ok ([], scan.skipSpace.skip 1)
  first : ∀ {bound : Nat} {scan : Scan} {c : Char} {rest : List Char}, scan.skipSpace.rest = c :: rest → Starts c →
    reader (bound + 1) true scan = consPart (part scan.skipSpace) (reader bound false)
  next : ∀ {bound : Nat} {scan : Scan} {c : Char} {text rest : List Char}, scan.skipSpace.rest = ',' :: text →
    (scan.skipSpace.skip 1).skipSpace.rest = c :: rest → Starts c →
      reader (bound + 1) false scan = consPart (part (scan.skipSpace.skip 1).skipSpace) (reader bound false)

theorem readItems_parts (item : Reader Value) : ReadsParts (readItems item) item Opens ']' where
  close h := by
    simp only [readItems, h]
    simp
  first h hStarts := by
    simp only [readItems, h, consPart]
    simp [hStarts.notBracket]
    rfl
  next hComma h hStarts := by
    simp only [readItems, hComma, h, consPart]
    simp [hStarts.notBracket]
    rfl

/-- An entry and the further ones are read one reader behind another. -/
theorem readEntry_consPart (item : Reader Value) (others : Reader (List (String × Value))) (scan : Scan) :
    consPart (readEntry item scan) others =
      (do
        let (key, scan) ← readString (scan.skip 1)
        let (_, scan) ← readColon scan
        let (value, scan) ← item scan
        let (rest, scan) ← others scan
        .ok ((key, value) :: rest, scan)) := by
  rw [consPart, readEntry]
  cases hKey : readString (scan.skip 1) with
  | error refusal => rfl
  | ok key =>
    cases hColon : readColon key.2 with
    | error refusal => simp [hColon, Bind.bind, Except.bind]
    | ok colon =>
      cases hValue : item colon.2 with
      | error refusal => simp [hColon, hValue, Bind.bind, Except.bind]
      | ok value => simp [hColon, hValue, Bind.bind, Except.bind, Except.map]

theorem readEntries_parts (item : Reader Value) : ReadsParts (readEntries item) (readEntry item) (· = '"') '\x7d' where
  close h := by
    simp only [readEntries, h]
    simp
  first h hStarts := by
    subst hStarts
    rw [readEntry_consPart]
    simp only [readEntries, h]
    simp
  next hComma h hStarts := by
    subst hStarts
    rw [readEntry_consPart]
    simp only [readEntries, hComma, h]
    simp

section Parts

variable {α β : Type} {reader : Nat → Bool → Reader (List β)} {part : Reader β} {Starts : Char → Prop} {closing : Char}
  {Part : α → List Char → Prop} {parts : List α} (hReads : ReadsParts reader part Starts closing)
  (hClosing : Scan.isSpace closing = false ∧ isNumeral closing = false)
  (hStarts : ∀ {a text}, Part a text → ∃ c more, text = c :: more ∧ Starts c ∧ Scan.isSpace c = false)
  (hParts : ∀ a ∈ parts, PartSettles part Part a)

include hReads hClosing hStarts hParts

theorem Tail.settles : ∃ outcome, ∀ text, Tail .strict Part closing parts text → ∀ (bound : Nat) (scan : Scan)
    (rest : List Char), text.length < bound → scan.rest = text ++ rest →
      Settles rest outcome (reader bound false scan) := by
  -- The outcome is built from the parts alone, before a text of them is given; a part is longer than one step of
  -- the bound.
  induction parts with
  | nil =>
    refine ⟨some [], fun text hText bound scan rest hBound hScan => ?_⟩
    obtain ⟨bound, rfl⟩ := Nat.exists_eq_add_one.mpr (Nat.zero_lt_of_lt hBound)
    cases hText with
    | ending hEnding =>
      cases hEnding with
      | bare hGap =>
        rw [List.append_assoc] at hScan
        have hEnd := IsSpaces.skip hGap hScan hClosing.1
        rw [hReads.close hEnd]
        exact .read (rest_skip_cons hEnd)
      | comma hTrailing => exact hTrailing.elim
  | cons a parts ih =>
    obtain ⟨hFirst, hOthers⟩ := List.forall_mem_cons.mp hParts
    obtain ⟨first, hFirst⟩ := hFirst
    obtain ⟨others, hOthers⟩ := ih hOthers
    refine ⟨first.bind fun value => others.map (value :: ·), fun text hText bound scan rest hBound hScan => ?_⟩
    obtain ⟨bound, rfl⟩ := Nat.exists_eq_add_one.mpr (Nat.zero_lt_of_lt hBound)
    cases hText with
    | @more _ _ before behind text tail hBefore hBehind hPart hTail =>
      -- What stands behind the part begins with a gap or a mark, so that a numeral in it ends where the part does.
      obtain ⟨c, more, rfl, hStart, hNotSpace⟩ := hStarts hPart
      have hComma : scan.skipSpace.rest = ',' :: (behind ++ (c :: more ++ (tail ++ rest))) :=
        IsSpaces.skip hBefore (by simpa using hScan) rfl
      have hText : (scan.skipSpace.skip 1).skipSpace.rest = c :: (more ++ (tail ++ rest)) :=
        IsSpaces.skip hBehind (rest_skip_cons hComma) hNotSpace
      rw [hReads.next hComma hText hStart, consPart]
      refine (hFirst _ hPart _ _ hText (hTail.endsNumeral hClosing.2 rest)).bind fun value next _ hNext => ?_
      exact (hOthers tail hTail bound next rest (by simp at hBound; omega) hNext).map (value :: ·)

theorem Body.settles : ∃ outcome, ∀ text, Body .strict Part closing parts text → ∀ (bound : Nat) (scan : Scan)
    (rest : List Char), text.length < bound → scan.rest = text ++ rest →
      Settles rest outcome (reader bound true scan) := by
  cases parts with
  | nil =>
    refine ⟨some [], fun text hText bound scan rest hBound hScan => ?_⟩
    obtain ⟨bound, rfl⟩ := Nat.exists_eq_add_one.mpr (Nat.zero_lt_of_lt hBound)
    cases hText with
    | empty hGap =>
      rw [List.append_assoc] at hScan
      have hEnd := IsSpaces.skip hGap hScan hClosing.1
      rw [hReads.close hEnd]
      exact .read (rest_skip_cons hEnd)
  | cons a parts =>
    obtain ⟨hFirst, hOthers⟩ := List.forall_mem_cons.mp hParts
    obtain ⟨first, hFirst⟩ := hFirst
    obtain ⟨others, hOthers⟩ := Tail.settles hReads hClosing hStarts hOthers
    refine ⟨first.bind fun value => others.map (value :: ·), fun text hText bound scan rest hBound hScan => ?_⟩
    obtain ⟨bound, rfl⟩ := Nat.exists_eq_add_one.mpr (Nat.zero_lt_of_lt hBound)
    cases hText with
    | @parts _ _ gap text tail hGap hPart hTail =>
      obtain ⟨c, more, rfl, hStart, hNotSpace⟩ := hStarts hPart
      have hText : scan.skipSpace.rest = c :: (more ++ (tail ++ rest)) :=
        IsSpaces.skip hGap (by simpa using hScan) hNotSpace
      rw [hReads.first hText hStart, consPart]
      refine (hFirst _ hPart _ _ hText (hTail.endsNumeral hClosing.2 rest)).bind fun value next _ hNext => ?_
      exact (hOthers tail hTail bound next rest (by simp at hBound; omega) hNext).map (value :: ·)

end Parts

/-! ## Values -/

theorem Entry.settles {entry : List Char × TokenTree}
    (hValue : PartSettles (readValue depth) (Written .strict) entry.2) :
    PartSettles (readEntry (readValue depth)) (Entry .strict (Written .strict)) entry := by
  obtain ⟨key, value⟩ := entry
  by_cases hKey : IsString key
  · cases hKey with
    | @intro body hBody =>
      obtain ⟨name, hName⟩ := readString_settles hBody
      obtain ⟨outcome, hOutcome⟩ := hValue
      refine ⟨name.bind fun text => outcome.map fun value => (text, value), fun text hText scan rest hScan hEnds => ?_⟩
      cases hText with
      | @intro _ _ before behind text _ hBefore hBehind hWritten =>
        have hHead : scan.rest = '"' :: (body ++ '"' :: (before ++ ':' :: (behind ++ (text ++ rest)))) := by
          simpa using hScan
        obtain ⟨c, more, rfl, hNotSpace⟩ := hWritten.opens.head
        refine (hName _ _ (rest_skip_cons hHead)).bind fun name next _ hNext => ?_
        have hMark : next.skipSpace.rest = ':' :: (behind ++ (c :: more ++ rest)) := IsSpaces.skip hBefore hNext rfl
        have hText : (next.skipSpace.skip 1).skipSpace.rest = c :: (more ++ rest) :=
          IsSpaces.skip hBehind (rest_skip_cons hMark) hNotSpace
        have hColon : readColon next = .ok ((), next.skipSpace.skip 1) := by
          rw [readColon]
          simp only [hMark]
        have hRead := hOutcome _ hWritten _ rest hText hEnds
        rw [← readValue_spaced depth hText hNotSpace] at hRead
        simp only [hColon]
        exact hRead.map fun value => (name, value)
  · -- No text is an entry with a key that is no string.
    refine ⟨none, fun text hText => ?_⟩
    cases hText with
    | intro hString => exact absurd hString hKey

theorem readValue_array (depth : Nat) {body : List Char} (h : scan.rest = '[' :: body) :
    readValue (depth + 1) scan = (readItems (readValue depth) scan.rest.length true (scan.skip 1)).map
      fun found => (Value.array found.1, found.2) := by
  rw [readValue.eq_def]
  simp only [skipSpace_of_head h (by decide), h]
  simp

theorem readValue_object (depth : Nat) {body : List Char} (h : scan.rest = '\x7b' :: body) :
    readValue (depth + 1) scan = (readEntries (readValue depth) scan.rest.length true (scan.skip 1)).map
      fun found => (Value.object found.1, found.2) := by
  rw [readValue.eq_def]
  simp only [skipSpace_of_head h (by decide), h]
  simp

theorem readValue_tooDeep {c : Char} {body : List Char} (h : scan.rest = c :: body) (hc : c = '[' ∨ c = '\x7b') :
    ∃ refusal, readValue 0 scan = .error refusal := by
  rw [readValue.eq_def]
  rcases hc with rfl | rfl
  · simp only [skipSpace_of_head h (by decide), h]
    simp
  · simp only [skipSpace_of_head h (by decide), h]
    simp

/-- A value of parts between brackets has one outcome when the parts have, whether or not it lies too deep. -/
theorem bracketed_settles {β : Type} {opening : Char} {reader : Reader Value → Nat → Bool → Reader (List β)}
    {Inside : List Char → Prop} (wrap : List β → Value) (hOpening : opening = '[' ∨ opening = '\x7b')
    (hRead : ∀ (depth : Nat) {scan : Scan} {body : List Char}, scan.rest = opening :: body →
      readValue (depth + 1) scan = (reader (readValue depth) scan.rest.length true (scan.skip 1)).map
        fun found => (wrap found.1, found.2))
    (hInside : ∀ depth, ∃ outcome, ∀ text, Inside text → ∀ (bound : Nat) (scan : Scan) (rest : List Char),
      text.length < bound → scan.rest = text ++ rest →
        Settles rest outcome (reader (readValue depth) bound true scan)) (depth : Nat) :
    ∃ outcome, ∀ text, Inside text → ∀ (scan : Scan) (rest : List Char), scan.rest = opening :: (text ++ rest) →
      Settles rest outcome (readValue depth scan) := by
  cases depth with
  | zero =>
    refine ⟨none, fun text _ scan rest hScan => ?_⟩
    obtain ⟨refusal, hRefused⟩ := readValue_tooDeep hScan hOpening
    rw [hRefused]
    exact .refused
  | succ depth =>
    obtain ⟨outcome, hOutcome⟩ := hInside depth
    refine ⟨outcome.map wrap, fun text hText scan rest hScan => ?_⟩
    have hBound : text.length < scan.rest.length := by rw [hScan, List.length_cons, List.length_append]; omega
    rw [hRead depth hScan]
    exact (hOutcome text hText _ _ rest hBound (rest_skip_cons hScan)).map wrap

/-- Every strict text of the same tokens is read alike. -/
theorem Written.settles (tree : TokenTree) : ∀ depth, PartSettles (readValue depth) (Written .strict) tree := by
  induction tree using TokenTree.induction with
  | hScalar token =>
    intro depth
    by_cases hScalar : IsScalar token
    · obtain ⟨outcome, hOutcome⟩ := hScalar.settles depth
      refine ⟨outcome, fun text hText scan rest hScan hEnds => ?_⟩
      cases hText
      exact hOutcome scan rest hScan hEnds
    · -- No text is written with a token that is no scalar.
      refine ⟨none, fun text hText => ?_⟩
      cases hText with
      | scalar hToken => exact absurd hToken hScalar
  | hArray items hItems =>
    intro depth
    have hStarts : ∀ {tree : TokenTree} {text : List Char}, Written .strict tree text →
        ∃ c more, text = c :: more ∧ Opens c ∧ Scan.isSpace c = false := by
      intro tree text hText
      obtain ⟨c, more, rfl, hOpens⟩ := hText.opens
      exact ⟨c, more, rfl, hOpens, hOpens.notSpace⟩
    obtain ⟨outcome, hOutcome⟩ := bracketed_settles Value.array (.inl rfl) (fun depth => readValue_array depth)
      (fun depth => Body.settles (readItems_parts (readValue depth)) ⟨rfl, rfl⟩ hStarts
        fun item hMem => hItems item hMem depth) depth
    refine ⟨outcome, fun text hText scan rest hScan _ => ?_⟩
    cases hText with
    | array hBody => exact hOutcome _ hBody scan rest hScan
  | hObject entries hEntries =>
    intro depth
    have hStarts : ∀ {entry : List Char × TokenTree} {text : List Char}, Entry .strict (Written .strict) entry text →
        ∃ c more, text = c :: more ∧ c = '"' ∧ Scan.isSpace c = false := by
      intro entry text hText
      cases hText with
      | intro hKey =>
        cases hKey
        exact ⟨'"', _, rfl, rfl, rfl⟩
    obtain ⟨outcome, hOutcome⟩ := bracketed_settles Value.object (.inr rfl) (fun depth => readValue_object depth)
      (fun depth => Body.settles (readEntries_parts (readValue depth)) ⟨rfl, rfl⟩ hStarts
        fun entry hMem => Entry.settles (hEntries entry hMem depth)) depth
    refine ⟨outcome, fun text hText scan rest hScan _ => ?_⟩
    cases hText with
    | object hBody => exact hOutcome _ hBody scan rest hScan

/-! ## Documents -/

theorem Spells.settles (tree : TokenTree) :
    ∃ outcome, ∀ text, Spells .strict tree text → ∀ value, read text = .ok value ↔ outcome = some value := by
  obtain ⟨outcome, hOutcome⟩ := Written.settles tree maxDepth
  refine ⟨outcome, fun text hText value => ?_⟩
  cases hText with
  | @intro before middle behind hBefore hWritten hBehind =>
    obtain ⟨c, more, rfl, hNotSpace⟩ := hWritten.opens.head
    have hStart : (Scan.ofChars (before ++ (c :: more ++ behind))).skipSpace.rest = c :: (more ++ behind) :=
      IsSpaces.skip hBefore rfl hNotSpace
    have hEnds : EndsNumeral behind := by
      have hNone : EndsNumeral [] := fun _ hx => by cases hx
      simpa using IsSpaces.endsNumeral hBehind hNone
    have hRead := hOutcome _ hWritten _ behind hStart hEnds
    rw [← readValue_spaced maxDepth hStart hNotSpace] at hRead
    rw [read]
    generalize readValue maxDepth (Scan.ofChars (before ++ (c :: more ++ behind))) = result at hRead
    cases hRead with
    | refused => simp [Bind.bind, Except.bind]
    | @read found next hRest =>
      have hLast : next.skipSpace.rest = [] := by
        rw [skipSpace_rest, hRest]
        have hAll : (behind ++ []).dropWhile Scan.isSpace = [].dropWhile Scan.isSpace :=
          List.dropWhile_append_of_pos hBehind
        rwa [List.append_nil] at hAll
      simp [Bind.bind, Except.bind, hLast]

theorem readJson_ok_iff {source document : String} {tree : Tree} : readJson source document = .ok tree ↔
    ∃ value, read (relax source.toList) = .ok value ∧
      finishDocument document (declarations value).1 (declarations value).2 = .ok tree := by
  rw [readJson_eq, Json.document]
  cases hRead : read (relax source.toList) with
  | error refusal => simp [finishDocument]
  | ok value => simp

end Json

/-- A strict JSON text is relaxed to itself, and every relaxed text of the same tokens is read as the same tree,
or not read like it. -/
theorem readJson_relaxed {tokens : Json.TokenTree} {source : String}
    (hStrict : Json.Spells .strict tokens source.toList) : Json.relax source.toList = source.toList ∧
      ∀ relaxed : String, Json.Spells .relaxed tokens relaxed.toList →
        ∀ document tree, readJson relaxed document = .ok tree ↔ readJson source document = .ok tree := by
  refine ⟨hStrict.relax_eq, fun relaxed hRelaxed document tree => ?_⟩
  obtain ⟨outcome, hOutcome⟩ := Json.Spells.settles tokens
  simp only [Json.readJson_ok_iff, hOutcome _ hRelaxed.relax, hStrict.relax_eq, hOutcome _ hStrict]

namespace Json

theorem IsStringBody.of_plain {body : List Char} (h : ∀ c ∈ body, c ≠ '"' ∧ c ≠ '\\' ∧ 0x20 ≤ c.toNat) :
    IsStringBody body := by
  induction body with
  | nil => exact .nil
  | cons c body ih =>
    obtain ⟨⟨hQuote, hBackslash, hControl⟩, hOthers⟩ := List.forall_mem_cons.mp h
    exact .plain hQuote hBackslash hControl (ih hOthers)

theorem isString_word {word : String} (h : word.toList.all (fun c => c ≠ '"' ∧ c ≠ '\\' ∧ 0x20 ≤ c.toNat) = true) :
    IsString ('"' :: (word.toList ++ ['"'])) :=
  .intro (.of_plain fun c hc => of_decide_eq_true (List.all_eq_true.mp h c hc))

/-- The tokens of a document with one command. -/
def infoTokens : TokenTree :=
  .object [('"' :: ("info".toList ++ ['"']),
    .object [('"' :: ("keyword".toList ++ ['"']), .scalar ('"' :: ("dialog".toList ++ ['"'])))])]

theorem infoTokens_strings :
    IsString ('"' :: ("info".toList ++ ['"'])) ∧ IsString ('"' :: ("keyword".toList ++ ['"'])) ∧
      IsString ('"' :: ("dialog".toList ++ ['"'])) :=
  ⟨isString_word (by decide +kernel), isString_word (by decide +kernel), isString_word (by decide +kernel)⟩

theorem infoTokens_strict :
    Spells .strict infoTokens "\x7b\"info\": \x7b\"keyword\": \"dialog\"\x7d\x7d".toList := by
  obtain ⟨hInfo, hKeyword, hDialog⟩ := infoTokens_strings
  have hNone : Style.strict.gap [] := isSpaces_nil
  have hSpace : Style.strict.gap [' '] := isSpaces_nil.cons rfl
  have hBelow : Entry .strict (Written .strict) _ _ := .intro hKeyword hNone hSpace (.scalar (.string hDialog))
  have hEntry : Entry .strict (Written .strict) _ _ :=
    .intro hInfo hNone hSpace (.object (.parts hNone hBelow (.ending (.bare hNone))))
  have hText : Spells .strict infoTokens _ :=
    .intro hNone (.object (.parts hNone hEntry (.ending (.bare hNone)))) hNone
  refine Eq.mp (congrArg (Spells .strict infoTokens) ?_) hText
  decide +kernel

theorem infoTokens_relaxed : Spells .relaxed infoTokens
    "// \"a\n\x7b/*, ]*/\"info\":\x7b\"keyword\"\t:\"dialog\" ,# é\n\x7d, \x7d #".toList := by
  obtain ⟨hInfo, hKeyword, hDialog⟩ := infoTokens_strings
  have hNone : Style.relaxed.gap [] := .nil
  have hSpace : Style.relaxed.gap [' '] := .space rfl .nil
  have hTab : Style.relaxed.gap ['\t'] := .space rfl .nil
  have hFirst : Style.relaxed.gap ("//".toList ++ (" \"a".toList ++ '\n' :: [])) :=
    .line (.inr (by decide +kernel)) (by decide +kernel) .nil
  have hBlock : Style.relaxed.gap ('/' :: '*' :: (", ]".toList ++ '*' :: '/' :: [])) :=
    .block (by decide +kernel) .nil
  have hLine : Style.relaxed.gap (['#'] ++ (" é".toList ++ '\n' :: [])) := .line (.inl rfl) (by decide +kernel) .nil
  have hLast : Style.relaxed.last ([' '] ++ (['#'] ++ [])) := .line hSpace (.inl rfl) (by simp)
  have hBelow : Entry .relaxed (Written .relaxed) _ _ := .intro hKeyword hTab hNone (.scalar (.string hDialog))
  have hEntry : Entry .relaxed (Written .relaxed) _ _ :=
    .intro hInfo hNone hNone (.object (.parts hNone hBelow (.ending (.comma trivial hSpace hLine))))
  have hText : Spells .relaxed infoTokens _ :=
    .intro hFirst (.object (.parts hBlock hEntry (.ending (.comma trivial hNone hSpace)))) hLast
  refine Eq.mp (congrArg (Spells .relaxed infoTokens) ?_) hText
  decide +kernel

end Json

/-- One command, with comments around it and commas behind it, is read as without them. -/
theorem readJson_relaxed_info :
    (readJson "\x7b\"info\": \x7b\"keyword\": \"dialog\"\x7d\x7d" "info").isOk = true ∧
      ∀ document tree,
        readJson "// \"a\n\x7b/*, ]*/\"info\":\x7b\"keyword\"\t:\"dialog\" ,# é\n\x7d, \x7d #" document = .ok tree ↔
          readJson "\x7b\"info\": \x7b\"keyword\": \"dialog\"\x7d\x7d" document = .ok tree :=
  ⟨by decide +kernel, (readJson_relaxed Json.infoTokens_strict).2 _ Json.infoTokens_relaxed⟩

end DialogTree
