import DialogTree.Proofs.Json.Relaxed

/-!
# Layouts are read

Every layout of a value is read as that value, as long as it nests no deeper than the reader allows and each of
its numbers is read back from its own text.
-/

namespace DialogTree

namespace Json

variable {scan : Scan} {text body rest : List Char} {depth : Nat}

/-- Arrays and objects nest at most so deep, integers are in range, and floats are read back from their text. -/
inductive Readable : Nat → Value → Prop where
  | null {depth : Nat} : Readable depth .null
  | bool {depth : Nat} {b : Bool} : Readable depth (.bool b)
  | integer {depth : Nat} {n : Int} (hLow : -2 ^ 63 ≤ n) (hHigh : n < 2 ^ 64) : Readable depth (.integer n)
  | float {depth : Nat} {x : Binary64} (hRead : read (FloatStyle.json.text x).toList = .ok (.float x)) :
      Readable depth (.float x)
  | string {depth : Nat} {text : String} : Readable depth (.string text)
  | array {depth : Nat} {items : List Value} (hItems : ∀ item ∈ items, Readable depth item) :
      Readable (depth + 1) (.array items)
  | object {depth : Nat} {entries : List (String × Value)} (hEntries : ∀ entry ∈ entries, Readable depth entry.2) :
      Readable (depth + 1) (.object entries)

/-! ## Behind a part -/

theorem skipSpace_rest (scan : Scan) : scan.skipSpace.rest = scan.rest.dropWhile Scan.isSpace := rfl

theorem gap_skip {gap : List Char} (hGap : IsGap gap) (hOpens : OpensText text) (h : scan.rest = gap ++ (text ++ rest)) :
    scan.skipSpace.rest = text ++ rest := by
  obtain ⟨c, more, rfl, hFirst⟩ := hOpens
  rw [skipSpace_rest, h]
  exact hGap.dropWhile rfl rfl (by simpa using hFirst.notSpace)

/-- Behind a part of a layout no numeral goes on, and spaces lead to a comma or to the end. -/
theorem PartsTo.behind {α : Type} {Part : α → List Char → Prop} {closing : Char} {parts : List α}
    {gap : List Char} (h : PartsTo Part closing false parts body) (hGap : IsGap gap)
    (hSpace : Scan.isSpace closing = false) (hNumeral : isNumeral closing = false) :
    EndsNumeral (gap ++ (body ++ rest)) ∧ (gap ++ (body ++ rest)).dropWhile Scan.isSpace = body ++ rest := by
  have hHead : ∃ c more, body = c :: more ∧ Scan.isSpace c = false ∧ isNumeral c = false := by
    cases h with
    | close => exact ⟨closing, [], rfl, hSpace, hNumeral⟩
    | next => exact ⟨',', _, rfl, rfl, rfl⟩
  obtain ⟨c, more, rfl, hStop, hEnds⟩ := hHead
  refine ⟨?_, hGap.dropWhile rfl rfl (by simpa using hStop)⟩
  intro x hx
  cases gap with
  | nil =>
    obtain rfl : c = x := by simpa using hx
    exact hEnds
  | cons y gap =>
    obtain rfl : y = x := by simpa using hx
    rcases hGap y List.mem_cons_self with rfl | rfl
    · rfl
    · rfl

theorem PartsTo.stops {α : Type} {Part : α → List Char → Prop} {closing : Char} {parts : List α}
    (h : PartsTo Part closing true parts body) (hClosing : Scan.isSpace closing = false)
    (hOpens : ∀ {a text}, Part a text → OpensText text) :
    ∀ c ∈ (body ++ rest).head?, Scan.isSpace c = false := by
  intro c hc
  cases h with
  | close =>
    obtain rfl : closing = c := by simpa using hc
    exact hClosing
  | first hPart =>
    obtain ⟨d, tail, rfl, hFirst⟩ := hOpens hPart
    obtain rfl : d = c := by simpa using hc
    exact hFirst.notSpace

/-! ## Arrays -/

section Arrays

variable {item : Reader Value} {bound : Nat} {value : Value} {items : List Value} {next last : Scan} {c : Char}

theorem readItems_first (h : scan.skipSpace.rest = c :: rest) (hc : c ≠ ']')
    (hItem : item scan.skipSpace = .ok (value, next)) (hRest : readItems item bound false next = .ok (items, last)) :
    readItems item (bound + 1) true scan = .ok (value :: items, last) := by
  simp only [readItems, h, hItem, Bind.bind, Except.bind, hRest]
  simp [hc]

theorem readItems_next (hComma : scan.skipSpace.rest = ',' :: text)
    (h : (scan.skipSpace.skip 1).skipSpace.rest = c :: rest) (hc : c ≠ ']')
    (hItem : item (scan.skipSpace.skip 1).skipSpace = .ok (value, next))
    (hRest : readItems item bound false next = .ok (items, last)) :
    readItems item (bound + 1) false scan = .ok (value :: items, last) := by
  simp only [readItems, hComma, h, hItem, Bind.bind, Except.bind, hRest]
  simp [hc]

end Arrays

theorem readItems_layout {items : List Value} {isFirst : Bool} (hBody : PartsTo Layout ']' isFirst items body)
    (hEach : ∀ item ∈ items, ∀ text, Layout item text → ReadsAs depth item text) :
    ∀ bound, body.length < bound → ∀ scan : Scan, scan.skipSpace.rest = body ++ rest →
      ∃ next, readItems (readValue depth) bound isFirst scan = .ok (items, next) ∧ next.rest = rest := by
  -- Every part has a character, so that the bound stays above the length of what is left.
  induction hBody with
  | close =>
    intro bound hBound scan hScan
    obtain ⟨bound, rfl⟩ := Nat.exists_eq_add_one.mpr (Nat.zero_lt_of_lt hBound)
    refine ⟨scan.skipSpace.skip 1, ?_, rest_skip_cons hScan⟩
    simp only [readItems, hScan]
    simp
  | @first item items text behind more hItem hBehind hMore ih =>
    intro bound hBound scan hScan
    obtain ⟨bound, rfl⟩ := Nat.exists_eq_add_one.mpr (Nat.zero_lt_of_lt hBound)
    obtain ⟨hEnds, hGap⟩ := @PartsTo.behind _ rest _ _ _ _ _ hMore hBehind rfl rfl
    obtain ⟨next, hRead, hNext⟩ := hEach item List.mem_cons_self text hItem (by simpa using hScan) hEnds
    obtain ⟨c, tail, rfl, hOpens⟩ := hItem.opens
    obtain ⟨last, hOthers, hLast⟩ := ih (fun b hMem => hEach b (List.mem_cons_of_mem _ hMem)) bound
      (by simp at hBound; omega) next (hNext.trans hGap)
    exact ⟨last, readItems_first hScan hOpens.notBracket hRead hOthers, hLast⟩
  | @next item items before text behind more hBefore hItem hBehind hMore ih =>
    intro bound hBound scan hScan
    obtain ⟨bound, rfl⟩ := Nat.exists_eq_add_one.mpr (Nat.zero_lt_of_lt hBound)
    obtain ⟨hEnds, hGap⟩ := @PartsTo.behind _ rest _ _ _ _ _ hMore hBehind rfl rfl
    have hComma : (scan.skipSpace.skip 1).rest = before ++ (text ++ (behind ++ (more ++ rest))) := by
      simpa using rest_skip_cons hScan
    have hStart := gap_skip hBefore hItem.opens hComma
    obtain ⟨next, hRead, hNext⟩ := hEach item List.mem_cons_self text hItem hStart hEnds
    obtain ⟨c, tail, rfl, hOpens⟩ := hItem.opens
    obtain ⟨last, hOthers, hLast⟩ := ih (fun b hMem => hEach b (List.mem_cons_of_mem _ hMem)) bound
      (by simp at hBound; omega) next (hNext.trans hGap)
    exact ⟨last, readItems_next hScan hStart hOpens.notBracket hRead hOthers, hLast⟩

/-! ## Objects -/

theorem readValue_spaced (depth : Nat) {c : Char} (h : scan.skipSpace.rest = c :: rest) (hc : Scan.isSpace c = false) :
    readValue depth scan = readValue depth scan.skipSpace := by
  have hAgain := skipSpace_of_head h hc
  rw [readValue.eq_def, readValue.eq_def depth scan.skipSpace]
  simp only [hAgain]

theorem readColon_text (h : scan.rest = ':' :: rest) : readColon scan = .ok ((), scan.skip 1) := by
  rw [readColon]
  simp only [skipSpace_of_head h (by decide), h]

/-- A key with its colon and its value, as one entry after another is read. -/
def readEntry (item : Reader Value) : Reader (String × Value) := fun scan => do
  let (key, scan) ← readString (scan.skip 1)
  let (_, scan) ← readColon scan
  let (value, scan) ← item scan
  .ok ((key, value), scan)

theorem readEntry_layout {entry : String × Value} (hEntry : EntryTo Layout entry text)
    (hValue : ∀ text, Layout entry.2 text → ReadsAs depth entry.2 text) (h : scan.rest = text ++ rest)
    (hEnds : EndsNumeral rest) : ∃ next, readEntry (readValue depth) scan = .ok (entry, next) ∧
      next.skipSpace.rest = rest.dropWhile Scan.isSpace := by
  cases hEntry with
  | @intro key value gap text hGap hLayout =>
    have hKey : scan.rest = '"' :: (key.toList.flatMap stringChar ++ '"' :: (':' :: (gap ++ (text ++ rest)))) := by
      simpa [stringText] using h
    obtain ⟨s, hString, hBehind⟩ := readString_text (rest_skip_cons hKey)
    have hStart := gap_skip hGap hLayout.opens (rest_skip_cons hBehind)
    obtain ⟨next, hRead, hNext⟩ := hValue text hLayout hStart hEnds
    obtain ⟨c, tail, rfl, hOpens⟩ := hLayout.opens
    refine ⟨next, ?_, hNext⟩
    rw [← readValue_spaced depth hStart hOpens.notSpace] at hRead
    rw [readEntry]
    simp [hString, readColon_text hBehind, hRead, Bind.bind, Except.bind]

section Objects

variable {item : Reader Value} {bound : Nat} {entry : String × Value} {entries : List (String × Value)}
  {next last : Scan}

theorem readEntry_ok (h : readEntry item scan = .ok (entry, next)) :
    ∃ s t, readString (scan.skip 1) = .ok (entry.1, s) ∧ readColon s = .ok ((), t) ∧ item t = .ok (entry.2, next) := by
  rw [readEntry] at h
  cases hString : readString (scan.skip 1) with
  | error refusal => simp [hString, Bind.bind, Except.bind] at h
  | ok key =>
    cases hColon : readColon key.2 with
    | error refusal => simp [hString, hColon, Bind.bind, Except.bind] at h
    | ok colon =>
      cases hValue : item colon.2 with
      | error refusal => simp [hString, hColon, hValue, Bind.bind, Except.bind] at h
      | ok value =>
        simp only [hString, hColon, hValue, Bind.bind, Except.bind, Except.ok.injEq, Prod.mk.injEq] at h
        obtain ⟨rfl, rfl⟩ := h
        exact ⟨key.2, colon.2, rfl, hColon, hValue⟩

theorem readEntries_first (h : scan.skipSpace.rest = '"' :: rest)
    (hEntry : readEntry item scan.skipSpace = .ok (entry, next))
    (hRest : readEntries item bound false next = .ok (entries, last)) :
    readEntries item (bound + 1) true scan = .ok (entry :: entries, last) := by
  obtain ⟨s, t, hString, hColon, hValue⟩ := readEntry_ok hEntry
  simp [readEntries, h, hString, hColon, hValue, hRest, Bind.bind, Except.bind]

theorem readEntries_next (hComma : scan.skipSpace.rest = ',' :: text)
    (h : (scan.skipSpace.skip 1).skipSpace.rest = '"' :: rest)
    (hEntry : readEntry item (scan.skipSpace.skip 1).skipSpace = .ok (entry, next))
    (hRest : readEntries item bound false next = .ok (entries, last)) :
    readEntries item (bound + 1) false scan = .ok (entry :: entries, last) := by
  obtain ⟨s, t, hString, hColon, hValue⟩ := readEntry_ok hEntry
  simp [readEntries, hComma, h, hString, hColon, hValue, hRest, Bind.bind, Except.bind]

end Objects

theorem readEntries_layout {entries : List (String × Value)} {isFirst : Bool}
    (hBody : PartsTo (EntryTo Layout) '\x7d' isFirst entries body)
    (hEach : ∀ entry ∈ entries, ∀ text, Layout entry.2 text → ReadsAs depth entry.2 text) :
    ∀ bound, body.length < bound → ∀ scan : Scan, scan.skipSpace.rest = body ++ rest →
      ∃ next, readEntries (readValue depth) bound isFirst scan = .ok (entries, next) ∧ next.rest = rest := by
  -- The induction follows the parts of the layout; each of them takes one step of the bound and a character at least.
  induction hBody with
  | close =>
    intro bound hBound scan hScan
    obtain ⟨bound, rfl⟩ := Nat.exists_eq_add_one.mpr (Nat.zero_lt_of_lt hBound)
    refine ⟨scan.skipSpace.skip 1, ?_, rest_skip_cons hScan⟩
    simp only [readEntries, hScan]
    simp
  | @first entry entries text behind more hEntry hBehind hMore ih =>
    intro bound hBound scan hScan
    obtain ⟨bound, rfl⟩ := Nat.exists_eq_add_one.mpr (Nat.zero_lt_of_lt hBound)
    obtain ⟨hEnds, hGap⟩ := @PartsTo.behind _ rest _ _ _ _ _ hMore hBehind rfl rfl
    obtain ⟨next, hRead, hNext⟩ := readEntry_layout hEntry (hEach entry List.mem_cons_self) (by simpa using hScan)
      hEnds
    have hSome : 0 < text.length := by
      obtain ⟨c, tail, rfl, -⟩ := hEntry.opens
      exact Nat.succ_pos _
    obtain ⟨last, hOthers, hLast⟩ := ih (fun b hMem => hEach b (List.mem_cons_of_mem _ hMem)) bound
      (by simp at hBound; omega) next (hNext.trans hGap)
    cases hEntry with
    | intro => exact ⟨last, readEntries_first hScan hRead hOthers, hLast⟩
  | @next entry entries before text behind more hBefore hEntry hBehind hMore ih =>
    intro bound hBound scan hScan
    obtain ⟨bound, rfl⟩ := Nat.exists_eq_add_one.mpr (Nat.zero_lt_of_lt hBound)
    obtain ⟨hEnds, hGap⟩ := @PartsTo.behind _ rest _ _ _ _ _ hMore hBehind rfl rfl
    have hComma : (scan.skipSpace.skip 1).rest = before ++ (text ++ (behind ++ (more ++ rest))) := by
      simpa using rest_skip_cons hScan
    have hStart := gap_skip hBefore hEntry.opens hComma
    obtain ⟨next, hRead, hNext⟩ := readEntry_layout hEntry (hEach entry List.mem_cons_self) hStart hEnds
    obtain ⟨last, hOthers, hLast⟩ := ih (fun b hMem => hEach b (List.mem_cons_of_mem _ hMem)) bound
      (by simp at hBound; omega) next (hNext.trans hGap)
    cases hEntry with
    | intro => exact ⟨last, readEntries_next hScan hStart hRead hOthers, hLast⟩

/-! ## Values -/

theorem scalar_readsAs {value : Value} (hReadable : Readable depth value) (hArray : ∀ items, value ≠ .array items)
    (hObject : ∀ entries, value ≠ .object entries) : ReadsAs depth value (scalarText value) := by
  cases hReadable with
  | null => exact word_readsAs depth (.head _)
  | bool => exact bool_readsAs depth _
  | integer hLow hHigh => exact integer_readsAs depth hLow hHigh
  | float hRead => exact float_readsAs depth hRead
  | string => exact string_readsAs depth _
  | array => exact absurd rfl (hArray _)
  | object => exact absurd rfl (hObject _)

theorem array_readsAs {items : List Value} {gap : List Char} (hGap : IsGap gap)
    (hBody : PartsTo Layout ']' true items body)
    (hEach : ∀ item ∈ items, ∀ text, Layout item text → ReadsAs depth item text) :
    ReadsAs (depth + 1) (.array items) ('[' :: (gap ++ body)) := by
  intro scan rest hScan _
  have hHead : scan.rest = '[' :: (gap ++ (body ++ rest)) := by simpa using hScan
  have hStart : (scan.skip 1).skipSpace.rest = body ++ rest := by
    rw [skipSpace_rest, rest_skip_cons hHead]
    exact hGap.dropWhile rfl rfl (hBody.stops rfl Layout.opens)
  have hBound : body.length < scan.rest.length := by simp [hHead]; omega
  obtain ⟨next, hRead, hNext⟩ := readItems_layout hBody hEach _ hBound (scan.skip 1) hStart
  refine ⟨next, ?_, by rw [skipSpace_rest, hNext]⟩
  rw [readValue.eq_def]
  simp only [skipSpace_of_head hHead (by decide)]
  rw [hHead] at hRead ⊢
  simp only [List.length_cons, List.length_append] at hRead
  simp [hRead, Except.map]

theorem object_readsAs {entries : List (String × Value)} {gap : List Char} (hGap : IsGap gap)
    (hBody : PartsTo (EntryTo Layout) '\x7d' true entries body)
    (hEach : ∀ entry ∈ entries, ∀ text, Layout entry.2 text → ReadsAs depth entry.2 text) :
    ReadsAs (depth + 1) (.object entries) ('\x7b' :: (gap ++ body)) := by
  intro scan rest hScan _
  have hHead : scan.rest = '\x7b' :: (gap ++ (body ++ rest)) := by simpa using hScan
  have hStart : (scan.skip 1).skipSpace.rest = body ++ rest := by
    rw [skipSpace_rest, rest_skip_cons hHead]
    exact hGap.dropWhile rfl rfl (hBody.stops rfl EntryTo.opens)
  have hBound : body.length < scan.rest.length := by simp [hHead]; omega
  obtain ⟨next, hRead, hNext⟩ := readEntries_layout hBody hEach _ hBound (scan.skip 1) hStart
  refine ⟨next, ?_, by rw [skipSpace_rest, hNext]⟩
  rw [readValue.eq_def]
  simp only [skipSpace_of_head hHead (by decide)]
  rw [hHead] at hRead ⊢
  simp only [List.length_cons, List.length_append] at hRead
  simp [hRead, Except.map]

theorem layout_readsAs : ∀ {depth : Nat} {value : Value} {text : List Char}, Readable depth value →
    Layout value text → ReadsAs depth value text
  | _, _, _, hReadable, .scalar hArray hObject => scalar_readsAs hReadable hArray hObject
  | _, _, _, .array hItems, .array hGap hBody =>
    array_readsAs hGap hBody fun item hMem _ h => layout_readsAs (hItems item hMem) h
  | _, _, _, .object hEntries, .object hGap hBody =>
    object_readsAs hGap hBody fun entry hMem _ h => layout_readsAs (hEntries entry hMem) h

/-- Every layout of a readable value is read as the value. -/
theorem read_layout {value : Value} (hReadable : Readable maxDepth value) (h : Layout value text) :
    read text = .ok value := by
  have hText : (Scan.ofChars text).rest = text ++ [] := (List.append_nil text).symm
  obtain ⟨next, hRead, hNext⟩ := layout_readsAs hReadable h hText fun _ hc => by cases hc
  rw [read, hRead]
  simp [Bind.bind, Except.bind, hNext]

end Json

end DialogTree
