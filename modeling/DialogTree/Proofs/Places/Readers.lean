import DialogTree.Proofs.Numerals
import DialogTree.Proofs.Places.Parsers
import DialogTree.Proofs.Places.Slices
import DialogTree.Proofs.Spacing
import DialogTree.Proofs.Strings

/-!
# No cut fails

At every cursor each reader by bytes gives a result, and it is what the reader by characters gives: a cut is
always in range and between characters.
-/

namespace DialogTree

variable {c d : Cursor} {s t text : List Char}

/-! ## Cuts -/

theorem exists_bytes_cons (x : Char) (s : List Char) : ∃ count, byteLength (x :: s) = count + 1 ∧
    x.utf8Size ≤ count + 1 ∧ count + 1 - x.utf8Size = byteLength s := by
  have hSize := x.utf8Size_pos
  refine ⟨x.utf8Size + byteLength s - 1, ?_, ?_, ?_⟩
  · rw [byteLength]
    omega
  · omega
  · omega

theorem takeBytes?_append (s t : List Char) : takeBytes? (s ++ t) (byteLength s) = some s := by
  induction s with
  | nil => cases t <;> rfl
  | cons x s ih =>
    obtain ⟨count, hCount, hFits, hRest⟩ := exists_bytes_cons x s
    rw [hCount, List.cons_append, takeBytes?, if_pos hFits, hRest, ih]
    rfl

theorem takeBytes?_eq_some {count : Nat} (h : takeBytes? text count = some s) :
    s <+: text ∧ byteLength s = count := by
  induction text generalizing count s with
  | nil =>
    cases count with
    | zero => cases h; exact ⟨List.prefix_refl [], rfl⟩
    | succ count => cases h
  | cons x text ih =>
    cases count with
    | zero => cases h; exact ⟨List.nil_prefix, rfl⟩
    | succ count =>
      rw [takeBytes?] at h
      split at h
      · rename_i hFits
        obtain ⟨s, hRest, rfl⟩ := Option.map_eq_some_iff.mp h
        obtain ⟨hPrefix, hLength⟩ := ih hRest
        refine ⟨(List.prefix_cons_inj x).mpr hPrefix, ?_⟩
        rw [byteLength, hLength]
        omega
      · cases h

theorem Cursor.skipBytes?_go (s t : List Char) (p : Position) :
    skipBytes?.go (s ++ t) p (byteLength s) = some ⟨t, p.after s⟩ := by
  induction s generalizing p with
  | nil => cases t <;> rfl
  | cons x s ih =>
    obtain ⟨count, hCount, hFits, hRest⟩ := exists_bytes_cons x s
    rw [hCount, List.cons_append, skipBytes?.go, if_pos hFits, hRest, ih]
    rfl

namespace Cursor

theorem Passes.skipBytes? (h : c.Passes s d) : c.skipBytes? (byteLength s) = some d := by
  rw [Cursor.skipBytes?, h.1, skipBytes?_go, ← h.2]

theorem Passes.sliceTo? (h : c.Passes s d) : c.sliceTo? d = some s := by
  have hOffset : d.offset = c.offset + byteLength s := by
    rw [offset, h.2, Position.offset_after]
    rfl
  rw [Cursor.sliceTo?, hOffset, if_pos (Nat.le_add_right _ _), Nat.add_sub_cancel_left, h.1, takeBytes?_append]

theorem skipBytes?_cons {x : Char} {rest : List Char} (h : c.rest = x :: rest) :
    c.skipBytes? x.utf8Size = some (c.skip 1) :=
  (passes_cons h).skipBytes?

end Cursor

/-! ## Characters of one byte -/

theorem byteLength_eq_length (h : ∀ x ∈ s, x.utf8Size = 1) : byteLength s = s.length := by
  induction s with
  | nil => rfl
  | cons x s ih =>
    rw [byteLength, h x List.mem_cons_self, ih fun y hy => h y (List.mem_cons_of_mem x hy), List.length_cons,
      Nat.add_comm]

theorem utf8Size_of_le {x : Char} (h : x ≤ '~') : x.utf8Size = 1 :=
  Char.utf8Size_eq_one_iff.mpr (UInt32.le_trans h (by decide))

theorem Cursor.skipBytes?_mark {x : Char} {rest : List Char} (h : c.rest = x :: rest) (hMark : x ≤ '~') :
    c.skipBytes? 1 = some (c.skip 1) := by
  rw [← utf8Size_of_le hMark, skipBytes?_cons h, utf8Size_of_le hMark]

theorem utf8Size_of_isOctal {x : Char} (h : isOctal x = true) : x.utf8Size = 1 := by
  simp only [isOctal, Bool.and_eq_true, decide_eq_true_eq] at h
  exact utf8Size_of_le (Char.le_trans h.2 (by decide))

theorem utf8Size_of_isDigitIn {base : Nat} {x : Char} (h : isDigitIn base x = true) : x.utf8Size = 1 := by
  apply utf8Size_of_le
  unfold isDigitIn digitValue? at h
  split at h
  · rename_i value hValue
    split at hValue
    · rename_i hRange
      exact Char.le_trans hRange.2 (by decide)
    · split at hValue
      · rename_i hRange
        exact Char.le_trans hRange.2 (by decide)
      · split at hValue
        · rename_i hRange
          exact Char.le_trans hRange.2 (by decide)
        · cases hValue
  · cases h

theorem byteLength_eq_zero_iff : byteLength s = 0 ↔ s = [] := by
  cases s with
  | nil => simp [byteLength]
  | cons x s =>
    have hSize := x.utf8Size_pos
    simp [byteLength]
    omega

/-! ## Words and numbers -/

theorem literal_sliced (text : String) (c : Cursor) : Sliced.literal text c = some (literal text c) := by
  unfold Sliced.literal literal
  split
  · rename_i hPrefix
    have hPasses := Cursor.passes_skip (List.isPrefixOf_iff_prefix.mp hPrefix)
    have hLength : text.utf8ByteSize = byteLength text.toList := by
      rw [byteLength_eq_utf8ByteSize, String.ofList_toList]
    simp [hLength, hPasses.skipBytes?, hPasses.sliceTo?]
  · rfl

theorem identifier_sliced (lead body : Char → Bool) (c : Cursor) :
    Sliced.identifier lead body c = some (identifier lead body c) := by
  cases hRest : c.rest with
  | nil => simp [Sliced.identifier, identifier, hRest]
  | cons x rest =>
    have hPasses : c.Passes (x :: rest.takeWhile body) (c.skip (x :: rest.takeWhile body).length) :=
      Cursor.passes_skip ⟨rest.dropWhile body, by simp [hRest]⟩
    have hSkip := hPasses.skipBytes?
    rw [byteLength] at hSkip
    simp only [Sliced.identifier, identifier, hRest]
    split
    · simp only [hSkip, Option.bind_eq_bind, Option.bind_some, hPasses.sliceTo?, Option.pure_def]
    · rfl

theorem skipBytes?_bytesWhile (p : Char → Bool) (c : Cursor) :
    c.skipBytes? (Sliced.bytesWhile p c) = some (c.skipWhile p) :=
  (Cursor.passesRun_takeWhile c p).passes.skipBytes?

theorem bytesWhile_eq_zero_iff {p : Char → Bool} : Sliced.bytesWhile p c = 0 ↔ (c.takeWhile p).isEmpty = true :=
  byteLength_eq_zero_iff.trans List.isEmpty_iff.symm

theorem natural_sliced (radix : Radix) (c : Cursor) : Sliced.natural radix c = some (natural radix c) := by
  have hRun := (Cursor.passesRun_takeWhile c (isDigitIn radix.base)).passes
  simp only [Sliced.natural, natural, bytesWhile_eq_zero_iff, skipBytes?_bytesWhile]
  split
  · rfl
  · simp [hRun.sliceTo?]

theorem boolean_sliced (c : Cursor) : Sliced.boolean c = some (boolean c) := by
  have hWord {word : List Char}
      (h : (word.isPrefixOf c.rest && !(c.rest.drop word.length).head?.any isKeyChar) = true) :
      c.skipBytes? (byteLength word) = some (c.skip word.length) := (wholeWord_iff.mp h).1.skipBytes?
  have hTrue : byteLength ['t', 'r', 'u', 'e'] = 4 := by decide
  have hFalse : byteLength ['f', 'a', 'l', 's', 'e'] = 5 := by decide
  simp only [Sliced.boolean, boolean]
  split
  · rename_i hIs
    have hSkip := hWord hIs
    rw [hTrue] at hSkip
    simp [hSkip]
  · split
    · rename_i hIs
      have hSkip := hWord hIs
      rw [hFalse] at hSkip
      simp [hSkip]
    · rfl

theorem skipSign_sliced (c : Cursor) : Sliced.skipSign c = some c.skipSign := by
  cases hRest : c.rest with
  | nil => simp [Sliced.skipSign, Cursor.skipSign, hRest]
  | cons x rest =>
    by_cases hPlus : x = '+'
    · subst hPlus
      simpa [Sliced.skipSign, Cursor.skipSign, hRest] using Cursor.skipBytes?_mark hRest (by decide)
    · by_cases hMinus : x = '-'
      · subst hMinus
        simpa [Sliced.skipSign, Cursor.skipSign, hRest] using Cursor.skipBytes?_mark hRest (by decide)
      · simp [Sliced.skipSign, Cursor.skipSign, hRest, hPlus, hMinus]

theorem integerLiteral_sliced (c : Cursor) : Sliced.integerLiteral c = some (integerLiteral c) := by
  obtain ⟨sign, -, hSign, -⟩ := c.exists_sign
  have hText := hSign.trans (Cursor.passesRun_takeWhile c.skipSign Char.isDigit).passes
  simp only [Sliced.integerLiteral, integerLiteral, skipSign_sliced, Option.bind_eq_bind, Option.bind_some,
    skipBytes?_bytesWhile, bytesWhile_eq_zero_iff]
  split
  · rfl
  · simp only [hText.sliceTo?, hText.textTo, Option.bind_some]
    cases readInt64? (sign ++ c.skipSign.takeWhile Char.isDigit) <;> rfl

/-! ## Floats -/

theorem toLower_of_isDigit {x : Char} (h : x.isDigit = true) : x.toLower = x := by
  simp only [Char.isDigit, Bool.and_eq_true, decide_eq_true_eq] at h
  have hUpper : ¬ ('A'.val ≤ x.val ∧ x.val ≤ 'Z'.val) := fun hRange =>
    absurd (UInt32.le_trans hRange.1 h.2) (by decide)
  exact dif_neg hUpper

theorem read?_parts {sign whole fraction : List Char} (hSign : IsSign sign) (hWhole : whole ≠ [])
    (hAll : ∀ x ∈ whole, x.isDigit = true) (hPlaces : ∀ x ∈ fraction, x.isDigit = true) :
    Binary64.read? (sign ++ whole ++ '.' :: fraction) =
      some (.ofDecimal (sign = ['-']) (decimalOfParts whole fraction 0)) := by
  obtain ⟨x, whole, rfl⟩ := List.exists_cons_of_ne_nil hWhole
  have hDigit := hAll x List.mem_cons_self
  have hSplit : splitSign (sign ++ (x :: whole) ++ '.' :: fraction) =
      (decide (sign = ['-']), (x :: whole) ++ '.' :: fraction) := by
    rw [List.append_assoc]
    exact splitSign_append hSign fun y hy => by cases hy; exact hDigit
  -- No spelled infinity begins with a digit.
  have hWord {word : String} (hLetter : word.toList.head?.any Char.isDigit = false) :
      (String.ofList (((x :: whole) ++ '.' :: fraction).map Char.toLower) == word) = false := by
    rw [beq_eq_false_iff_ne]
    rintro rfl
    simp [String.toList_ofList, toLower_of_isDigit hDigit, hDigit] at hLetter
  have hPoint : ∀ y ∈ ('.' :: fraction).head?, y.isDigit = false := fun y hy => by cases hy; rfl
  have hTake := Cursor.takeWhile_append_of_stops hAll hPoint
  have hDrop : ((x :: whole) ++ '.' :: fraction).dropWhile Char.isDigit = '.' :: fraction := by
    rw [List.dropWhile_append_of_pos hAll]
    rfl
  have hEnd : fraction.takeWhile Char.isDigit = fraction := by
    simpa using Cursor.takeWhile_append_of_stops (t := []) hPlaces (by simp)
  have hNothing : fraction.dropWhile Char.isDigit = [] := by
    have hWholeRun := List.takeWhile_append_dropWhile (p := Char.isDigit) (l := fraction)
    rw [hEnd] at hWholeRun
    exact List.append_right_eq_self.mp hWholeRun
  simp only [Binary64.read?, hSplit]
  rw [hWord (by decide), hWord (by decide), hWord (by decide)]
  simp only [Binary64.readMagnitude?, hTake, hDrop, hEnd, hNothing]
  rfl

theorem floatLiteral_sliced (c : Cursor) : Sliced.floatLiteral c = some (floatLiteral c) := by
  obtain ⟨sign, hIsSign, hSign, hMinus⟩ := c.exists_sign
  have hWhole := Cursor.passesRun_takeWhile c.skipSign Char.isDigit
  simp only [Sliced.floatLiteral, floatLiteral, skipSign_sliced, Option.bind_eq_bind, Option.bind_some,
    skipBytes?_bytesWhile, bytesWhile_eq_zero_iff]
  split
  · rfl
  · rename_i hDigits
    split
    · rfl
    · rename_i hPeek
      obtain ⟨rest, hPoint⟩ : ∃ rest, (c.skipSign.skipWhile Char.isDigit).rest = '.' :: rest :=
        List.head?_eq_some_iff.mp (by simpa [Cursor.peek?] using hPeek)
      have hFraction := Cursor.passesRun_takeWhile ((c.skipSign.skipWhile Char.isDigit).skip 1) Char.isDigit
      simp only [Cursor.skipBytes?_mark hPoint (by decide), Option.bind_some]
      split
      · rfl
      · have hText := ((hSign.trans hWhole.passes).trans (Cursor.passes_cons hPoint)).trans hFraction.passes
        have hNegative : decide (sign = ['-']) = (c.peek? == some '-') := by
          rw [Bool.eq_iff_iff]
          simpa using hMinus
        have hRead := read?_parts hIsSign (by simpa using hDigits) hWhole.all hFraction.all
        rw [hText.sliceTo?, Option.bind_some, List.append_assoc _ ['.'], List.singleton_append, hRead, hNegative]
        rfl

/-! ## Strings -/

theorem octalEscape_sliced (c : Cursor) :
    Sliced.octalEscape c = some ((octalEscape? c.rest).map fun (x, count) => (c.skip count, x)) := by
  have hPrefix : (c.rest.take 3).takeWhile isOctal <+: c.rest :=
    (List.takeWhile_prefix isOctal).trans (List.take_prefix 3 c.rest)
  have hBytes := byteLength_eq_length fun x hx =>
    utf8Size_of_isOctal (List.all_eq_true.mp (List.all_takeWhile (p := isOctal) (l := c.rest.take 3)) x hx)
  have hPasses := Cursor.passes_skip hPrefix
  have hTake := hPasses.1 ▸ takeBytes?_append _ _
  have hSkip := hPasses.skipBytes?
  rw [hBytes] at hTake hSkip
  simp only [Sliced.octalEscape, octalEscape?, hTake, hSkip, Option.bind_eq_bind, Option.bind_some, Option.pure_def]
  split
  · cases scalar? (valueIn 8 ((c.rest.take 3).takeWhile isOctal)) <;> rfl
  · rfl

theorem hexEscape_sliced (count : Nat) (c : Cursor) :
    Sliced.hexEscape count c = some ((hexEscape? count c.rest).map (c.skip count, ·)) := by
  have hBytes {digits : List Char} (h : digits.all (isDigitIn 16) = true) : byteLength digits = digits.length :=
    byteLength_eq_length fun x hx => utf8Size_of_isDigitIn (List.all_eq_true.mp h x hx)
  by_cases hDigits : (c.rest.take count).length = count ∧ (c.rest.take count).all (isDigitIn 16) = true
  · have hPasses := Cursor.passes_take c count
    have hTake := hPasses.1 ▸ takeBytes?_append _ _
    have hSkip := hPasses.skipBytes?
    rw [hBytes hDigits.2, hDigits.1] at hTake hSkip
    simp only [Sliced.hexEscape, hexEscape?, hTake, hSkip, hDigits, if_true, Option.bind_eq_bind, Option.bind_some,
      Option.pure_def]
    rfl
  · have hNone : hexEscape? count c.rest = none := by
      simp only [hexEscape?, Bool.and_eq_true, decide_eq_true_eq]
      exact if_neg hDigits
    rw [hNone, Option.map_none, Sliced.hexEscape]
    split
    · rfl
    · rename_i digits hTake
      obtain ⟨hPrefix, hLength⟩ := takeBytes?_eq_some hTake
      refine if_neg fun hAll => hDigits ?_
      rw [hBytes hAll] at hLength
      rw [← hLength, ← List.prefix_iff_eq_take.mp hPrefix]
      exact ⟨rfl, hAll⟩

theorem unescape_sliced (c : Cursor) :
    Sliced.unescape c = some ((unescape? c.rest).map fun (x, count) => (c.skip count, x)) := by
  cases hRest : c.rest with
  | nil => simp [Sliced.unescape, unescape?, hRest]
  | cons letter rest =>
    have hOctal := octalEscape_sliced c
    rw [hRest] at hOctal
    have hHex (count : Nat) : Sliced.hexEscape count (c.skip 1) =
        some ((hexEscape? count rest).map (c.skip (count + 1), ·)) := by
      rw [hexEscape_sliced, Cursor.rest_skip, hRest, Cursor.skip_skip, Nat.add_comm]
      rfl
    simp only [Sliced.unescape, unescape?, hRest, Cursor.skipBytes?_cons hRest, Option.bind_eq_bind, Option.bind_some,
      hOctal, hHex]
    cases simpleEscape? letter with
    | some x => rfl
    | none =>
      simp only
      split
      · rfl
      · split
        · rw [Option.map_map]
          rfl
        · split
          · rw [Option.map_map]
            rfl
          · split
            · rw [Option.map_map]
              rfl
            · rfl

theorem quotedBody_sliced (start : Position) (c : Cursor) (bound : Nat) (h : c.rest.length ≤ bound) :
    Sliced.quotedBody start (bound + 1) c = some (quotedBody start c) := by
  fun_induction quotedBody start c generalizing bound with
  | case1 c hRest => simp [Sliced.quotedBody, hRest]
  | case2 c rest hRest => simp [Sliced.quotedBody, hRest, Cursor.skipBytes?_cons hRest]
  | case3 c rest hRead hRest hQuote =>
    simp [Sliced.quotedBody, Cursor.skipBytes?_cons hRest, unescape_sliced, hRead, Cursor.peek?, hRest]
  | case4 c rest spelled count hRead hRest hQuote ih =>
    rw [hRest] at h
    cases bound with
    | zero => cases h
    | succ bound =>
      have hNext := ih bound (by simp [hRest] at h ⊢; omega)
      rw [Sliced.quotedBody]
      simp [hRest, Cursor.skipBytes?_cons hRest, unescape_sliced, hRead, Cursor.skip_skip, Nat.add_comm 1 count, hNext]
  | case5 c x rest hRest hQuote hBackslash ih =>
    rw [hRest] at h
    cases bound with
    | zero => cases h
    | succ bound =>
      have hNext := ih bound (by simpa [hRest] using h)
      rw [Sliced.quotedBody]
      simp [hRest, Cursor.skipBytes?_cons hRest, hQuote, hBackslash, hNext]

theorem quotedString_sliced (c : Cursor) : Sliced.quotedString c = some (quotedString c) := by
  cases hRest : c.rest with
  | nil => simp [Sliced.quotedString, quotedString, hRest]
  | cons x rest =>
    by_cases hQuote : x = '"'
    · subst hQuote
      have hBody := quotedBody_sliced c.position (c.skip 1) c.rest.length (by simp)
      simp only [Sliced.quotedString, quotedString, hRest, Cursor.skipBytes?_mark hRest (by decide),
        Option.bind_eq_bind, Option.bind_some] at hBody ⊢
      rw [hBody]
      rfl
    · simp [Sliced.quotedString, quotedString, hRest, hQuote]

theorem rawString_sliced (c : Cursor) : Sliced.rawString c = some (rawString c) := by
  cases hRest : c.rest with
  | nil => simp [Sliced.rawString, rawString, hRest]
  | cons x rest =>
    by_cases hQuote : x = '\x60'
    · subst hQuote
      have hRun := Cursor.passesRun_takeWhile (c.skip 1) (· != '\x60')
      simp only [Sliced.rawString, rawString, hRest, Cursor.skipBytes?_mark hRest (by decide), Option.bind_eq_bind,
        Option.bind_some, skipBytes?_bytesWhile]
      split
      · rfl
      · rename_i hClose
        obtain ⟨y, more, hMore⟩ : ∃ y more, ((c.skip 1).skipWhile (· != '\x60')).rest = y :: more :=
          List.exists_cons_of_ne_nil (by simpa [Cursor.isEmpty] using hClose)
        obtain rfl : y = '\x60' := by simpa [hMore] using hRun.stops
        simp [Cursor.skipBytes?_mark hMore (by decide), hRun.passes.sliceTo?]
    · simp [Sliced.rawString, rawString, hRest, hQuote]

/-! ## Spacing and recovery -/

theorem Cursor.length_skipWhile_lt {p : Char → Bool} {x : Char} {rest : List Char} (h : c.rest = x :: rest)
    (hx : p x = true) : (c.skipWhile p).rest.length < c.rest.length := by
  have hLength := (passesRun_takeWhile c p).passes.length_eq
  have hRun : c.takeWhile p = x :: rest.takeWhile p := by simp [takeWhile, h, hx]
  rw [hRun, List.length_cons] at hLength
  omega

theorem Cursor.skipSpacing_comment {rest : List Char} (h : c.rest = '#' :: rest) :
    (c.skipWhile (· != '\n')).skipSpacing = c.skipSpacing := by
  have hRun := passesRun_takeWhile c (· != '\n')
  have hLine : c.takeWhile (· != '\n') = '#' :: rest.takeWhile (· != '\n') := by simp [takeWhile, h]
  have hText := hRun.passes.1
  rw [hLine] at hText
  have hInside : '\n' ∉ rest.takeWhile (· != '\n') := fun hMem => by
    simpa using hRun.all '\n' (hLine ▸ List.mem_cons_of_mem '#' hMem)
  have hEnd : ∀ x ∈ (c.skipWhile (· != '\n')).rest.head?, x = '\n' := fun x hx => by simpa using hRun.stops x hx
  have hLength := spacingLength_comment hInside hEnd
  rw [← hText] at hLength
  have hSkip : c.skipWhile (· != '\n') = c.skip (1 + (rest.takeWhile (· != '\n')).length) := by
    rw [hRun.passes.eq_skip, hLine, List.length_cons, Nat.add_comm]
  calc (c.skipWhile (· != '\n')).skipSpacing
      = (c.skip (1 + (rest.takeWhile (· != '\n')).length)).skip
          (spacingLength false (c.skipWhile (· != '\n')).rest) := by rw [skipSpacing, ← hSkip]
    _ = c.skipSpacing := by rw [skip_skip, ← hLength, skipSpacing]

theorem Cursor.skipSpacing_blank {x : Char} {rest : List Char} (h : c.rest = x :: rest) (hBlank : isBlank x = true) :
    (c.skip 1).skipSpacing = c.skipSpacing := by
  rw [skipSpacing, skipSpacing, h, spacingLength_blank hBlank, skip_skip, rest_skip, h, List.drop_succ_cons,
    List.drop_zero]

theorem skipSpacing_sliced (c : Cursor) (bound : Nat) (h : c.rest.length ≤ bound) :
    Sliced.skipSpacing (bound + 1) c = some c.skipSpacing := by
  induction bound generalizing c with
  | zero =>
    have hRest := List.eq_nil_of_length_eq_zero (Nat.le_zero.mp h)
    have hStay := Cursor.skipSpacing_of_stops (c := c) (by simp [hRest])
    simp [Sliced.skipSpacing, hRest, hStay]
  | succ bound ih =>
    rw [Sliced.skipSpacing]
    split
    · rename_i hRest
      rw [Cursor.skipSpacing_of_stops (c := c) (by simp [hRest])]
    · rename_i x rest hRest
      split
      · rename_i hHash
        subst hHash
        have hShorter : (c.skipWhile (· != '\n')).rest.length ≤ bound :=
          Nat.le_of_lt_succ (Nat.lt_of_lt_of_le (Cursor.length_skipWhile_lt hRest (by decide)) h)
        simp [skipBytes?_bytesWhile, ih _ hShorter, Cursor.skipSpacing_comment hRest]
      · split
        · rename_i hBlank
          have hShorter : (c.skip 1).rest.length ≤ bound := by simp [hRest] at h ⊢; exact h
          simp [Cursor.skipBytes?_cons hRest, ih _ hShorter, Cursor.skipSpacing_blank hRest hBlank]
        · rename_i hHash hBlank
          rw [Cursor.skipSpacing_of_stops (c := c) (by simp [hRest, startsSpacing, hHash, hBlank])]

theorem quotedBytes_eq (quote : Char) (escaped : Bool) (text : List Char) :
    Sliced.quotedBytes quote escaped text = byteLength (text.take (quotedLength quote escaped text)) := by
  fun_induction quotedLength quote escaped text <;>
    simp_all [Sliced.quotedBytes, byteLength, Nat.add_comm 1]

theorem recover_sliced (inBody : Bool) (depth : Nat) (c : Cursor) (bound : Nat) (h : c.rest.length ≤ bound) :
    Sliced.recover inBody (bound + 1) depth c = some (c.skip (recoveryLength inBody depth c.rest)) := by
  -- Every step passes a character or more, so that the bound outlasts the text; the brackets are free.
  induction bound generalizing depth c with
  | zero =>
    have hRest := List.eq_nil_of_length_eq_zero (Nat.le_zero.mp h)
    simp [Sliced.recover, hRest, recoveryLength]
  | succ bound ih =>
    rw [Sliced.recover]
    split
    · rename_i hRest
      simp [hRest, recoveryLength]
    · rename_i x rest hRest
      have hLength : rest.length ≤ bound := by simpa [hRest] using h
      rw [hRest, recoveryLength]
      split
      · simp
      · split
        · have hQuoted : (c.skip 1).rest = rest := by simp [hRest]
          have hBody := (Cursor.passes_take (c.skip 1) (quotedLength x false rest)).skipBytes?
          rw [hQuoted, ← quotedBytes_eq] at hBody
          have hNext := ih depth ((c.skip 1).skip (quotedLength x false rest)) (by simp [hRest]; omega)
          rw [Cursor.rest_skip, hQuoted] at hNext
          simp only [Cursor.skipBytes?_cons hRest, Option.bind_eq_bind, Option.bind_some, hQuoted, hBody, hNext]
          rw [Cursor.skip_skip, Cursor.skip_skip, Nat.add_assoc]
        · split
          · rename_i hHash
            subst hHash
            have hComment : c.skipWhile (· != '\n') = (c.skip 1).skip (commentLength rest) := by
              rw [(Cursor.passesRun_takeWhile c _).passes.eq_skip, Cursor.skip_skip, Cursor.takeWhile, hRest,
                List.takeWhile_cons_of_pos (by decide), List.length_cons, Nat.add_comm, commentLength]
            have hNext := ih depth ((c.skip 1).skip (commentLength rest)) (by simp [hRest]; omega)
            rw [Cursor.rest_skip, Cursor.rest_skip, hRest, List.drop_succ_cons, List.drop_zero] at hNext
            simp only [skipBytes?_bytesWhile, Option.bind_eq_bind, Option.bind_some, hComment, hNext]
            rw [Cursor.skip_skip, Cursor.skip_skip, Nat.add_assoc]
          · have hNext := ih (bracketDepth depth x) (c.skip 1) (by simpa [hRest] using hLength)
            simp [Cursor.skipBytes?_cons hRest, hNext, hRest, Cursor.skip_skip]

/-! ## All readers -/

namespace Sliced

/-- At the cursor the reader by bytes gives what the reader by characters gives, and that is a cursor at or
behind this one or a failure there. -/
def AgreesAt {α : Type} (c : Cursor) (sliced : Reader α) (l : Lexeme α) : Prop :=
  sliced c = some (l c) ∧ (l c).Within c fun _ => True

/-- The same for all that goes past a part of the text: no cut fails at the cursor, and each leads forward. -/
structure CutsAt (c : Cursor) : Prop where
  literal : ∀ text, AgreesAt c (Sliced.literal text) (DialogTree.literal text)
  identifier : ∀ lead body, AgreesAt c (Sliced.identifier lead body) (DialogTree.identifier lead body)
  natural : ∀ radix, AgreesAt c (Sliced.natural radix) (DialogTree.natural radix)
  boolean : AgreesAt c Sliced.boolean DialogTree.boolean
  floatLiteral : AgreesAt c Sliced.floatLiteral DialogTree.floatLiteral
  integerLiteral : AgreesAt c Sliced.integerLiteral DialogTree.integerLiteral
  quotedString : AgreesAt c Sliced.quotedString DialogTree.quotedString
  rawString : AgreesAt c Sliced.rawString DialogTree.rawString
  spacing : Sliced.skipSpacing (c.rest.length + 1) c = some c.skipSpacing ∧ c.Reaches c.skipSpacing
  recovery : ∀ inBody, Sliced.recover inBody (c.rest.length + 1) 0 c = some (c.recover inBody) ∧
    c.Reaches (c.recover inBody)
  closing : c.peek? = some '\x7d' → c.skipBytes? 1 = some (c.skip 1) ∧ c.Reaches (c.skip 1)

end Sliced

theorem cutsAt (c : Cursor) : Sliced.CutsAt c where
  literal text := ⟨literal_sliced text c, literal_forward text c⟩
  identifier lead body := ⟨identifier_sliced lead body c, identifier_forward lead body c⟩
  natural radix := ⟨natural_sliced radix c, natural_forward radix c⟩
  boolean := ⟨boolean_sliced c, boolean_forward c⟩
  floatLiteral := ⟨floatLiteral_sliced c, floatLiteral_forward c⟩
  integerLiteral := ⟨integerLiteral_sliced c, integerLiteral_forward c⟩
  quotedString := ⟨quotedString_sliced c, quotedString_forward c⟩
  rawString := ⟨rawString_sliced c, rawString_forward c⟩
  spacing := ⟨skipSpacing_sliced c _ (Nat.le_refl _), c.reaches_skipSpacing⟩
  recovery inBody := ⟨recover_sliced inBody 0 c _ (Nat.le_refl _), c.reaches_recover inBody⟩
  closing h := by
    obtain ⟨rest, hRest⟩ := List.head?_eq_some_iff.mp h
    exact ⟨Cursor.skipBytes?_mark hRest (by decide), c.reaches_skip 1⟩

end DialogTree
