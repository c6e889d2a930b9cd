import DialogTree.Proofs.Json.Blanking

/-!
# Relaxed bytes are a relaxed text

A character is one byte below 128, or several bytes from 128 on, which are no marks. So the bytes of a relaxed text
are its bytes relaxed, and they are the encoding of a text.
-/

namespace DialogTree

namespace Json

/-! ## Characters and bytes -/

def IsNarrow (c : Char) : Prop :=
  c.toNat < 128

instance (c : Char) : Decidable (IsNarrow c) :=
  inferInstanceAs (Decidable (c.toNat < 128))

/-- A byte that no character of one byte has. -/
def IsWide (b : UInt8) : Prop :=
  128 ≤ b.toNat

theorem encode_narrow {c : Char} (h : IsNarrow c) : String.utf8EncodeChar c = [c.toUInt8] := by
  apply String.utf8EncodeChar_eq_singleton
  rw [Char.utf8Size_eq_one_iff, UInt32.le_iff_toNat_le]
  exact Nat.le_of_lt_succ h

theorem encode_wide {c : Char} (h : ¬ IsNarrow c) :
    ∃ b more, String.utf8EncodeChar c = b :: more ∧ ∀ x ∈ b :: more, IsWide x := by
  have hRange : ¬ c.val.toNat ≤ 127 := fun hLow => h (Nat.lt_succ_of_le hLow)
  have hWide : ∀ n : Nat, n % 256 = n → 128 ≤ n → IsWide (UInt8.ofNat n) := by
    intro n hByte hLow
    rw [IsWide, UInt8.toNat_ofNat', hByte]
    exact hLow
  simp only [String.utf8EncodeChar, if_neg hRange]
  generalize c.val.toNat = v
  split
  · refine ⟨_, _, rfl, ?_⟩
    simp only [List.forall_mem_cons]
    exact ⟨hWide _ (by omega) (by omega), hWide _ (by omega) (by omega), List.forall_mem_nil _⟩
  · split
    · refine ⟨_, _, rfl, ?_⟩
      simp only [List.forall_mem_cons]
      exact ⟨hWide _ (by omega) (by omega), hWide _ (by omega) (by omega), hWide _ (by omega) (by omega),
        List.forall_mem_nil _⟩
    · refine ⟨_, _, rfl, ?_⟩
      simp only [List.forall_mem_cons]
      exact ⟨hWide _ (by omega) (by omega), hWide _ (by omega) (by omega), hWide _ (by omega) (by omega),
        hWide _ (by omega) (by omega), List.forall_mem_nil _⟩

theorem toNat_toUInt8 {c : Char} (h : IsNarrow c) : c.toUInt8.toNat = c.toNat := by
  change c.val.toNat % 256 = c.val.toNat
  exact Nat.mod_eq_of_lt (Nat.lt_trans h (by decide))

theorem toUInt8_inj {c mark : Char} (h : IsNarrow c) (hMark : IsNarrow mark) : c.toUInt8 = mark.toUInt8 ↔ c = mark := by
  constructor
  · intro hByte
    apply Char.toNat_inj.mp
    rw [← toNat_toUInt8 h, ← toNat_toUInt8 hMark, hByte]
  · rintro rfl
    rfl

theorem IsWide.ne {b : UInt8} (h : IsWide b) (mark : Char) (hMark : IsNarrow mark) : b ≠ mark.toUInt8 := by
  rintro rfl
  rw [IsWide, toNat_toUInt8 hMark] at h
  exact absurd hMark (Nat.not_lt.mpr h)

theorem ne_of_not_narrow {c mark : Char} (h : ¬ IsNarrow c) (hMark : IsNarrow mark) : c ≠ mark := by
  rintro rfl
  exact h hMark

theorem bytes_cons (c : Char) (text : List Char) : bytes (c :: text) = String.utf8EncodeChar c ++ bytes text :=
  List.flatMap_cons

theorem bytes_append (text more : List Char) : bytes (text ++ more) = bytes text ++ bytes more :=
  List.flatMap_append

theorem bytes_narrow {c : Char} (h : IsNarrow c) (text : List Char) : bytes (c :: text) = c.toUInt8 :: bytes text := by
  rw [bytes_cons, encode_narrow h]
  rfl

theorem head?_bytes {mark : Char} (hMark : IsNarrow mark) (text : List Char) :
    (bytes text).head? = some mark.toUInt8 ↔ text.head? = some mark := by
  cases text with
  | nil => simp [bytes]
  | cons c text =>
    by_cases h : IsNarrow c
    · rw [bytes_narrow h, List.head?_cons, List.head?_cons, Option.some.injEq, Option.some.injEq]
      exact toUInt8_inj h hMark
    · obtain ⟨b, more, hBytes, hWide⟩ := encode_wide h
      rw [bytes_cons, hBytes, List.cons_append, List.head?_cons, List.head?_cons, Option.some.injEq,
        Option.some.injEq]
      exact iff_of_false ((List.forall_mem_cons.mp hWide).1.ne _ hMark) (ne_of_not_narrow h hMark)

theorem bytes_spaces (count : Nat) : bytes (List.replicate count ' ') = List.replicate count ' '.toUInt8 := by
  induction count with
  | zero => rfl
  | succ count ih => rw [List.replicate_succ, bytes_narrow (by decide), ih, List.replicate_succ]

theorem bytes_blank (c : Char) : bytes (blank c) = (String.utf8EncodeChar c).map blankByte := by
  by_cases h : IsNarrow c
  · rw [encode_narrow h, blank]
    split
    · rename_i hLine
      subst hLine
      rfl
    · rename_i hLine
      have hSize : c.utf8Size = 1 := by
        rw [← String.length_utf8EncodeChar, encode_narrow h]
        rfl
      have hByte : c.toUInt8 ≠ '\n'.toUInt8 := fun hByte => hLine ((toUInt8_inj h (by decide)).mp hByte)
      rw [hSize, List.map_cons, blankByte, if_neg hByte]
      rfl
  · obtain ⟨b, more, hBytes, hWide⟩ := encode_wide h
    have hLine : c ≠ '\n' := ne_of_not_narrow h (by decide)
    have hMap : (b :: more).map blankByte = List.replicate (b :: more).length ' '.toUInt8 := by
      rw [← List.map_const']
      apply List.map_congr_left
      intro x hx
      exact if_neg ((hWide x hx).ne _ (by decide))
    rw [hBytes, hMap, ← hBytes, String.length_utf8EncodeChar, blank, if_neg hLine, bytes_spaces]

/-! ## Comments -/

section Narrow

variable {c : Char} (h : IsNarrow c) {text out : List Char} {place next : Place}

include h

theorem blankCommentBytes_keeps (hNext : place.next c.toUInt8 (bytes text).head? = next)
    (hRegion : place.region next ≠ .comment) (hRest : blankCommentBytes next (bytes text) = bytes out) :
    blankCommentBytes place (bytes (c :: text)) = bytes (c :: out) := by
  rw [bytes_narrow h, bytes_narrow h, blankCommentBytes, hNext, hRest, if_neg hRegion]

theorem blankCommentBytes_blanks (hNext : place.next c.toUInt8 (bytes text).head? = next)
    (hRegion : place.region next = .comment) (hRest : blankCommentBytes next (bytes text) = bytes out) :
    blankCommentBytes place (bytes (c :: text)) = bytes (blank c ++ out) := by
  rw [bytes_narrow h, bytes_append, bytes_blank, encode_narrow h, blankCommentBytes, hNext, hRest, if_pos hRegion]
  rfl

theorem next_code_narrow : Place.next .code c.toUInt8 (bytes text).head? =
    if c = '"' then .string
    else if c = '#' then .line
    else if c = '/' && text.head? == some '/' then .line
    else if c = '/' && text.head? == some '*' then .blockStart
    else .code := by
  have hLine : ((bytes text).head? == some '/'.toUInt8) = (text.head? == some '/') := by
    rw [Bool.eq_iff_iff, beq_iff_eq, beq_iff_eq, head?_bytes (by decide)]
  have hBlock : ((bytes text).head? == some '*'.toUInt8) = (text.head? == some '*') := by
    rw [Bool.eq_iff_iff, beq_iff_eq, beq_iff_eq, head?_bytes (by decide)]
  simp only [Place.next, hLine, hBlock, toUInt8_inj h (show IsNarrow '"' by decide),
    toUInt8_inj h (show IsNarrow '#' by decide), toUInt8_inj h (show IsNarrow '/' by decide)]

theorem next_string_narrow (following : Option UInt8) : Place.next .string c.toUInt8 following =
    if c = '\\' then .escape else if c = '"' then .code else .string := by
  simp only [Place.next, Place.inString, toUInt8_inj h (show IsNarrow '\\' by decide),
    toUInt8_inj h (show IsNarrow '"' by decide)]

theorem next_line_narrow (following : Option UInt8) :
    Place.next .line c.toUInt8 following = if c = '\n' then .code else .line := by
  simp only [Place.next, toUInt8_inj h (show IsNarrow '\n' by decide)]

theorem next_block_narrow : Place.next .block c.toUInt8 (bytes text).head? =
    if c = '*' && text.head? == some '/' then .blockEnd else .block := by
  have hEnd : ((bytes text).head? == some '/'.toUInt8) = (text.head? == some '/') := by
    rw [Bool.eq_iff_iff, beq_iff_eq, beq_iff_eq, head?_bytes (by decide)]
  simp only [Place.next, hEnd, toUInt8_inj h (show IsNarrow '*' by decide)]

/-- In code, the tests of the scan for characters and those for bytes take the same branch. -/
theorem blankComments_narrow_code
    (ih : ∀ place, place ≠ .blockEnd → blankCommentBytes place (bytes text) = bytes (blankComments place text)) :
    blankCommentBytes .code (bytes (c :: text)) = bytes (blankComments .code (c :: text)) := by
  have hNext := @next_code_narrow c h text
  rw [blankComments]
  split at hNext
  · rw [if_pos ‹_›]
    exact blankCommentBytes_keeps h hNext Region.noConfusion (ih _ Place.noConfusion)
  · rw [if_neg ‹_›]
    split at hNext
    · rw [if_pos ‹_›]
      exact blankCommentBytes_blanks h hNext rfl (ih _ Place.noConfusion)
    · rw [if_neg ‹_›]
      split at hNext
      · rw [if_pos ‹_›]
        exact blankCommentBytes_blanks h hNext rfl (ih _ Place.noConfusion)
      · rw [if_neg ‹_›]
        split at hNext
        · rw [if_pos ‹_›]
          exact blankCommentBytes_blanks h hNext rfl (ih _ Place.noConfusion)
        · rw [if_neg ‹_›]
          exact blankCommentBytes_keeps h hNext Region.noConfusion (ih _ Place.noConfusion)

theorem blankComments_narrow (place : Place)
    (ih : ∀ place, (place = .blockEnd → text.head? = some '/') →
      blankCommentBytes place (bytes text) = bytes (blankComments place text)) :
    blankCommentBytes place (bytes (c :: text)) = bytes (blankComments place (c :: text)) := by
  cases place with
  | code => exact blankComments_narrow_code h fun place hPlace => ih place fun hEnd => absurd hEnd hPlace
  | string =>
    rw [blankComments, ← next_string_narrow h (bytes text).head?]
    apply blankCommentBytes_keeps h rfl Region.noConfusion
    apply ih
    rw [next_string_narrow h]
    split
    · exact Place.noConfusion
    · split
      · exact Place.noConfusion
      · exact Place.noConfusion
  | escape => exact blankCommentBytes_keeps h rfl Region.noConfusion (ih _ Place.noConfusion)
  | line =>
    rw [blankComments, ← next_line_narrow h (bytes text).head?]
    apply blankCommentBytes_blanks h rfl rfl
    apply ih
    rw [next_line_narrow h]
    split
    · exact Place.noConfusion
    · exact Place.noConfusion
  | blockStart => exact blankCommentBytes_blanks h rfl rfl (ih _ Place.noConfusion)
  | block =>
    have hNext := @next_block_narrow c h text
    rw [blankComments, ← hNext]
    apply blankCommentBytes_blanks h rfl rfl
    apply ih
    rw [hNext]
    -- A block ends at a star only in front of its slash, which is what the next place asks for.
    split
    · rename_i hEnd
      simp only [Bool.and_eq_true, beq_iff_eq] at hEnd
      exact fun _ => hEnd.2
    · exact Place.noConfusion
  | blockEnd => exact blankCommentBytes_blanks h rfl rfl (ih _ Place.noConfusion)

end Narrow

/-- Over bytes that leave the scan where it stands, it blanks all of them or none. -/
theorem blankCommentBytes_stay {place : Place} {run : List UInt8}
    (hStay : ∀ b ∈ run, ∀ following, place.next b following = place) (rest : List UInt8) :
    blankCommentBytes place (run ++ rest) =
      (if place.region place = .comment then run.map blankByte else run) ++ blankCommentBytes place rest := by
  induction run with
  | nil => split <;> rfl
  | cons b run ih =>
    obtain ⟨hFirst, hOthers⟩ := List.forall_mem_cons.mp hStay
    rw [List.cons_append, blankCommentBytes, hFirst, ih hOthers]
    split
    · rfl
    · rfl

theorem IsWide.stays {b : UInt8} (h : IsWide b) (following : Option UInt8) :
    Place.next .code b following = .code ∧ Place.next .string b following = .string ∧
      Place.next .line b following = .line ∧ Place.next .block b following = .block := by
  have hQuote := h.ne '"' (by decide)
  have hSlash := h.ne '/' (by decide)
  refine ⟨Place.next_code_of_plain hQuote (h.ne _ (by decide)) (fun hEq => absurd hEq hSlash), ?_, ?_, ?_⟩
  · rw [Place.next, Place.inString, if_neg (h.ne _ (by decide)), if_neg hQuote]
  · exact if_neg (h.ne _ (by decide))
  · have hStar := h.ne '*' (by decide)
    simp [Place.next, hStar]

theorem blankComments_wide {c : Char} (h : ¬ IsNarrow c) {text : List Char} (place : Place) (hEnd : place ≠ .blockEnd)
    (ih : ∀ place, (place = .blockEnd → text.head? = some '/') →
      blankCommentBytes place (bytes text) = bytes (blankComments place text)) :
    blankCommentBytes place (bytes (c :: text)) = bytes (blankComments place (c :: text)) := by
  obtain ⟨b, more, hBytes, hWide⟩ := encode_wide h
  have hNe : ∀ mark, IsNarrow mark → c ≠ mark := fun mark => ne_of_not_narrow h
  have hOthers := (List.forall_mem_cons.mp hWide).2
  have hBlank : bytes (blank c) = blankByte b :: more.map blankByte := by
    rw [bytes_blank, hBytes, List.map_cons]
  -- No byte of a longer character is a mark, so that the scan goes over all of them as over the character.
  cases place with
  | code =>
    have hKept : blankComments .code (c :: text) = c :: blankComments .code text := by
      simp [blankComments, hNe '"' (by decide), hNe '#' (by decide), hNe '/' (by decide)]
    rw [hKept, bytes_cons, bytes_cons, hBytes,
      blankCommentBytes_stay (fun x hx following => ((hWide x hx).stays following).1), ih _ Place.noConfusion]
    rfl
  | string =>
    have hKept : blankComments .string (c :: text) = c :: blankComments .string text := by
      simp [blankComments, hNe '\\' (by decide), hNe '"' (by decide)]
    rw [hKept, bytes_cons, bytes_cons, hBytes,
      blankCommentBytes_stay (fun x hx following => ((hWide x hx).stays following).2.1), ih _ Place.noConfusion]
    rfl
  | escape =>
    rw [blankComments, bytes_cons, bytes_cons, hBytes, List.cons_append, blankCommentBytes, Place.next,
      blankCommentBytes_stay (fun x hx following => ((hOthers x hx).stays following).2.1), ih _ Place.noConfusion]
    rfl
  | line =>
    have hLine : blankComments .line (c :: text) = blank c ++ blankComments .line text := by
      simp [blankComments, hNe '\n' (by decide)]
    rw [hLine, bytes_cons, bytes_append, hBlank, hBytes,
      blankCommentBytes_stay (fun x hx following => ((hWide x hx).stays following).2.2.1), ih _ Place.noConfusion]
    rfl
  | blockStart =>
    rw [blankComments, bytes_cons, bytes_append, hBlank, hBytes, List.cons_append, blankCommentBytes, Place.next,
      blankCommentBytes_stay (fun x hx following => ((hOthers x hx).stays following).2.2.2), ih _ Place.noConfusion]
    rfl
  | block =>
    have hBlock : blankComments .block (c :: text) = blank c ++ blankComments .block text := by
      simp [blankComments, hNe '*' (by decide)]
    rw [hBlock, bytes_cons, bytes_append, hBlank, hBytes,
      blankCommentBytes_stay (fun x hx following => ((hWide x hx).stays following).2.2.2), ih _ Place.noConfusion]
    rfl
  | blockEnd => exact absurd rfl hEnd

theorem blankComments_bytes (text : List Char) (place : Place) (hEnd : place = .blockEnd → text.head? = some '/') :
    blankCommentBytes place (bytes text) = bytes (blankComments place text) := by
  induction text generalizing place with
  | nil => cases place <;> rfl
  | cons c text ih =>
    by_cases h : IsNarrow c
    · exact blankComments_narrow h place ih
    · apply blankComments_wide h place _ ih
      intro hPlace
      obtain rfl : c = '/' := Option.some.inj (hEnd hPlace)
      exact h (by decide)

/-! ## Commas -/

theorem isGapByte_narrow {c : Char} (h : IsNarrow c) : isGapByte c.toUInt8 = isGap c := by
  simp only [isGapByte, isGap, toUInt8_inj h (show IsNarrow ' ' by decide),
    toUInt8_inj h (show IsNarrow '\t' by decide), toUInt8_inj h (show IsNarrow '\n' by decide),
    toUInt8_inj h (show IsNarrow '\x0c' by decide), toUInt8_inj h (show IsNarrow '\r' by decide)]

theorem isGap_wide {c : Char} (h : ¬ IsNarrow c) : isGap c = false := by
  have hNe : ∀ mark, IsNarrow mark → c ≠ mark := fun mark => ne_of_not_narrow h
  simp [isGap, hNe ' ' (by decide), hNe '\t' (by decide), hNe '\n' (by decide), hNe '\x0c' (by decide),
    hNe '\r' (by decide)]

theorem IsWide.notGap {b : UInt8} (h : IsWide b) : isGapByte b = false := by
  simp [isGapByte, h.ne ' ' (by decide), h.ne '\t' (by decide), h.ne '\n' (by decide),
    h.ne '\x0c' (by decide), h.ne '\r' (by decide)]

theorem bytesClose_bytes (text : List Char) : bytesClose (bytes text) = closesNext text := by
  induction text with
  | nil => rfl
  | cons c text ih =>
    by_cases h : IsNarrow c
    · rw [bytesClose, closesNext, bytes_narrow h, List.dropWhile_cons, List.dropWhile_cons, isGapByte_narrow h]
      cases hGap : isGap c with
      | true => exact ih
      | false =>
        simp only [Bool.false_eq_true, if_false, toUInt8_inj h (show IsNarrow '\x7d' by decide),
          toUInt8_inj h (show IsNarrow ']' by decide)]
    · obtain ⟨b, more, hBytes, hWide⟩ := encode_wide h
      have hFirst := hWide b List.mem_cons_self
      have hNe : ∀ mark, IsNarrow mark → c ≠ mark := fun mark => ne_of_not_narrow h
      rw [bytesClose, closesNext, bytes_cons, hBytes, List.cons_append,
        List.dropWhile_cons_of_neg (by simp [hFirst.notGap]), List.dropWhile_cons_of_neg (by simp [isGap_wide h])]
      simp [hFirst.ne '\x7d' (by decide), hFirst.ne ']' (by decide), hNe '\x7d' (by decide),
        hNe ']' (by decide)]

theorem blankCommas_code {place : Place} (hString : place ≠ .string) (hEscape : place ≠ .escape) (c : Char)
    (text : List Char) : blankCommas place (c :: text) =
      if c = '"' then c :: blankCommas .string text
      else if c = ',' && closesNext text then ' ' :: blankCommas .code text
      else c :: blankCommas .code text := by
  cases place with
  | string => exact absurd rfl hString
  | escape => exact absurd rfl hEscape
  | _ => rfl

theorem blankCommas_narrow {c : Char} (h : IsNarrow c) {text : List Char} (place : Place)
    (ih : ∀ place, blankCommaBytes place (bytes text) = bytes (blankCommas place text)) :
    blankCommaBytes place (bytes (c :: text)) = bytes (blankCommas place (c :: text)) := by
  have hQuote := toUInt8_inj h (show IsNarrow '"' by decide)
  have hBackslash := toUInt8_inj h (show IsNarrow '\\' by decide)
  have hComma := toUInt8_inj h (show IsNarrow ',' by decide)
  rw [bytes_narrow h, blankCommaBytes, ih]
  cases place with
  | string =>
    rw [blankCommas, bytes_narrow h, if_neg (by simp)]
    simp only [Place.inString, hQuote, hBackslash]
  | escape =>
    rw [blankCommas, bytes_narrow h, if_neg (by simp)]
    rfl
  | _ =>
    simp only [Place.inString, hQuote, hComma, bytesClose_bytes]
    rw [blankCommas_code Place.noConfusion Place.noConfusion]
    by_cases hString : c = '"'
    · rw [if_pos hString, if_pos hString, bytes_narrow h, if_neg (by simp [hString])]
    · rw [if_neg hString, if_neg hString]
      by_cases hTrailing : c = ',' ∧ closesNext text
      · rw [if_pos (by simp [hTrailing]), if_pos (by simp [hTrailing]), bytes_narrow (by decide)]
      · rw [if_neg (by simpa using hTrailing), if_neg (by simpa using hTrailing), bytes_narrow h]

theorem blankCommaBytes_stay {place : Place} {run : List UInt8}
    (hStay : ∀ b ∈ run, b ≠ ','.toUInt8 ∧ place.inString b = place) (rest : List UInt8) :
    blankCommaBytes place (run ++ rest) = run ++ blankCommaBytes place rest := by
  induction run with
  | nil => rfl
  | cons b run ih =>
    obtain ⟨⟨hComma, hPlace⟩, hOthers⟩ := List.forall_mem_cons.mp hStay
    rw [List.cons_append, blankCommaBytes, hPlace, ih hOthers, if_neg (fun hTrailing => hComma hTrailing.2.1)]
    rfl

theorem blankCommas_wide {c : Char} (h : ¬ IsNarrow c) {text : List Char} (place : Place)
    (ih : ∀ place, blankCommaBytes place (bytes text) = bytes (blankCommas place text)) :
    blankCommaBytes place (bytes (c :: text)) = bytes (blankCommas place (c :: text)) := by
  obtain ⟨b, more, hBytes, hWide⟩ := encode_wide h
  have hNe : ∀ mark, IsNarrow mark → c ≠ mark := fun mark => ne_of_not_narrow h
  have hString : ∀ x, IsWide x → x ≠ ','.toUInt8 ∧ Place.inString .string x = .string := by
    intro x hx
    refine ⟨hx.ne _ (by decide), ?_⟩
    rw [Place.inString, if_neg (hx.ne _ (by decide)), if_neg (hx.ne _ (by decide))]
  have hCode : ∀ x, IsWide x → x ≠ ','.toUInt8 ∧ Place.inString .code x = .code :=
    fun x hx => ⟨hx.ne _ (by decide), if_neg (hx.ne _ (by decide))⟩
  obtain ⟨hFirst, hOthers⟩ := List.forall_mem_cons.mp hWide
  rw [bytes_cons, hBytes]
  cases place with
  | string =>
    have hKept : blankCommas .string (c :: text) = c :: blankCommas .string text := by
      simp [blankCommas, hNe '\\' (by decide), hNe '"' (by decide)]
    rw [hKept, bytes_cons, hBytes, blankCommaBytes_stay (fun x hx => hString x (hWide x hx)), ih]
  | escape =>
    rw [blankCommas, bytes_cons, hBytes, List.cons_append, blankCommaBytes, Place.inString,
      blankCommaBytes_stay (fun x hx => hString x (hOthers x hx)), ih,
      if_neg (fun hTrailing => hFirst.ne _ (by decide) hTrailing.2.1)]
    rfl
  | _ =>
    rw [blankCommas_code Place.noConfusion Place.noConfusion, if_neg (hNe '"' (by decide)),
      if_neg (by simp [hNe ',' (by decide)]), bytes_cons, hBytes, List.cons_append, blankCommaBytes,
      if_neg (fun hTrailing => hFirst.ne _ (by decide) hTrailing.2.1)]
    change b :: blankCommaBytes (Place.inString .code b) (more ++ bytes text) = _
    rw [(hCode b hFirst).2, blankCommaBytes_stay (fun x hx => hCode x (hOthers x hx)), ih]
    rfl

theorem blankCommas_bytes (text : List Char) (place : Place) :
    blankCommaBytes place (bytes text) = bytes (blankCommas place text) := by
  induction text generalizing place with
  | nil => cases place <;> rfl
  | cons c text ih =>
    by_cases h : IsNarrow c
    · exact blankCommas_narrow h place ih
    · exact blankCommas_wide h place ih

theorem relaxBytes_bytes (text : List Char) : relaxBytes (bytes text) = bytes (relax text) := by
  rw [relaxBytes, blankComments_bytes text .code Place.noConfusion, blankCommas_bytes, relax]

/-! ## Whole characters -/

/-- The characters of a text, and over some of them spaces, one for each byte. -/
inductive Overwrites : List Char → List Char → Prop where
  | nil : Overwrites [] []
  | kept {c : Char} {text text' : List Char} (hMore : Overwrites text text') : Overwrites (c :: text) (c :: text')
  | blanked {c : Char} {text text' : List Char} (hMore : Overwrites text text') :
      Overwrites (c :: text) (List.replicate c.utf8Size ' ' ++ text')

namespace Overwrites

variable {text text' text'' : List Char} {c : Char}

theorem blank (h : Overwrites text text') : Overwrites (c :: text) (Json.blank c ++ text') := by
  rw [Json.blank]
  split
  · rename_i hLine
    rw [hLine]
    exact .kept h
  · exact .blanked h

theorem of_spaces {count : Nat} {out : List Char} (h : Overwrites (List.replicate count ' ' ++ text) out) :
    ∃ text', out = List.replicate count ' ' ++ text' ∧ Overwrites text text' := by
  induction count generalizing out with
  | zero => exact ⟨out, rfl, h⟩
  | succ count ih =>
    rw [List.replicate_succ, List.cons_append] at h
    cases h with
    | kept hMore =>
      obtain ⟨text', rfl, hText⟩ := ih hMore
      exact ⟨text', rfl, hText⟩
    | blanked hMore =>
      obtain ⟨text', rfl, hText⟩ := ih hMore
      exact ⟨text', rfl, hText⟩

theorem trans (h : Overwrites text text') (hMore : Overwrites text' text'') : Overwrites text text'' := by
  induction h generalizing text'' with
  | nil => exact hMore
  | kept _ ih =>
    cases hMore with
    | kept hRest => exact .kept (ih hRest)
    | blanked hRest => exact .blanked (ih hRest)
  | blanked _ ih =>
    obtain ⟨rest, rfl, hRest⟩ := of_spaces hMore
    exact .blanked (ih hRest)

end Overwrites

theorem blankComments_overwrites (place : Place) (text : List Char) : Overwrites text (blankComments place text) := by
  induction text generalizing place with
  | nil =>
    rw [blankComments]
    exact .nil
  | cons c text ih =>
    cases place with
    | code =>
      rw [blankComments]
      split
      · exact .kept (ih _)
      · split
        · exact (ih _).blank
        · split
          · exact (ih _).blank
          · split
            · exact (ih _).blank
            · exact .kept (ih _)
    | string => exact .kept (ih _)
    | escape => exact .kept (ih _)
    | _ => exact (ih _).blank

theorem blankCommas_overwrites (place : Place) (text : List Char) : Overwrites text (blankCommas place text) := by
  induction text generalizing place with
  | nil =>
    rw [blankCommas]
    exact .nil
  | cons c text ih =>
    cases place with
    | string => exact .kept (ih _)
    | escape => exact .kept (ih _)
    | _ =>
      rw [blankCommas_code Place.noConfusion Place.noConfusion]
      split
      · exact .kept (ih _)
      · split
        · rename_i hTrailing
          obtain rfl : c = ',' := by
            simp only [Bool.and_eq_true, decide_eq_true_eq] at hTrailing
            exact hTrailing.1
          exact .blanked (ih _)
        · exact .kept (ih _)

theorem relax_overwrites (text : List Char) : Overwrites text (relax text) :=
  (blankComments_overwrites .code text).trans (blankCommas_overwrites .code _)

/-! ## Texts -/

theorem toByteArray_bytes (text : String) : text.toByteArray = (bytes text.toList).toByteArray := by
  rw [← String.utf8Encode_toList]
  rfl

theorem fromUTF8_bytes (text : List Char) : String.fromUTF8? (bytes text).toByteArray = some (String.ofList text) := by
  have hText := toByteArray_bytes (String.ofList text)
  rw [String.toList_ofList] at hText
  rw [← hText, String.fromUTF8?, dif_pos (String.ofList text).isValidUTF8]
  rfl

/-- The bytes of a relaxed text are the bytes of the text with spaces over whole characters. They are read back as a
text, and no byte has moved. -/
theorem relax_keeps_layout (source : String) :
    source.toByteArray = (bytes source.toList).toByteArray ∧
      String.fromUTF8? (relaxBytes (bytes source.toList)).toByteArray = some (String.ofList (relax source.toList)) ∧
      KeepsLayout (regions .code (bytes source.toList)) (bytes source.toList) (relaxBytes (bytes source.toList)) ∧
      regions .code (relaxBytes (bytes source.toList)) = (regions .code (bytes source.toList)).map Region.bare ∧
      Overwrites source.toList (relax source.toList) := by
  refine ⟨toByteArray_bytes source, ?_, ?_, ?_, relax_overwrites _⟩
  · rw [relaxBytes_bytes, fromUTF8_bytes]
  · exact keepsLayout_relaxFrom .code (bytes source.toList)
  · exact regions_relaxFrom .code (bytes source.toList)

end Json

end DialogTree
