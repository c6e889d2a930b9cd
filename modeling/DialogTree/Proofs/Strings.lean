import DialogTree.Parsing.Quoted
import DialogTree.Proofs.Passing

/-!
# Spellings of strings

How the characters of a string are written between quotation marks, as a relation between a text, the
character it spells, and what follows. The reader accepts a string exactly when it is spelled so, and gives
the characters that are spelled.
-/

namespace DialogTree

/-- The letters behind a backslash that spell one character each. -/
def namedEscapes : List (Char × Char) :=
  [('n', '\n'), ('t', '\t'), ('r', '\r'), ('a', '\x07'), ('b', '\x08'), ('f', '\x0c'), ('v', '\x0b'),
    ('\\', '\\'), ('"', '"'), ('\x27', '\x27'), ('?', '?')]

/-- The letters behind a backslash that stand in front of so many hexadecimal digits. -/
def hexEscapes : List (Char × Nat) := [('x', 2), ('u', 4), ('U', 8)]

/-- Octal digits in front of a text, at most three, and fewer only where no other one follows. -/
structure OctalDigits (digits after : List Char) : Prop where
  length_le : digits.length ≤ 3
  all : ∀ x ∈ digits, isOctal x = true
  longest : digits.length < 3 → ∀ x ∈ after.head?, isOctal x = false

/-- A text that spells one character of a string, in front of a given text. -/
inductive Spells : List Char → Char → List Char → Prop where
  | itself {c : Char} {after : List Char} (hQuote : c ≠ '"') (hBackslash : c ≠ '\\') :
      Spells [c] c after
  | named {letter c : Char} {after : List Char} (hLetter : (letter, c) ∈ namedEscapes) :
      Spells ['\\', letter] c after
  | octal {digits after : List Char} {c : Char} (hDigits : digits ≠ []) (hRun : OctalDigits digits after)
      (hLimit : valueIn 8 digits ≤ 255) (hValue : c.toNat = valueIn 8 digits) :
      Spells ('\\' :: digits) c after
  | hex {mark : Char} {digits after : List Char} {c : Char} (hMark : (mark, digits.length) ∈ hexEscapes)
      (hAll : ∀ x ∈ digits, isDigitIn 16 x = true) (hValue : c.toNat = valueIn 16 digits) :
      Spells ('\\' :: mark :: digits) c after

/-- The rest of a string up to its closing quotation mark, with the characters it spells. -/
inductive SpellsString : List Char → List Char → List Char → Prop where
  | close {after : List Char} : SpellsString ['"'] [] after
  | next {written more text after : List Char} {c : Char} (hSpells : Spells written c (more ++ after))
      (hMore : SpellsString more text after) : SpellsString (written ++ more) (c :: text) after

inductive QuotedTo : String → Cursor → Cursor → Prop where
  | intro {c d : Cursor} {written text : List Char} (hPasses : c.Passes ('"' :: written) d)
      (hSpells : SpellsString written text d.rest) : QuotedTo (String.ofList text) c d

/-- A string between back quotes, taken as it stands. -/
inductive RawTo : String → Cursor → Cursor → Prop where
  | intro {c d : Cursor} {text : List Char} (hPasses : c.Passes ('\x60' :: text ++ ['\x60']) d)
      (hInside : '\x60' ∉ text) : RawTo (String.ofList text) c d

/-! ## Escapes -/

theorem scalar?_eq_some_iff {n : Nat} {c : Char} : scalar? n = some c ↔ c.toNat = n := by
  unfold scalar?
  constructor
  · intro h
    split at h
    · rename_i hValid
      cases h
      rw [Char.ofNat, dif_pos hValid]
      rfl
    · cases h
  · rintro rfl
    rw [if_pos (show c.toNat.isValidChar from c.valid), Char.ofNat_toNat]

theorem simpleEscape?_eq_some_iff {letter c : Char} :
    simpleEscape? letter = some c ↔ (letter, c) ∈ namedEscapes := by
  constructor
  · intro h
    unfold simpleEscape? at h
    split at h <;> cases h <;> decide
  · intro h
    simp only [namedEscapes, List.mem_cons, Prod.mk.injEq, List.not_mem_nil, or_false] at h
    rcases h with ⟨rfl, rfl⟩ | ⟨rfl, rfl⟩ | ⟨rfl, rfl⟩ | ⟨rfl, rfl⟩ | ⟨rfl, rfl⟩ | ⟨rfl, rfl⟩ | ⟨rfl, rfl⟩ |
      ⟨rfl, rfl⟩ | ⟨rfl, rfl⟩ | ⟨rfl, rfl⟩ | ⟨rfl, rfl⟩ <;> rfl

theorem simpleEscape?_of_isOctal {c : Char} (h : isOctal c = true) : simpleEscape? c = none := by
  unfold simpleEscape?
  split <;> first | rfl | simp [isOctal] at h

theorem OctalDigits.eq {digits after : List Char} (h : OctalDigits digits after) :
    ((digits ++ after).take 3).takeWhile isOctal = digits := by
  rw [List.take_append, List.take_of_length_le h.length_le]
  apply Cursor.takeWhile_append_of_stops h.all
  intro x hx
  have hHead : 3 - digits.length ≠ 0 := by
    intro hZero
    simp [hZero] at hx
  rw [List.head?_take, if_neg hHead] at hx
  exact h.longest (by omega) x hx

theorem exists_octalDigits (text : List Char) :
    ∃ digits after, text = digits ++ after ∧ OctalDigits digits after := by
  have hSplit := (List.takeWhile_append_dropWhile (p := isOctal) (l := text)).symm
  refine ⟨(text.takeWhile isOctal).take 3, (text.takeWhile isOctal).drop 3 ++ text.dropWhile isOctal,
    ?_, ?_, ?_, ?_⟩
  · rw [← List.append_assoc, List.take_append_drop]
    exact hSplit
  · exact List.length_take_le 3 _
  · intro x hx
    exact List.all_eq_true.mp List.all_takeWhile x (List.mem_of_mem_take hx)
  · intro hShort x hx
    have hNone : (text.takeWhile isOctal).drop 3 = [] := by
      rw [List.length_take] at hShort
      exact List.drop_eq_nil_of_le (by omega)
    rw [hNone, List.nil_append] at hx
    have hStop := List.head?_dropWhile_not isOctal text
    simp only [Option.mem_def] at hx
    simpa [hx] using hStop

theorem octalEscape?_eq_some_iff {text : List Char} {c : Char} {count : Nat} :
    octalEscape? text = some (c, count) ↔ ∃ digits after, text = digits ++ after ∧
      digits.length = count ∧ OctalDigits digits after ∧ valueIn 8 digits ≤ 255 ∧
      c.toNat = valueIn 8 digits := by
  constructor
  · intro h
    obtain ⟨digits, after, rfl, hDigits⟩ := exists_octalDigits text
    simp only [octalEscape?, hDigits.eq] at h
    split at h
    · rename_i hLimit
      obtain ⟨c', hValue, hEq⟩ := Option.map_eq_some_iff.mp h
      cases hEq
      exact ⟨digits, after, rfl, rfl, hDigits, hLimit, scalar?_eq_some_iff.mp hValue⟩
    · cases h
  · rintro ⟨digits, after, rfl, rfl, hDigits, hLimit, hValue⟩
    simp only [octalEscape?, hDigits.eq]
    rw [if_pos hLimit, scalar?_eq_some_iff.mpr hValue]
    rfl

theorem hexEscape?_eq_some_iff {count : Nat} {text : List Char} {c : Char} :
    hexEscape? count text = some c ↔ ∃ digits after, text = digits ++ after ∧
      digits.length = count ∧ (∀ x ∈ digits, isDigitIn 16 x = true) ∧ c.toNat = valueIn 16 digits := by
  constructor
  · intro h
    simp only [hexEscape?] at h
    split at h
    · rename_i hDigits
      simp only [Bool.and_eq_true, decide_eq_true_eq, List.all_eq_true] at hDigits
      exact ⟨text.take count, text.drop count, (List.take_append_drop count text).symm, hDigits.1,
        hDigits.2, scalar?_eq_some_iff.mp h⟩
    · cases h
  · rintro ⟨digits, after, rfl, rfl, hAll, hValue⟩
    have hTake : (digits ++ after).take digits.length = digits := List.take_left
    have hTest : digits.all (isDigitIn 16) = true := List.all_eq_true.mpr hAll
    simp [hexEscape?, hTake, hTest, scalar?_eq_some_iff.mpr hValue]

theorem not_isOctal_of_hexEscapes {mark : Char} {count : Nat} (h : (mark, count) ∈ hexEscapes) :
    simpleEscape? mark = none ∧ isOctal mark = false := by
  simp only [hexEscapes, List.mem_cons, Prod.mk.injEq, List.not_mem_nil, or_false] at h
  rcases h with ⟨rfl, -⟩ | ⟨rfl, -⟩ | ⟨rfl, -⟩ <;> decide

theorem spells_of_hexEscape? {mark c : Char} {size count : Nat} {rest : List Char}
    (hMark : (mark, size) ∈ hexEscapes)
    (h : (hexEscape? size rest).map (·, size + 1) = some (c, count)) :
    ∃ written after, mark :: rest = written ++ after ∧ written.length = count ∧
      Spells ('\\' :: written) c after := by
  obtain ⟨c', hDigits, hEq⟩ := Option.map_eq_some_iff.mp h
  cases hEq
  obtain ⟨digits, after, rfl, rfl, hAll, hValue⟩ := hexEscape?_eq_some_iff.mp hDigits
  exact ⟨mark :: digits, after, rfl, rfl, .hex hMark hAll hValue⟩

theorem spells_of_unescape? {text : List Char} {c : Char} {count : Nat} (h : unescape? text = some (c, count)) :
    ∃ written after, text = written ++ after ∧ written.length = count ∧ Spells ('\\' :: written) c after := by
  cases text with
  | nil => cases h
  | cons x rest =>
    rw [unescape?] at h
    split at h
    · rename_i spelled hNamed
      cases h
      exact ⟨[x], rest, rfl, rfl, .named (simpleEscape?_eq_some_iff.mp hNamed)⟩
    · split at h
      · rename_i hOctal
        obtain ⟨digits, after, hText, hLength, hRun, hLimit, hValue⟩ := octalEscape?_eq_some_iff.mp h
        refine ⟨digits, after, hText, hLength, .octal ?_ hRun hLimit hValue⟩
        rintro rfl
        -- The run is not empty, since an octal digit comes first.
        have hStop := hRun.longest (by simp) x (by rw [← List.nil_append after, ← hText]; rfl)
        simp [hOctal] at hStop
      · split at h
        · rename_i hMark
          subst hMark
          exact spells_of_hexEscape? (by decide) h
        · split at h
          · rename_i hMark
            subst hMark
            exact spells_of_hexEscape? (by decide) h
          · split at h
            · rename_i hMark
              subst hMark
              exact spells_of_hexEscape? (by decide) h
            · cases h

theorem Spells.unescaped {written after : List Char} {c : Char} (h : Spells ('\\' :: written) c after) :
    unescape? (written ++ after) = some (c, written.length) := by
  cases h with
  | itself _ hBackslash => exact absurd rfl hBackslash
  | named hLetter =>
    simp [unescape?, simpleEscape?_eq_some_iff.mpr hLetter]
  | octal hDigits hRun hLimit hValue =>
    have hRead := octalEscape?_eq_some_iff.mpr ⟨written, after, rfl, rfl, hRun, hLimit, hValue⟩
    cases written with
    | nil => exact absurd rfl hDigits
    | cons x digits =>
      have hOctal := hRun.all x List.mem_cons_self
      rw [List.cons_append, unescape?, simpleEscape?_of_isOctal hOctal]
      simp only [hOctal, if_true]
      exact hRead
  | hex hMark hAll hValue =>
    rename_i mark digits
    obtain ⟨hNamed, hOctal⟩ := not_isOctal_of_hexEscapes hMark
    have hRead := hexEscape?_eq_some_iff.mpr ⟨digits, after, rfl, rfl, hAll, hValue⟩
    rw [List.cons_append, unescape?, hNamed]
    simp only [hOctal, List.length_cons]
    simp only [hexEscapes, List.mem_cons, Prod.mk.injEq, List.not_mem_nil, or_false] at hMark
    rcases hMark with ⟨rfl, hSize⟩ | ⟨rfl, hSize⟩ | ⟨rfl, hSize⟩ <;>
      · rw [hSize] at hRead ⊢
        simp [hRead]

/-- Behind a backslash the reader accepts what spells a character, and as much of it. -/
theorem unescape?_eq_some_iff {text : List Char} {c : Char} {count : Nat} :
    unescape? text = some (c, count) ↔ ∃ written after, text = written ++ after ∧
      written.length = count ∧ Spells ('\\' :: written) c after := by
  constructor
  · exact spells_of_unescape?
  · rintro ⟨written, after, rfl, rfl, hSpells⟩
    exact hSpells.unescaped

/-! ## Strings -/

variable {c d : Cursor}

theorem map_eq_ok_iff {ε α β : Type} {f : α → β} {x : Except ε α} {b : β} :
    x.map f = .ok b ↔ ∃ a, x = .ok a ∧ f a = b := by
  cases x <;> simp [Except.map]

theorem quotedBody_ok {start : Position} {text : List Char} (h : quotedBody start c = .ok (d, text)) :
    ∃ written, c.Passes written d ∧ SpellsString written text d.rest := by
  fun_induction quotedBody start c generalizing d text with
  | case1 c hRest => cases h
  | case2 c rest hRest =>
    cases h
    exact ⟨['"'], Cursor.passes_cons hRest, .close⟩
  | case3 c rest hRead hRest hQuote => cases h
  | case4 c rest spelled count hRead hRest hQuote ih =>
    obtain ⟨⟨next, more⟩, hMore, hEq⟩ := map_eq_ok_iff.mp h
    cases hEq
    obtain ⟨written, after, rfl, rfl, hSpells⟩ := unescape?_eq_some_iff.mp hRead
    obtain ⟨written', hPasses, hString⟩ := ih hMore
    have hStep : c.Passes ('\\' :: written) (c.skip (written.length + 1)) :=
      Cursor.passes_skip (s := '\\' :: written) ⟨after, hRest.symm⟩
    have hAfter : after = written' ++ d.rest := by
      rw [← hPasses.1, Cursor.rest_skip, hRest]
      simp
    exact ⟨'\\' :: written ++ written', hStep.trans hPasses, .next (hAfter ▸ hSpells) hString⟩
  | case5 c x rest hRest hQuote hBackslash ih =>
    obtain ⟨⟨next, more⟩, hMore, hEq⟩ := map_eq_ok_iff.mp h
    cases hEq
    obtain ⟨written, hPasses, hString⟩ := ih hMore
    exact ⟨[x] ++ written, (Cursor.passes_cons hRest).trans hPasses,
      .next (.itself hQuote hBackslash) hString⟩

theorem Spells.itself_or_unescape? {written after : List Char} {x : Char} (h : Spells written x after) :
    (written = [x] ∧ x ≠ '"' ∧ x ≠ '\\') ∨
      ∃ letters, written = '\\' :: letters ∧ unescape? (letters ++ after) = some (x, letters.length) := by
  by_cases hBackslash : ∃ letters, written = '\\' :: letters
  · obtain ⟨letters, rfl⟩ := hBackslash
    exact .inr ⟨letters, rfl, h.unescaped⟩
  · cases h with
    | itself hQuote hSelf => exact .inl ⟨rfl, hQuote, hSelf⟩
    | named => exact absurd ⟨_, rfl⟩ hBackslash
    | octal => exact absurd ⟨_, rfl⟩ hBackslash
    | hex => exact absurd ⟨_, rfl⟩ hBackslash

theorem quotedBody_next {start : Position} {written after : List Char} {x : Char}
    (hSpells : Spells written x after) (hRest : c.rest = written ++ after) :
    quotedBody start c =
      (quotedBody start (c.skip written.length)).map fun (next, text) => (next, x :: text) := by
  rw [quotedBody.eq_def]
  split
  · rename_i hNil
    rw [hNil] at hRest
    rcases hSpells.itself_or_unescape? with ⟨rfl, -⟩ | ⟨letters, rfl, -⟩ <;> cases hRest
  · rename_i y rest hCons
    rw [hCons] at hRest
    rcases hSpells.itself_or_unescape? with ⟨rfl, hQuote, hBackslash⟩ | ⟨letters, rfl, hRead⟩
    · cases hRest
      rw [if_neg hQuote, if_neg hBackslash]
      rfl
    · rw [List.cons_append, List.cons.injEq] at hRest
      obtain ⟨rfl, rfl⟩ := hRest
      rw [if_neg (by decide), if_pos rfl, hRead]
      rfl

theorem quotedBody_of_spells {start : Position} {written text after : List Char}
    (h : SpellsString written text after) (hRest : c.rest = written ++ after) :
    quotedBody start c = .ok (c.skip written.length, text) := by
  induction h generalizing c with
  | close =>
    rw [quotedBody.eq_def]
    split
    · rename_i hNil
      simp [hNil] at hRest
    · rename_i y rest hCons
      rw [hCons] at hRest
      cases hRest
      rw [if_pos rfl]
      rfl
  | next hSpells hMore ih =>
    rw [List.append_assoc] at hRest
    rw [quotedBody_next hSpells hRest, ih (by simp [hRest]), Cursor.skip_skip, List.length_append]
    rfl

theorem quotedString_ok_iff {text : String} : quotedString c = .ok (d, text) ↔ QuotedTo text c d := by
  constructor
  · intro h
    rw [quotedString] at h
    split at h
    · rename_i rest hRest
      obtain ⟨⟨next, letters⟩, hBody, hEq⟩ := map_eq_ok_iff.mp h
      cases hEq
      obtain ⟨written, hPasses, hString⟩ := quotedBody_ok hBody
      exact .intro ((Cursor.passes_cons hRest).trans hPasses) hString
    · cases h
  · rintro ⟨hPasses, hString⟩
    rename_i written letters
    have hBody := @quotedBody_of_spells (c.skip 1) c.position _ _ _ hString (by simp [hPasses.1])
    have hEnd : d = c.skip (1 + written.length) := by
      rw [hPasses.eq_skip, List.length_cons, Nat.add_comm]
    rw [quotedString]
    split
    · rw [hBody, Cursor.skip_skip, ← hEnd]
      rfl
    · rename_i hNot
      exact absurd hPasses.1 (hNot _)

theorem rawTo_of_ok {text : String} (h : rawString c = .ok (d, text)) : RawTo text c d := by
  rw [rawString] at h
  split at h
  · rename_i rest hRest
    have hRun := Cursor.passesRun_takeWhile (c.skip 1) (· != '\x60')
    simp only at h
    split at h
    · cases h
    · rename_i hClose
      cases h
      obtain ⟨x, more, hMore⟩ : ∃ x more, ((c.skip 1).skipWhile (· != '\x60')).rest = x :: more := by
        cases hCase : ((c.skip 1).skipWhile (· != '\x60')).rest with
        | nil => simp [Cursor.isEmpty, hCase] at hClose
        | cons x more => exact ⟨x, more, rfl⟩
      obtain rfl : x = '\x60' := by simpa [hMore] using hRun.stops
      refine .intro (((Cursor.passes_cons hRest).trans hRun.passes).trans (Cursor.passes_cons hMore)) ?_
      intro hMem
      simpa using hRun.all _ hMem
  · cases h

theorem RawTo.reads {text : String} (h : RawTo text c d) : rawString c = .ok (d, text) := by
  obtain ⟨hPasses, hInside⟩ := h
  rename_i letters
  have hRest : c.rest = '\x60' :: (letters ++ '\x60' :: d.rest) := by simp [hPasses.1]
  have hRun : (c.skip 1).PassesRun (· != '\x60') letters ((c.skip 1).skip letters.length) := by
    refine ⟨Cursor.passes_skip ⟨'\x60' :: d.rest, by simp [hRest]⟩, ?_, by simp [hRest]⟩
    intro x hx
    simp only [bne_iff_ne]
    rintro rfl
    exact hInside hx
  have hEnd : d = ((c.skip 1).skip letters.length).skip 1 := by
    rw [hPasses.eq_skip, Cursor.skip_skip, Cursor.skip_skip]
    congr 1
    simp
    omega
  obtain ⟨hText, hClose⟩ := hRun.eq
  rw [rawString]
  split
  · simp only
    rw [← hText, ← hClose, if_neg (by simp [Cursor.isEmpty, hRest]), hEnd]
  · rename_i hNot
    exact absurd hRest (hNot _)

theorem rawString_ok_iff {text : String} : rawString c = .ok (d, text) ↔ RawTo text c d :=
  ⟨rawTo_of_ok, RawTo.reads⟩

end DialogTree
