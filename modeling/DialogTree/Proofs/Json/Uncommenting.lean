import DialogTree.Proofs.Json.Spelling

/-!
# Comments taken out

Blanking comments keeps the tokens of a text. When tokens and spaces are left of a text, comments were between its
tokens, each in one piece, and nothing else was blanked.
-/

namespace DialogTree

namespace Json

variable {text rest : List Char} {c : Char}

/-! ## Edits -/

inductive IsToken : List Char → Prop where
  | scalar {token : List Char} (hScalar : IsScalar token) : IsToken token
  | mark {c : Char} (hMark : c ∈ ['[', ']', '\x7b', '\x7d', ':', ',']) : IsToken [c]

/-- A comment in front of the rest of its text. It runs to the end of the line, or up to the first mark that closes
it, or to the end of the text when there is none. -/
inductive IsComment : List Char → List Char → Prop where
  | line {opening content rest : List Char} (hOpening : opening = ['#'] ∨ opening = ['/', '/'])
      (hContent : '\n' ∉ content) (hEnd : ∀ c ∈ rest.head?, c = '\n') : IsComment (opening ++ content) rest
  | block {content rest : List Char} (hContent : ¬ ['*', '/'] <:+: content) :
      IsComment ('/' :: '*' :: (content ++ ['*', '/'])) rest
  | unclosed {content : List Char} (hContent : ¬ ['*', '/'] <:+: content) : IsComment ('/' :: '*' :: content) []

/-- The text with whitespace in place of its comments. -/
inductive Uncommented : List Char → List Char → Prop where
  | nil : Uncommented [] []
  | token {token text plain : List Char} (hToken : IsToken token) (hRest : Uncommented text plain) :
      Uncommented (token ++ text) (token ++ plain)
  | space {c : Char} {text plain : List Char} (hSpace : Scan.isSpace c = true) (hRest : Uncommented text plain) :
      Uncommented (c :: text) (c :: plain)
  | comment {comment text plain : List Char} (hComment : IsComment comment text) (hRest : Uncommented text plain) :
      Uncommented (comment ++ text) (comment.flatMap blank ++ plain)

/-! ## Tokens stay -/

/-- A character of a token that is no string. -/
def isSolid (c : Char) : Bool :=
  !Scan.isSpace c && c != '"'

theorem isSolid_iff : isSolid c = true ↔ Scan.isSpace c = false ∧ c ≠ '"' := by
  rw [isSolid, Bool.and_eq_true, Bool.not_eq_true', bne_iff_ne]

theorem isSolid_digit (h : c.isDigit = true) : isSolid c = true := by
  refine isSolid_iff.mpr ⟨isDigit_not_space h, ?_⟩
  rintro rfl
  cases h

theorem isSolid_mark (h : c ∈ ['[', ']', '\x7b', '\x7d', ':', ',']) : isSolid c = true := by
  have hMarks : ∀ x ∈ ['[', ']', '\x7b', '\x7d', ':', ','], isSolid x = true := List.all_eq_true.mp rfl
  exact hMarks c h

/-- How a pass goes on between tokens: with a space that it writes, with a string, or with a character that it keeps. -/
inductive PassStart (pass : Place → List Char → List Char) : List Char → Prop where
  | nil : PassStart pass []
  | blanked {x : Char} {text more : List Char} (hBlank : pass .code text = x :: more)
      (hSpace : Scan.isSpace x = true) : PassStart pass text
  | quote {rest : List Char} (hKept : pass .code ('"' :: rest) = '"' :: pass .string rest) :
      PassStart pass ('"' :: rest)
  | other {c : Char} {rest : List Char} (hQuote : c ≠ '"') (hKept : pass .code (c :: rest) = c :: pass .code rest) :
      PassStart pass (c :: rest)

/-- The pass keeps strings, and writes nothing but spaces between tokens. -/
structure KeepsTokens (pass : Place → List Char → List Char) : Prop where
  nil : ∀ place, pass place [] = []
  string : ∀ {c : Char} {text : List Char}, pass .string (c :: text) =
    c :: pass (if c = '\\' then .escape else if c = '"' then .code else .string) text
  escape : ∀ {c : Char} {text : List Char}, pass .escape (c :: text) = c :: pass .string text
  code : ∀ text, PassStart pass text

section KeepsTokens

variable {pass : Place → List Char → List Char} (h : KeepsTokens pass)

include h

theorem KeepsTokens.quote (hText : pass .code text = '"' :: rest) :
    ∃ behind, text = '"' :: behind ∧ pass .string behind = rest := by
  cases h.code text with
  | nil =>
    rw [h.nil] at hText
    cases hText
  | blanked hBlank hSpace =>
    obtain ⟨rfl, -⟩ := List.cons.inj (hBlank.symm.trans hText)
    cases hSpace
  | quote hKept => exact ⟨_, rfl, (List.cons.inj (hKept.symm.trans hText)).2⟩
  | other hQuote hKept => exact absurd (List.cons.inj (hKept.symm.trans hText)).1 hQuote

theorem KeepsTokens.other (hNotSpace : Scan.isSpace c = false) (hQuote : c ≠ '"')
    (hText : pass .code text = c :: rest) : ∃ behind, text = c :: behind ∧ pass .code behind = rest := by
  cases h.code text with
  | nil =>
    rw [h.nil] at hText
    cases hText
  | blanked hBlank hSpace =>
    obtain ⟨rfl, -⟩ := List.cons.inj (hBlank.symm.trans hText)
    rw [hNotSpace] at hSpace
    cases hSpace
  | quote hKept => exact absurd (List.cons.inj (hKept.symm.trans hText)).1.symm hQuote
  | other _ hKept =>
    obtain ⟨rfl, hRest⟩ := List.cons.inj (hKept.symm.trans hText)
    exact ⟨_, rfl, hRest⟩

theorem KeepsTokens.inString (hText : pass .string text = c :: rest) : ∃ behind, text = c :: behind ∧
    pass (if c = '\\' then .escape else if c = '"' then .code else .string) behind = rest := by
  cases text with
  | nil =>
    rw [h.nil] at hText
    cases hText
  | cons d text =>
    rw [h.string] at hText
    obtain ⟨rfl, hRest⟩ := List.cons.inj hText
    exact ⟨text, rfl, hRest⟩

theorem KeepsTokens.behindBackslash (hText : pass .escape text = c :: rest) :
    ∃ behind, text = c :: behind ∧ pass .string behind = rest := by
  cases text with
  | nil =>
    rw [h.nil] at hText
    cases hText
  | cons d text =>
    rw [h.escape] at hText
    obtain ⟨rfl, hRest⟩ := List.cons.inj hText
    exact ⟨text, rfl, hRest⟩

theorem KeepsTokens.escaped (hText : pass .string text = '\\' :: c :: rest) :
    ∃ behind, text = '\\' :: c :: behind ∧ pass .string behind = rest := by
  obtain ⟨behind, rfl, hBehind⟩ := h.inString hText
  rw [if_pos rfl] at hBehind
  obtain ⟨behind, rfl, hRest⟩ := h.behindBackslash hBehind
  exact ⟨behind, rfl, hRest⟩

theorem KeepsTokens.plainString {front : List Char} (hPlain : ∀ x ∈ front, x ≠ '"' ∧ x ≠ '\\')
    (hText : pass .string text = front ++ rest) : ∃ behind, text = front ++ behind ∧ pass .string behind = rest := by
  induction front generalizing text with
  | nil => exact ⟨text, rfl, hText⟩
  | cons x front ih =>
    obtain ⟨⟨hQuote, hBackslash⟩, hOthers⟩ := List.forall_mem_cons.mp hPlain
    obtain ⟨behind, rfl, hBehind⟩ := h.inString hText
    rw [if_neg hBackslash, if_neg hQuote] at hBehind
    obtain ⟨behind, rfl, hRest⟩ := ih hOthers hBehind
    exact ⟨behind, rfl, hRest⟩

theorem KeepsTokens.stringBody {body : List Char} (hBody : IsStringBody body)
    (hText : pass .string text = body ++ '"' :: rest) :
    ∃ behind, text = body ++ '"' :: behind ∧ pass .code behind = rest := by
  induction hBody generalizing text with
  | nil =>
    obtain ⟨behind, rfl, hBehind⟩ := h.inString hText
    exact ⟨behind, rfl, hBehind⟩
  | @plain c body hQuote hBackslash _ _ ih =>
    have hPlain : ∀ x ∈ [c], x ≠ '"' ∧ x ≠ '\\' := List.forall_mem_singleton.mpr ⟨hQuote, hBackslash⟩
    obtain ⟨behind, rfl, hBehind⟩ := h.plainString hPlain hText
    obtain ⟨behind, rfl, hRest⟩ := ih hBehind
    exact ⟨behind, rfl, hRest⟩
  | short _ _ ih =>
    obtain ⟨behind, rfl, hBehind⟩ := h.escaped hText
    obtain ⟨behind, rfl, hRest⟩ := ih hBehind
    exact ⟨behind, rfl, hRest⟩
  | @unicode digits body _ hDigits _ ih =>
    obtain ⟨behind, rfl, hBehind⟩ := h.escaped hText
    obtain ⟨behind, rfl, hBody⟩ :=
      h.plainString (fun x hx => hexDigit_plain (hDigits x hx)) (hBehind.trans (List.append_assoc ..))
    obtain ⟨behind, rfl, hRest⟩ := ih hBody
    exact ⟨behind, by simp, hRest⟩

theorem KeepsTokens.solid {front : List Char} (hSolid : ∀ x ∈ front, isSolid x = true)
    (hText : pass .code text = front ++ rest) : ∃ behind, text = front ++ behind ∧ pass .code behind = rest := by
  induction front generalizing text with
  | nil => exact ⟨text, rfl, hText⟩
  | cons x front ih =>
    obtain ⟨hFirst, hOthers⟩ := List.forall_mem_cons.mp hSolid
    obtain ⟨hNotSpace, hQuote⟩ := isSolid_iff.mp hFirst
    obtain ⟨behind, rfl, hBehind⟩ := h.other hNotSpace hQuote hText
    obtain ⟨behind, rfl, hRest⟩ := ih hOthers hBehind
    exact ⟨behind, rfl, hRest⟩

theorem KeepsTokens.token {token : List Char} (hToken : IsToken token) (hText : pass .code text = token ++ rest) :
    ∃ behind, text = token ++ behind ∧ pass .code behind = rest := by
  cases hToken with
  | scalar hScalar =>
    cases hScalar with
    | null => exact h.solid (List.all_eq_true.mp rfl) hText
    | yes => exact h.solid (List.all_eq_true.mp rfl) hText
    | no => exact h.solid (List.all_eq_true.mp rfl) hText
    | number hNumber => exact h.solid (hNumber.all isSolid_digit (List.all_eq_true.mp rfl)) hText
    | string hString =>
      cases hString with
      | intro hBody =>
        obtain ⟨behind, rfl, hBehind⟩ := h.quote hText
        obtain ⟨behind, rfl, hRest⟩ := h.stringBody hBody (hBehind.trans (List.append_assoc ..))
        exact ⟨behind, by simp, hRest⟩
  | mark hMark => exact h.solid (List.forall_mem_singleton.mpr (isSolid_mark hMark)) hText

end KeepsTokens

/-! ## Where comments begin -/

theorem blank_cons (c : Char) : ∃ x more, blank c = x :: more ∧ Scan.isSpace x = true := by
  rw [blank]
  split
  · exact ⟨'\n', [], rfl, rfl⟩
  · obtain ⟨count, hCount⟩ := Nat.exists_eq_add_one.mpr (Char.utf8Size_pos c)
    rw [hCount]
    exact ⟨' ', _, List.replicate_succ, rfl⟩

/-- How a text goes on between tokens: not at all, with a comment, with a string or with another character. -/
inductive CodeStart : List Char → Prop where
  | nil : CodeStart []
  | comment {comment rest : List Char} (hComment : IsComment comment rest) (hSome : comment ≠ [])
      (hBlank : blankComments .code (comment ++ rest) = comment.flatMap blank ++ blankComments .code rest) :
      CodeStart (comment ++ rest)
  | quote {rest : List Char} : CodeStart ('"' :: rest)
  | other {c : Char} {rest : List Char} (hQuote : c ≠ '"')
      (hKept : blankComments .code (c :: rest) = c :: blankComments .code rest) : CodeStart (c :: rest)

theorem line_comment {opening : List Char} (hOpening : opening = ['#'] ∨ opening = ['/', '/']) (text : List Char)
    (hStart : blankComments .code (opening ++ text) = opening.flatMap blank ++ blankComments .line text) :
    CodeStart (opening ++ text) := by
  have hText : text = text.takeWhile (· ≠ '\n') ++ text.dropWhile (· ≠ '\n') := List.takeWhile_append_dropWhile.symm
  have hContent : '\n' ∉ text.takeWhile (· ≠ '\n') := by
    intro hMem
    have hNot := List.all_eq_true.mp (List.all_takeWhile (p := (· ≠ '\n')) (l := text)) _ hMem
    simp at hNot
  have hEnd : ∀ c ∈ (text.dropWhile (· ≠ '\n')).head?, c = '\n' := by
    intro c hc
    have hStop := List.head?_dropWhile_not (· ≠ '\n') text
    rw [hc] at hStop
    simpa using hStop
  generalize text.takeWhile (· ≠ '\n') = content at hText hContent
  generalize text.dropWhile (· ≠ '\n') = rest at hText hEnd
  subst hText
  have hBehind : blankComments .line rest = blankComments .code rest := by
    cases rest with
    | nil => rfl
    | cons c rest =>
      obtain rfl := hEnd c rfl
      rfl
  rw [← List.append_assoc]
  refine .comment (.line hOpening hContent hEnd) ?_ ?_
  · rcases hOpening with rfl | rfl
    · exact List.cons_ne_nil _ _
    · exact List.cons_ne_nil _ _
  · rw [List.append_assoc, hStart, blankComments_line hContent, hBehind, List.flatMap_append, List.append_assoc]

theorem closing_mark (text : List Char) : ¬ ['*', '/'] <:+: text ∨
    ∃ content rest, text = content ++ '*' :: '/' :: rest ∧ ¬ ['*', '/'] <:+: content := by
  induction text with
  | nil => exact .inl (by simp)
  | cons c text ih =>
    by_cases hMark : ['*', '/'] <+: c :: text
    · obtain ⟨rest, hRest⟩ := hMark
      exact .inr ⟨[], rest, hRest.symm, by simp⟩
    · rcases ih with hNone | ⟨content, rest, rfl, hContent⟩
      · refine .inl fun hInfix => ?_
        rcases List.infix_cons_iff.mp hInfix with hPrefix | hInfix
        · exact hMark hPrefix
        · exact hNone hInfix
      · refine .inr ⟨c :: content, rest, rfl, fun hInfix => ?_⟩
        rcases List.infix_cons_iff.mp hInfix with hPrefix | hInfix
        · exact hMark (hPrefix.trans (List.prefix_append (c :: content) _))
        · exact hContent hInfix

theorem blankComments_unclosed {content : List Char} (h : ¬ ['*', '/'] <:+: content) :
    blankComments .block content = content.flatMap blank := by
  induction content with
  | nil => rfl
  | cons c content ih =>
    have hOpen : (decide (c = '*') && content.head? == some '/') = false := by
      rw [Bool.eq_false_iff]
      intro hEnd
      simp only [Bool.and_eq_true, decide_eq_true_eq, beq_iff_eq] at hEnd
      obtain ⟨rfl, hNext⟩ := hEnd
      obtain ⟨more, rfl⟩ := List.head?_eq_some_iff.mp hNext
      exact h ⟨[], more, rfl⟩
    have hOthers : ¬ ['*', '/'] <:+: content := fun hInfix => h (hInfix.trans (List.infix_cons (List.infix_refl _)))
    rw [blankComments, hOpen, if_neg Bool.false_ne_true, ih hOthers, List.flatMap_cons]

theorem block_comment (text : List Char) : CodeStart ('/' :: '*' :: text) := by
  have hStart : blankComments .code ('/' :: '*' :: text) = ' ' :: ' ' :: blankComments .block text := rfl
  rcases closing_mark text with hNone | ⟨content, rest, rfl, hContent⟩
  · have hAll : CodeStart (('/' :: '*' :: text) ++ []) := by
      refine .comment (.unclosed hNone) (List.cons_ne_nil _ _) ?_
      rw [List.append_nil, hStart, blankComments_unclosed hNone, blankComments, List.append_nil]
      rfl
    rwa [List.append_nil] at hAll
  · have hAll : CodeStart (('/' :: '*' :: (content ++ ['*', '/'])) ++ rest) := by
      refine .comment (.block hContent) (List.cons_ne_nil _ _) ?_
      have hText : ('/' :: '*' :: (content ++ ['*', '/'])) ++ rest = '/' :: '*' :: (content ++ '*' :: '/' :: rest) := by
        simp
      rw [hText, hStart, blankComments_block hContent, List.flatMap_cons, List.flatMap_cons, List.flatMap_append,
        List.append_assoc, List.append_assoc, List.append_assoc]
      rfl
    simpa using hAll

theorem codeStart (text : List Char) : CodeStart text := by
  cases text with
  | nil => exact .nil
  | cons c text =>
    by_cases hQuote : c = '"'
    · subst hQuote
      exact .quote
    · by_cases hHash : c = '#'
      · subst hHash
        exact line_comment (.inl rfl) text rfl
      · by_cases hSlash : c = '/' ∧ (text.head? = some '/' ∨ text.head? = some '*')
        · obtain ⟨rfl, hLine | hBlock⟩ := hSlash
          · obtain ⟨rest, rfl⟩ := List.head?_eq_some_iff.mp hLine
            exact line_comment (.inr rfl) rest rfl
          · obtain ⟨rest, rfl⟩ := List.head?_eq_some_iff.mp hBlock
            exact block_comment rest
        · refine .other hQuote ?_
          rw [blankComments, if_neg hQuote, if_neg hHash, if_neg, if_neg]
          · simpa using fun hChar hBlock => hSlash ⟨hChar, .inr hBlock⟩
          · simpa using fun hChar hLine => hSlash ⟨hChar, .inl hLine⟩

theorem comment_space {comment : List Char} (hSome : comment ≠ []) :
    ∃ x more, comment.flatMap blank = x :: more ∧ Scan.isSpace x = true := by
  obtain ⟨c, comment, rfl⟩ := List.exists_cons_of_ne_nil hSome
  obtain ⟨x, more, hBlank, hSpace⟩ := blank_cons c
  exact ⟨x, more ++ comment.flatMap blank, by rw [List.flatMap_cons, hBlank]; rfl, hSpace⟩

theorem keepsTokens_comments : KeepsTokens blankComments where
  nil place := by cases place <;> rfl
  string := rfl
  escape := rfl
  code text := by
    cases codeStart text with
    | nil => exact .nil
    | comment _ hSome hBlank =>
      obtain ⟨x, more, hMore, hSpace⟩ := comment_space hSome
      rw [hMore] at hBlank
      exact .blanked hBlank hSpace
    | quote => exact .quote rfl
    | other hQuote hKept => exact .other hQuote hKept

/-! ## Texts of tokens -/

inductive Tokenized : List Char → Prop where
  | nil : Tokenized []
  | token {token text : List Char} (hToken : IsToken token) (hRest : Tokenized text) : Tokenized (token ++ text)
  | space {c : Char} {text : List Char} (hSpace : Scan.isSpace c = true) (hRest : Tokenized text) :
      Tokenized (c :: text)

theorem IsToken.head {token : List Char} (h : IsToken token) :
    ∃ c more, token = c :: more ∧ Scan.isSpace c = false := by
  cases h with
  | scalar hScalar =>
    obtain ⟨c, more, rfl, hOpens⟩ := hScalar.opens
    exact ⟨c, more, rfl, hOpens.notSpace⟩
  | @mark c hMark =>
    exact ⟨c, [], rfl, (isSolid_iff.mp (isSolid_mark hMark)).1⟩

theorem Tokenized.behind_space (hSpace : Scan.isSpace c = true) (h : Tokenized (c :: text)) : Tokenized text := by
  generalize hText : c :: text = whole at h
  cases h with
  | nil => cases hText
  | token hToken =>
    obtain ⟨d, more, rfl, hNotSpace⟩ := hToken.head
    obtain ⟨rfl, -⟩ := List.cons.inj hText
    rw [hNotSpace] at hSpace
    cases hSpace
  | space _ hRest =>
    obtain ⟨-, rfl⟩ := List.cons.inj hText
    exact hRest

theorem Tokenized.behind_spaces {gap : List Char} (hGap : IsSpaces gap) (h : Tokenized (gap ++ text)) :
    Tokenized text := by
  induction gap with
  | nil => exact h
  | cons c gap ih =>
    obtain ⟨hSpace, hOthers⟩ := List.forall_mem_cons.mp hGap
    exact ih hOthers (Tokenized.behind_space hSpace h)

theorem Tokenized.first_token (hNotSpace : Scan.isSpace c = false) (h : Tokenized (c :: text)) :
    ∃ token rest, c :: text = token ++ rest ∧ IsToken token ∧ Tokenized rest := by
  generalize hText : c :: text = whole at h
  cases h with
  | nil => cases hText
  | token hToken hRest => exact ⟨_, _, rfl, hToken, hRest⟩
  | space hSpace =>
    obtain ⟨rfl, -⟩ := List.cons.inj hText
    rw [hNotSpace] at hSpace
    cases hSpace

/-- When tokens and spaces are left of a text, the blanked comments were between its tokens. -/
theorem uncommented_blank (source : List Char) (h : Tokenized (blankComments .code source)) :
    Uncommented source (blankComments .code source) := by
  -- A comment and a token are each taken in one piece, so that the induction is on the length.
  induction hLength : source.length using Nat.strongRecOn generalizing source with
  | ind length ih =>
    subst hLength
    have hToken : ∀ {c : Char} {rest : List Char}, blankComments .code source = c :: rest → Scan.isSpace c = false →
        Uncommented source (blankComments .code source) := by
      intro c rest hText hNotSpace
      rw [hText] at h
      obtain ⟨token, left, hSplit, hToken, hLeft⟩ := Tokenized.first_token hNotSpace h
      obtain ⟨behind, rfl, rfl⟩ := keepsTokens_comments.token hToken (hText.trans hSplit)
      obtain ⟨d, more, rfl, -⟩ := hToken.head
      have hShorter : behind.length < (d :: more ++ behind).length := by
        rw [List.length_append, List.length_cons]
        omega
      rw [hText, hSplit]
      exact .token hToken (ih behind.length hShorter behind hLeft rfl)
    cases codeStart source with
    | nil => exact .nil
    | @comment comment rest hComment hSome hBlank =>
      rw [hBlank] at h ⊢
      have hShorter : rest.length < (comment ++ rest).length := by
        rw [List.length_append]
        exact Nat.lt_add_of_pos_left (List.length_pos_iff.mpr hSome)
      exact .comment hComment (ih rest.length hShorter rest (Tokenized.behind_spaces (flatMap_blank_spaces _) h) rfl)
    | quote => exact hToken rfl rfl
    | @other c rest _ hKept =>
      cases hSpace : Scan.isSpace c with
      | false => exact hToken hKept hSpace
      | true =>
        rw [hKept] at h ⊢
        exact .space hSpace (ih rest.length (Nat.lt_succ_self _) rest (Tokenized.behind_space hSpace h) rfl)

end Json

end DialogTree
