import DialogTree.Proofs.Recovery.Balanced

/-!
# What is balanced keeps the levels

A text stands in a scope when it is read outside strings and comments and the lexer of levels comes to the end of the
scope in it. Balanced texts are passed with as many brackets open behind them as in front.
-/

namespace DialogTree

/-- The text is code of a scope, with so many brackets open, and what follows the scope ends the text. A body is
followed by a closing brace. -/
structure StandsIn (counted inBody : Bool) (after : List Char) (level : Nat) (outer : List Nat) (rest : List Char) :
    Prop where
  brace : inBody = true → after.head? = some '\x7d'
  text : ∃ text, rest = text ++ after ∧ EndsScope counted inBody ⟨.code, level, outer⟩ text after

namespace StandsIn

variable {counted inBody : Bool} {after rest inside : List Char} {level level' : Nat} {outer outer' : List Nat}
  {x : Char} {next : LevelState} {c d : Cursor}

/-! ## Characters -/

theorem passed (h : StandsIn counted inBody after level outer (x :: rest))
    (hStep : levelStep counted ⟨.code, level, outer⟩ x = some next) :
    ∃ text, rest = text ++ after ∧ EndsScope counted inBody next text after := by
  obtain ⟨hBrace, text, hRest, hEnds⟩ := h
  cases text with
  | nil =>
    cases hEnds with
    | body hRun _ =>
      cases hRun
      obtain rfl : x = '\x7d' := (List.cons.inj hRest).1.trans (Option.some.inj (hBrace rfl))
      cases hStep
    | document _ _ => cases hRest
  | cons y text =>
    obtain ⟨rfl, rfl⟩ := List.cons.inj hRest
    exact ⟨text, rfl, (EndsScope.cons_iff hStep).mp hEnds⟩

theorem cons (h : StandsIn counted inBody after level outer (x :: rest))
    (hStep : levelStep counted ⟨.code, level, outer⟩ x = some ⟨.code, level', outer'⟩) :
    StandsIn counted inBody after level' outer' rest :=
  ⟨h.brace, h.passed hStep⟩

/-! ## Strings and comments -/

theorem quoted {quote : Char} (hQuote : quote = '"' ∨ quote = '\x60')
    (hLength : quotedLength quote false (inside ++ rest) = inside.length)
    (h : StandsIn counted inBody after level outer (quote :: (inside ++ rest))) :
    StandsIn counted inBody after level outer rest := by
  obtain ⟨text, hText, hEnds⟩ := h.passed (levelStep_quote hQuote level outer)
  obtain ⟨inside', rest', rfl, hLength', hRest⟩ := EndsScope.quoted (hQuote.imp_right fun hRaw => ⟨hRaw, rfl⟩) hEnds
  rw [← hText, hLength] at hLength'
  rw [List.append_assoc] at hText
  exact ⟨h.brace, rest', (List.append_inj hText hLength').2, hRest⟩

theorem comment {line : List Char} (hLength : commentLength (line ++ rest) = line.length)
    (h : StandsIn counted inBody after level outer ('#' :: (line ++ rest))) :
    StandsIn counted inBody after level outer rest := by
  obtain ⟨text, hText, hEnds⟩ := h.passed (levelStep_hash level outer)
  obtain ⟨line', rest', rfl, hLength', hRest⟩ := hEnds.commented
  rw [← hText, hLength] at hLength'
  rw [List.append_assoc] at hText
  exact ⟨h.brace, rest', (List.append_inj hText hLength').2, hRest⟩

/-! ## Groups and ends -/

theorem group (h : StandsIn counted inBody after 0 (level :: outer) rest) :
    ∃ front back, rest = front ++ '\x7d' :: back ∧ levelRun counted .start front = some .start ∧
      StandsIn counted inBody after level outer back := by
  obtain ⟨hBrace, text, rfl, hEnds⟩ := h
  have hGroup {final : LevelState} (hRun : levelRun counted ⟨.code, 0, [] ++ level :: outer⟩ text = some final)
      (hFinal : final.outer = []) := exists_group hRun (by simp [hFinal])
  cases hEnds with
  | body hRun hMark =>
    obtain ⟨front, back, rfl, hFront, hBack⟩ := hGroup hRun rfl
    exact ⟨front, back ++ _, by simp, hFront, hBrace, back, rfl, .body hBack hMark⟩
  | document hRun hOuter =>
    obtain ⟨front, back, rfl, hFront, hBack⟩ := hGroup hRun hOuter
    exact ⟨front, back ++ [], by simp, hFront, hBrace, back, rfl, .document hBack hOuter⟩

/-- In front of a brace that closes a group, the text of the group stands in it. -/
theorem of_group (hRest : rest = inside ++ after) (hBrace : after.head? = some '\x7d')
    (hInside : levelRun counted .start inside = some .start) : StandsIn counted true after 0 [] rest := by
  obtain ⟨behind, rfl⟩ := List.head?_eq_some_iff.mp hBrace
  exact ⟨fun _ => hBrace, inside, hRest, .body hInside rfl⟩

/-- From an opening brace in a scope a group of brackets goes to a closing brace, and behind it the scope goes on. -/
theorem braces (h : StandsIn counted inBody after level outer c.rest) (hPeek : c.peek? = some '\x7b') :
    ∃ inside brace, c.Passes ('\x7b' :: inside) brace ∧ brace.peek? = some '\x7d' ∧
      levelRun counted .start inside = some .start ∧ StandsIn counted true brace.rest 0 [] (c.skip 1).rest ∧
        StandsIn counted inBody after level outer (brace.skip 1).rest := by
  obtain ⟨rest, hRest⟩ := List.head?_eq_some_iff.mp hPeek
  rw [hRest] at h
  have hGroup : StandsIn counted inBody after 0 (level :: outer) rest := h.cons rfl
  obtain ⟨front, back, rfl, hFront, hBack⟩ := hGroup.group
  have hPasses : c.Passes ('\x7b' :: front) (c.skip (front.length + 1)) :=
    Cursor.passes_skip ⟨'\x7d' :: back, by rw [hRest, List.cons_append]⟩
  have hBrace : (c.skip (front.length + 1)).rest = '\x7d' :: back := by
    rw [Cursor.rest_skip, hRest, List.drop_succ_cons, List.drop_left]
  have hClosing : (c.skip (front.length + 1)).peek? = some '\x7d' := by rw [Cursor.peek?, hBrace, List.head?_cons]
  refine ⟨front, _, hPasses, hClosing, hFront, of_group ?_ hClosing hFront, ?_⟩
  · rw [Cursor.rest_skip, hRest, hBrace, List.drop_one, List.tail_cons]
  · rwa [Cursor.rest_skip, hBrace, List.drop_one, List.tail_cons]

end StandsIn

/-! ## Balanced texts -/

/-- What is balanced is passed with as many brackets open behind it as in front. -/
theorem Balanced.stands {counted inBody : Bool} {after text left : List Char} {level : Nat} {outer : List Nat}
    (h : Balanced text left) (hStands : StandsIn counted inBody after level outer text) :
    StandsIn counted inBody after level outer left := by
  induction h generalizing level outer with
  | done => exact hStands
  | neutral hNeutral _ ih => exact ih (hStands.cons (groupStep_neutral hNeutral level outer))
  | quoted hQuote hLength _ ih => exact ih (hStands.quoted hQuote hLength)
  | comment hLength _ ih => exact ih (hStands.comment hLength)
  | group hPair _ _ ihInside ih =>
    -- in each case a level or a group of levels is opened in front of the inside and closed behind it, or the two
    -- brackets mean nothing
    rcases closingOf?_cases hPair with ⟨rfl, rfl⟩ | ⟨rfl, rfl⟩ | ⟨rfl, rfl⟩
    · cases counted <;> exact ih ((ihInside (hStands.cons rfl)).cons rfl)
    · exact ih ((ihInside (hStands.cons rfl)).cons rfl)
    · cases counted <;> exact ih ((ihInside (hStands.cons rfl)).cons rfl)

/-! ## Places in a scope -/

/-- A place that the loop over a scope can come to. In a body nothing is open there. -/
def Standing (counted inBody : Bool) (after rest : List Char) : Prop :=
  ∃ level outer, (inBody = true → level = 0 ∧ outer = []) ∧ StandsIn counted inBody after level outer rest

namespace Standing

variable {counted inBody : Bool} {after rest left : List Char} {c : Cursor}

theorem of_stands (h : StandsIn counted inBody after 0 [] rest) : Standing counted inBody after rest :=
  ⟨0, [], fun _ => ⟨rfl, rfl⟩, h⟩

theorem stands (h : Standing counted true after rest) : StandsIn counted true after 0 [] rest := by
  obtain ⟨level, outer, hOpen, hStands⟩ := h
  obtain ⟨rfl, rfl⟩ := hOpen rfl
  exact hStands

theorem balanced (h : Standing counted inBody after rest) (hBalanced : Balanced rest left) :
    Standing counted inBody after left := by
  obtain ⟨level, outer, hOpen, hStands⟩ := h
  exact ⟨level, outer, hOpen, hBalanced.stands hStands⟩

theorem braces (h : Standing counted inBody after c.rest) (hPeek : c.peek? = some '\x7b') :
    ∃ inside brace, c.Passes ('\x7b' :: inside) brace ∧ brace.peek? = some '\x7d' ∧
      levelRun counted .start inside = some .start ∧ Standing counted true brace.rest (c.skip 1).rest ∧
        Standing counted inBody after (brace.skip 1).rest := by
  obtain ⟨level, outer, hOpen, hStands⟩ := h
  obtain ⟨inside, brace, hInside, hBrace, hRun, hInner, hBehind⟩ := hStands.braces hPeek
  exact ⟨inside, brace, hInside, hBrace, hRun, of_stands hInner, level, outer, hOpen, hBehind⟩

theorem eq_of_atEnd (h : Standing counted inBody after c.rest) (hEnd : Grammar.atEnd inBody c = true) :
    c.rest = after := by
  obtain ⟨level, outer, hOpen, -, text, hRest, hEnds⟩ := h
  cases text with
  | nil => exact hRest
  | cons y text =>
    obtain ⟨next, hStep, -⟩ := hEnds.cons
    obtain ⟨rfl, rfl⟩ : inBody = true ∧ y = '\x7d' := by
      simpa [Grammar.atEnd, Cursor.isEmpty, Cursor.peek?, hRest] using hEnd
    obtain ⟨rfl, rfl⟩ := hOpen rfl
    cases hStep

end Standing

/-! ## Recovery -/

/-- From the cursor on, the round and square brackets of each group of braces are closed in it, up to a character that
ends a command in a body. What closes nothing may stand outside the groups. -/
def Cursor.ClosesBrackets (c : Cursor) : Prop :=
  ∃ text mark behind, c.rest = text ++ mark :: behind ∧ endsCommand true mark = true ∧
    levelRun true .start text = some .start

section Recovery

variable {counted inBody : Bool} {after : List Char} {c : Cursor}

/-- What recovery leaves of the text of a scope. -/
theorem EndsScope.recover {level : Nat} {outer : List Nat} {text : List Char} (hRest : c.rest = text ++ after)
    (h : EndsScope counted inBody ⟨.code, level, outer⟩ text after)
    (hTracks : Tracks counted inBody 0 ⟨.code, level, outer⟩) :
    ∃ passed left level outer, text = passed ++ left ∧ (inBody = true → level = 0 ∧ outer = []) ∧
      EndsScope counted inBody ⟨.code, level, outer⟩ left after ∧ (c.recover inBody).rest = left ++ after := by
  obtain ⟨passed, left, level, outer, rfl, hOpen, hLeft, hLength⟩ := h.recovery hTracks
  refine ⟨passed, left, level, outer, rfl, hOpen, hLeft, ?_⟩
  rw [← hRest] at hLength
  rw [Cursor.recover, Cursor.rest_skip, hLength, hRest, List.append_assoc, List.drop_left]

/-- Where all brackets are counted, recovery comes to a place in its scope; so it does outside all bodies. -/
theorem Standing.recover (h : Standing counted inBody after c.rest) (hCounted : inBody = true → counted = true) :
    Standing counted inBody after (c.recover inBody).rest := by
  obtain ⟨level, outer, hOpen, hBrace, text, hRest, hEnds⟩ := h
  have hTracks : Tracks counted inBody 0 ⟨.code, level, outer⟩ := by
    intro hBody
    obtain ⟨rfl, rfl⟩ := hOpen hBody
    exact ⟨hCounted hBody, rfl⟩
  obtain ⟨passed, left, level', outer', -, hOpen', hLeft, hRecover⟩ := hEnds.recover hRest hTracks
  exact ⟨level', outer', hOpen', hBrace, left, hRecover, hLeft⟩

theorem Standing.closesBrackets (h : Standing true true after c.rest) : c.ClosesBrackets := by
  obtain ⟨hBrace, text, hRest, hEnds⟩ := h.stands
  cases hEnds with
  | body hRun hMark => exact ⟨text, _, _, hRest, hMark, hRun⟩

/-- What is closed behind one closed text is closed behind any other. -/
theorem levelRun_behind {front left more : List Char} (hLeft : levelRun counted .start left = some .start)
    (hFront : levelRun counted .start front = some .start)
    (hWhole : levelRun counted .start (front ++ more) = some .start) :
    levelRun counted .start (left ++ more) = some .start := by
  rw [levelRun_append, hFront] at hWhole
  rw [levelRun_append, hLeft]
  exact hWhole

/-- The text of a command that closes its brackets ends within the body around it. -/
theorem text_within {text front behind : List Char} {mark : Char} (hText : text ++ after = front ++ mark :: behind)
    (hBrace : after.head? = some '\x7d') (hBody : levelRun false .start text = some .start)
    (hFront : levelRun false .start front = some .start) :
    ∃ more, text = front ++ more ∧ mark :: behind = more ++ after := by
  rcases List.append_eq_append_iff.mp hText with ⟨more, rfl, hMore⟩ | ⟨more, rfl, hMore⟩
  · cases more with
    | nil => exact ⟨[], by simp, by simpa using hMore.symm⟩
    | cons y more =>
      obtain rfl : y = '\x7d' := by simpa [hMore] using hBrace
      rw [not_levelRun_closed hBody] at hFront
      cases hFront
  · exact ⟨more, rfl, hMore⟩

/-- From a command in a body that closes its brackets recovery comes to a place in the body. -/
theorem Cursor.ClosesBrackets.recover (h : c.ClosesBrackets) (hStands : Standing false true after c.rest) :
    Standing false true after (c.recover true).rest := by
  obtain ⟨front, mark, behind, hFront, hMark, hRun⟩ := h
  obtain ⟨hBrace, text, hText, hEnds⟩ := hStands.stands
  have hTracks : Tracks true true 0 .start := fun _ => ⟨rfl, rfl⟩
  obtain ⟨passed, left, level, outer, rfl, hOpen, hLeft, hRecover⟩ :=
    EndsScope.recover hFront (.body hRun hMark) hTracks
  obtain ⟨rfl, rfl⟩ := hOpen rfl
  cases hEnds with
  | body hBody _ =>
    cases hLeft with
    | body hLeftRun _ =>
      obtain ⟨more, rfl, hMore⟩ := text_within (hText.symm.trans hFront) (hBrace rfl) hBody (levelRun_bracesOnly hRun)
      have hWhole := levelRun_behind (levelRun_bracesOnly hLeftRun) (levelRun_bracesOnly hRun) hBody
      refine .of_stands (.of_group ?_ (hBrace rfl) hWhole)
      rw [hRecover, hMore, List.append_assoc]

end Recovery

end DialogTree
