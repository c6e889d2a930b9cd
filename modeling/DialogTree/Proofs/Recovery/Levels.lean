import DialogTree.Proofs.Recovery.Chunks

/-!
# Levels of brackets

A brace group is the text between an opening brace and the brace that closes it. The lexer of levels counts the
round and square brackets that are open in each group around it: a group is closed when nothing is open in it, and
it closes no bracket from outside. Recovery counts all brackets together, so it stops where all levels are empty.
-/

namespace DialogTree

/-! ## The lexer -/

/-- Where the lexer stands, the brackets that are open in the innermost group, and those in the groups around it,
from the inside out. -/
structure LevelState where
  mode : ChunkMode
  level : Nat
  outer : List Nat
deriving DecidableEq

namespace LevelState

def start : LevelState := ⟨.code, 0, []⟩

def depth (s : LevelState) : Nat := s.level + s.outer.foldr (fun around total => around + 1 + total) 0

end LevelState

/-- What a character does to strings and comments. -/
def modeStep : ChunkMode → Char → ChunkMode
  | .code, c => if c = '"' then .string else if c = '\x60' then .raw else if c = '#' then .comment else .code
  | .string, c => if c = '\\' then .escape else if c = '"' then .code else .string
  | .escape, _ => .string
  | .raw, c => if c = '\x60' then .code else .raw
  | .comment, c => if c = '\n' then .code else .comment

/-- Whether a bracket opens or closes a level. Round and square brackets mean nothing when they are not counted. -/
def opensLevel (counted : Bool) (c : Char) : Bool := counted && (c == '(' || c == '[')

def closesLevel (counted : Bool) (c : Char) : Bool := counted && (c == ')' || c == ']')

/-- A character outside strings and comments. Outside all groups a bracket that closes nothing is passed over. -/
def groupStep (counted : Bool) (level : Nat) (outer : List Nat) (c : Char) : Option LevelState :=
  if c = '\x7b' then some ⟨.code, 0, level :: outer⟩
  else if c = '\x7d' then
    match level, outer with
    | 0, around :: rest => some ⟨.code, around, rest⟩
    | _, _ => none
  else if opensLevel counted c then some ⟨.code, level + 1, outer⟩
  else if closesLevel counted c then
    match level, outer with
    | less + 1, outer => some ⟨.code, less, outer⟩
    | 0, [] => some ⟨.code, 0, []⟩
    | 0, _ :: _ => none
  else some ⟨modeStep .code c, level, outer⟩

def levelStep (counted : Bool) : LevelState → Char → Option LevelState
  | ⟨.code, level, outer⟩, c => groupStep counted level outer c
  | ⟨mode, level, outer⟩, c => some ⟨modeStep mode c, level, outer⟩

def levelRun (counted : Bool) : LevelState → List Char → Option LevelState
  | state, [] => some state
  | state, c :: text => (levelStep counted state c).bind fun next => levelRun counted next text

variable {counted inBody : Bool} {s next final : LevelState} {mode : ChunkMode} {level : Nat} {outer : List Nat}
  {text after : List Char} {c : Char}

theorem levelStep_of_mode (hMode : mode ≠ .code) (level : Nat) (outer : List Nat) (c : Char) :
    levelStep counted ⟨mode, level, outer⟩ c = some ⟨modeStep mode c, level, outer⟩ := by
  cases mode with
  | code => exact absurd rfl hMode
  | string | escape | raw | comment => rfl

theorem levelRun_cons (h : levelRun counted s (c :: text) = some final) :
    ∃ next, levelStep counted s c = some next ∧ levelRun counted next text = some final :=
  Option.bind_eq_some_iff.mp h

theorem levelRun_append (s : LevelState) (front text : List Char) :
    levelRun counted s (front ++ text) = (levelRun counted s front).bind fun next => levelRun counted next text := by
  induction front generalizing s with
  | nil => rfl
  | cons c front ih =>
    rw [List.cons_append, levelRun, levelRun]
    cases levelStep counted s c with
    | none => rfl
    | some next => exact ih next

/-! ## Neutral characters -/

def levelMarks : List Char :=
  ['"', '\x60', '#', '(', '\x7b', '[', ')', '\x7d', ']']

def isNeutral (c : Char) : Bool := !levelMarks.contains c

theorem isNeutral_ne (h : isNeutral c = true) : ∀ mark ∈ levelMarks, c ≠ mark := by
  rintro mark hMark rfl
  simp [isNeutral, hMark] at h

theorem isNeutral_of_class {p : Char → Bool} (hMarks : levelMarks.any p = false) (h : p c = true) :
    isNeutral c = true := by
  have hMark : c ∉ levelMarks := fun hMem => List.any_eq_false.mp hMarks c hMem h
  simpa [isNeutral] using hMark

/-! ## Steps -/

inductive GroupStep (counted : Bool) (level : Nat) (outer : List Nat) (c : Char) : LevelState → Prop where
  | openGroup (hBrace : c = '\x7b') : GroupStep counted level outer c ⟨.code, 0, level :: outer⟩
  | closeGroup {around : Nat} {rest : List Nat} (hBrace : c = '\x7d') (hLevel : level = 0)
      (hOuter : outer = around :: rest) : GroupStep counted level outer c ⟨.code, around, rest⟩
  | raise (hOpens : opensLevel counted c = true) : GroupStep counted level outer c ⟨.code, level + 1, outer⟩
  | lower {less : Nat} (hCloses : closesLevel counted c = true) (hLevel : level = less + 1) :
      GroupStep counted level outer c ⟨.code, less, outer⟩
  | surplus (hCloses : closesLevel counted c = true) (hLevel : level = 0) (hOuter : outer = []) :
      GroupStep counted level outer c ⟨.code, 0, []⟩
  | other (hBraces : c ≠ '\x7b' ∧ c ≠ '\x7d') (hOpens : opensLevel counted c = false)
      (hCloses : closesLevel counted c = false) : GroupStep counted level outer c ⟨modeStep .code c, level, outer⟩

theorem opensLevel_ne (h : opensLevel counted c = true) :
    c ≠ '\x7b' ∧ c ≠ '\x7d' ∧ closesLevel counted c = false ∧ modeStep .code c = .code := by
  simp only [opensLevel, Bool.and_eq_true, Bool.or_eq_true, beq_iff_eq] at h
  obtain ⟨rfl, rfl | rfl⟩ := h <;> decide

theorem closesLevel_ne (h : closesLevel counted c = true) :
    c ≠ '\x7b' ∧ c ≠ '\x7d' ∧ opensLevel counted c = false ∧ modeStep .code c = .code := by
  simp only [closesLevel, Bool.and_eq_true, Bool.or_eq_true, beq_iff_eq] at h
  obtain ⟨rfl, rfl | rfl⟩ := h <;> decide

theorem groupStep_iff : groupStep counted level outer c = some next ↔ GroupStep counted level outer c next := by
  constructor
  · intro h
    unfold groupStep at h
    split at h
    case isTrue hBrace =>
      cases h
      exact .openGroup hBrace
    split at h
    case isTrue hBrace =>
      split at h
      · cases h
        exact .closeGroup hBrace rfl rfl
      · cases h
    split at h
    case isTrue hOpens =>
      cases h
      exact .raise hOpens
    split at h
    case isTrue hCloses =>
      split at h
      · cases h
        exact .lower hCloses rfl
      · cases h
        exact .surplus hCloses rfl rfl
      · cases h
    case isFalse hOpening hClosing hOpens hCloses =>
      cases h
      exact .other ⟨hOpening, hClosing⟩ (by simpa using hOpens) (by simpa using hCloses)
  · intro h
    unfold groupStep
    cases h with
    | openGroup hBrace => rw [if_pos hBrace]
    | closeGroup hBrace hLevel hOuter => simp [hBrace, hLevel, hOuter]
    | raise hOpens => simp [opensLevel_ne hOpens, hOpens]
    | lower hCloses hLevel => simp [closesLevel_ne hCloses, hCloses, hLevel]
    | surplus hCloses hLevel hOuter => simp [closesLevel_ne hCloses, hCloses, hLevel, hOuter]
    | other hBraces hOpens hCloses => simp [hBraces, hOpens, hCloses]

theorem groupStep_neutral (h : isNeutral c = true) (level : Nat) (outer : List Nat) :
    groupStep counted level outer c = some ⟨.code, level, outer⟩ := by
  have hNe := isNeutral_ne h
  simp only [levelMarks, List.forall_mem_cons, List.not_mem_nil, false_implies, implies_true, and_true] at hNe
  simp [groupStep, opensLevel, closesLevel, modeStep, hNe]

/-! ## Groups -/

/-- A step within groups is the same step within more groups around them, unless it closes the last of them. -/
theorem levelStep_frame {inner : List Nat} {around : Nat}
    (h : levelStep counted ⟨mode, level, inner ++ around :: outer⟩ c = some next) :
    (∃ level' inner', next = ⟨next.mode, level', inner' ++ around :: outer⟩ ∧
        levelStep counted ⟨mode, level, inner⟩ c = some ⟨next.mode, level', inner'⟩) ∨
      (mode = .code ∧ level = 0 ∧ inner = [] ∧ c = '\x7d' ∧ next = ⟨.code, around, outer⟩) := by
  by_cases hMode : mode = .code
  case neg =>
    rw [levelStep_of_mode hMode] at h ⊢
    cases h
    exact .inl ⟨level, inner, rfl, rfl⟩
  subst hMode
  simp only [levelStep] at h ⊢
  simp only [groupStep_iff] at h ⊢
  -- Only a closing brace can leave the groups within, and it does when none of them is open.
  cases h with
  | openGroup hBrace => exact .inl ⟨0, level :: inner, rfl, .openGroup hBrace⟩
  | closeGroup hBrace hLevel hOuter =>
    cases inner with
    | nil =>
      cases hOuter
      exact .inr ⟨trivial, hLevel, rfl, hBrace, rfl⟩
    | cons first inner =>
      cases hOuter
      exact .inl ⟨_, inner, rfl, .closeGroup hBrace hLevel rfl⟩
  | raise hOpens => exact .inl ⟨level + 1, inner, rfl, .raise hOpens⟩
  | lower hCloses hLevel => exact .inl ⟨_, inner, rfl, .lower hCloses hLevel⟩
  | surplus _ _ hOuter => simp at hOuter
  | other hBraces hOpens hCloses => exact .inl ⟨level, inner, rfl, .other hBraces hOpens hCloses⟩

/-- A group that is closed in the end is closed by a brace where nothing else is open in it. -/
theorem exists_group {inner : List Nat} {around : Nat}
    (h : levelRun counted ⟨mode, level, inner ++ around :: outer⟩ text = some final)
    (hFinal : final.outer.length ≤ outer.length) :
    ∃ front back, text = front ++ '\x7d' :: back ∧ levelRun counted ⟨mode, level, inner⟩ front = some .start ∧
      levelRun counted ⟨.code, around, outer⟩ back = some final := by
  induction text generalizing mode level inner with
  | nil =>
    cases h
    simp only [List.length_append, List.length_cons] at hFinal
    omega
  | cons c text ih =>
    obtain ⟨next, hStep, hRest⟩ := levelRun_cons h
    obtain ⟨level', inner', hNext, hInner⟩ | ⟨rfl, rfl, rfl, rfl, rfl⟩ := levelStep_frame hStep
    · rw [hNext] at hRest
      obtain ⟨front, back, rfl, hFront, hBack⟩ := ih hRest
      refine ⟨c :: front, back, rfl, ?_, hBack⟩
      rw [levelRun, hInner]
      exact hFront
    · exact ⟨[], text, rfl, rfl, hRest⟩

theorem not_levelRun_closed {front back : List Char} (hFront : levelRun counted s front = some .start) :
    levelRun counted s (front ++ '\x7d' :: back) = none := by
  rw [levelRun_append, hFront]
  rfl

/-- The brace that closes a group is the first one where nothing is open in the group. -/
theorem group_unique {front front' back back' : List Char} (hText : front ++ '\x7d' :: back = front' ++ '\x7d' :: back')
    (hFront : levelRun counted s front = some .start) (hFront' : levelRun counted s front' = some .start) :
    front = front' := by
  rcases List.append_eq_append_iff.mp hText with ⟨more, rfl, hMore⟩ | ⟨more, rfl, hMore⟩
  · cases more with
    | nil => exact (List.append_nil front).symm
    | cons c more =>
      obtain ⟨rfl, -⟩ := List.cons.inj hMore
      simp [not_levelRun_closed hFront] at hFront'
  · cases more with
    | nil => exact List.append_nil front'
    | cons c more =>
      obtain ⟨rfl, -⟩ := List.cons.inj hMore
      simp [not_levelRun_closed hFront'] at hFront

/-! ## Braces alone -/

namespace LevelState

def bracesOnly (s : LevelState) : LevelState := ⟨s.mode, 0, s.outer.map fun _ => 0⟩

end LevelState

theorem levelStep_bracesOnly (h : levelStep true s c = some next) :
    levelStep false s.bracesOnly c = some next.bracesOnly := by
  obtain ⟨mode, level, outer⟩ := s
  by_cases hMode : mode = .code
  case neg =>
    rw [levelStep_of_mode hMode] at h
    rw [LevelState.bracesOnly, levelStep_of_mode hMode]
    cases h
    rfl
  subst hMode
  have hOpens : opensLevel false c = false := rfl
  have hCloses : closesLevel false c = false := rfl
  simp only [LevelState.bracesOnly, levelStep] at h ⊢
  rw [groupStep_iff] at h ⊢
  -- Where they are not counted, round and square brackets are like any other character.
  cases h with
  | openGroup hBrace => exact .openGroup hBrace
  | closeGroup hBrace hLevel hOuter =>
    subst hOuter
    exact .closeGroup hBrace rfl rfl
  | raise hOpens' =>
    obtain ⟨hOpening, hClosing, -, hCode⟩ := opensLevel_ne hOpens'
    exact hCode ▸ .other ⟨hOpening, hClosing⟩ hOpens hCloses
  | lower hCloses' hLevel =>
    obtain ⟨hOpening, hClosing, -, hCode⟩ := closesLevel_ne hCloses'
    exact hCode ▸ .other ⟨hOpening, hClosing⟩ hOpens hCloses
  | surplus hCloses' hLevel hOuter =>
    obtain ⟨hOpening, hClosing, -, hCode⟩ := closesLevel_ne hCloses'
    subst hOuter
    exact hCode ▸ .other ⟨hOpening, hClosing⟩ hOpens hCloses
  | other hBraces _ _ => exact .other hBraces hOpens hCloses

/-- Where all brackets are counted, the braces alone are matched in the same way. -/
theorem levelRun_bracesOnly (h : levelRun true s text = some final) :
    levelRun false s.bracesOnly text = some final.bracesOnly := by
  induction text generalizing s with
  | nil =>
    cases h
    rfl
  | cons c text ih =>
    obtain ⟨next, hStep, hRest⟩ := levelRun_cons h
    rw [levelRun, levelStep_bracesOnly hStep]
    exact ih hRest

/-! ## Ends of scopes -/

/-- The lexer of levels comes to an end behind a text: in a body to a character that ends a command there, with all
closed that was opened, or in a document to the end of it, outside all groups. -/
inductive EndsScope (counted : Bool) : Bool → LevelState → List Char → List Char → Prop where
  | body {s : LevelState} {text rest : List Char} {mark : Char} (hRun : levelRun counted s text = some .start)
      (hMark : endsCommand true mark = true) : EndsScope counted true s text (mark :: rest)
  | document {s final : LevelState} {text : List Char} (hRun : levelRun counted s text = some final)
      (hOuter : final.outer = []) : EndsScope counted false s text []

theorem EndsScope.cons (h : EndsScope counted inBody s (c :: text) after) :
    ∃ next, levelStep counted s c = some next ∧ EndsScope counted inBody next text after := by
  cases h with
  | body hRun hMark =>
    obtain ⟨next, hStep, hRest⟩ := levelRun_cons hRun
    exact ⟨next, hStep, .body hRest hMark⟩
  | document hRun hOuter =>
    obtain ⟨next, hStep, hRest⟩ := levelRun_cons hRun
    exact ⟨next, hStep, .document hRest hOuter⟩

theorem EndsScope.cons_iff (hStep : levelStep counted s c = some next) :
    EndsScope counted inBody s (c :: text) after ↔ EndsScope counted inBody next text after := by
  constructor
  · intro h
    obtain ⟨other, hOther, hRest⟩ := h.cons
    rw [hStep] at hOther
    cases hOther
    exact hRest
  · intro h
    have hRun : levelRun counted s (c :: text) = levelRun counted next text := by
      rw [levelRun, hStep]
      rfl
    cases h with
    | body hRest hMark => exact .body (hRun.trans hRest) hMark
    | document hRest hOuter => exact .document (hRun.trans hRest) hOuter

/-- Where the scope ends, so does what is open, but for a string or a comment at the end of a document. -/
theorem EndsScope.of_nil (h : EndsScope counted inBody ⟨mode, level, outer⟩ [] after) :
    EndsScope counted inBody ⟨.code, level, outer⟩ [] after := by
  cases h with
  | body hRun hMark =>
    cases hRun
    exact .body rfl hMark
  | document hRun hOuter =>
    cases hRun
    exact .document rfl hOuter

theorem EndsScope.after_of_mode (h : EndsScope counted inBody ⟨mode, level, outer⟩ [] after) (hMode : mode ≠ .code) :
    after = [] := by
  cases h with
  | body hRun _ =>
    cases hRun
    exact absurd rfl hMode
  | document _ _ => rfl

/-! ## Strings and comments in a scope -/

def quoteMode (quote : Char) (escaped : Bool) : ChunkMode :=
  if escaped then .escape else if quote = '"' then .string else .raw

theorem quoteMode_ne (quote : Char) (escaped : Bool) : quoteMode quote escaped ≠ .code := by
  unfold quoteMode
  split
  · decide
  · split <;> decide

theorem levelStep_quote {quote : Char} (hQuote : quote = '"' ∨ quote = '\x60') (level : Nat) (outer : List Nat) :
    levelStep counted ⟨.code, level, outer⟩ quote = some ⟨quoteMode quote false, level, outer⟩ := by
  rcases hQuote with rfl | rfl
  · cases counted <;> rfl
  · cases counted <;> rfl

theorem levelStep_hash (level : Nat) (outer : List Nat) :
    levelStep counted ⟨.code, level, outer⟩ '#' = some ⟨.comment, level, outer⟩ := by
  cases counted <;> rfl

theorem EndsScope.quoted {quote : Char} {escaped : Bool} (hQuote : quote = '"' ∨ (quote = '\x60' ∧ escaped = false))
    (h : EndsScope counted inBody ⟨quoteMode quote escaped, level, outer⟩ text after) :
    ∃ inside rest, text = inside ++ rest ∧ quotedLength quote escaped (text ++ after) = inside.length ∧
      EndsScope counted inBody ⟨.code, level, outer⟩ rest after := by
  induction text generalizing escaped with
  | nil =>
    obtain rfl := h.after_of_mode (quoteMode_ne quote escaped)
    exact ⟨[], [], rfl, by cases escaped <;> rfl, h.of_nil⟩
  | cons c text ih =>
    have hNext := (EndsScope.cons_iff (levelStep_of_mode (quoteMode_ne quote escaped) level outer c)).mp h
    by_cases hClose : escaped = false ∧ c = quote
    · obtain ⟨rfl, rfl⟩ := hClose
      have hCode : modeStep (quoteMode c false) c = .code := by
        rcases hQuote with rfl | ⟨rfl, -⟩ <;> rfl
      refine ⟨[c], text, rfl, ?_, hCode ▸ hNext⟩
      rcases hQuote with rfl | ⟨rfl, -⟩ <;> rfl
    -- inside the text one character is passed, and a backslash in a string escapes the next one
    obtain ⟨escaped', hInside, hMode, hLength⟩ : ∃ escaped', (quote = '"' ∨ (quote = '\x60' ∧ escaped' = false)) ∧
        modeStep (quoteMode quote escaped) c = quoteMode quote escaped' ∧
        ∀ rest, quotedLength quote escaped (c :: rest) = 1 + quotedLength quote escaped' rest := by
      cases escaped with
      | true =>
        obtain rfl : quote = '"' := by simpa using hQuote
        exact ⟨false, .inl rfl, rfl, fun rest => rfl⟩
      | false =>
        have hOther : c ≠ quote := by simpa using hClose
        by_cases hEscape : c = '\\' ∧ quote = '"'
        · obtain ⟨rfl, rfl⟩ := hEscape
          exact ⟨true, .inl rfl, rfl, fun rest => rfl⟩
        · refine ⟨false, hQuote, ?_, fun rest => ?_⟩
          · rcases hQuote with rfl | ⟨rfl, -⟩ <;> simp_all [quoteMode, modeStep]
          · have hPlain : (decide (c = '\\') && decide (quote = '"')) = false := by simpa using hEscape
            simp [quotedLength, hPlain, hOther]
    rw [hMode] at hNext
    obtain ⟨inside, rest, rfl, hInsideLength, hRest⟩ := ih hInside hNext
    refine ⟨c :: inside, rest, rfl, ?_, hRest⟩
    rw [List.cons_append, hLength, hInsideLength, List.length_cons, Nat.add_comm]

theorem commentLength_cons (hLine : c ≠ '\n') (text : List Char) : commentLength (c :: text) = 1 + commentLength text := by
  simp [commentLength, hLine, Nat.add_comm]

theorem EndsScope.commented (h : EndsScope counted inBody ⟨.comment, level, outer⟩ text after) :
    ∃ line rest, text = line ++ rest ∧ commentLength (text ++ after) = line.length ∧
      EndsScope counted inBody ⟨.code, level, outer⟩ rest after := by
  induction text with
  | nil =>
    obtain rfl := h.after_of_mode (by decide)
    exact ⟨[], [], rfl, rfl, h.of_nil⟩
  | cons c text ih =>
    have hNext := (EndsScope.cons_iff (levelStep_of_mode (by decide) level outer c)).mp h
    by_cases hLine : c = '\n'
    · subst hLine
      have hNewline : levelStep counted ⟨.code, level, outer⟩ '\n' = some ⟨.code, level, outer⟩ :=
        groupStep_neutral (by decide) level outer
      exact ⟨[], '\n' :: text, rfl, rfl, (EndsScope.cons_iff hNewline).mpr hNext⟩
    · rw [modeStep, if_neg hLine] at hNext
      obtain ⟨line, rest, rfl, hLength, hRest⟩ := ih hNext
      refine ⟨c :: line, rest, rfl, ?_, hRest⟩
      rw [List.cons_append, commentLength_cons hLine, hLength, List.length_cons, Nat.add_comm]

/-! ## Recovery in a scope -/

theorem isClosing_of_closesLevel (h : closesLevel true c = true) : isClosing c = true := by
  have hBracket : c = ')' ∨ c = ']' := by simpa [closesLevel] using h
  rcases hBracket with rfl | rfl
  · rfl
  · rfl

/-- Recovery counts what is open in all levels together. -/
theorem bracketDepth_groupStep (h : GroupStep true level outer c next) :
    bracketDepth (LevelState.depth ⟨.code, level, outer⟩) c = next.depth := by
  cases h with
  | openGroup hBrace =>
    have hOpening : closingOf? c = some '\x7d' := hBrace ▸ rfl
    rw [bracketDepth_opening hOpening]
    simp only [LevelState.depth, List.foldr_cons]
    omega
  | closeGroup hBrace hLevel hOuter =>
    have hClosing : isClosing c = true := hBrace ▸ rfl
    rw [bracketDepth_closing hClosing]
    simp only [LevelState.depth, hLevel, hOuter, List.foldr_cons]
    omega
  | raise hOpens =>
    obtain ⟨close, hOpening⟩ : ∃ close, closingOf? c = some close := by
      have hBracket : c = '(' ∨ c = '[' := by simpa [opensLevel] using hOpens
      rcases hBracket with rfl | rfl
      · exact ⟨')', rfl⟩
      · exact ⟨']', rfl⟩
    rw [bracketDepth_opening hOpening]
    simp only [LevelState.depth]
    omega
  | lower hCloses hLevel =>
    rw [bracketDepth_closing (isClosing_of_closesLevel hCloses)]
    simp only [LevelState.depth, hLevel]
    omega
  | surplus hCloses hLevel hOuter =>
    rw [bracketDepth_closing (isClosing_of_closesLevel hCloses), hLevel, hOuter]
    rfl
  | other hBraces hOpens hCloses =>
    simp only [opensLevel, closesLevel, Bool.true_and, Bool.or_eq_false_iff, beq_eq_false_iff_ne] at hOpens hCloses
    simp [bracketDepth, LevelState.depth, hBraces, hOpens, hCloses]

theorem depth_eq_zero (h : LevelState.depth ⟨.code, level, outer⟩ = 0) :
    (⟨.code, level, outer⟩ : LevelState) = .start := by
  cases outer with
  | nil =>
    obtain rfl : level = 0 := by simpa [LevelState.depth] using h
    rfl
  | cons around outer => simp [LevelState.depth] at h

/-- Within a scope recovery passes a front of the text, and comes to code. In a body nothing is open there. -/
def RecoversWithin (counted inBody : Bool) (depth : Nat) (text after : List Char) : Prop :=
  ∃ front rest level outer, text = front ++ rest ∧ (inBody = true → level = 0 ∧ outer = []) ∧
    EndsScope counted inBody ⟨.code, level, outer⟩ rest after ∧
      recoveryLength inBody depth (text ++ after) = front.length

theorem RecoversWithin.behind {depth depth' : Nat} {rest : List Char}
    (h : RecoversWithin counted inBody depth' rest after) (passed : List Char)
    (hLength : recoveryLength inBody depth (passed ++ (rest ++ after)) =
      passed.length + recoveryLength inBody depth' (rest ++ after)) :
    RecoversWithin counted inBody depth (passed ++ rest) after := by
  obtain ⟨front, left, level, outer, rfl, hOpen, hLeft, hFront⟩ := h
  refine ⟨passed ++ front, left, level, outer, (List.append_assoc _ _ _).symm, hOpen, hLeft, ?_⟩
  rw [List.append_assoc, hLength, hFront, List.length_append]

/-- Recovery within a body counts what the lexer of levels has open; outside all bodies it may count otherwise. -/
def Tracks (counted inBody : Bool) (depth : Nat) (s : LevelState) : Prop :=
  inBody = true → counted = true ∧ depth = s.depth

theorem Tracks.open_eq {depth : Nat} (h : Tracks counted inBody depth ⟨.code, level, outer⟩) (hDepth : depth = 0)
    (hBody : inBody = true) : level = 0 ∧ outer = [] := by
  obtain ⟨-, hCount⟩ := h hBody
  have hStart := depth_eq_zero (hCount.symm.trans hDepth)
  exact ⟨congrArg LevelState.level hStart, congrArg LevelState.outer hStart⟩

theorem Tracks.step {depth : Nat} (h : Tracks counted inBody depth ⟨.code, level, outer⟩)
    (hStep : GroupStep counted level outer c next) : Tracks counted inBody (bracketDepth depth c) next := by
  intro hBody
  obtain ⟨rfl, rfl⟩ := h hBody
  exact ⟨rfl, bracketDepth_groupStep hStep⟩

/-- Where recovery stops, it passes nothing. -/
theorem EndsScope.stops {depth : Nat} (h : EndsScope counted inBody ⟨.code, level, outer⟩ (c :: text) after)
    (hTracks : Tracks counted inBody depth ⟨.code, level, outer⟩) (hDepth : depth = 0)
    (hEnds : endsCommand inBody c = true) : RecoversWithin counted inBody depth (c :: text) after := by
  refine ⟨[], c :: text, level, outer, rfl, hTracks.open_eq hDepth, h, ?_⟩
  rw [List.cons_append, recoveryLength, if_pos (by simp [hDepth, hEnds])]
  rfl

theorem EndsScope.stops_nil {depth : Nat} (h : EndsScope counted inBody ⟨.code, level, outer⟩ [] after)
    (hTracks : Tracks counted inBody depth ⟨.code, level, outer⟩) : RecoversWithin counted inBody depth [] after := by
  cases h with
  | body hRun hMark =>
    cases hRun
    obtain ⟨-, rfl⟩ := hTracks rfl
    refine ⟨[], [], 0, [], rfl, fun _ => ⟨rfl, rfl⟩, .body rfl hMark, ?_⟩
    rw [List.nil_append, recoveryLength, if_pos (by simp [LevelState.depth, hMark])]
    rfl
  | document hRun hOuter =>
    refine ⟨[], [], level, outer, rfl, fun hBody => absurd hBody Bool.false_ne_true, .document hRun hOuter, ?_⟩
    rw [List.nil_append, recoveryLength, List.length_nil]

/-- Within its scope recovery comes to a place in code: to what ends a command there, or to the end of the scope. -/
theorem EndsScope.recovery {depth : Nat} (h : EndsScope counted inBody ⟨.code, level, outer⟩ text after)
    (hTracks : Tracks counted inBody depth ⟨.code, level, outer⟩) : RecoversWithin counted inBody depth text after := by
  -- Strings and comments are passed as wholes, so the induction is on the length of what is left.
  induction hSize : text.length using Nat.strongRecOn generalizing text depth level outer with
  | ind size ih =>
    cases text with
    | nil => exact h.stops_nil hTracks
    | cons c text =>
      rw [List.length_cons] at hSize
      by_cases hStop : depth = 0 ∧ endsCommand inBody c = true
      · exact h.stops hTracks hStop.1 hStop.2
      obtain ⟨next, hStep, hNext⟩ := h.cons
      have hGroup : GroupStep counted level outer c next := groupStep_iff.mp hStep
      by_cases hQuote : c = '"' ∨ c = '\x60'
      · obtain rfl : next = ⟨quoteMode c false, level, outer⟩ :=
          Option.some.inj (hStep.symm.trans (levelStep_quote hQuote level outer))
        obtain ⟨inside, rest, rfl, hLength, hRest⟩ :=
          EndsScope.quoted (hQuote.imp_right fun hRaw => ⟨hRaw, rfl⟩) hNext
        rw [List.length_append] at hSize
        rw [List.append_assoc] at hLength
        have hRecovers := ih rest.length (by omega) hRest hTracks rfl
        exact hRecovers.behind (c :: inside) (recoveryLength_quoted inBody hQuote _ hLength)
      by_cases hHash : c = '#'
      · subst hHash
        obtain rfl : next = ⟨.comment, level, outer⟩ := Option.some.inj (hStep.symm.trans (levelStep_hash level outer))
        obtain ⟨line, rest, rfl, hLength, hRest⟩ := hNext.commented
        rw [List.length_append] at hSize
        rw [List.append_assoc] at hLength
        have hRecovers := ih rest.length (by omega) hRest hTracks rfl
        exact hRecovers.behind ('#' :: line) (recoveryLength_comment inBody _ hLength)
      · obtain ⟨hDouble, hRaw⟩ := not_or.mp hQuote
        have hCode : next = ⟨.code, next.level, next.outer⟩ := by
          cases hGroup with
          | other => simp [modeStep, hDouble, hRaw, hHash]
          | openGroup | closeGroup | raise | lower | surplus => rfl
        have hTracked := hTracks.step hGroup
        rw [hCode] at hNext hTracked
        have hRecovers := ih text.length (by omega) hNext hTracked rfl
        exact hRecovers.behind [c] (recoveryLength_code hStop hDouble hRaw hHash (text ++ after))

end DialogTree
