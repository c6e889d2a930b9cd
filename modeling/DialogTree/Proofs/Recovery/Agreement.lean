import DialogTree.Proofs.Acceptance
import DialogTree.Proofs.Places.Nodes
import DialogTree.Proofs.Places.Parsers
import DialogTree.Proofs.Recovery.Balanced

/-!
# Recovery and the grammar find the same ends

The grammar decodes strings and matches brackets by its rules, and recovery toggles an escape and counts brackets. From
the start of a command that can be read, recovery passes each part of the command as a whole: its name, its keyword, its
attribute list and its body. So it comes out behind the command, unless a line ends between two of its parts; there it
stops.
-/

namespace DialogTree

/-! ## What recovery leaves -/

/-- What recovery leaves of a text, inside so many brackets. -/
def leftBy (inBody : Bool) (depth : Nat) (text : List Char) : List Char :=
  text.drop (recoveryLength inBody depth text)

variable {inBody : Bool} {depth : Nat} {text left : List Char} {c d : Cursor}

theorem Cursor.rest_recover (c : Cursor) (inBody : Bool) : (c.recover inBody).rest = leftBy inBody 0 c.rest :=
  Cursor.rest_skip c _

theorem Cursor.Reaches.recover_eq (h : c.Reaches d) (hLeft : leftBy inBody 0 c.rest = leftBy inBody 0 d.rest) :
    c.recover inBody = d.recover inBody := by
  refine (c.reaches_recover inBody).unique (h.trans (d.reaches_recover inBody)) ?_
  rw [c.rest_recover, d.rest_recover, hLeft]

theorem leftBy_quoted {quote : Char} {inside : List Char} (hQuote : quote = '"' ∨ quote = '\x60')
    (hLength : quotedLength quote false (inside ++ text) = inside.length) :
    leftBy inBody depth (quote :: (inside ++ text)) = leftBy inBody depth text := by
  rw [leftBy, recoveryLength_quoted inBody hQuote depth hLength, ← List.cons_append, ← List.drop_drop,
    List.drop_left]
  rfl

theorem leftBy_comment {line : List Char} (hLength : commentLength (line ++ text) = line.length) :
    leftBy inBody depth ('#' :: (line ++ text)) = leftBy inBody depth text := by
  rw [leftBy, recoveryLength_comment inBody depth hLength, ← List.cons_append, ← List.drop_drop, List.drop_left]
  rfl

theorem leftBy_cons {x : Char} (hGo : ¬ (depth = 0 ∧ endsCommand inBody x = true)) (hQuote : x ≠ '"')
    (hRaw : x ≠ '\x60') (hHash : x ≠ '#') :
    leftBy inBody depth (x :: text) = leftBy inBody (bracketDepth depth x) text := by
  rw [leftBy, recoveryLength_code hGo hQuote hRaw hHash, ← List.drop_drop]
  rfl

theorem leftBy_stop {x : Char} (hEnds : endsCommand inBody x = true) : leftBy inBody 0 (x :: text) = x :: text := by
  rw [leftBy, recoveryLength]
  simp [hEnds]

theorem leftBy_neutral {x : Char} (hNeutral : isNeutral x = true)
    (hGo : ¬ (depth = 0 ∧ endsCommand inBody x = true)) :
    leftBy inBody depth (x :: text) = leftBy inBody depth text := by
  have hNe := isNeutral_ne hNeutral
  simp only [levelMarks, List.forall_mem_cons, List.not_mem_nil, false_implies, implies_true, and_true] at hNe
  rw [leftBy_cons hGo hNe.1 hNe.2.1 hNe.2.2.1]
  simp [bracketDepth, hNe]

theorem leftBy_opening {opening closing : Char} (hPair : closingOf? opening = some closing) :
    leftBy inBody depth (opening :: text) = leftBy inBody (depth + 1) text := by
  rw [leftBy_cons ?_ ?_ ?_ ?_, bracketDepth_opening hPair]
  all_goals rcases closingOf?_cases hPair with ⟨rfl, -⟩ | ⟨rfl, -⟩ | ⟨rfl, -⟩ <;> simp [endsCommand]

theorem leftBy_closing {opening closing : Char} (hPair : closingOf? opening = some closing) :
    leftBy inBody (depth + 1) (closing :: text) = leftBy inBody depth text := by
  have hClosing : isClosing closing = true := by
    rcases closingOf?_cases hPair with ⟨-, rfl⟩ | ⟨-, rfl⟩ | ⟨-, rfl⟩ <;> rfl
  rw [leftBy_cons ?_ ?_ ?_ ?_, bracketDepth_closing hClosing, Nat.add_sub_cancel]
  all_goals rcases closingOf?_cases hPair with ⟨-, rfl⟩ | ⟨-, rfl⟩ | ⟨-, rfl⟩ <;> simp

/-! ## Balanced texts and words -/

theorem Balanced.leftBy_eq (h : Balanced text left) :
    leftBy inBody (depth + 1) text = leftBy inBody (depth + 1) left := by
  induction h generalizing depth with
  | done => rfl
  | neutral hNeutral _ ih => exact (leftBy_neutral hNeutral (by simp)).trans ih
  | quoted hQuote hLength _ ih => exact (leftBy_quoted hQuote hLength).trans ih
  | comment hLength _ ih => exact (leftBy_comment hLength).trans ih
  | group hPair _ _ ihInside ih => rw [leftBy_opening hPair, ihInside, leftBy_closing hPair, ih]

theorem endsCommand_plain {x : Char} (h : isPlain x = true) : endsCommand inBody x = false := by
  simp only [isPlain, chunkMarks, Bool.not_eq_true', List.contains_eq_mem, decide_eq_false_iff_not, List.mem_cons,
    List.not_mem_nil, or_false, not_or] at h
  simp [endsCommand, h]

theorem leftBy_plain {x : Char} (h : isPlain x = true) :
    leftBy inBody depth (x :: text) = leftBy inBody depth text :=
  leftBy_neutral (isNeutral_of_class (by decide) h) (by simp [endsCommand_plain h])

theorem WordTo.leftBy_eq {lead body : Char → Bool} {word : String}
    (hMarks : chunkMarks.any (fun y => lead y || body y) = false) (h : WordTo lead body word c d) :
    leftBy inBody depth c.rest = leftBy inBody depth d.rest := by
  obtain ⟨front, hPasses, hPlain⟩ := h.passes_all fun _ hClass => isPlain_of_class hMarks hClass
  rw [hPasses.1]
  clear hPasses
  induction front with
  | nil => rfl
  | cons x front ih =>
    rw [List.all_cons, Bool.and_eq_true] at hPlain
    exact (leftBy_plain hPlain.1).trans (ih hPlain.2)

theorem Enclosed.leftBy_eq {opening closing : Char} (h : Enclosed opening closing c d) :
    leftBy inBody depth c.rest = leftBy inBody depth d.rest := by
  obtain ⟨text, hRest, hInside⟩ := h.inside
  rw [hRest, leftBy_opening h.pair, hInside.leftBy_eq, leftBy_closing h.pair]

/-! ## Parts of a command -/

inductive CommandPart where
  | name (word : String)
  | keyword (word : String)
  | attributes (items : List DeclaredAttribute)
  | body (items : List Declaration)

def Declaration.parts (declaration : Declaration) : List CommandPart :=
  [.name declaration.name, .keyword declaration.keyword, .attributes declaration.attributes] ++
    (declaration.body.map CommandPart.body).toList

inductive PartTo : CommandPart → Cursor → Cursor → Prop where
  | name {c d : Cursor} {word : String} (hWord : WordTo isNameChar isNameChar word c d) : PartTo (.name word) c d
  | keyword {c d : Cursor} {word : String} (hWord : WordTo isKeyStart isKeyChar word c d) : PartTo (.keyword word) c d
  | attributes {c d : Cursor} {items : List DeclaredAttribute} (hItems : DelimitedTo "(" ")" AttributeTo items c d) :
      PartTo (.attributes items) c d
  | body {c b₁ b₂ d : Cursor} {items : List Declaration} (hOpening : c.Passes ['\x7b'] b₁)
      (hBody : ScopeTo items b₁ b₂) (hClosing : b₂.Passes ['\x7d'] d) : PartTo (.body items) c d

structure Gap where
  start : Cursor
  text : List Char
  stop : Cursor

inductive PartsTo : List CommandPart → List Gap → Cursor → Cursor → Prop where
  | last {c d : Cursor} {part : CommandPart} (hPart : PartTo part c d) : PartsTo [part] [] c d
  | next {c b₁ b₂ d : Cursor} {s : List Char} {part : CommandPart} {parts : List CommandPart} {gaps : List Gap}
      (hPart : PartTo part c b₁) (hGap : b₁.SpacingTo s b₂) (hRest : PartsTo parts gaps b₂ d) :
      PartsTo (part :: parts) (⟨b₁, s, b₂⟩ :: gaps) c d

/-- A command is its parts, and all spacing outside its brackets is in the gaps. -/
theorem CommandTo.parts {declaration : Declaration} (h : CommandTo declaration c d) :
    ∃ gaps, PartsTo declaration.parts gaps c d := by
  cases h with
  | bare hHead =>
    cases hHead with
    | intro hName hSpacing _ hKeyword hBefore hAttributes =>
      exact ⟨_, .next (.name hName) hSpacing (.next (.keyword hKeyword) hBefore (.last (.attributes hAttributes)))⟩
  | body hHead hBehind hOpening hBody hClosing =>
    cases hHead with
    | intro hName hSpacing _ hKeyword hBefore hAttributes =>
      have hLast : PartsTo [.body _] [] _ d := .last (.body hOpening hBody hClosing)
      exact ⟨_, .next (.name hName) hSpacing (.next (.keyword hKeyword) hBefore
        (.next (.attributes hAttributes) hBehind hLast))⟩

theorem PartTo.reaches {part : CommandPart} (h : PartTo part c d) : c.Reaches d := by
  cases h with
  | name hWord => exact hWord.reaches
  | keyword hWord => exact hWord.reaches
  | attributes hItems => exact hItems.reaches fun _ _ _ _ hItem => AttributeTo.reaches hItem
  | body hOpening hBody hClosing => exact hOpening.reaches.trans ((ScopeTo.reaches hBody).trans hClosing.reaches)

/-! ## Recovery in a command -/

theorem PartTo.recover_eq {part : CommandPart} (h : PartTo part c d) (inBody : Bool) :
    c.recover inBody = d.recover inBody := by
  apply h.reaches.recover_eq
  cases h with
  | name hWord => exact hWord.leftBy_eq (by decide)
  | keyword hWord => exact hWord.leftBy_eq (by decide)
  | attributes hItems => exact hItems.enclosed_attributes.leftBy_eq
  | body hOpening hBody hClosing => exact (Enclosed.of_passes rfl hOpening hBody.balanced hClosing).leftBy_eq

/-- Without the end of a line spacing is passed. Else recovery stops at the first one, behind a comment if there is one
in front of it. -/
theorem SpacingRun.leftBy_eq {run rest : List Char} (h : SpacingRun run rest) (inBody : Bool) :
    ('\n' ∉ run ∧ leftBy inBody 0 (run ++ rest) = leftBy inBody 0 rest) ∨
      ∃ front back, run = front ++ '\n' :: back ∧ '\n' ∉ front ∧ SpacingRun ('\n' :: back) rest ∧
        leftBy inBody 0 (run ++ rest) = '\n' :: (back ++ rest) := by
  induction h with
  | done _ => exact .inl ⟨List.not_mem_nil, rfl⟩
  | @blank x run rest hBlank hRun ih =>
    by_cases hLine : x = '\n'
    · subst hLine
      have hEnds : endsCommand inBody '\n' = true := by simp [endsCommand]
      exact .inr ⟨[], run, rfl, List.not_mem_nil, .blank hBlank hRun, leftBy_stop hEnds⟩
    have hSkip : leftBy inBody 0 (x :: run ++ rest) = leftBy inBody 0 (run ++ rest) :=
      leftBy_plain (isPlain_blank hBlank hLine)
    rcases ih with ⟨hNone, hLeft⟩ | ⟨front, back, rfl, hNone, hBack, hLeft⟩
    · exact .inl ⟨by simp [hNone, Ne.symm hLine], hSkip.trans hLeft⟩
    · exact .inr ⟨x :: front, back, rfl, by simp [hNone, Ne.symm hLine], hBack, hSkip.trans hLeft⟩
  | @comment line run rest hLine hEnd hRun ih =>
    -- a comment is passed up to the end of its line, which is left to the rest of the run
    have hSkip : leftBy inBody 0 ('#' :: line ++ run ++ rest) = leftBy inBody 0 (run ++ rest) := by
      rw [List.append_assoc]
      exact leftBy_comment (commentLength_of_line hLine hEnd)
    rcases ih with ⟨hNone, hLeft⟩ | ⟨front, back, rfl, hNone, hBack, hLeft⟩
    · exact .inl ⟨by simp [hNone, hLine], hSkip.trans hLeft⟩
    · exact .inr ⟨'#' :: line ++ front, back, by simp, by simp [hNone, hLine], hBack, hSkip.trans hLeft⟩

/-- The cursor stands in the gap in front of its first line end, and no comment goes on there. -/
def Gap.LineEndAt (gap : Gap) (r : Cursor) : Prop :=
  ∃ front back, gap.text = front ++ '\n' :: back ∧ '\n' ∉ front ∧ gap.start.Passes front r ∧
    r.SpacingTo ('\n' :: back) gap.stop

theorem Cursor.SpacingTo.recover_eq {s : List Char} (h : c.SpacingTo s d) (inBody : Bool) :
    ('\n' ∉ s ∧ c.recover inBody = d.recover inBody) ∨ (⟨c, s, d⟩ : Gap).LineEndAt (c.recover inBody) := by
  rcases h.run.leftBy_eq inBody with ⟨hNone, hLeft⟩ | ⟨front, back, rfl, hNone, hBack, hLeft⟩
  · rw [← h.passes.1] at hLeft
    exact .inl ⟨hNone, h.reaches.recover_eq hLeft⟩
  · obtain ⟨b, hFront, hLine⟩ := h.passes.split
    have hStop : c.recover inBody = b := by
      refine (c.reaches_recover inBody).unique hFront.reaches ?_
      rw [c.rest_recover, h.passes.1, hLeft, hLine.1, List.cons_append]
    rw [hStop]
    exact .inr ⟨front, back, rfl, hNone, hFront, hLine, hBack⟩

/-- Where recovery stops in front of what follows its start: at the first line end between two parts, or behind the last
part, where it goes on as from there. -/
inductive StopsAt (inBody : Bool) (gaps : List Gap) (d r : Cursor) : Prop where
  | between {front back : List Gap} {gap : Gap} (hGaps : gaps = front ++ gap :: back)
      (hFront : ∀ passed ∈ front, '\n' ∉ passed.text) (hLine : gap.LineEndAt r) : StopsAt inBody gaps d r
  | behind (hGaps : ∀ passed ∈ gaps, '\n' ∉ passed.text) (hReaches : d.Reaches r) (hSame : r = d.recover inBody) :
      StopsAt inBody gaps d r

theorem PartsTo.stopsAt {parts : List CommandPart} {gaps : List Gap} (h : PartsTo parts gaps c d) (inBody : Bool) :
    StopsAt inBody gaps d (c.recover inBody) := by
  -- by induction on the parts: each is passed as a whole, and so is the gap behind it unless a line ends there
  induction h with
  | @last c d part hPart =>
    rw [hPart.recover_eq inBody]
    exact .behind (by simp) (d.reaches_recover inBody) rfl
  | @next c b₁ b₂ d s part parts gaps hPart hGap hRest ih =>
    rw [hPart.recover_eq inBody]
    rcases hGap.recover_eq inBody with ⟨hNone, hSame⟩ | hLine
    case inr => exact .between (List.nil_append _).symm (by simp) hLine
    rw [hSame]
    cases ih with
    | @between front back gap hGaps hFront hLine =>
      have hAll : (⟨b₁, s, b₂⟩ : Gap) :: gaps = (⟨b₁, s, b₂⟩ :: front) ++ gap :: back := by
        rw [hGaps, List.cons_append]
      exact .between hAll (List.forall_mem_cons.mpr ⟨hNone, hFront⟩) hLine
    | behind hGaps hReaches hBehind => exact .behind (List.forall_mem_cons.mpr ⟨hNone, hGaps⟩) hReaches hBehind

/-! ## Quoted texts -/

/-- The cursor behind the text whose opening quote stands at the cursor, as recovery finds it. -/
def Cursor.skipQuoted (c : Cursor) (quote : Char) : Cursor :=
  c.skip (1 + quotedLength quote false (c.skip 1).rest)

/-- Where recovery meets a quote, inside however many brackets, it goes on behind the quoted text. -/
theorem Cursor.leftBy_skipQuoted {quote : Char} (hQuote : quote = '"' ∨ quote = '\x60')
    (hPeek : c.peek? = some quote) (inBody : Bool) (depth : Nat) :
    leftBy inBody depth c.rest = leftBy inBody depth (c.skipQuoted quote).rest := by
  obtain ⟨rest, hRest⟩ := List.head?_eq_some_iff.mp hPeek
  have hLength : recoveryLength inBody depth (quote :: rest) =
      1 + quotedLength quote false rest +
        recoveryLength inBody depth ((quote :: rest).drop (1 + quotedLength quote false rest)) := by
    rw [recoveryLength_quote inBody hQuote, Nat.add_comm 1, List.drop_succ_cons]
  have hBehind : (c.skipQuoted quote).rest = (quote :: rest).drop (1 + quotedLength quote false rest) := by
    rw [skipQuoted, rest_skip, rest_skip, hRest, List.drop_one, List.tail_cons]
  rw [hRest, hBehind, leftBy, hLength, ← List.drop_drop, leftBy]

theorem Quotes.skipQuoted {quote : Char} (h : Quotes quote c d) : c.skipQuoted quote = d := by
  obtain ⟨inside, hPasses, hLength⟩ := h
  rw [Cursor.skipQuoted, Cursor.rest_skip, hPasses.1, List.cons_append, List.drop_one, List.tail_cons, hLength,
    hPasses.eq_skip, List.length_cons, Nat.add_comm]

/-! ## Agreement -/

/-- Recovery passes the parts of a command that is read without a report: it comes out behind the command, or it stops
at a line end between two of its parts. Strings end for it where they end for the grammar, and behind a quote it goes on
from that end. -/
theorem recovery_agrees (c : Cursor) :
    (∀ x d declaration y,
      Grammar.command (Grammar.scope true) c x = (.ok (d, declaration), y) → y.errors = x.errors →
        ∃ gaps, PartsTo declaration.parts gaps c d ∧ ∀ inBody, StopsAt inBody gaps d (c.recover inBody)) ∧
    (∀ d text, quotedString c = .ok (d, text) → c.skipQuoted '"' = d) ∧
    (∀ d text, rawString c = .ok (d, text) → c.skipQuoted '\x60' = d) ∧
    (∀ quote, quote = '"' ∨ quote = '\x60' → c.peek? = some quote → ∀ inBody depth,
      leftBy inBody depth c.rest = leftBy inBody depth (c.skipQuoted quote).rest) := by
  refine ⟨fun x d declaration y hRead hSilent => ?_, fun d text hRead => ?_, fun d text hRead => ?_,
    fun quote hQuote hPeek => Cursor.leftBy_skipQuoted hQuote hPeek⟩
  · have hBodies : SoundBehind (Grammar.scope true) c := fun b z _ hQuiet => (scope_sound hQuiet).1
    obtain ⟨gaps, hParts⟩ := (command_sound (scope_grows true) hBodies hRead hSilent).parts
    exact ⟨gaps, hParts, hParts.stopsAt⟩
  · exact (quotedString_ok_iff.mp hRead).quotes.skipQuoted
  · exact (rawString_ok_iff.mp hRead).quotes.skipQuoted

/-- A line of this command ends behind a comment with an opening bracket, and strings in it hold brackets and quotes. -/
def commentedCommand : Cursor :=
  .ofText "a b # ;(\n(k = \"]\\\"\x7d;\", l = \x60\\#\x60) \x7b c d() \x7d"

theorem recovery_agrees_commented :
    (∃ d declaration y gaps,
      Grammar.command (Grammar.scope true) commentedCommand .empty = (.ok (d, declaration), y) ∧
        y.errors = Context.empty.errors ∧ d.rest = [] ∧ PartsTo declaration.parts gaps commentedCommand d ∧
          ∀ inBody, StopsAt inBody gaps d (commentedCommand.recover inBody)) ∧
    (commentedCommand.recover true).rest = (commentedCommand.skip 8).rest ∧
    (∃ d, quotedString (commentedCommand.skip 14) = .ok (d, "]\"\x7d;") ∧
      (commentedCommand.skip 14).skipQuoted '"' = d) ∧
    (∃ d, rawString (commentedCommand.skip 27) = .ok (d, "\\#") ∧
      (commentedCommand.skip 27).skipQuoted '\x60' = d) ∧
    leftBy true 1 (commentedCommand.skip 14).rest =
      leftBy true 1 ((commentedCommand.skip 14).skipQuoted '"').rest := by
  refine ⟨?_, by decide +kernel, ?_, ?_, ?_⟩
  · have hRest : (Grammar.command (Grammar.scope true) commentedCommand .empty).1.toOption.map (·.1.rest) =
        some [] := by decide +kernel
    have hSilent : (Grammar.command (Grammar.scope true) commentedCommand .empty).2.errors = [] :=
      List.isEmpty_iff.mp (by decide +kernel)
    rcases hRead : Grammar.command (Grammar.scope true) commentedCommand .empty with ⟨⟨failure⟩ | ⟨d, declaration⟩, y⟩
    · rw [hRead] at hRest
      cases hRest
    · rw [hRead] at hRest hSilent
      obtain ⟨gaps, hParts, hStops⟩ := (recovery_agrees commentedCommand).1 _ _ _ _ hRead hSilent
      exact ⟨d, declaration, y, gaps, rfl, hSilent, Option.some.inj hRest, hParts, hStops⟩
  · have hRead : quotedString (commentedCommand.skip 14) = .ok (commentedCommand.skip 21, "]\"\x7d;") := by
      decide +kernel
    exact ⟨_, hRead, (recovery_agrees _).2.1 _ _ hRead⟩
  · have hRead : rawString (commentedCommand.skip 27) = .ok (commentedCommand.skip 31, "\\#") := by decide +kernel
    exact ⟨_, hRead, (recovery_agrees _).2.2.1 _ _ hRead⟩
  · exact (recovery_agrees _).2.2.2 '"' (.inl rfl) (by decide +kernel) true 1

end DialogTree
