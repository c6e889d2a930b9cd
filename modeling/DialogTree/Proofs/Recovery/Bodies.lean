import DialogTree.Proofs.Acceptance
import DialogTree.Proofs.Progress
import DialogTree.Proofs.Recovery.Causes
import DialogTree.Proofs.Recovery.Standing

/-!
# Bodies end at their own braces

Recovery counts round, square and curly brackets together, so a bracket that a broken command leaves open hides the
brace of the body around it, and a bracket that closes nothing within braces lets it stop there. Where each broken
command closes its brackets group by group, every round of a loop ends where nothing is open in the body. Then the body
is closed by its own brace, whatever is broken in it.
-/

namespace DialogTree

open DialogTree.Parser Grammar

/-! ## Reports of unclosed bodies -/

def Diagnostic.isUnclosed : Diagnostic → Bool
  | .grammar failure => failure.cause = .unclosedBody
  | _ => false

def Context.unclosed (x : Context) : List Diagnostic := x.errors.filter Diagnostic.isUnclosed

variable {source : String} {counted inBody : Bool} {x y z w : Context} {c d b e opening brace : Cursor}
  {after : List Char} {scope : Scope} {declaration head : Declaration} {declarations : List Declaration}
  {failure : Failure}

theorem Context.unclosed_of_errors (h : y.errors = x.errors) : y.unclosed = x.unclosed := by
  rw [unclosed, h, unclosed]

theorem Context.unclosed_report {error : Diagnostic} (h : error.isUnclosed = false) (x : Context) :
    (x.report error).unclosed = x.unclosed := by
  simp [unclosed, List.filter_append, h]

theorem Failure.OfReading.isUnclosed (h : failure.OfReading) : (Diagnostic.grammar failure).isUnclosed = false :=
  decide_eq_false h

namespace Grammar

theorem unclosed_reportBroken (hx : x.OfReading) (hFailure : failure.OfReading) :
    (reportBroken failure x).unclosed = x.unclosed := by
  have hCause : (x.furthest.getD failure).OfReading := by
    cases hFurthest : x.furthest with
    | none => exact hFailure
    | some kept => exact hx kept hFurthest
  exact Context.unclosed_report hCause.isUnclosed { x with furthest := none }

/-! ## Places -/

/-- The places that the loop over a scope comes to, from its first one to the end of the scope. -/
inductive Comes (inBody : Bool) (c : Cursor) (x : Context) : Cursor → Context → Prop where
  | start : Comes inBody c x c x
  | round {b d : Cursor} {y z : Context} {found : Option Declaration} (hComes : Comes inBody c x b y)
      (hEnd : ¬ atEnd inBody b = true) (hRound : round (Grammar.scope true) inBody b y = ((d, found), z)) :
      Comes inBody c x d z

theorem Comes.reaches (h : Comes inBody c x b y) : c.Reaches b := by
  induction h with
  | start => exact .refl c
  | @round b d y z found _ hEnd hRound ih =>
    have hNext := (round_advances (scope_forward true) hEnd y).1
    rw [hRound] at hNext
    exact ih.trans hNext

/-- A body is read at the brace, behind the head of a command that the loop over a scope comes to. -/
def Opens (inBody : Bool) (c : Cursor) (x : Context) (opening : Cursor) (y : Context) : Prop :=
  ∃ b z e head, Comes inBody c x b z ∧ ¬ atEnd inBody b = true ∧ commandHead b z.forget = (.ok (e, head), y) ∧
    opening = e.skipSpacing ∧ opening.peek? = some '\x7b'

end Grammar

/-- The bodies that a document is read with, each at its opening brace. -/
inductive BodyAt (source : String) : Cursor → Context → Prop where
  | outer {opening : Cursor} {x : Context}
      (hOpens : Opens false (header (Cursor.ofText source).skipSpacing .empty).1.skipSpacing
        (header (Cursor.ofText source).skipSpacing .empty).2 opening x) : BodyAt source opening x
  | inner {around opening : Cursor} {x y : Context} (hAround : BodyAt source around x)
      (hOpens : Opens true (around.skip 1).skipSpacing x opening y) : BodyAt source opening y

/-- A command that is broken inside a body. -/
def BrokenIn (source : String) (b : Cursor) : Prop :=
  ∃ opening x y failure z, BodyAt source opening x ∧ Comes true (opening.skip 1).skipSpacing x b y ∧
    ¬ atEnd true b = true ∧ command (Grammar.scope true) b y.forget = (.error failure, z)

/-- The places that the loops over a document and over its bodies come to. -/
inductive PlaceAt (source : String) : Bool → Cursor → Context → Prop where
  | document {c : Cursor} {x : Context}
      (hComes : Comes false (header (Cursor.ofText source).skipSpacing .empty).1.skipSpacing
        (header (Cursor.ofText source).skipSpacing .empty).2 c x) : PlaceAt source false c x
  | body {opening c : Cursor} {x y : Context} (hBody : BodyAt source opening x)
      (hComes : Comes true (opening.skip 1).skipSpacing x c y) : PlaceAt source true c y

namespace PlaceAt

theorem next {found : Option Declaration} (h : PlaceAt source inBody c x) (hEnd : ¬ atEnd inBody c = true)
    (hRound : round (Grammar.scope true) inBody c x = ((d, found), y)) : PlaceAt source inBody d y := by
  cases h with
  | document hComes => exact .document (.round hComes hEnd hRound)
  | body hBody hComes => exact .body hBody (.round hComes hEnd hRound)

theorem opens (h : PlaceAt source inBody c x) (hEnd : ¬ atEnd inBody c = true)
    (hHead : commandHead c x.forget = (.ok (b, head), y)) (hPeek : b.skipSpacing.peek? = some '\x7b') :
    BodyAt source b.skipSpacing y := by
  cases h with
  | document hComes => exact .outer ⟨c, x, b, head, hComes, hEnd, hHead, rfl, hPeek⟩
  | body hBody hComes => exact .inner hBody ⟨c, x, b, head, hComes, hEnd, hHead, rfl, hPeek⟩

theorem broken (h : PlaceAt source true c x) (hEnd : ¬ atEnd true c = true)
    (hBroken : command (Grammar.scope true) c x.forget = (.error failure, y)) : BrokenIn source c := by
  cases h with
  | body hBody hComes => exact ⟨_, _, x, failure, y, hBody, hComes, hEnd, hBroken⟩

end PlaceAt

/-- Behind each command that is broken inside a body recovery comes to a place in that body. -/
def Mends (counted : Bool) (source : String) : Prop :=
  ∀ b after, BrokenIn source b → Standing counted true after b.rest → Standing counted true after (b.recover true).rest

theorem mends_counted (source : String) : Mends true source :=
  fun _ _ _ hStands => hStands.recover fun _ => rfl

theorem mends_of_closesBrackets (hBroken : ∀ b, BrokenIn source b → b.ClosesBrackets) : Mends false source :=
  fun b _ hIn hStands => (hBroken b hIn).recover hStands

namespace Grammar

/-! ## Bodies and commands -/

/-- A scope from the cursor on is read to its own end, and so are the bodies in it. -/
def Ends (counted inBody : Bool) (c : Cursor) (x : Context) : Prop :=
  ∀ after, Standing counted inBody after c.rest →
    (Grammar.scope inBody c x).1.1.rest = after ∧ (Grammar.scope inBody c x).2.unclosed = x.unclosed

/-- The bodies that begin behind the cursor are read to their own ends. -/
def EndsBehind (counted : Bool) (source : String) (c : Cursor) : Prop :=
  ∀ opening x, BodyAt source opening x → opening.rest.length < c.rest.length → Ends counted true (opening.skip 1) x

theorem EndsBehind.mono (h : EndsBehind counted source c) (hLess : d.rest.length ≤ c.rest.length) :
    EndsBehind counted source d :=
  fun opening x hBody hBehind => h opening x hBody (Nat.lt_of_lt_of_le hBehind hLess)

/-- At an opening brace a body reads its scope, and then its closing brace when the scope ends in front of one. -/
theorem body_closed (hOpening : c.peek? = some '\x7b') (hClosing : (scope (c.skip 1) x).1.1.peek? = some '\x7d') :
    body scope c x = (.ok ((scope (c.skip 1) x).1.1.skip 1, (scope (c.skip 1) x).1.2), (scope (c.skip 1) x).2) := by
  obtain ⟨rest, hRest⟩ := List.head?_eq_some_iff.mp hOpening
  have hBrace : literal "\x7b" c = .ok (c.skip 1, "\x7b") := literal_ok_iff.mpr ⟨Cursor.passes_cons hRest, rfl⟩
  unfold body
  rw [Lexeme.parser, hBrace]
  simp only [hClosing, if_true]

/-- A body that stands in a scope is read from its opening brace to the brace that closes the group. -/
theorem body_stands (hPeek : c.peek? = some '\x7b') (hScope : Ends counted true (c.skip 1) x)
    (hStands : Standing counted inBody after c.rest) : ∃ d declarations y,
      body (Grammar.scope true) c x = (.ok (d, declarations), y) ∧ Standing counted inBody after d.rest ∧
        y.unclosed = x.unclosed := by
  obtain ⟨inside, brace, -, hBrace, -, hInner, hBehind⟩ := hStands.braces hPeek
  obtain ⟨hLast, hUnclosed⟩ := hScope _ hInner
  have hClosing : (Grammar.scope true (c.skip 1) x).1.1.peek? = some '\x7d' := by rwa [Cursor.peek?, hLast]
  refine ⟨_, _, _, body_closed hPeek hClosing, ?_, hUnclosed⟩
  rwa [Cursor.rest_skip, hLast, ← Cursor.rest_skip]

theorem command_of_head (hHead : commandHead c x = (.ok (b, head), y)) :
    command scope c x = match body scope b.skipSpacing y with
      | (.ok (d, items), z) => (.ok (d, { head with body := some items }), z)
      | (.error _, z) => (.ok (b, { head with body := none }), z) := by
  change Parser.bind commandHead _ c x = _
  rw [Parser.bind, hHead]
  change Parser.bind (spacedBody scope).optional _ b y = _
  have hSpaced : spacedBody scope b y = body scope b.skipSpacing y := rfl
  rw [Parser.bind, Parser.optional, hSpaced]
  rcases body scope b.skipSpacing y with ⟨⟨first⟩ | ⟨d, items⟩, z⟩
  · rfl
  · rfl

theorem command_of_broken (hHead : commandHead c x = (.error failure, y)) :
    command scope c x = (.error failure, y) := by
  change Parser.bind commandHead _ c x = _
  rw [Parser.bind, hHead]

/-- A command is broken by its head alone. -/
theorem command_error (h : command scope c x = (.error failure, y)) : commandHead c x = (.error failure, y) := by
  rcases hHead : commandHead c x with ⟨⟨first⟩ | ⟨b, head⟩, z⟩
  · exact (command_of_broken hHead).symm.trans h
  · rw [command_of_head hHead] at h
    split at h
    · cases h
    · cases h

theorem body_refused (h : c.peek? ≠ some '\x7b') (scope : Scope) (x : Context) :
    ∃ failure y, body scope c x = (.error failure, y) ∧ y.errors = x.errors := by
  rcases hBrace : literal "\x7b" c with ⟨first⟩ | ⟨d, word⟩
  · refine ⟨first, x.note first, ?_, Context.errors_note x first⟩
    unfold body
    rw [Lexeme.parser, hBrace]
  · have hPasses := (literal_ok_iff.mp hBrace).1
    exact absurd (by rw [Cursor.peek?, hPasses.1]; rfl) h

theorem command_stands (hPlace : PlaceAt source inBody c x) (hEnd : ¬ atEnd inBody c = true)
    (hBodies : EndsBehind counted source c) (hStands : Standing counted inBody after c.rest)
    (h : command (Grammar.scope true) c x.forget = (.ok (d, declaration), y)) :
    Standing counted inBody after d.rest ∧ y.unclosed = x.unclosed ∧ declaration.position = some c.position := by
  rcases hHead : commandHead c x.forget with ⟨⟨first⟩ | ⟨b, head⟩, z⟩
  · cases (command_of_broken hHead).symm.trans h
  obtain ⟨hDerived, hPosition⟩ := commandHead_sound hHead
  have hSilent : z.errors = x.errors := by
    have hKept := commandHead_silent c x.forget
    rw [hHead] at hKept
    exact hKept.symm
  have hBehind := hStands.balanced hDerived.balanced
  rw [command_of_head hHead] at h
  -- Behind the head a body is read where an opening brace stands, and nothing else is.
  by_cases hPeek : b.skipSpacing.peek? = some '\x7b'
  · have hLess := Nat.lt_of_le_of_lt b.reaches_skipSpacing.length_le hDerived.length_lt
    have hScope := hBodies _ _ (hPlace.opens hEnd hHead hPeek) hLess
    obtain ⟨e, items, w, hBody, hStandsBody, hUnclosed⟩ := body_stands hPeek hScope
      (hBehind.balanced (Cursor.spacingTo_skipSpacing b).balanced)
    rw [hBody] at h
    cases h
    exact ⟨hStandsBody, hUnclosed.trans (Context.unclosed_of_errors hSilent), hPosition⟩
  · obtain ⟨first, w, hBody, hKept⟩ := body_refused hPeek (Grammar.scope true) z
    rw [hBody] at h
    cases h
    exact ⟨hBehind, Context.unclosed_of_errors (hKept.trans hSilent), hPosition⟩

/-! ## Rounds -/

theorem afterCommand_stands (hStands : Standing counted inBody after c.rest) (x : Context) :
    Standing counted inBody after (afterCommand inBody c x).1.rest ∧
      (afterCommand inBody c x).2.unclosed = x.unclosed := by
  have hSilent := separator_silent c x
  have hCause := (separator_ofReading c x).1
  unfold afterCommand
  split
  · rename_i next _ y hEq
    rw [hEq] at hSilent
    exact ⟨hStands.balanced (separator_sound hEq).balanced, Context.unclosed_of_errors hSilent.symm⟩
  · rename_i failure y hEq
    rw [hEq] at hSilent hCause
    refine ⟨hStands.balanced (Cursor.spacingTo_skipSpacing c).balanced, ?_⟩
    have hKept := Context.unclosed_of_errors hSilent.symm
    simp only
    split
    · exact hKept
    · exact (Context.unclosed_report (hCause failure rfl).isUnclosed y).trans hKept

theorem afterFailure_stands (hSkipped : Standing counted inBody after (c.recover inBody).rest) (x : Context) :
    Standing counted inBody after (afterFailure inBody c x).1.rest ∧
      (afterFailure inBody c x).2.unclosed = x.unclosed := by
  have hSilent := separator_silent (c.recover inBody) x
  unfold afterFailure
  simp only
  split
  · rename_i next _ y hEq
    rw [hEq] at hSilent
    exact ⟨hSkipped.balanced (separator_sound hEq).balanced, Context.unclosed_of_errors hSilent.symm⟩
  · rename_i first y hEq
    rw [hEq] at hSilent
    exact ⟨hSkipped.balanced (Cursor.spacingTo_skipSpacing _).balanced, Context.unclosed_of_errors hSilent.symm⟩

/-- Where a command is broken, recovery comes to a place in its scope: in a body as it mends, and anywhere outside. -/
theorem recover_stands (hMends : Mends counted source) (hPlace : PlaceAt source inBody c x)
    (hEnd : ¬ atEnd inBody c = true) (hStands : Standing counted inBody after c.rest)
    (h : command (Grammar.scope true) c x.forget = (.error failure, y)) :
    Standing counted inBody after (c.recover inBody).rest := by
  cases inBody with
  | false => exact hStands.recover nofun
  | true => exact hMends c after (hPlace.broken hEnd h) hStands

/-- Whether its command is read or broken, a round ends at a place in the scope. -/
theorem round_stands (hMends : Mends counted source) (hPlace : PlaceAt source inBody c x)
    (hEnd : ¬ atEnd inBody c = true) (hBodies : EndsBehind counted source c)
    (hStands : Standing counted inBody after c.rest) :
    Standing counted inBody after (round (Grammar.scope true) inBody c x).1.1.rest ∧
      (round (Grammar.scope true) inBody c x).2.unclosed = x.unclosed := by
  unfold round
  split
  · rename_i next declaration y hEq
    obtain ⟨hNext, hUnclosed, -⟩ := command_stands hPlace hEnd hBodies hStands hEq
    obtain ⟨hLast, hKept⟩ := afterCommand_stands hNext y
    exact ⟨hLast, hKept.trans hUnclosed⟩
  · rename_i failure y hEq
    have hHead := command_error hEq
    have hSilent := commandHead_silent c x.forget
    have hCauses := commandHead_ofReading c x.forget
    rw [hHead] at hSilent hCauses
    obtain ⟨hLast, hKept⟩ := afterFailure_stands (recover_stands hMends hPlace hEnd hStands hEq)
      (reportBroken failure y)
    have hReported := unclosed_reportBroken (hCauses.2 x.ofReading_forget) (hCauses.1 failure rfl)
    exact ⟨hLast, hKept.trans (hReported.trans (Context.unclosed_of_errors hSilent.symm))⟩

/-! ## Scopes -/

theorem Loop.ends (h : Loop inBody c x declarations d y) (hMends : Mends counted source)
    (hPlace : PlaceAt source inBody c x) (hBodies : EndsBehind counted source c)
    (hStands : Standing counted inBody after c.rest) : d.rest = after ∧ y.unclosed = x.unclosed := by
  induction h with
  | stop hEnd => exact ⟨hStands.eq_of_atEnd hEnd, rfl⟩
  | @round c b d x y z found rest hEnd hRound hRest ih =>
    have hLess := (round_advances (scope_forward true) hEnd x).2
    obtain ⟨hNext, hUnclosed⟩ := round_stands hMends hPlace hEnd hBodies hStands
    rw [hRound] at hLess hNext hUnclosed
    obtain ⟨hLast, hKept⟩ := ih (hPlace.next hEnd hRound) (hBodies.mono (Nat.le_of_lt hLess)) hNext
    exact ⟨hLast, hKept.trans hUnclosed⟩

theorem Loop.unclosed_scope (h : Loop inBody c.skipSpacing x declarations d y) :
    (Grammar.scope inBody c x).2.unclosed = y.unclosed := by
  rw [h.scope_eq]
  simp only
  split
  · exact Context.unclosed_report rfl y
  · rfl

/-- A scope is read to its own end when the bodies in it are. -/
theorem scope_ends (hMends : Mends counted source) (hPlace : PlaceAt source inBody c.skipSpacing x)
    (hBodies : EndsBehind counted source c) : Ends counted inBody c x := by
  intro after hStands
  obtain ⟨declarations, d, y, hLoop, -, -, -⟩ := (advances inBody c.skipSpacing x).stops
  obtain ⟨hLast, hUnclosed⟩ := hLoop.ends hMends hPlace (hBodies.mono c.reaches_skipSpacing.length_le)
    (hStands.balanced (Cursor.spacingTo_skipSpacing c).balanced)
  refine ⟨?_, hLoop.unclosed_scope.trans hUnclosed⟩
  rw [hLoop.scope_eq]
  exact hLast

end Grammar

/-- By induction on the text that is left: the bodies in a body begin further on. -/
theorem BodyAt.ends (hMends : Mends counted source) (h : BodyAt source opening x) :
    Ends counted true (opening.skip 1) x := by
  induction hSize : opening.rest.length using Nat.strongRecOn generalizing opening x with
  | ind size ih =>
    refine scope_ends hMends (.body h .start) fun inner y hInner hLess => ?_
    have hSkip : (opening.skip 1).rest.length ≤ opening.rest.length := by
      rw [Cursor.rest_skip, List.length_drop]
      exact Nat.sub_le _ _
    exact ih inner.rest.length (by omega) hInner rfl

theorem Mends.endsBehind (h : Mends counted source) (c : Cursor) : EndsBehind counted source c :=
  fun _ _ hBody _ => hBody.ends h

namespace Grammar

theorem Comes.stands (h : Comes inBody c x b y) (hMends : Mends counted source) (hPlace : PlaceAt source inBody c x)
    (hStands : Standing counted inBody after c.rest) :
    PlaceAt source inBody b y ∧ Standing counted inBody after b.rest := by
  induction h with
  | start => exact ⟨hPlace, hStands⟩
  | @round b d y z found _ hEnd hRound ih =>
    have hNext := (round_stands hMends ih.1 hEnd (hMends.endsBehind b) ih.2).1
    rw [hRound] at hNext
    exact ⟨ih.1.next hEnd hRound, hNext⟩

theorem Loop.positions (h : Loop inBody c x declarations d y) (hMends : Mends counted source)
    (hPlace : PlaceAt source inBody c x) (hStands : Standing counted inBody after c.rest) :
    ∀ declaration ∈ declarations, ∃ b : Cursor, declaration.position = some b.position ∧ c.Reaches b ∧
      b.offset < d.offset := by
  induction h with
  | stop _ => simp
  | @round c b d x y z found rest hEnd hRound hRest ih =>
    obtain ⟨hReaches, hLess⟩ := round_advances (scope_forward true) hEnd x
    have hNext := (round_stands hMends hPlace hEnd (hMends.endsBehind c) hStands).1
    rw [hRound] at hReaches hLess hNext
    intro declaration hMem
    rcases List.mem_append.mp hMem with hFound | hLater
    · refine ⟨c, ?_, .refl c, Nat.lt_of_lt_of_le (hReaches.offset_lt hLess) hRest.reaches.offset_le⟩
      obtain rfl : found = some declaration := Option.mem_toList.mp hFound
      unfold Grammar.round at hRound
      split at hRound
      · rename_i hEq
        cases hRound
        exact (command_stands hPlace hEnd (hMends.endsBehind c) hStands hEq).2.2
      · cases hRound
    · obtain ⟨e, hPosition, hBehind, hOffset⟩ := ih (hPlace.next hEnd hRound) hNext declaration hLater
      exact ⟨e, hPosition, hReaches.trans hBehind, hOffset⟩

theorem Opens.peek (h : Opens inBody c x opening y) : opening.peek? = some '\x7b' := by
  obtain ⟨-, -, -, -, -, -, -, -, hPeek⟩ := h
  exact hPeek

theorem Opens.stands (h : Opens inBody c x opening y) (hMends : Mends counted source)
    (hPlace : PlaceAt source inBody c x) (hStands : Standing counted inBody after c.rest) :
    Standing counted inBody after opening.rest := by
  obtain ⟨b, z, e, head, hComes, -, hHead, rfl, -⟩ := h
  have hBehind := (hComes.stands hMends hPlace hStands).2.balanced (commandHead_sound hHead).1.balanced
  exact hBehind.balanced (Cursor.spacingTo_skipSpacing e).balanced

end Grammar

/-! ## One body -/

/-- How a body is read between its braces. -/
structure ClosesAt (opening brace : Cursor) (x : Context) : Prop where
  /-- It ends behind its own brace and is not reported as unclosed. All that it holds begins between its braces. -/
  body : ∃ declarations y, Grammar.body (Grammar.scope true) opening x = (.ok (brace.skip 1, declarations), y) ∧
    y.unclosed = x.unclosed ∧ ∀ declaration ∈ declarations, ∃ position, declaration.position = some position ∧
      opening.offset < position.offset ∧ position.offset < brace.offset
  /-- The loop over its commands goes on no later than at its brace, behind a broken command too. -/
  places : ∀ b y, Comes true (opening.skip 1).skipSpacing x b y → b.Reaches brace
  /-- Recovery from a broken command stops at its brace at the latest. -/
  recovery : ∀ b y failure z, Comes true (opening.skip 1).skipSpacing x b y → ¬ atEnd true b = true →
    command (Grammar.scope true) b y.forget = (.error failure, z) → (b.recover true).Reaches brace

theorem Standing.reaches (h : Standing counted inBody d.rest b.rest) (hFirst : c.Reaches b) (hSecond : c.Reaches d) :
    b.Reaches d := by
  obtain ⟨level, outer, -, -, text, hText, -⟩ := h
  have hPasses : b.Passes text (b.skip text.length) := Cursor.passes_skip ⟨d.rest, hText.symm⟩
  have hRest : (b.skip text.length).rest = d.rest := by rw [Cursor.rest_skip, hText, List.drop_left]
  have hSame : b.skip text.length = d := (hFirst.trans hPasses.reaches).unique hSecond hRest
  exact hSame ▸ hPasses.reaches

/-- The scope of a body ends at the brace behind it, and what it holds begins before that. -/
theorem BodyAt.scope_between (hBody : BodyAt source opening x) (hMends : Mends counted source)
    (hStands : Standing counted true brace.rest (opening.skip 1).rest) (hWhole : (opening.skip 1).Reaches brace) :
    ∃ declarations y, Grammar.scope true (opening.skip 1) x = ((brace, declarations), y) ∧ y.unclosed = x.unclosed ∧
      ∀ declaration ∈ declarations, ∃ b : Cursor, declaration.position = some b.position ∧
        (opening.skip 1).Reaches b ∧ b.offset < brace.offset := by
  obtain ⟨hLast, hUnclosed⟩ := hBody.ends hMends brace.rest hStands
  obtain ⟨declarations, d, y, hLoop, -, -, -⟩ := (advances true (opening.skip 1).skipSpacing x).stops
  have hStart := (opening.skip 1).reaches_skipSpacing
  rw [hLoop.scope_eq] at hLast hUnclosed ⊢
  obtain rfl : d = brace := (hStart.trans hLoop.reaches).unique hWhole hLast
  refine ⟨declarations, _, rfl, hUnclosed, fun declaration hMem => ?_⟩
  have hFirst := hStands.balanced (Cursor.spacingTo_skipSpacing _).balanced
  obtain ⟨b, hPosition, hReaches, hOffset⟩ := hLoop.positions hMends (.body hBody .start) hFirst declaration hMem
  exact ⟨b, hPosition, hStart.trans hReaches, hOffset⟩

/-- A body that stands in front of a brace ends at that brace. -/
theorem BodyAt.closesAt {inside : List Char} (hBody : BodyAt source opening x) (hMends : Mends counted source)
    (hInside : opening.Passes ('\x7b' :: inside) brace) (hBrace : brace.peek? = some '\x7d')
    (hStands : Standing counted true brace.rest (opening.skip 1).rest) : ClosesAt opening brace x := by
  have hOpening : opening.Passes ['\x7b'] (opening.skip 1) := Cursor.passes_cons hInside.1
  have hWhole : (opening.skip 1).Reaches brace := hStands.reaches hOpening.reaches hInside.reaches
  have hFirst := hStands.balanced (Cursor.spacingTo_skipSpacing _).balanced
  have hComing {b : Cursor} {y : Context} (hComes : Comes true (opening.skip 1).skipSpacing x b y) :
      (opening.skip 1).Reaches b ∧ PlaceAt source true b y ∧ Standing counted true brace.rest b.rest :=
    ⟨(opening.skip 1).reaches_skipSpacing.trans hComes.reaches, hComes.stands hMends (.body hBody .start) hFirst⟩
  constructor
  case body =>
    obtain ⟨declarations, y, hScope, hUnclosed, hPositions⟩ := hBody.scope_between hMends hStands hWhole
    have hPeek : opening.peek? = some '\x7b' := by rw [Cursor.peek?, hInside.1, List.cons_append, List.head?_cons]
    have hClosed : body (Grammar.scope true) opening x = (.ok (brace.skip 1, declarations), y) := by
      rw [body_closed hPeek (by rwa [hScope]), hScope]
    have hLess : (opening.skip 1).rest.length < opening.rest.length := by
      rw [hOpening.length_eq, List.length_singleton]
      omega
    refine ⟨declarations, y, hClosed, hUnclosed, fun declaration hMem => ?_⟩
    obtain ⟨b, hPosition, hReaches, hOffset⟩ := hPositions declaration hMem
    exact ⟨b.position, hPosition, Nat.lt_of_lt_of_le (hOpening.reaches.offset_lt hLess) hReaches.offset_le, hOffset⟩
  case places =>
    intro b y hComes
    obtain ⟨hReaches, -, hIn⟩ := hComing hComes
    exact hIn.reaches hReaches hWhole
  case recovery =>
    intro b y failure z hComes hEnd hBroken
    obtain ⟨hReaches, hPlace, hIn⟩ := hComing hComes
    exact (recover_stands hMends hPlace hEnd hIn hBroken).reaches (hReaches.trans (b.reaches_recover true)) hWhole

/-- The brace that closes a body when braces alone are matched. -/
structure Matches (opening brace : Cursor) : Prop where
  inside : ∃ inside, opening.Passes ('\x7b' :: inside) brace ∧ levelRun false .start inside = some .start
  closing : brace.peek? = some '\x7d'

theorem Matches.unique (h : Matches opening brace) (h' : Matches opening b) : brace = b := by
  obtain ⟨inside, hInside, hRun⟩ := h.inside
  obtain ⟨inside', hInside', hRun'⟩ := h'.inside
  obtain ⟨back, hBack⟩ := List.head?_eq_some_iff.mp h.closing
  obtain ⟨back', hBack'⟩ := List.head?_eq_some_iff.mp h'.closing
  have hText : inside ++ '\x7d' :: back = inside' ++ '\x7d' :: back' := by
    have hSame := hInside.1.symm.trans hInside'.1
    rw [hBack, hBack'] at hSame
    exact (List.cons.inj hSame).2
  obtain rfl := group_unique hText hRun hRun'
  rw [hInside.eq_skip, hInside'.eq_skip]

/-! ## Documents -/

/-- Outside strings and comments all brackets of a text are closed group by group, or its braces alone are when no
other brackets are counted. -/
def Grouped (counted : Bool) (source : String) : Prop :=
  ∃ final, levelRun counted .start source.toList = some final ∧ final.outer = []

/-- Every body of a document ends at its own brace, whatever is broken in it, and none is reported as unclosed. -/
structure BodiesClose (source : String) : Prop where
  closes : ∀ opening x, BodyAt source opening x →
    ∃ brace, (∀ other, Matches opening other ↔ other = brace) ∧ ClosesAt opening brace x
  quiet : ∀ report ∈ (document source).2, report.isUnclosed = false

theorem Grammar.version_stands {found : Position × Nat} (hStands : Standing counted inBody after c.rest)
    (h : version c x = (.ok (d, found), y)) : Standing counted inBody after d.rest := by
  unfold version at h
  obtain ⟨b₁, word, _, hWord, h⟩ := bind_ok h
  obtain ⟨b₂, _, _, hSpacing, h⟩ := bind_ok h
  obtain ⟨b₃, number, _, hVersion, h⟩ := bind_ok h
  obtain ⟨b₄, _, _, hBefore, h⟩ := bind_ok h
  obtain ⟨b₅, _, _, hSemicolon, h⟩ := bind_ok h
  obtain ⟨b₆, _, _, hBehind, h⟩ := bind_ok h
  obtain ⟨-, rfl, -⟩ := pure_ok h
  obtain ⟨n, -, hNatural⟩ := located_ok hVersion
  obtain ⟨s, hSpacing, -⟩ := requiredSpacing_parsed hSpacing
  obtain ⟨t, hBefore⟩ := spacing_parsed hBefore
  obtain ⟨u, hBehind⟩ := spacing_parsed hBehind
  have hName : Balanced c.rest b₁.rest := by
    rcases orElse_ok hWord with hWord | ⟨_, hWord⟩
    · exact (literal_parsed hWord).balanced (by decide)
    · exact (literal_parsed hWord).balanced (by decide)
  have hNumber : Balanced b₂.rest b₃.rest := by
    cases natural_ten_ok_iff.mp (lexeme_ok_iff.mp hNatural).1 with
    | intro hRun _ _ => exact hRun.balanced_digits
  have hLine := hName.trans (hSpacing.balanced.trans (hNumber.trans hBefore.balanced))
  rcases optional_literal_parsed hSemicolon with hMark | rfl
  · exact hStands.balanced (hLine.trans ((hMark.balanced (by decide)).trans hBehind.balanced))
  · exact hStands.balanced (hLine.trans hBehind.balanced)

theorem Grammar.header_stands (hStands : Standing counted inBody after c.rest) (x : Context) :
    Standing counted inBody after (header c x).1.rest ∧ (header c x).2.unclosed = x.unclosed := by
  have hSilent := version_silent c x
  unfold header
  split
  · rename_i next position found y hEq
    rw [hEq] at hSilent
    have hKept := Context.unclosed_of_errors hSilent.symm
    refine ⟨version_stands hStands hEq, ?_⟩
    simp only
    split
    · exact hKept
    · exact (Context.unclosed_report rfl y).trans hKept
  · rename_i first y hEq
    rw [hEq] at hSilent
    exact ⟨hStands, (Context.unclosed_report rfl y).trans (Context.unclosed_of_errors hSilent.symm)⟩

theorem Grouped.header_stands (h : Grouped counted source) :
    Standing counted false [] (header (Cursor.ofText source).skipSpacing .empty).1.rest ∧
      (header (Cursor.ofText source).skipSpacing .empty).2.unclosed = [] := by
  obtain ⟨final, hRun, hFinal⟩ := h
  have hStart : Standing counted false [] (Cursor.ofText source).rest :=
    .of_stands ⟨nofun, source.toList, (List.append_nil _).symm, .document hRun hFinal⟩
  exact Grammar.header_stands (hStart.balanced (Cursor.spacingTo_skipSpacing _).balanced) .empty

/-- By induction on the bodies around it: each body stands in the scope that it is read in. -/
theorem BodyAt.stands (h : BodyAt source opening x) (hMends : Mends counted source)
    (hGrouped : Grouped counted source) :
    opening.peek? = some '\x7b' ∧ ∃ inBody after, Standing counted inBody after opening.rest := by
  induction h with
  | outer hOpens =>
    have hStart := hGrouped.header_stands.1.balanced (Cursor.spacingTo_skipSpacing _).balanced
    exact ⟨hOpens.peek, false, [], hOpens.stands hMends (.document .start) hStart⟩
  | inner hAround hOpens ih =>
    obtain ⟨hPeek, inBody, after, hStands⟩ := ih
    obtain ⟨inside, brace, -, -, -, hInner, -⟩ := hStands.braces hPeek
    have hStart := hInner.balanced (Cursor.spacingTo_skipSpacing _).balanced
    exact ⟨hOpens.peek, true, brace.rest, hOpens.stands hMends (.body hAround .start) hStart⟩

/-- In a text whose brackets are all closed group by group, nothing is open at a place in a body. -/
theorem Grouped.stands (h : Grouped true source) (hBody : BodyAt source opening x)
    (hComes : Comes true (opening.skip 1).skipSpacing x b y) : ∃ inside brace,
      opening.Passes ('\x7b' :: inside) brace ∧ Matches opening brace ∧ Standing true true brace.rest b.rest := by
  obtain ⟨hPeek, inBody, after, hStands⟩ := hBody.stands (mends_counted source) h
  obtain ⟨inside, brace, hInside, hBrace, hLevels, hInner, -⟩ := hStands.braces hPeek
  have hStart := hInner.balanced (Cursor.spacingTo_skipSpacing _).balanced
  exact ⟨inside, brace, hInside, ⟨⟨inside, hInside, levelRun_bracesOnly hLevels⟩, hBrace⟩,
    (hComes.stands (mends_counted source) (.body hBody .start) hStart).2⟩

/-- In such a text a broken command closes its own brackets. -/
theorem Grouped.closesBrackets (h : Grouped true source) : ∀ b, BrokenIn source b → b.ClosesBrackets := by
  rintro b ⟨opening, x, y, failure, z, hBody, hComes, -, -⟩
  obtain ⟨inside, brace, -, -, hStands⟩ := h.stands hBody hComes
  exact hStands.closesBrackets

/-- In such a text recovery from any command of a body, broken or not, would stop at the brace of the body at the
latest. -/
theorem Grouped.recover_reaches (h : Grouped true source) (hBody : BodyAt source opening x)
    (hComes : Comes true (opening.skip 1).skipSpacing x b y) (hBrace : Matches opening brace) :
    (b.recover true).Reaches brace := by
  obtain ⟨inside, other, hInside, hOther, hStands⟩ := h.stands hBody hComes
  obtain rfl := hOther.unique hBrace
  have hPlace : opening.Reaches (b.recover true) :=
    (Cursor.passes_cons hInside.1).reaches.trans ((opening.skip 1).reaches_skipSpacing.trans
      (hComes.reaches.trans (b.reaches_recover true)))
  exact (hStands.recover fun _ => rfl).reaches hPlace hInside.reaches

/-- A document's bodies end at their own braces when its braces are matched and each command that is broken inside a
body closes its brackets. -/
theorem document_bodies_close {source : String} (hBraces : Grouped false source)
    (hBroken : ∀ b, BrokenIn source b → b.ClosesBrackets) : BodiesClose source where
  closes opening x hBody := by
    have hMends := mends_of_closesBrackets hBroken
    obtain ⟨hPeek, inBody, after, hStands⟩ := hBody.stands hMends hBraces
    obtain ⟨inside, brace, hInside, hBrace, hLevels, hInner, -⟩ := hStands.braces hPeek
    have hMatches : Matches opening brace := ⟨⟨inside, hInside, hLevels⟩, hBrace⟩
    refine ⟨brace, fun other => ⟨fun hOther => hOther.unique hMatches, ?_⟩, hBody.closesAt hMends hInside hBrace hInner⟩
    rintro rfl
    exact hMatches
  quiet := by
    have hMends := mends_of_closesBrackets hBroken
    obtain ⟨hStands, hQuiet⟩ := hBraces.header_stands
    have hUnclosed := (scope_ends hMends (.document .start) (hMends.endsBehind _) [] hStands).2
    rw [hQuiet, Context.unclosed] at hUnclosed
    have hNone : (document source).2.filter Diagnostic.isUnclosed = [] := by
      rw [document_eq]
      simpa only using hUnclosed
    intro report hMem
    simpa using List.filter_eq_nil_iff.mp hNone report hMem

theorem document_bodies_close_broken :
    (Grouped false "version 1\nd dialog() \x7b\n  a action(=[\")\"])\n  b action()\n\x7d\ne dialog()\n" ∧
      ∀ b, BrokenIn "version 1\nd dialog() \x7b\n  a action(=[\")\"])\n  b action()\n\x7d\ne dialog()\n" b →
        b.ClosesBrackets) ∧
      BodiesClose "version 1\nd dialog() \x7b\n  a action(=[\")\"])\n  b action()\n\x7d\ne dialog()\n" := by
  have hBraces : Grouped false "version 1\nd dialog() \x7b\n  a action(=[\")\"])\n  b action()\n\x7d\ne dialog()\n" :=
    ⟨.start, by decide +kernel, rfl⟩
  have hGrouped : Grouped true "version 1\nd dialog() \x7b\n  a action(=[\")\"])\n  b action()\n\x7d\ne dialog()\n" :=
    ⟨.start, by decide +kernel, rfl⟩
  exact ⟨⟨hBraces, hGrouped.closesBrackets⟩, document_bodies_close hBraces hGrouped.closesBrackets⟩

/-- Matched braces are not enough: an open bracket of a broken command hides the brace that closes the body, and the
command behind that brace becomes a child. -/
theorem open_bracket_hides_brace :
    Grouped false "version 1\nd dialog() \x7b\n  a action(\n\x7d\ne dialog()\n" ∧
      ¬ BodiesClose "version 1\nd dialog() \x7b\n  a action(\n\x7d\ne dialog()\n" ∧
      (document "version 1\nd dialog() \x7b\n  a action(\n\x7d\ne dialog()\n").1.map
        (fun found => (found.name, (found.body.getD []).map Declaration.name)) = [("d", ["e"])] := by
  refine ⟨⟨.start, by decide +kernel, rfl⟩, fun hCloses => ?_, by decide +kernel⟩
  have hQuiet := List.all_eq_true.mpr fun report hMem => congrArg not (hCloses.quiet report hMem)
  revert hQuiet
  decide +kernel

/-- The braces of the broken command hold a bracket that closes nothing. -/
def surplusBracket : String :=
  "version 1\nd dialog() \x7b\n  a \x7b ) \x7d\n  b action()\n\x7d\ne dialog()\n"

/-- Such a bracket closes the brace in front of it for recovery. The next brace then ends the body around the command,
and what is left of the body is read outside of it. -/
theorem surplus_bracket_ends_body :
    Grouped false surplusBracket ∧ ¬ BodiesClose surplusBracket ∧
      (document surplusBracket).1.map (fun found => (found.name, (found.body.getD []).map Declaration.name)) =
        [("d", []), ("b", []), ("e", [])] := by
  refine ⟨⟨.start, by decide +kernel, rfl⟩, fun hCloses => ?_, by decide +kernel⟩
  let start := (header (Cursor.ofText surplusBracket).skipSpacing .empty).1.skipSpacing
  let x := (header (Cursor.ofText surplusBracket).skipSpacing .empty).2
  have hPlace : (commandHead start x.forget).1.toOption.map (·.1.skipSpacing) =
      some ((Cursor.ofText surplusBracket).skip 21) := by decide +kernel
  have hEnd : (Grammar.body (Grammar.scope true) ((Cursor.ofText surplusBracket).skip 21)
      (commandHead start x.forget).2).1.toOption.map (·.1.offset) = some 32 := by decide +kernel
  rcases hHead : commandHead start x.forget with ⟨⟨failure⟩ | ⟨e, head⟩, y⟩
  · rw [hHead] at hPlace
    cases hPlace
  rw [hHead] at hPlace hEnd
  have hOpening : e.skipSpacing = (Cursor.ofText surplusBracket).skip 21 := Option.some.inj hPlace
  have hBody : BodyAt surplusBracket e.skipSpacing y :=
    .outer ⟨start, x, e, head, .start, by decide +kernel, hHead, rfl, by rw [hOpening]; decide +kernel⟩
  rw [hOpening] at hBody
  -- Matched by braces alone, the body ends behind another command.
  have hMatches : Matches ((Cursor.ofText surplusBracket).skip 21) ((Cursor.ofText surplusBracket).skip 46) := by
    have hPasses : ((Cursor.ofText surplusBracket).skip 21).Passes ('\x7b' :: (surplusBracket.toList.drop 22).take 24)
        (((Cursor.ofText surplusBracket).skip 21).skip 25) :=
      Cursor.passes_skip ⟨surplusBracket.toList.drop 46, by decide +kernel⟩
    exact ⟨⟨_, hPasses, by decide +kernel⟩, by decide +kernel⟩
  obtain ⟨brace, hBrace, hClosesAt⟩ := hCloses.closes _ y hBody
  obtain rfl := (hBrace _).mp hMatches
  obtain ⟨declarations, z, hRead, -, -⟩ := hClosesAt.body
  rw [hRead] at hEnd
  have hOffset : (((Cursor.ofText surplusBracket).skip 46).skip 1).offset ≠ 32 := by decide +kernel
  exact hOffset (Option.some.inj hEnd)

end DialogTree
