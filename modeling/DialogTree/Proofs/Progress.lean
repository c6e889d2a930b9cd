import DialogTree.Proofs.Places.Commands
import DialogTree.Proofs.Places.Nodes
import DialogTree.Proofs.Recovery.Commands

/-!
# The parser makes progress

Each round of the loop over a scope reads a command or skips a broken one, and ends further on than it began. A
body begins further on than its command. So the loop comes to the end of its scope on every text, and the bounds
that its definition recurses on only have to outweigh the text.
-/

namespace DialogTree

open DialogTree.Parser

variable {c d b : Cursor} {x y z : Context} {inBody : Bool} {n m : Nat}

theorem Cursor.Reaches.offset_lt (h : c.Reaches d) (hLess : d.rest.length < c.rest.length) :
    c.offset < d.offset := by
  obtain ⟨passed, hRest, hPosition⟩ := h
  rw [offset, offset, hPosition, Position.offset_after]
  cases passed with
  | nil => simp [hRest] at hLess
  | cons k passed =>
    have hSize := k.utf8Size_pos
    rw [byteLength]
    omega

namespace Grammar

/-! ## Scopes that go forward -/

def Scope.Forward (scope : Scope) : Prop :=
  ∀ (c : Cursor) (x : Context), c.Reaches (scope c x).1.1

variable {scope : Scope} {declaration : Declaration}

theorem body_forward (hScope : scope.Forward) {declarations : List Declaration}
    (h : body scope c x = (.ok (d, declarations), z)) : c.Reaches d := by
  unfold body at h
  split at h
  · cases h
  · rename_i inner _ y hLiteral
    have hOpening : c.Reaches inner := (literal_ok_iff.mp (lexeme_ok_iff.mp hLiteral).1).1.reaches
    have hInner := hOpening.trans (hScope inner y)
    simp only at h
    split at h
    · cases h
      exact hInner.trans (Cursor.reaches_skip _ 1)
    · cases h
      exact hInner

/-- A command that is read has at least its name in the text. -/
theorem command_advances (hScope : scope.Forward) (h : command scope c x = (.ok (d, declaration), z)) :
    c.Reaches d ∧ d.rest.length < c.rest.length := by
  unfold command at h
  obtain ⟨b, head, y, hRead, h⟩ := bind_ok h
  obtain ⟨e, body, w, hBody, h⟩ := bind_ok h
  obtain ⟨-, hEnd, -⟩ := pure_ok h
  rw [hEnd]
  have hHead := (commandHead_sound hRead).1
  have hForward : b.Reaches e := by
    rcases optional_ok hBody with ⟨declarations, -, hSome⟩ | ⟨-, rfl⟩
    · obtain ⟨b₂, _, _, hRun, hInner⟩ := bind_ok hSome
      obtain ⟨s, hSpacing⟩ := spacing_parsed hRun
      exact hSpacing.reaches.trans (body_forward hScope hInner)
    · exact .refl _
  have hLess := hHead.length_lt
  have hLength := hForward.length_le
  exact ⟨hHead.reaches.trans hForward, by omega⟩

theorem afterCommand_reaches (inBody : Bool) (c : Cursor) (x : Context) :
    c.Reaches (afterCommand inBody c x).1 := by
  unfold afterCommand
  split
  · rename_i hEq
    exact (separator_sound hEq).reaches
  · exact c.reaches_skipSpacing

/-! ## Rounds -/

/-- One round of the loop over a scope: the cursor in front of the next command, and the command if it was
read. -/
def round (inner : Scope) (inBody : Bool) (cursor : Cursor) (context : Context) :
    (Cursor × Option Declaration) × Context :=
  match command inner cursor context.forget with
  | (.ok (next, declaration), context) =>
    let (next, context) := afterCommand inBody next context
    ((next, some declaration), context)
  | (.error failure, context) =>
    let (next, context) := afterFailure inBody cursor (reportBroken failure context)
    ((next, none), context)

theorem commandsWithin_round (hEnd : ¬ atEnd inBody c = true) (n : Nat) (x : Context) :
    commandsWithin (n + 1) inBody c x =
      let first := round (scopeOf (commandsWithin n true)) inBody c x
      let rest := commandsWithin n inBody first.1.1 first.2
      ((rest.1.1, first.1.2.toList ++ rest.1.2), rest.2) := by
  rw [commandsWithin, if_neg hEnd, round]
  rcases command (scopeOf (commandsWithin n true)) c x.forget with ⟨⟨failure⟩ | ⟨next, declaration⟩, y⟩
  · rfl
  · rfl

theorem round_advances (hScope : scope.Forward) (hEnd : ¬ atEnd inBody c = true) (x : Context) :
    c.Reaches (round scope inBody c x).1.1 ∧ (round scope inBody c x).1.1.rest.length < c.rest.length := by
  unfold round
  split
  · rename_i next declaration y hEq
    obtain ⟨hReaches, hLess⟩ := command_advances hScope hEq
    have hAfter := afterCommand_reaches inBody next y
    exact ⟨hReaches.trans hAfter, Nat.lt_of_le_of_lt hAfter.length_le hLess⟩
  · rename_i failure y hEq
    exact afterFailure_advances hEnd _

theorem scopeOf_forward (hLoop : scope.Forward) : (scopeOf scope).Forward := by
  intro c x
  have hForward := c.reaches_skipSpacing.trans (hLoop c.skipSpacing x)
  rw [scopeOf_eq]
  split
  · exact hForward
  · exact hForward

theorem commandsWithin_forward (n : Nat) (inBody : Bool) : (commandsWithin n inBody).Forward := by
  induction n generalizing inBody with
  | zero => exact fun c x => .refl c
  | succ n ih =>
    intro c x
    by_cases hEnd : atEnd inBody c = true
    · rw [commandsWithin_atEnd hEnd]
      exact .refl c
    · rw [commandsWithin_round hEnd]
      exact (round_advances (scopeOf_forward (ih true)) hEnd x).1.trans (ih inBody _ _)

theorem scope_forward (inBody : Bool) : (Grammar.scope inBody).Forward :=
  fun c => scopeOf_forward (commandsWithin_forward (c.rest.length + 1) inBody) c

/-! ## Bodies -/

/-- A body starts at most one scope, behind its opening brace. -/
theorem body_starts (c : Cursor) (x : Context) : ∃ inner : Option (Cursor × Context),
    (∀ place ∈ inner, c.Reaches place.1) ∧
      ∀ scope scope' : Scope, (∀ place ∈ inner, scope place.1 place.2 = scope' place.1 place.2) →
        body scope c x = body scope' c x := by
  simp only [body]
  rcases hBrace : (literal "\x7b").parser c x with ⟨⟨failure⟩ | ⟨inner, word⟩, y⟩
  · exact ⟨none, by simp, fun scope scope' _ => rfl⟩
  · refine ⟨some (inner, y), ?_, fun scope scope' hSame => ?_⟩
    · rintro place ⟨⟩
      exact (literal_ok_iff.mp (lexeme_ok_iff.mp hBrace).1).1.reaches
    · have hInner : scope inner y = scope' inner y := hSame (inner, y) rfl
      simp only [hInner]

/-- What is read behind the head of a command decides about the command. -/
theorem command_congr {scope scope' : Scope} {head : Declaration} (hHead : commandHead c x = (.ok (b, head), y))
    (hBody : body scope b.skipSpacing y = body scope' b.skipSpacing y) :
    command scope c x = command scope' c x := by
  have hOptional : (spacedBody scope).optional b y = (spacedBody scope').optional b y := by
    have hSpaced : spacedBody scope b y = spacedBody scope' b y := hBody
    rw [Parser.optional, hSpaced, Parser.optional]
  change Parser.bind commandHead _ c x = Parser.bind commandHead _ c x
  rw [Parser.bind, Parser.bind, hHead]
  change Parser.bind (spacedBody scope).optional _ b y = Parser.bind (spacedBody scope').optional _ b y
  rw [Parser.bind, Parser.bind, hOptional]

/-- A command starts at most one scope, that of its body, and starts it further on than where the command
begins. -/
theorem command_starts (c : Cursor) (x : Context) : ∃ inner : Option (Cursor × Context),
    (∀ place ∈ inner, c.Reaches place.1 ∧ place.1.rest.length < c.rest.length) ∧
      ∀ scope scope' : Scope, (∀ place ∈ inner, scope place.1 place.2 = scope' place.1 place.2) →
        command scope c x = command scope' c x := by
  rcases hHead : commandHead c x with ⟨⟨failure⟩ | ⟨b, head⟩, y⟩
  · refine ⟨none, by simp, fun scope scope' _ => ?_⟩
    change Parser.bind commandHead _ c x = Parser.bind commandHead _ c x
    rw [Parser.bind, Parser.bind, hHead]
  · have hPast := (commandHead_sound hHead).1
    obtain ⟨inner, hBehind, hBody⟩ := body_starts b.skipSpacing y
    refine ⟨inner, fun place hPlace => ?_, fun scope scope' hSame => command_congr hHead (hBody scope scope' hSame)⟩
    have hForward := b.reaches_skipSpacing.trans (hBehind place hPlace)
    exact ⟨hPast.reaches.trans hForward, Nat.lt_of_le_of_lt hForward.length_le hPast.length_lt⟩

theorem round_eq_of_behind {scope scope' : Scope}
    (hSame : ∀ d y, d.rest.length < c.rest.length → scope d y = scope' d y) :
    round scope inBody c x = round scope' inBody c x := by
  obtain ⟨inner, hBehind, hCommand⟩ := command_starts c x.forget
  rw [round, hCommand scope scope' fun place hPlace => hSame _ _ (hBehind place hPlace).2, round]

/-! ## The loop without a bound -/

/-- Any bound that outweighs the text will do. -/
theorem commandsWithin_eq (hLeft : c.rest.length < n) (hRight : c.rest.length < m) :
    commandsWithin n inBody c x = commandsWithin m inBody c x := by
  induction n generalizing inBody c x m with
  | zero => omega
  | succ n ih =>
    obtain ⟨m, rfl⟩ : ∃ k, m = k + 1 := ⟨m - 1, by omega⟩
    by_cases hEnd : atEnd inBody c = true
    · rw [commandsWithin_atEnd hEnd, commandsWithin_atEnd hEnd]
    · have hScopes : ∀ d y, d.rest.length < c.rest.length →
          scopeOf (commandsWithin n true) d y = scopeOf (commandsWithin m true) d y := by
        intro d y hLess
        have hSpacing := d.reaches_skipSpacing.length_le
        have hInner : commandsWithin n true d.skipSpacing y = commandsWithin m true d.skipSpacing y :=
          ih (by omega) (by omega)
        rw [scopeOf_eq, hInner, scopeOf_eq]
      have hNext := (round_advances (scopeOf_forward (commandsWithin_forward m true)) hEnd x).2
      rw [commandsWithin_round hEnd, commandsWithin_round hEnd, round_eq_of_behind hScopes]
      generalize round (scopeOf (commandsWithin m true)) inBody c x = first at hNext ⊢
      have hRest : commandsWithin n inBody first.1.1 first.2 = commandsWithin m inBody first.1.1 first.2 :=
        ih (by omega) (by omega)
      simp only [hRest]

theorem scope_eq (hBound : c.rest.length < n) : Grammar.scope inBody c x = scopeOf (commandsWithin n inBody) c x := by
  have hSpacing := c.reaches_skipSpacing.length_le
  have hLoop : commandsWithin (c.rest.length + 1) inBody c.skipSpacing x = commandsWithin n inBody c.skipSpacing x :=
    commandsWithin_eq (by omega) (by omega)
  rw [Grammar.scope, scopeOf_eq, hLoop, scopeOf_eq]

/-- The loop over a scope from its first cursor to its last one, round by round. The scopes of bodies are read as
wholes. -/
inductive Loop (inBody : Bool) : Cursor → Context → List Declaration → Cursor → Context → Prop where
  | stop {c : Cursor} {x : Context} (hEnd : atEnd inBody c = true) : Loop inBody c x [] c x
  | round {c b d : Cursor} {x y z : Context} {found : Option Declaration} {rest : List Declaration}
      (hEnd : ¬ atEnd inBody c = true) (hRound : round (Grammar.scope true) inBody c x = ((b, found), y))
      (hRest : Loop inBody b y rest d z) : Loop inBody c x (found.toList ++ rest) d z

variable {declarations : List Declaration}

theorem Loop.atEnd (h : Loop inBody c x declarations d y) : Grammar.atEnd inBody d = true := by
  induction h with
  | stop hEnd => exact hEnd
  | round _ _ _ ih => exact ih

theorem Loop.reaches (h : Loop inBody c x declarations d y) : c.Reaches d := by
  induction h with
  | stop => exact .refl _
  | @round _ _ _ x _ _ _ _ hEnd hRound _ ih =>
    have hNext := (round_advances (scope_forward true) hEnd x).1
    rw [hRound] at hNext
    exact hNext.trans ih

theorem commandsWithin_scope (hEnd : ¬ Grammar.atEnd inBody c = true) (hBound : c.rest.length < n + 1) :
    commandsWithin (n + 1) inBody c x =
      let first := round (Grammar.scope true) inBody c x
      let rest := commandsWithin n inBody first.1.1 first.2
      ((rest.1.1, first.1.2.toList ++ rest.1.2), rest.2) := by
  have hSame : ∀ d y, d.rest.length < c.rest.length →
      scopeOf (commandsWithin n true) d y = Grammar.scope true d y := fun d y hLess => (scope_eq (by omega)).symm
  rw [commandsWithin_round hEnd, round_eq_of_behind hSame]

theorem loop_commandsWithin (hBound : c.rest.length < n) : Loop inBody c x (commandsWithin n inBody c x).1.2
    (commandsWithin n inBody c x).1.1 (commandsWithin n inBody c x).2 := by
  induction n generalizing c x with
  | zero => omega
  | succ n ih =>
    by_cases hEnd : Grammar.atEnd inBody c = true
    · rw [commandsWithin_atEnd hEnd]
      exact .stop hEnd
    · have hNext := (round_advances (scope_forward true) hEnd x).2
      rw [commandsWithin_scope hEnd hBound]
      rcases hRound : round (Grammar.scope true) inBody c x with ⟨⟨next, found⟩, y⟩
      rw [hRound] at hNext
      exact .round hEnd hRound (ih (Nat.lt_of_lt_of_le hNext (Nat.le_of_lt_succ hBound)))

theorem Loop.commandsWithin_eq (h : Loop inBody c x declarations d y) (hBound : c.rest.length < n) :
    commandsWithin n inBody c x = ((d, declarations), y) := by
  induction h generalizing n with
  | stop hEnd => exact commandsWithin_atEnd hEnd n _
  | @round c b _ x y _ found rest hEnd hRound _ ih =>
    obtain ⟨n, rfl⟩ : ∃ k, n = k + 1 := ⟨n - 1, by omega⟩
    have hNext := (round_advances (scope_forward true) hEnd x).2
    rw [hRound] at hNext
    have hRest := ih (Nat.lt_of_lt_of_le hNext (Nat.le_of_lt_succ hBound))
    rw [commandsWithin_scope hEnd hBound, hRound]
    simp only [hRest]

theorem Loop.scope_eq (h : Loop inBody c.skipSpacing x declarations d y) :
    Grammar.scope inBody c x = ((d, declarations),
      if declarations.isEmpty && y.errors.length == x.errors.length then
        y.report (.grammar ⟨d.position, .noCommand⟩) else y) := by
  have hSpacing := c.reaches_skipSpacing.length_le
  rw [Grammar.scope, scopeOf_eq, h.commandsWithin_eq (by omega)]
  split
  · rfl
  · rfl

/-- What the loop over a scope does from a cursor on. -/
structure Advances (inBody : Bool) (c : Cursor) (x : Context) : Prop where
  /-- A round ends further on than it begins, whether its command was read or is broken. -/
  round : ¬ atEnd inBody c = true → c.Reaches (round (Grammar.scope true) inBody c x).1.1 ∧
    c.offset < (Grammar.round (Grammar.scope true) inBody c x).1.1.offset
  /-- A command starts at most one nested scope, and only that run matters to it. It starts further on. -/
  nested : ∃ inner : Option (Cursor × Context), (∀ place ∈ inner, c.Reaches place.1 ∧ c.offset < place.1.offset) ∧
    ∀ scope scope' : Scope, (∀ place ∈ inner, scope place.1 place.2 = scope' place.1 place.2) →
      command scope c x = command scope' c x
  /-- The loop stops, and only at the end of its scope. -/
  stops : ∃ declarations d y, Loop inBody c x declarations d y ∧ c.Reaches d ∧ atEnd inBody d = true ∧
    ∀ bound, c.rest.length < bound → commandsWithin bound inBody c x = ((d, declarations), y)

theorem advances (inBody : Bool) (c : Cursor) (x : Context) : Advances inBody c x where
  round hEnd := by
    obtain ⟨hReaches, hLess⟩ := round_advances (scope_forward true) hEnd x
    exact ⟨hReaches, hReaches.offset_lt hLess⟩
  nested := by
    obtain ⟨inner, hBehind, hCommand⟩ := command_starts c x
    exact ⟨inner, fun place hPlace => ⟨(hBehind place hPlace).1, (hBehind place hPlace).1.offset_lt
      (hBehind place hPlace).2⟩, hCommand⟩
  stops := by
    have hLoop := @loop_commandsWithin c x inBody _ (Nat.lt_succ_self c.rest.length)
    exact ⟨_, _, _, hLoop, hLoop.reaches, hLoop.atEnd, fun bound hBound => hLoop.commandsWithin_eq hBound⟩

end Grammar

open Grammar

/-- From every place of a text the loop over a scope makes progress and stops. So a document is read to the end of
its text. -/
theorem document_terminates (source : String) :
    (∀ inBody c x, (Cursor.ofText source).Reaches c → Advances inBody c x) ∧
    ∃ c x declarations d y, header (Cursor.ofText source).skipSpacing .empty = (c, x) ∧
      Loop false c.skipSpacing x declarations d y ∧ d.rest = [] ∧ d.offset = source.utf8ByteSize ∧
      document source = (declarations, if declarations.isEmpty && y.errors.length == x.errors.length then
        y.errors ++ [.grammar ⟨d.position, .noCommand⟩] else y.errors) := by
  refine ⟨fun inBody c x _ => advances inBody c x, ?_⟩
  rcases hHeader : header (Cursor.ofText source).skipSpacing .empty with ⟨c, x⟩
  obtain ⟨declarations, d, y, hLoop, hReaches, hEnd, -⟩ := (advances false c.skipSpacing x).stops
  have hStart : (Cursor.ofText source).Reaches c := by
    have hBehind := (header_within (Cursor.ofText source).reaches_skipSpacing (Context.within_empty _)).1
    rwa [hHeader] at hBehind
  have hNone : d.rest = [] := by simpa [atEnd, Cursor.isEmpty] using hEnd
  obtain ⟨before, hSource, -, hOffset⟩ := (hStart.trans (c.reaches_skipSpacing.trans hReaches)).exists_before
  rw [hNone, String.ofList_nil, String.append_empty] at hSource
  refine ⟨c, x, declarations, d, y, rfl, hLoop, hNone, hSource ▸ hOffset, ?_⟩
  rw [document_eq, hHeader]
  simp only [hLoop.scope_eq]
  split
  · rfl
  · rfl

end DialogTree
