import DialogTree.Grammar
import DialogTree.Proofs.Passing

/-!
# Moves

The same text can stand alone, or behind one text and in front of another. A move goes from the first place to
the second: positions shift by the text in front, and the reports made there come first. A parser that is
natural gives, where the text is moved, what it gives where the text stands alone, moved as well.
-/

namespace DialogTree

/-! ## Shifted places -/

/-- The place behind a text of whole lines that is put in front. -/
def Position.movedBy (before : List Char) (position : Position) : Position :=
  ⟨position.offset + byteLength before, position.line + before.count '\n', position.column⟩

def Cause.movedBy (before : List Char) : Cause → Cause
  | .unterminatedString start => .unterminatedString (start.movedBy before)
  | .unterminatedRawString start => .unterminatedRawString (start.movedBy before)
  | cause => cause

def Failure.movedBy (before : List Char) (failure : Failure) : Failure :=
  ⟨failure.position.movedBy before, failure.cause.movedBy before⟩

def StructureError.movedBy (before : List Char) : StructureError → StructureError
  | .duplicateCommand path position => .duplicateCommand path (position.map (·.movedBy before))
  | .duplicateAttribute path key position => .duplicateAttribute path key (position.map (·.movedBy before))
  | .reservedAttribute path key position => .reservedAttribute path key (position.map (·.movedBy before))
  | .invalidType path found position => .invalidType path found (position.map (·.movedBy before))
  | .emptyName position => .emptyName (position.map (·.movedBy before))
  | .emptyKeyword path position => .emptyKeyword path (position.map (·.movedBy before))

def Diagnostic.movedBy (before : List Char) : Diagnostic → Diagnostic
  | .grammar failure => .grammar (failure.movedBy before)
  | .unsupportedVersion found position => .unsupportedVersion found (position.map (·.movedBy before))
  | .json problem position => .json problem (position.map (·.movedBy before))
  | .structural error => .structural (error.movedBy before)

def DeclaredAttribute.movedBy (before : List Char) (item : DeclaredAttribute) : DeclaredAttribute :=
  ⟨item.key, item.value, item.position.map (·.movedBy before)⟩

mutual

def Declaration.movedBy (before : List Char) : Declaration → Declaration
  | ⟨name, keyword, position, attributes, none⟩ =>
    ⟨name, keyword, position.map (·.movedBy before), attributes.map (·.movedBy before), none⟩
  | ⟨name, keyword, position, attributes, some body⟩ =>
    ⟨name, keyword, position.map (·.movedBy before), attributes.map (·.movedBy before),
      some (allMovedBy before body)⟩

def allMovedBy (before : List Char) : List Declaration → List Declaration
  | [] => []
  | declaration :: rest => declaration.movedBy before :: allMovedBy before rest

end

variable {before : List Char}

theorem allMovedBy_eq_map (declarations : List Declaration) :
    allMovedBy before declarations = declarations.map (·.movedBy before) := by
  induction declarations with
  | nil => rw [allMovedBy, List.map_nil]
  | cons declaration rest ih => rw [allMovedBy, List.map_cons, ih]

theorem Declaration.movedBy_eq (declaration : Declaration) :
    declaration.movedBy before =
      { declaration with
        position := declaration.position.map (·.movedBy before)
        attributes := declaration.attributes.map (·.movedBy before)
        body := declaration.body.map (·.map (·.movedBy before)) } := by
  obtain ⟨name, keyword, position, attributes, body⟩ := declaration
  cases body with
  | none => rw [Declaration.movedBy, Option.map_none]
  | some body => rw [Declaration.movedBy, allMovedBy_eq_map, Option.map_some]

namespace Position

theorem movedBy_step (p : Position) (c : Char) : (p.movedBy before).step c = (p.step c).movedBy before := by
  unfold step movedBy
  split <;> simp <;> omega

theorem movedBy_after (p : Position) (text : List Char) :
    (p.movedBy before).after text = (p.after text).movedBy before := by
  induction text generalizing p with
  | nil => rfl
  | cons c text ih => rw [after_cons, after_cons, movedBy_step, ih]

theorem movedBy_append (p : Position) (text : List Char) :
    p.movedBy (before ++ text) = (p.movedBy text).movedBy before := by
  simp only [movedBy, byteLength_append, List.count_append, mk.injEq, and_true]
  omega

theorem after_line {p : Position} (hStart : p.column = 1) (line : List Char) :
    p.after (line ++ ['\n']) = p.movedBy (line ++ ['\n']) := by
  have hOffset := offset_after p (line ++ ['\n'])
  have hLine := line_after p (line ++ ['\n'])
  have hColumn : (p.after (line ++ ['\n'])).column = p.column := by
    rw [after_append, hStart]
    rfl
  exact congr (congr (congrArg Position.mk hOffset) hLine) hColumn

end Position

namespace Failure

variable (f g : Failure)

theorem offset_movedBy : (f.movedBy before).offset = f.offset + byteLength before := rfl

theorem movedBy_furthest :
    (f.movedBy before).furthest (g.movedBy before) = (f.furthest g).movedBy before := by
  simp only [furthest, offset_movedBy, Nat.add_le_add_iff_right]
  split <;> rfl

end Failure

/-! ## The moved parse -/

/-- The text in front, the text behind, and the reports made so far. The text behind is empty or begins with
a name. -/
structure Move where
  before : List Char
  tail : List Char
  earlier : List Diagnostic
  name_tail : ∀ c ∈ tail.head?, isNameChar c = true

namespace Move

variable (m : Move)

def cursor (c : Cursor) : Cursor :=
  ⟨c.rest ++ m.tail, c.position.movedBy m.before⟩

def context (x : Context) : Context :=
  ⟨m.earlier ++ x.errors.map (·.movedBy m.before), x.furthest.map (·.movedBy m.before)⟩

def outcome {α : Type} (g : α → α) : Outcome α → Outcome α
  | .ok (d, a) => .ok (m.cursor d, g a)
  | .error failure => .error (failure.movedBy m.before)

variable {c : Cursor} {x : Context}

theorem cursor_skip {count : Nat} (h : count ≤ c.rest.length) :
    (m.cursor c).skip count = m.cursor (c.skip count) := by
  apply Cursor.ext_of
  · exact List.drop_append_of_le_length h
  · change (c.position.movedBy m.before).after ((c.rest ++ m.tail).take count) = _
    rw [List.take_append_of_le_length h, Position.movedBy_after]
    rfl

theorem cursor_peek? (h : c.rest ≠ []) : (m.cursor c).peek? = c.peek? := by
  obtain ⟨⟨⟩ | ⟨a, rest⟩, position⟩ := c
  · exact absurd rfl h
  · rfl

theorem cursor_isEmpty (h : c.rest ≠ []) : (m.cursor c).isEmpty = c.isEmpty := by
  obtain ⟨⟨⟩ | ⟨a, rest⟩, position⟩ := c
  · exact absurd rfl h
  · rfl

theorem takeWhile_append_of_stop {p : Char → Bool} {text tail : List Char} (h : ∃ x ∈ text, p x = false) :
    (text ++ tail).takeWhile p = text.takeWhile p := by
  induction text with
  | nil => simp at h
  | cons y text ih =>
    by_cases hy : p y = true
    · simp only [List.mem_cons, exists_eq_or_imp, hy, Bool.true_eq_false, false_or] at h
      simp [hy, ih h]
    · simp [hy]

theorem cursor_takeWhile {p : Char → Bool} (h : ∃ x ∈ c.rest, p x = false) :
    (m.cursor c).takeWhile p = c.takeWhile p :=
  takeWhile_append_of_stop h

theorem cursor_skipWhile {p : Char → Bool} (h : ∃ x ∈ c.rest, p x = false) :
    (m.cursor c).skipWhile p = m.cursor (c.skipWhile p) := by
  have hLeft := (Cursor.passesRun_takeWhile (m.cursor c) p).passes.eq_skip
  have hRight := (Cursor.passesRun_takeWhile c p).passes
  rw [hLeft, cursor_takeWhile m h, m.cursor_skip (by simp [hRight.length_eq]), ← hRight.eq_skip]

theorem context_note (failure : Failure) :
    (m.context x).note (failure.movedBy m.before) = m.context (x.note failure) := by
  obtain ⟨errors, furthest⟩ := x
  cases furthest with
  | none => rfl
  | some best =>
    simp only [Context.note, context, Option.map_some, Failure.offset_movedBy, Nat.add_lt_add_iff_right]
    split <;> rfl

theorem context_relabel (failure : Failure) :
    (m.context x).relabel (failure.movedBy m.before) = m.context (x.relabel failure) := by
  obtain ⟨errors, furthest⟩ := x
  cases furthest with
  | none => rfl
  | some best =>
    simp only [Context.relabel, context, Option.map_some, Failure.offset_movedBy, Nat.add_le_add_iff_right]
    split <;> rfl

theorem context_report (error : Diagnostic) :
    (m.context x).report (error.movedBy m.before) = m.context (x.report error) := by
  simp [Context.report, context]

end Move

/-! ## Natural parsers -/

/-- From the cursors of the first class a lexeme does the same where the text is moved, and ends in the second
class. -/
structure Lexeme.Natural {α : Type} (m : Move) (P : Cursor → Prop) (l : Lexeme α) (Q : Cursor → Prop) :
    Prop where
  moves : ∀ c, P c → l (m.cursor c) = m.outcome id (l c)
  ends : ∀ c d a, P c → l c = .ok (d, a) → Q d

theorem Lexeme.natural_of {α : Type} {m : Move} {P Q : Cursor → Prop} {l : Lexeme α}
    (h : ∀ c, P c → l (m.cursor c) = m.outcome id (l c) ∧ ∀ d a, l c = .ok (d, a) → Q d) : l.Natural m P Q :=
  ⟨fun c hc => (h c hc).1, fun c d a hc hOk => (h c hc).2 d a hOk⟩

/-- The same for two parsers, the second of which reads the moved text; their values are related by a
function. -/
structure Parser.Natural {α : Type} (m : Move) (P : Cursor → Prop) (p p' : Parser α) (g : α → α)
    (Q : Cursor → Prop) : Prop where
  moves : ∀ c x, P c → p' (m.cursor c) (m.context x) = (m.outcome g (p c x).1, m.context (p c x).2)
  ends : ∀ c x d a z, P c → p c x = (.ok (d, a), z) → Q d

namespace Parser

variable {α β : Type} {m : Move} {P Q R : Cursor → Prop} {p p' q q' : Parser α} {g : α → α} {h : β → β}

theorem natural_lexeme {l : Lexeme α} (hl : l.Natural m P Q) : Natural m P l.parser l.parser id Q := by
  refine ⟨fun c x hc => ?_, fun c x d a z hc hOk => hl.ends c d a hc ?_⟩
  · unfold Lexeme.parser
    rw [hl.moves c hc]
    cases l c with
    | ok result => rfl
    | error failure =>
      change (_, (m.context x).note (failure.movedBy m.before)) = _
      rw [m.context_note]
      rfl
  · unfold Lexeme.parser at hOk
    split at hOk
    · rename_i hEq
      cases hOk
      exact hEq
    · cases hOk

theorem natural_pure {a a' : α} (ha : a' = g a) :
    Natural m P (pure a : Parser α) (pure a' : Parser α) g P := by
  subst ha
  refine ⟨fun c x _ => rfl, fun c x d b z hc hOk => ?_⟩
  cases hOk
  exact hc

theorem Natural.weaken {P' Q' : Cursor → Prop} (hp : Natural m P p p' g Q) (hP : ∀ c, P' c → P c)
    (hQ : ∀ c, Q c → Q' c) : Natural m P' p p' g Q' :=
  ⟨fun c x hc => hp.moves c x (hP c hc), fun c x d a z hc hOk => hQ d (hp.ends c x d a z (hP c hc) hOk)⟩

theorem Natural.bind {f f' : α → Parser β} (hp : Natural m P p p' g Q)
    (hf : ∀ a, Natural m Q (f a) (f' (g a)) h R) : Natural m P (p >>= f) (p' >>= f') h R := by
  constructor
  · intro c x hc
    change Parser.bind p' f' _ _ = (m.outcome h (Parser.bind p f c x).1, m.context (Parser.bind p f c x).2)
    have hMoves := hp.moves c x hc
    have hEnds := hp.ends c x
    unfold Parser.bind
    rw [hMoves]
    rcases hEq : p c x with ⟨⟨failure⟩ | ⟨d, a⟩, y⟩
    · rfl
    · exact (hf a).moves d y (hEnds d a y hc hEq)
  · intro c x e b z hc hOk
    change Parser.bind p f c x = _ at hOk
    unfold Parser.bind at hOk
    rcases hEq : p c x with ⟨⟨failure⟩ | ⟨d, a⟩, y⟩
    · rw [hEq] at hOk
      cases hOk
    · rw [hEq] at hOk
      exact (hf a).ends d y e b z (hp.ends c x d a y hc hEq) hOk

theorem Natural.map {f : α → β} (hp : Natural m P p p' g Q) (hf : ∀ a, f (g a) = h (f a)) :
    Natural m P (f <$> p) (f <$> p') h Q := by
  have hBind : Natural m P (p >>= fun a => pure (f a)) (p' >>= fun a => pure (f a)) h Q :=
    hp.bind fun a => natural_pure (hf a)
  exact hBind

theorem Natural.orElse (hp : Natural m P p p' g Q) (hq : Natural m P q q' g Q) :
    Natural m P (p <|> q) (p' <|> q') g Q := by
  constructor
  · intro c x hc
    change Parser.orElse p' (fun _ => q') _ _ =
      (m.outcome g (Parser.orElse p (fun _ => q) c x).1, m.context (Parser.orElse p (fun _ => q) c x).2)
    have hMoves := hp.moves c x hc
    unfold Parser.orElse
    rw [hMoves]
    rcases hEq : p c x with ⟨⟨first⟩ | ⟨d, a⟩, y⟩
    · simp only [Move.outcome, hq.moves c y hc]
      rcases q c y with ⟨⟨second⟩ | ⟨d, a⟩, z⟩
      · simp only [Failure.movedBy_furthest]
      · rfl
    · rfl
  · intro c x d a z hc hOk
    change Parser.orElse p (fun _ => q) c x = _ at hOk
    unfold Parser.orElse at hOk
    rcases hEq : p c x with ⟨⟨first⟩ | ⟨d', a'⟩, y⟩
    · rw [hEq] at hOk
      simp only at hOk
      rcases hEq' : q c y with ⟨⟨second⟩ | ⟨d', a'⟩, w⟩
      · rw [hEq'] at hOk
        cases hOk
      · rw [hEq'] at hOk
        cases hOk
        exact hq.ends c y d a z hc hEq'
    · rw [hEq] at hOk
      cases hOk
      exact hp.ends c x d a z hc hEq

theorem Natural.optional (hp : Natural m P p p' g Q) (hSame : ∀ c, P c → Q c) :
    Natural m P p.optional p'.optional (Option.map g) Q := by
  constructor
  · intro c x hc
    unfold Parser.optional
    rw [hp.moves c x hc]
    rcases p c x with ⟨⟨failure⟩ | ⟨d, a⟩, y⟩ <;> rfl
  · intro c x d o z hc hOk
    unfold Parser.optional at hOk
    rcases hEq : p c x with ⟨⟨failure⟩ | ⟨d', a⟩, y⟩
    · rw [hEq] at hOk
      cases hOk
      exact hSame c hc
    · rw [hEq] at hOk
      cases hOk
      exact hp.ends c x d a z hc hEq

theorem Natural.located (hp : Natural m P p p' g Q) :
    Natural m P p.located p'.located (Prod.map (·.movedBy m.before) g) Q := by
  constructor
  · intro c x hc
    unfold Parser.located
    rw [hp.moves c x hc]
    rcases p c x with ⟨⟨failure⟩ | ⟨d, a⟩, y⟩ <;> rfl
  · intro c x d r z hc hOk
    unfold Parser.located at hOk
    rcases hEq : p c x with ⟨⟨failure⟩ | ⟨d', a⟩, y⟩
    · rw [hEq] at hOk
      cases hOk
    · rw [hEq] at hOk
      cases hOk
      exact hp.ends c x d a z hc hEq

theorem Natural.labeled (hp : Natural m P p p' g Q) (message : String) :
    Natural m P (p.labeled message) (p'.labeled message) g Q := by
  constructor
  · intro c x hc
    unfold Parser.labeled
    rw [hp.moves c x hc]
    rcases p c x with ⟨⟨failure⟩ | ⟨d, a⟩, y⟩
    · have hOffset : (failure.movedBy m.before).offset = (m.cursor c).offset ↔ failure.offset = c.offset :=
        Nat.add_right_cancel_iff
      simp only [Move.outcome, hOffset]
      split
      · exact congrArg (Prod.mk _) (m.context_relabel ⟨failure.position, .label message⟩)
      · rfl
    · rfl
  · intro c x d a z hc hOk
    unfold Parser.labeled at hOk
    rcases hEq : p c x with ⟨⟨failure⟩ | ⟨d', a'⟩, y⟩
    · rw [hEq] at hOk
      simp only at hOk
      split at hOk <;> cases hOk
    · rw [hEq] at hOk
      cases hOk
      exact hp.ends c x d a z hc hEq

theorem Natural.collect (hp : Natural m P p p' g P) (c : Cursor) (x : Context) (hc : P c) :
    p'.collect (m.cursor c) (m.context x) =
        ((m.cursor (p.collect c x).1.1, (p.collect c x).1.2.map g), m.context (p.collect c x).2) ∧
      P (p.collect c x).1.1 := by
  have hMoves := hp.moves c x hc
  have hEnds := hp.ends c x
  fun_induction Parser.collect p c x with
  | case1 c x failure y hEq =>
    refine ⟨?_, hc⟩
    rw [Parser.collect, hMoves, hEq]
    rfl
  | case2 c x next a y hEq hNext last items z hRest ih =>
    have hP := hEnds next a y hc hEq
    obtain ⟨hTail, hLast⟩ := ih hP (hp.moves next y hP) (hp.ends next y)
    rw [hRest] at hTail hLast
    refine ⟨?_, hLast⟩
    have hLength : (m.cursor next).rest.length < (m.cursor c).rest.length := by
      simpa [Move.cursor] using hNext
    rw [Parser.collect, hMoves, hEq]
    simp only [Move.outcome, hLength, if_true, hTail, List.map_cons]
  | case3 c x next a y hEq hNext =>
    refine ⟨?_, hc⟩
    have hLength : ¬ (m.cursor next).rest.length < (m.cursor c).rest.length := by
      simpa [Move.cursor] using hNext
    rw [Parser.collect, hMoves, hEq]
    simp only [Move.outcome, hLength, if_false, List.map_nil]

theorem Natural.many (hp : Natural m P p p' g P) : Natural m P p.many p'.many (List.map g) P := by
  constructor
  · intro c x hc
    unfold Parser.many
    rw [(hp.collect c x hc).1]
    rfl
  · intro c x d items z hc hOk
    have hLast := (hp.collect c x hc).2
    unfold Parser.many at hOk
    simp only [Prod.mk.injEq, Except.ok.injEq] at hOk
    rwa [hOk.1] at hLast

end Parser

end DialogTree
