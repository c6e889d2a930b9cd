import DialogTree.Grammar
import DialogTree.Proofs.Places.Positions

/-!
# Parsers keep to their text

From a cursor behind an origin every parser goes on to such a cursor, and whatever it fails with, reports or
keeps as the furthest failure has the position of such a cursor. Each combinator preserves this; the readers
of single words, numbers and strings have it by what they skip.
-/

namespace DialogTree

/-- The position is that of a cursor at or behind the origin. -/
def Cursor.Covers (origin : Cursor) (position : Option Position) : Prop :=
  ∃ c, origin.Reaches c ∧ position = some c.position

namespace Cursor

variable {origin c d : Cursor} {position : Option Position}

theorem Reaches.covers (h : origin.Reaches c) : origin.Covers c.position := ⟨c, h, rfl⟩

theorem Covers.of_reaches (h : origin.Reaches c) (hPosition : c.Covers position) : origin.Covers position := by
  obtain ⟨d, hd, hEq⟩ := hPosition
  exact ⟨d, h.trans hd, hEq⟩

theorem reaches_skipWhile (c : Cursor) (p : Char → Bool) : c.Reaches (c.skipWhile p) :=
  (passesRun_takeWhile c p).passes.reaches

theorem reaches_skipSign (c : Cursor) : c.Reaches c.skipSign := by
  unfold skipSign
  split
  · exact reaches_skip c 1
  · exact reaches_skip c 1
  · exact Reaches.refl c

theorem reaches_skipSpacing (c : Cursor) : c.Reaches c.skipSpacing := reaches_skip c _

theorem reaches_recover (c : Cursor) (inBody : Bool) : c.Reaches (c.recover inBody) := reaches_skip c _

end Cursor

/-- A success ends behind the origin with a value of the given kind, and a failure lies behind the origin. -/
def Outcome.Within {α : Type} (origin : Cursor) (V : α → Prop) : Outcome α → Prop
  | .ok (d, a) => origin.Reaches d ∧ V a
  | .error failure => origin.Covers failure.position

structure Context.Within (origin : Cursor) (x : Context) : Prop where
  errors : ∀ error ∈ x.errors, origin.Covers error.position
  furthest : ∀ failure ∈ x.furthest, origin.Covers failure.position

namespace Context

variable {origin : Cursor} {x : Context} {failure : Failure} {error : Diagnostic}

theorem within_empty (origin : Cursor) : empty.Within origin :=
  ⟨fun _ h => absurd h List.not_mem_nil, fun _ h => by cases h⟩

theorem Within.keep (hx : x.Within origin) (hFailure : origin.Covers failure.position) :
    ({ x with furthest := some failure } : Context).Within origin :=
  ⟨hx.errors, fun f hf => by cases hf; exact hFailure⟩

theorem Within.note (hx : x.Within origin) (hFailure : origin.Covers failure.position) :
    (x.note failure).Within origin := by
  unfold Context.note
  split
  · exact hx.keep hFailure
  · split
    · exact hx.keep hFailure
    · exact hx

theorem Within.relabel (hx : x.Within origin) (hFailure : origin.Covers failure.position) :
    (x.relabel failure).Within origin := by
  unfold Context.relabel
  split
  · exact hx.keep hFailure
  · split
    · exact hx.keep hFailure
    · exact hx

theorem Within.report (hx : x.Within origin) (hError : origin.Covers error.position) :
    (x.report error).Within origin := by
  refine ⟨fun e he => ?_, hx.furthest⟩
  rcases List.mem_append.mp he with he | he
  · exact hx.errors e he
  · rw [List.mem_singleton.mp he]
    exact hError

theorem Within.forget (hx : x.Within origin) : x.forget.Within origin :=
  ⟨hx.errors, fun _ h => by cases h⟩

end Context

/-! ## Combinators -/

/-- From a cursor behind the origin the parser keeps behind it, and its values are of the given kind. -/
def Parser.Within {α : Type} (origin : Cursor) (p : Parser α) (V : α → Prop) : Prop :=
  ∀ c x, origin.Reaches c → x.Within origin → (p c x).1.Within origin V ∧ (p c x).2.Within origin

def Lexeme.Forward {α : Type} (l : Lexeme α) : Prop :=
  ∀ c, (l c).Within c fun _ => True

theorem Outcome.Within.of_reaches {α : Type} {origin c : Cursor} {V : α → Prop} {o : Outcome α}
    (hc : origin.Reaches c) (h : o.Within c V) : o.Within origin V := by
  cases o with
  | ok result => exact ⟨hc.trans h.1, h.2⟩
  | error failure => exact Cursor.Covers.of_reaches hc h

namespace Parser

variable {α β : Type} {origin : Cursor} {p : Parser α} {V : α → Prop} {W : β → Prop}

theorem within_lexeme {l : Lexeme α} (hl : l.Forward) : l.parser.Within origin fun _ => True := by
  intro c x hc hx
  have h := (hl c).of_reaches hc
  unfold Lexeme.parser
  split
  · rename_i hEq
    rw [hEq] at h
    exact ⟨h, hx⟩
  · rename_i hEq
    rw [hEq] at h
    exact ⟨h, hx.note h⟩

theorem within_pure {a : α} (ha : V a) : (pure a : Parser α).Within origin V :=
  fun _ _ hc hx => ⟨⟨hc, ha⟩, hx⟩

theorem Within.bind {f : α → Parser β} (hp : p.Within origin V) (hf : ∀ a, V a → (f a).Within origin W) :
    (p >>= f).Within origin W := by
  intro c x hc hx
  change (Parser.bind p f c x).1.Within origin W ∧ (Parser.bind p f c x).2.Within origin
  have h := hp c x hc hx
  unfold Parser.bind
  split
  · rename_i next a y hEq
    rw [hEq] at h
    exact hf a h.1.2 next y h.1.1 h.2
  · rename_i hEq
    rwa [hEq] at h

theorem Within.map {f : α → β} (hp : p.Within origin V) (hf : ∀ a, V a → W (f a)) :
    (f <$> p).Within origin W :=
  Within.bind (f := fun a => pure (f a)) hp fun a ha => within_pure (hf a ha)

theorem Within.orElse {q : Parser α} (hp : p.Within origin V) (hq : q.Within origin V) :
    (p <|> q).Within origin V := by
  intro c x hc hx
  change (Parser.orElse p (fun _ => q) c x).1.Within origin V ∧
    (Parser.orElse p (fun _ => q) c x).2.Within origin
  have h := hp c x hc hx
  unfold Parser.orElse
  split
  · rename_i hEq
    rwa [hEq] at h
  · rename_i first y hEq
    rw [hEq] at h
    have h' := hq c y hc h.2
    split
    · rename_i hEq'
      rwa [show q c y = _ from hEq'] at h'
    · rename_i hEq'
      rw [show q c y = _ from hEq'] at h'
      refine ⟨?_, h'.2⟩
      unfold Failure.furthest
      split
      · exact h'.1
      · exact h.1

theorem Within.optional (hp : p.Within origin V) : p.optional.Within origin fun o => ∀ a ∈ o, V a := by
  intro c x hc hx
  have h := hp c x hc hx
  unfold Parser.optional
  split
  · rename_i hEq
    rw [hEq] at h
    exact ⟨⟨h.1.1, fun b hb => by cases hb; exact h.1.2⟩, h.2⟩
  · rename_i hEq
    rw [hEq] at h
    exact ⟨⟨hc, fun b hb => by cases hb⟩, h.2⟩

theorem Within.many (hp : p.Within origin V) : p.many.Within origin fun items => ∀ a ∈ items, V a := by
  intro c x hc hx
  change (origin.Reaches (p.collect c x).1.1 ∧ ∀ a ∈ (p.collect c x).1.2, V a) ∧ (p.collect c x).2.Within origin
  have h := hp c x hc hx
  -- The recursion is that of the collecting loop; what the parser keeps is asked again at each new cursor.
  fun_induction Parser.collect p c x with
  | case1 c x failure y hEq =>
    rw [hEq] at h
    exact ⟨⟨hc, by simp⟩, h.2⟩
  | case2 c x next a y hEq hNext last items z hRest ih =>
    rw [hEq] at h
    obtain ⟨⟨hLast, hItems⟩, hz⟩ := ih h.1.1 h.2 (hp next y h.1.1 h.2)
    rw [hRest] at hLast hItems hz
    refine ⟨⟨hLast, fun b hb => ?_⟩, hz⟩
    rcases List.mem_cons.mp hb with rfl | hb
    · exact h.1.2
    · exact hItems b hb
  | case3 c x next a y hEq hNext =>
    rw [hEq] at h
    exact ⟨⟨hc, by simp⟩, h.2⟩

theorem Within.located (hp : p.Within origin V) :
    p.located.Within origin fun r => origin.Covers r.1 ∧ V r.2 := by
  intro c x hc hx
  have h := hp c x hc hx
  unfold Parser.located
  split
  · rename_i hEq
    rw [hEq] at h
    exact ⟨⟨h.1.1, hc.covers, h.1.2⟩, h.2⟩
  · rename_i hEq
    rwa [hEq] at h

theorem Within.labeled (hp : p.Within origin V) (message : String) : (p.labeled message).Within origin V := by
  intro c x hc hx
  have h := hp c x hc hx
  unfold Parser.labeled
  split
  · rename_i hEq
    rwa [hEq] at h
  · rename_i failure y hEq
    rw [hEq] at h
    split
    · have hNamed : origin.Covers (Failure.mk failure.position (.label message)).position := h.1
      exact ⟨hNamed, h.2.relabel hNamed⟩
    · exact h

end Parser

/-! ## Words, numbers and spacing -/

variable {c : Cursor}

theorem literal_forward (text : String) : (literal text).Forward := by
  intro c
  unfold literal
  split
  · exact ⟨c.reaches_skip _, trivial⟩
  · exact (Cursor.Reaches.refl c).covers

theorem identifier_forward (lead body : Char → Bool) : (identifier lead body).Forward := by
  intro c
  unfold identifier
  split
  · exact (Cursor.Reaches.refl c).covers
  · split
    · exact ⟨c.reaches_skip _, trivial⟩
    · exact (Cursor.Reaches.refl c).covers

theorem natural_forward (radix : Radix) : (natural radix).Forward := by
  intro c
  have hNext := c.reaches_skipWhile (isDigitIn radix.base)
  unfold natural
  simp only
  split
  · exact (Cursor.Reaches.refl c).covers
  · split
    · exact ⟨hNext, trivial⟩
    · exact hNext.covers

theorem boolean_forward : boolean.Forward := by
  intro c
  unfold boolean
  simp only
  split
  · exact ⟨c.reaches_skip 4, trivial⟩
  · split
    · exact ⟨c.reaches_skip 5, trivial⟩
    · exact (Cursor.Reaches.refl c).covers

theorem floatLiteral_forward : floatLiteral.Forward := by
  intro c
  have hWhole := c.reaches_skipSign.trans (c.skipSign.reaches_skipWhile Char.isDigit)
  have hPoint := hWhole.trans (Cursor.reaches_skip _ 1)
  unfold floatLiteral
  simp only
  split
  · exact hWhole.covers
  · split
    · exact hWhole.covers
    · split
      · exact hPoint.covers
      · exact ⟨hPoint.trans (Cursor.reaches_skipWhile _ _), trivial⟩

theorem integerLiteral_forward : integerLiteral.Forward := by
  intro c
  have hNext := c.reaches_skipSign.trans (c.skipSign.reaches_skipWhile Char.isDigit)
  unfold integerLiteral
  simp only
  split
  · exact hNext.covers
  · split
    · exact ⟨hNext, trivial⟩
    · exact hNext.covers

theorem spacing_forward : spacing.Forward := fun c => ⟨c.reaches_skipSpacing, trivial⟩

theorem requiredSpacing_forward : requiredSpacing.Forward := by
  intro c
  unfold requiredSpacing
  split
  · exact ⟨c.reaches_skipSpacing, trivial⟩
  · exact (Cursor.Reaches.refl c).covers

theorem lineBreak_forward : lineBreak.Forward := by
  intro c
  unfold lineBreak
  split
  · exact ⟨c.reaches_skipSpacing, trivial⟩
  · exact c.reaches_skipSpacing.covers

/-! ## Strings -/

theorem Outcome.Within.map {α β : Type} {o : Outcome α} (h : o.Within c fun _ => True) (f : α → β) :
    Outcome.Within c (fun _ => True) (o.map fun (next, a) => (next, f a)) := by
  cases o with
  | ok result => exact ⟨h.1, trivial⟩
  | error failure => exact h

theorem quotedBody_within (start : Position) (c : Cursor) : (quotedBody start c).Within c fun _ => True := by
  fun_induction quotedBody start c with
  | case1 c hRest => exact (Cursor.Reaches.refl c).covers
  | case2 c rest hRest => exact ⟨c.reaches_skip 1, trivial⟩
  | case3 c rest hRead hRest hQuote => exact (Cursor.Reaches.refl c).covers
  | case4 c rest spelled count hRead hRest hQuote ih => exact (ih.of_reaches (c.reaches_skip _)).map _
  | case5 c x rest hRest hQuote hBackslash ih => exact (ih.of_reaches (c.reaches_skip 1)).map _

theorem quotedString_forward : quotedString.Forward := by
  intro c
  unfold quotedString
  split
  · exact ((quotedBody_within c.position (c.skip 1)).of_reaches (c.reaches_skip 1)).map _
  · exact (Cursor.Reaches.refl c).covers

theorem rawString_forward : rawString.Forward := by
  intro c
  have hClose := (c.reaches_skip 1).trans ((c.skip 1).reaches_skipWhile (· != '\x60'))
  unfold rawString
  simp only
  split
  · split
    · exact hClose.covers
    · exact ⟨hClose.trans (Cursor.reaches_skip _ 1), trivial⟩
  · exact (Cursor.Reaches.refl c).covers

end DialogTree
