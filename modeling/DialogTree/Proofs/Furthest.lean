import DialogTree.Proofs.Places.Parsers
import DialogTree.Proofs.Recovery.Bodies

/-!
# The furthest failure explains a failed parse

Optional parts, repetitions and choices swallow failures, and labels reword them. All the same the kept failure
never moves back, and a parser that fails keeps a failure at its own place or further on. The leaves have this
property and every combinator passes it on, so whatever is composed of them has it, and the report of a broken
command lies no nearer than the failure that broke it.
-/

namespace DialogTree

open DialogTree.Parser Grammar

/-- A failure is kept, and it lies at the offset or further on. -/
def Context.Explains (x : Context) (offset : Nat) : Prop := ∃ best ∈ x.furthest, offset ≤ best.offset

/-- What a parser leaves behind that started at a cursor: where it ended, and what it kept. -/
structure Outcome.Explained {α : Type} (c : Cursor) (x : Context) (o : Outcome α) (y : Context) : Prop where
  within : o.Within c fun _ => True
  explains : ∀ failure, o = .error failure → y.Explains failure.offset
  keeps : ∀ offset, x.Explains offset → y.Explains offset

/-- The parser explains its failures at every cursor with at most so many characters in front of it. -/
def Parser.Explains {α : Type} (limit : Nat) (p : Parser α) : Prop :=
  ∀ c x, c.rest.length ≤ limit → (p c x).1.Explained c x (p c x).2

/-! ## Contexts -/

namespace Context

variable {x : Context} {failure : Failure} {offset : Nat}

theorem explains_keep_iff (hBehind : ∀ best ∈ x.furthest, best.offset ≤ failure.offset) :
    Context.Explains { x with furthest := some failure } offset ↔ x.Explains offset ∨ offset ≤ failure.offset := by
  constructor
  · rintro ⟨_, ⟨⟩, hOffset⟩
    exact .inr hOffset
  · rintro (⟨best, hBest, hOffset⟩ | hOffset)
    · exact ⟨failure, rfl, Nat.le_trans hOffset (hBehind best hBest)⟩
    · exact ⟨failure, rfl, hOffset⟩

theorem explains_stay_iff (hExplains : x.Explains failure.offset) :
    x.Explains offset ↔ x.Explains offset ∨ offset ≤ failure.offset := by
  obtain ⟨best, hBest, hBehind⟩ := hExplains
  constructor
  · exact .inl
  · rintro (hx | hOffset)
    · exact hx
    · exact ⟨best, hBest, Nat.le_trans hOffset hBehind⟩

theorem explains_note_iff : (x.note failure).Explains offset ↔ x.Explains offset ∨ offset ≤ failure.offset := by
  unfold Context.note
  split
  · rename_i hNone
    exact explains_keep_iff (by simp [hNone])
  · rename_i best hBest
    split
    · rename_i hFurther
      exact explains_keep_iff (by simpa [hBest] using Nat.le_of_lt hFurther)
    · rename_i hFurther
      exact explains_stay_iff ⟨best, hBest, Nat.le_of_not_lt hFurther⟩

theorem explains_relabel_iff :
    (x.relabel failure).Explains offset ↔ x.Explains offset ∨ offset ≤ failure.offset := by
  unfold Context.relabel
  split
  · rename_i hNone
    exact explains_keep_iff (by simp [hNone])
  · rename_i best hBest
    -- At a tie the wording changes and the offset does not.
    split
    · rename_i hFurther
      exact explains_keep_iff (by simpa [hBest] using hFurther)
    · rename_i hFurther
      exact explains_stay_iff ⟨best, hBest, Nat.le_of_not_le hFurther⟩

end Context

/-! ## Outcomes -/

namespace Outcome

variable {α β : Type} {c d : Cursor} {x y z : Context} {a : α} {o : Outcome β} {failure : Failure}

theorem explained_ok (hReaches : c.Reaches d) (hKeeps : ∀ offset, x.Explains offset → y.Explains offset) :
    Explained c x (.ok (d, a)) y :=
  ⟨⟨hReaches, trivial⟩, by rintro failure ⟨⟩, hKeeps⟩

theorem explained_error (hCovers : c.Covers failure.position) (hExplains : y.Explains failure.offset)
    (hKeeps : ∀ offset, x.Explains offset → y.Explains offset) :
    Explained (α := α) c x (.error failure) y :=
  ⟨hCovers, by rintro other ⟨⟩; exact hExplains, hKeeps⟩

theorem Explained.error (h : Explained (α := α) c x (.error failure) y) :
    Explained (α := β) c x (.error failure) y :=
  explained_error h.within (h.explains failure rfl) h.keeps

theorem Explained.behind (hFirst : Explained c x (.ok (d, a)) y) (h : o.Explained d y z) : o.Explained c x z :=
  ⟨h.within.of_reaches hFirst.within.1, h.explains, fun offset hx => h.keeps offset (hFirst.keeps offset hx)⟩

end Outcome

/-! ## Combinators -/

namespace Parser

variable {α β : Type} {limit : Nat} {p q : Parser α}

open Outcome

theorem explains_lexeme {l : Lexeme α} (hl : l.Forward) (limit : Nat) : l.parser.Explains limit := by
  intro c x _
  have h := hl c
  unfold Lexeme.parser
  split
  · rename_i hEq
    rw [hEq] at h
    exact explained_ok h.1 fun _ => id
  · rename_i failure hEq
    rw [hEq] at h
    apply explained_error h
    · exact Context.explains_note_iff.mpr (.inr (Nat.le_refl _))
    · exact fun offset hx => Context.explains_note_iff.mpr (.inl hx)

theorem explains_pure (a : α) : (pure a : Parser α).Explains limit :=
  fun c _ _ => explained_ok (.refl c) fun _ => id

theorem Explains.bind {f : α → Parser β} (hp : p.Explains limit) (hf : ∀ a, (f a).Explains limit) :
    (p >>= f).Explains limit := by
  intro c x hc
  change (Parser.bind p f c x).1.Explained c x (Parser.bind p f c x).2
  have h := hp c x hc
  unfold Parser.bind
  split
  · rename_i next a y hEq
    rw [hEq] at h
    have hNext : next.rest.length ≤ limit := Nat.le_trans h.within.1.length_le hc
    exact h.behind (hf a next y hNext)
  · rename_i hEq
    rw [hEq] at h
    exact h.error

theorem Explains.map {f : α → β} (hp : p.Explains limit) : (f <$> p).Explains limit :=
  Explains.bind (f := fun a => pure (f a)) hp fun a => explains_pure (f a)

theorem Explains.orElse (hp : p.Explains limit) (hq : q.Explains limit) : (p <|> q).Explains limit := by
  intro c x hc
  change (Parser.orElse p (fun _ => q) c x).1.Explained c x (Parser.orElse p (fun _ => q) c x).2
  have h := hp c x hc
  unfold Parser.orElse
  split
  · rename_i hEq
    rwa [hEq] at h
  · rename_i first y hEq
    rw [hEq] at h
    have h' := hq c y hc
    have hKeeps : ∀ offset, x.Explains offset → (q c y).2.Explains offset :=
      fun offset hx => h'.keeps offset (h.keeps offset hx)
    have hFirst : (q c y).2.Explains first.offset := h'.keeps _ (h.explains first rfl)
    split
    · rename_i hEq'
      rw [show q c y = _ from hEq'] at h' hKeeps
      exact explained_ok h'.within.1 hKeeps
    · rename_i second z hEq'
      rw [show q c y = _ from hEq'] at h' hKeeps hFirst
      -- The choice fails with one of the two failures, and the second run keeps what explains the first.
      unfold Failure.furthest
      split
      · exact explained_error h'.within (h'.explains second rfl) hKeeps
      · exact explained_error h.within hFirst hKeeps

theorem Explains.optional (hp : p.Explains limit) : p.optional.Explains limit := by
  intro c x hc
  have h := hp c x hc
  unfold Parser.optional
  split
  · rename_i hEq
    rw [hEq] at h
    exact explained_ok h.within.1 h.keeps
  · rename_i hEq
    rw [hEq] at h
    exact explained_ok (.refl c) h.keeps

theorem Explains.collect (hp : p.Explains limit) (c : Cursor) (x : Context) (hc : c.rest.length ≤ limit) :
    c.Reaches (p.collect c x).1.1 ∧ ∀ offset, x.Explains offset → (p.collect c x).2.Explains offset := by
  have h := hp c x hc
  -- The round that ends the loop may have failed, and what it kept stays.
  fun_induction Parser.collect p c x with
  | case1 c x failure y hEq =>
    rw [hEq] at h
    exact ⟨.refl c, h.keeps⟩
  | case2 c x next a y hEq hNext last items z hRest ih =>
    rw [hEq] at h
    have hShorter : next.rest.length ≤ limit := Nat.le_trans (Nat.le_of_lt hNext) hc
    obtain ⟨hLast, hKeeps⟩ := ih hShorter (hp next y hShorter)
    rw [hRest] at hLast hKeeps
    exact ⟨h.within.1.trans hLast, fun offset hx => hKeeps offset (h.keeps offset hx)⟩
  | case3 c x next a y hEq hNext =>
    rw [hEq] at h
    exact ⟨.refl c, h.keeps⟩

theorem Explains.many (hp : p.Explains limit) : p.many.Explains limit := by
  intro c x hc
  obtain ⟨hReaches, hKeeps⟩ := hp.collect c x hc
  exact explained_ok hReaches hKeeps

theorem Explains.located (hp : p.Explains limit) : p.located.Explains limit := by
  intro c x hc
  have h := hp c x hc
  unfold Parser.located
  split
  · rename_i hEq
    rw [hEq] at h
    exact explained_ok h.within.1 h.keeps
  · rename_i hEq
    rw [hEq] at h
    exact h.error

theorem Explains.labeled (hp : p.Explains limit) (message : String) : (p.labeled message).Explains limit := by
  intro c x hc
  have h := hp c x hc
  unfold Parser.labeled
  split
  · rename_i hEq
    rwa [hEq] at h
  · rename_i failure y hEq
    rw [hEq] at h
    split
    · apply explained_error
      · exact h.within
      · exact Context.explains_relabel_iff.mpr (.inr (Nat.le_refl _))
      · exact fun offset hx => Context.explains_relabel_iff.mpr (.inl (h.keeps offset hx))
    · exact h

theorem explains_behind_literal {text : String} (hText : text.toList ≠ []) {f : String → Parser β}
    (hf : ∀ n < limit, ∀ a, (f a).Explains n) : ((literal text).parser >>= f).Explains limit := by
  intro c x hc
  change (Parser.bind _ f c x).1.Explained c x (Parser.bind _ f c x).2
  have h := explains_lexeme (literal_forward text) limit c x hc
  unfold Parser.bind
  split
  · rename_i next a y hEq
    rw [hEq] at h
    have hPasses := (literal_ok_iff.mp (lexeme_ok_iff.mp hEq).1).1
    have hLength := hPasses.length_eq
    have hSome := List.length_pos_iff.mpr hText
    have hShorter : next.rest.length < limit := by omega
    exact h.behind (hf _ hShorter a next y (Nat.le_refl _))
  · rename_i hEq
    rw [hEq] at h
    exact h.error

end Parser

/-! ## Composed parsers -/

/-- The readers of single words, numbers, strings and spacing. -/
inductive Lexeme.IsLeaf : {α : Type} → Lexeme α → Prop
  | literal (text : String) : IsLeaf (literal text)
  | identifier (lead body : Char → Bool) : IsLeaf (identifier lead body)
  | natural (radix : Radix) : IsLeaf (natural radix)
  | spacing : IsLeaf spacing
  | requiredSpacing : IsLeaf requiredSpacing
  | quotedString : IsLeaf quotedString
  | rawString : IsLeaf rawString
  | boolean : IsLeaf boolean
  | floatLiteral : IsLeaf floatLiteral
  | integerLiteral : IsLeaf integerLiteral

theorem Lexeme.IsLeaf.forward {α : Type} {l : Lexeme α} (h : l.IsLeaf) : l.Forward := by
  cases h with
  | literal text => exact literal_forward text
  | identifier lead body => exact identifier_forward lead body
  | natural radix => exact natural_forward radix
  | spacing => exact spacing_forward
  | requiredSpacing => exact requiredSpacing_forward
  | quotedString => exact quotedString_forward
  | rawString => exact rawString_forward
  | boolean => exact boolean_forward
  | floatLiteral => exact floatLiteral_forward
  | integerLiteral => exact integerLiteral_forward

namespace Parser

variable {α β : Type} {p q : Parser α}

/-- A value made from what the parsers share, which it may also change. -/
def reducer (reduce : Context → α × Context) : Parser α := fun cursor context =>
  (.ok (cursor, (reduce context).1), (reduce context).2)

/-- Parsers built from the leaves. What follows in a sequence may depend on the values in front of it, and a reducer
may change everything but the kept failure. -/
inductive Composed : {α : Type} → Parser α → Prop
  | leaf {α : Type} {l : Lexeme α} (h : l.IsLeaf) : Composed l.parser
  | reducer {α : Type} (reduce : Context → α × Context) (hKeeps : ∀ x, (reduce x).2.furthest = x.furthest) :
    Composed (reducer reduce)
  | sequence {α β : Type} {p : Parser α} {f : α → Parser β} (hp : Composed p) (hf : ∀ a, Composed (f a)) :
    Composed (p >>= f)
  | alternation {α : Type} {p q : Parser α} (hp : Composed p) (hq : Composed q) : Composed (p <|> q)
  | many {α : Type} {p : Parser α} (hp : Composed p) : Composed p.many
  | optional {α : Type} {p : Parser α} (hp : Composed p) : Composed p.optional
  | map {α β : Type} {p : Parser α} (f : α → β) (hp : Composed p) : Composed (f <$> p)
  | located {α : Type} {p : Parser α} (hp : Composed p) : Composed p.located
  | labeled {α : Type} {p : Parser α} (message : String) (hp : Composed p) : Composed (p.labeled message)

theorem explains_reducer {reduce : Context → α × Context} (hKeeps : ∀ x, (reduce x).2.furthest = x.furthest)
    (limit : Nat) : (reducer reduce).Explains limit := by
  intro c x _
  apply Outcome.explained_ok (.refl c)
  rintro offset ⟨best, hBest, hOffset⟩
  exact ⟨best, (hKeeps x).symm ▸ hBest, hOffset⟩

theorem Composed.explains (h : p.Composed) (limit : Nat) : p.Explains limit := by
  induction h with
  | leaf hLeaf => exact explains_lexeme hLeaf.forward limit
  | reducer reduce hKeeps => exact explains_reducer hKeeps limit
  | sequence _ _ hp hf => exact hp.bind hf
  | alternation _ _ hp hq => exact hp.orElse hq
  | many _ hp => exact hp.many
  | optional _ hp => exact hp.optional
  | map f _ hp => exact hp.map
  | located _ hp => exact hp.located
  | labeled message _ hp => exact hp.labeled message

theorem Composed.reporting (hp : p.Composed) (error : Diagnostic) : (p.reporting error).Composed := by
  have hEq : p.reporting error = p >>= fun a => Parser.reducer fun x => (a, x.report error) := by
    funext c x
    change _ = Parser.bind p _ c x
    unfold Parser.reporting Parser.bind
    rcases p c x with ⟨⟨failure⟩ | ⟨next, a⟩, y⟩
    · rfl
    · rfl
  rw [hEq]
  exact .sequence hp fun a => .reducer _ fun _ => rfl

end Parser

/-! ## Values, attributes and heads of commands -/

namespace Grammar

variable {α : Type} {item : Parser α} {limit : Nat}

theorem separated_explains (hItem : item.Explains limit) : (separated item).Explains limit := by
  have hSpacing := explains_lexeme spacing_forward limit
  have hComma := explains_lexeme (literal_forward ",") limit
  have hFollowing : (following item).Explains limit :=
    hSpacing.bind fun _ => hComma.bind fun _ => hSpacing.bind fun _ => hItem
  exact hItem.bind fun _ => hFollowing.many.bind fun _ => hSpacing.bind fun _ =>
    hComma.optional.bind fun _ => explains_pure _

theorem delimited_explains {opening : String} (hOpening : opening.toList ≠ []) (closing : String)
    (hItem : ∀ n < limit, item.Explains n) : (delimited opening item closing).Explains limit := by
  apply explains_behind_literal hOpening
  intro n hn _
  have hSpacing := explains_lexeme spacing_forward n
  exact hSpacing.bind fun _ => (separated_explains (hItem n hn)).optional.bind fun _ => hSpacing.bind fun _ =>
    (explains_lexeme (literal_forward closing) n).bind fun _ => explains_pure _

theorem valueWithin_explains (bound : Nat) : ∀ limit < bound, (valueWithin bound).Explains limit := by
  -- At the bound zero a value fails without an explanation, but no list is nested as deep as its text is long.
  induction bound with
  | zero => exact fun limit h => absurd h (Nat.not_lt_zero limit)
  | succ bound ih =>
    intro limit hLimit
    have hList : (delimited "[" (valueWithin bound) "]").Explains limit :=
      delimited_explains (by decide) "]" fun n hn => ih n (by omega)
    apply Explains.labeled
    apply (explains_lexeme quotedString_forward limit).map.orElse
    apply (explains_lexeme rawString_forward limit).map.orElse
    apply (explains_lexeme boolean_forward limit).map.orElse
    apply (explains_lexeme floatLiteral_forward limit).map.orElse
    apply (explains_lexeme integerLiteral_forward limit).map.orElse
    exact hList.map

theorem value_explains (limit : Nat) : value.Explains limit :=
  fun c x _ => valueWithin_explains (c.rest.length + 1) c.rest.length (Nat.lt_succ_self _) c x (Nat.le_refl _)

theorem declaredAttribute_explains (limit : Nat) : declaredAttribute.Explains limit := by
  have hKey := (explains_lexeme (identifier_forward isKeyStart isKeyChar) limit).labeled "expected attribute name"
  have hSpacing := explains_lexeme spacing_forward limit
  exact hKey.located.bind fun _ => hSpacing.bind fun _ =>
    (explains_lexeme (literal_forward "=") limit).bind fun _ => hSpacing.bind fun _ =>
      (value_explains limit).bind fun _ => explains_pure _

theorem commandHead_explains (limit : Nat) : commandHead.Explains limit := by
  have hName := (explains_lexeme (identifier_forward isNameChar isNameChar) limit).labeled "expected command name"
  have hKeyword := (explains_lexeme (identifier_forward isKeyStart isKeyChar) limit).labeled "expected command keyword"
  have hAttributes : attributes.Explains limit :=
    delimited_explains (by decide) ")" fun n _ => declaredAttribute_explains n
  exact hName.located.bind fun _ => (explains_lexeme requiredSpacing_forward limit).bind fun _ =>
    hKeyword.bind fun _ => (explains_lexeme spacing_forward limit).bind fun _ =>
      (hAttributes.labeled _).bind fun _ => explains_pure _

/-! ## Broken commands -/

variable {inBody : Bool} {c : Cursor} {x y : Context} {failure : Failure} {bound : Nat}

theorem reportBroken_explains (h : y.Explains failure.offset) :
    ∃ report, (reportBroken failure y).errors = y.errors ++ [.grammar report] ∧ failure.offset ≤ report.offset := by
  obtain ⟨best, hBest, hOffset⟩ := h
  have hBest : y.furthest = some best := hBest
  exact ⟨best, by rw [reportBroken, hBest]; rfl, hOffset⟩

/-- The round of a loop at a broken command reports it before everything else. -/
theorem commandsWithin_explains (hEnd : ¬ atEnd inBody c = true)
    (hBroken : command (scopeOf (commandsWithin bound true)) c x.forget = (.error failure, y)) :
    ∃ report later, (commandsWithin (bound + 1) inBody c x).2.errors = x.errors ++ .grammar report :: later ∧
      failure.offset ≤ report.offset := by
  have hHead := command_error hBroken
  have hExplained := commandHead_explains c.rest.length c x.forget (Nat.le_refl _)
  have hSilent : x.forget.errors = (commandHead c x.forget).2.errors := commandHead_silent c x.forget
  rw [hHead] at hExplained hSilent
  obtain ⟨report, hReport, hOffset⟩ := reportBroken_explains (hExplained.explains failure rfl)
  have hAfter := (afterFailure_grows inBody c (reportBroken failure y)).trans
    (commandsWithin_grows bound inBody (afterFailure inBody c (reportBroken failure y)).1 _)
  obtain ⟨later, hLater⟩ := hAfter
  refine ⟨report, later, ?_, hOffset⟩
  rw [commandsWithin_failure hEnd hBroken, ← hLater, hReport, ← hSilent, List.append_assoc]
  rfl

end Grammar

/-- Whatever is composed of the leaves ends at its start or behind it, keeps a failure at the place where it fails or
further on, and never goes back to one that lies nearer than the one kept before. So the report of a broken command
lies at the failure that broke it or further on. -/
theorem furthest_explains :
    (∀ {α : Type} {p : Parser α}, p.Composed → ∀ c x, (p c x).1.Explained c x (p c x).2) ∧
      ∀ inBody bound c x failure y, ¬ atEnd inBody c = true →
        command (scopeOf (commandsWithin bound true)) c x.forget = (.error failure, y) →
        ∃ report later, (commandsWithin (bound + 1) inBody c x).2.errors = x.errors ++ .grammar report :: later ∧
          failure.offset ≤ report.offset := by
  constructor
  · intro α p h c x
    exact h.explains c.rest.length c x (Nat.le_refl _)
  · intro inBody bound c x failure y hEnd hBroken
    exact commandsWithin_explains hEnd hBroken

def sparedPair : Parser String := do
  let _ ← Parser.optional (do
    let _ ← (literal "a").parser
    (literal "b").parser)
  (literal "c").parser

theorem sparedPair_composed : sparedPair.Composed :=
  .sequence (.optional (.sequence (.leaf (.literal "a")) fun _ => .leaf (.literal "b"))) fun _ => .leaf (.literal "c")

def signWithoutDigits : Cursor := .ofText "a b(c=+"

/-- The failure that the optional pair swallowed lies behind the one in front of it, and so does the failure at the
sign behind the one at the key, where the list of attributes should have been closed. -/
theorem furthest_explains_swallowed :
    (∃ y, sparedPair (Cursor.ofText "ax") .empty = (.error ⟨.start, .literal "c"⟩, y) ∧
      Outcome.Explained (α := String) (Cursor.ofText "ax") .empty (.error ⟨.start, .literal "c"⟩) y) ∧
    ∃ failure y, command (scopeOf (commandsWithin 7 true)) signWithoutDigits Context.empty.forget = (.error failure, y) ∧
      failure.offset = 4 ∧
      ∃ report later, (commandsWithin (7 + 1) false signWithoutDigits .empty).2.errors =
        Context.empty.errors ++ .grammar report :: later ∧ failure.offset ≤ report.offset := by
  constructor
  · exact ⟨_, rfl, furthest_explains.1 sparedPair_composed (Cursor.ofText "ax") .empty⟩
  · have hEnd : ¬ atEnd false signWithoutDigits = true := by decide
    have hOffset : (match (command (scopeOf (commandsWithin 7 true)) signWithoutDigits Context.empty.forget).1 with
        | .error failure => failure.offset
        | .ok _ => 0) = 4 := by decide +kernel
    rcases hBroken : command (scopeOf (commandsWithin 7 true)) signWithoutDigits Context.empty.forget with
      ⟨⟨failure⟩ | result, y⟩
    · rw [hBroken] at hOffset
      exact ⟨failure, y, rfl, hOffset, furthest_explains.2 false 7 signWithoutDigits .empty failure y hEnd hBroken⟩
    · rw [hBroken] at hOffset
      cases hOffset

end DialogTree
