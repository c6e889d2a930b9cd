import DialogTree.Document
import DialogTree.Proofs.Outcomes

/-!
# Reports accumulate

Reports are never taken back: where there is none in the end there was none on the way. Up to its attributes
a command reports nothing by itself.
-/

namespace DialogTree

open DialogTree.Parser

variable {c d : Cursor} {x y z : Context}

open Grammar

/-! ## Parsers that report nothing -/

theorem keeps_delimited {α : Type} {p : Parser α} {S : List Diagnostic → List Diagnostic → Prop} [ReportOrder S]
    (opening closing : String) (hp : p.Keeps S) : (delimited opening p closing).Keeps S := by
  have hFollowing : (following p).Keeps S :=
    (keeps_lexeme _).bind fun _ => (keeps_lexeme _).bind fun _ => (keeps_lexeme _).bind fun _ => hp
  have hSeparated : (separated p).Keeps S :=
    hp.bind fun _ => hFollowing.many.bind fun _ => (keeps_lexeme _).bind fun _ =>
      (keeps_lexeme _).optional.bind fun _ => keeps_pure _
  exact (keeps_lexeme _).bind fun _ => (keeps_lexeme _).bind fun _ => hSeparated.optional.bind fun _ =>
    (keeps_lexeme _).bind fun _ => (keeps_lexeme _).bind fun _ => keeps_pure _

theorem valueWithin_silent (n : Nat) : (valueWithin n).Silent := by
  induction n with
  | zero =>
    intro c x
    rfl
  | succ n ih =>
    have hList := keeps_delimited "[" "]" ih
    exact ((keeps_lexeme _).map.orElse ((keeps_lexeme _).map.orElse ((keeps_lexeme _).map.orElse
      ((keeps_lexeme _).map.orElse ((keeps_lexeme _).map.orElse hList.map))))).labeled _

theorem value_silent : value.Silent := fun c => valueWithin_silent (c.rest.length + 1) c

theorem declaredAttribute_silent : declaredAttribute.Silent :=
  ((keeps_lexeme _).labeled _).located.bind fun _ => (keeps_lexeme _).bind fun _ =>
    (keeps_lexeme _).bind fun _ => (keeps_lexeme _).bind fun _ => value_silent.bind fun _ => keeps_pure _

theorem attributes_silent : attributes.Silent := keeps_delimited "(" ")" declaredAttribute_silent

/-! ## Scopes -/

def Grammar.Scope.Grows (scope : Scope) : Prop :=
  ∀ c x, x.errors <+: (scope c x).2.errors

variable {scope : Scope}

theorem report_grows (x : Context) (error : Diagnostic) : x.errors <+: (x.report error).errors :=
  List.prefix_append x.errors [error]

theorem report_not_silent (h : x.errors <+: y.errors) (error : Diagnostic) :
    (y.report error).errors ≠ x.errors := by
  intro hSame
  have hLength := h.length_le
  rw [← hSame, Context.errors_report, List.length_append, List.length_singleton] at hLength
  omega

theorem body_grows (hScope : scope.Grows) : (body scope).Grows := by
  intro c x
  unfold body
  have hLiteral := keeps_lexeme (S := List.IsPrefix) (literal "\x7b") c x
  split
  · rename_i hEq
    rwa [hEq] at hLiteral
  · rename_i inner _ y hEq
    rw [hEq] at hLiteral
    have hInner := hLiteral.trans (hScope inner y)
    simp only
    split
    · exact hInner
    · exact hInner.trans (report_grows _ _)

theorem commandHead_silent : commandHead.Silent :=
  ((keeps_lexeme _).labeled _).located.bind fun _ => (keeps_lexeme _).bind fun _ =>
    ((keeps_lexeme _).labeled _).bind fun _ => (keeps_lexeme _).bind fun _ =>
      (attributes_silent.labeled _).bind fun _ => keeps_pure _

theorem command_grows (hScope : scope.Grows) : (command scope).Grows :=
  commandHead_silent.grows.bind fun _ =>
    ((keeps_lexeme _).bind fun _ => body_grows hScope).optional.bind fun _ => keeps_pure _

theorem scopeOf_grows (hScope : scope.Grows) : (scopeOf scope).Grows := by
  intro c x
  have hLoop := hScope c.skipSpacing x
  unfold scopeOf
  simp only
  split
  · exact hLoop.trans (report_grows _ _)
  · exact hLoop

theorem separator_silent : separator.Silent :=
  ((keeps_lexeme _).bind fun _ => (keeps_lexeme _).bind fun _ => (keeps_lexeme _).bind fun _ =>
    keeps_pure _).orElse (keeps_lexeme _)

theorem afterCommand_grows (inBody : Bool) (c : Cursor) (x : Context) :
    x.errors <+: (afterCommand inBody c x).2.errors := by
  have hSeparator := separator_silent.grows c x
  unfold afterCommand
  split
  · rename_i hEq
    rwa [hEq] at hSeparator
  · rename_i hEq
    rw [hEq] at hSeparator
    simp only
    split
    · exact hSeparator
    · exact hSeparator.trans (report_grows _ _)

theorem afterFailure_grows (inBody : Bool) (c : Cursor) (x : Context) :
    x.errors <+: (afterFailure inBody c x).2.errors := by
  have hSeparator := separator_silent.grows (c.recover inBody) x
  unfold afterFailure
  simp only
  split
  · rename_i hEq
    rwa [hEq] at hSeparator
  · rename_i hEq
    rwa [hEq] at hSeparator

/-! ## One command of a scope -/

namespace Grammar

variable {n : Nat} {inBody : Bool}

theorem scopeOf_eq (loop : Scope) (c : Cursor) (x : Context) :
    scopeOf loop c x =
      if ((loop c.skipSpacing x).1.2.isEmpty &&
          (loop c.skipSpacing x).2.errors.length == x.errors.length) = true then
        ((loop c.skipSpacing x).1, (loop c.skipSpacing x).2.report
          (.grammar ⟨(loop c.skipSpacing x).1.1.position, .noCommand⟩))
      else loop c.skipSpacing x := rfl

theorem commandsWithin_atEnd (h : atEnd inBody c = true) (n : Nat) (x : Context) :
    commandsWithin n inBody c x = ((c, []), x) := by
  cases n with
  | zero => rfl
  | succ n =>
    unfold commandsWithin
    rw [if_pos h]

theorem commandsWithin_command {declaration : Declaration} (hEnd : ¬ atEnd inBody c = true)
    (hRead : command (scopeOf (commandsWithin n true)) c x.forget = (.ok (d, declaration), y)) :
    commandsWithin (n + 1) inBody c x =
      let rest := commandsWithin n inBody (afterCommand inBody d y).1 (afterCommand inBody d y).2
      ((rest.1.1, declaration :: rest.1.2), rest.2) := by
  rw [commandsWithin, if_neg hEnd, hRead]

theorem commandsWithin_failure {failure : Failure} (hEnd : ¬ atEnd inBody c = true)
    (hRead : command (scopeOf (commandsWithin n true)) c x.forget = (.error failure, y)) :
    commandsWithin (n + 1) inBody c x =
      let next := afterFailure inBody c (reportBroken failure y)
      commandsWithin n inBody next.1 next.2 := by
  rw [commandsWithin, if_neg hEnd, hRead]

end Grammar

theorem commandsWithin_grows (n : Nat) (inBody : Bool) : (commandsWithin n inBody).Grows := by
  induction n generalizing inBody with
  | zero =>
    intro c x
    exact List.prefix_refl _
  | succ n ih =>
    intro c x
    have hCommand := command_grows (scopeOf_grows (ih true)) c x.forget
    unfold commandsWithin
    split
    · exact List.prefix_refl _
    · split
      · rename_i next declaration y hEq
        rw [hEq] at hCommand
        have hNext := afterCommand_grows inBody next y
        exact (hCommand.trans hNext).trans (ih inBody _ _)
      · rename_i failure y hEq
        rw [hEq] at hCommand
        have hReport : y.errors <+: (reportBroken failure y).errors :=
          report_grows { y with furthest := none } (.grammar (y.furthest.getD failure))
        have hNext := hReport.trans (afterFailure_grows inBody c _)
        exact (hCommand.trans hNext).trans (ih inBody _ _)

/-! ## Documents -/

theorem document_eq (source : String) :
    document source =
      let start := header (Cursor.ofText source).skipSpacing .empty
      ((Grammar.scope false start.1 start.2).1.2, (Grammar.scope false start.1 start.2).2.errors) := by
  rw [document]

theorem readText_ofList (text : List Char) (document : String) :
    readText (String.ofList text) document =
      let start := header (Cursor.skipSpacing ⟨text, .start⟩) .empty
      finishDocument document (Grammar.scope false start.1 start.2).1.2
        (Grammar.scope false start.1 start.2).2.errors := by
  rw [readText_eq, document_eq, Cursor.ofText, String.toList_ofList]

end DialogTree
