import DialogTree.Diagnostic
import DialogTree.Parsing.Cursor
/-!
# Parsers

A parser moves a cursor forward and gives a value, or fails. Beside that it reports diagnostics and keeps
the failure that lies furthest on, also when an alternative later succeeds: that failure is the best
explanation when a whole rule fails.
-/

namespace DialogTree

structure Context where
  errors : List Diagnostic
  /-- The furthest failure since it was last forgotten. -/
  furthest : Option Failure

namespace Context

def empty : Context := ⟨[], none⟩

/-- A failure is kept when it lies further on than the one kept so far. -/
def note (context : Context) (failure : Failure) : Context :=
  match context.furthest with
  | none => { context with furthest := some failure }
  | some best =>
    if best.offset < failure.offset then { context with furthest := some failure } else context

/-- A new wording of a failure also takes the place of one that lies as far. -/
def relabel (context : Context) (failure : Failure) : Context :=
  match context.furthest with
  | none => { context with furthest := some failure }
  | some best =>
    if best.offset ≤ failure.offset then { context with furthest := some failure } else context

def report (context : Context) (error : Diagnostic) : Context :=
  { context with errors := context.errors ++ [error] }

def forget (context : Context) : Context :=
  { context with furthest := none }

end Context

abbrev Outcome (α : Type) : Type := Except Failure (Cursor × α)

/-- A parser of one piece of text. It fails at most once and reports nothing. -/
def Lexeme (α : Type) : Type := Cursor → Outcome α

def Parser (α : Type) : Type := Cursor → Context → Outcome α × Context

def Lexeme.parser {α : Type} (lexeme : Lexeme α) : Parser α := fun cursor context =>
  match lexeme cursor with
  | .ok result => (.ok result, context)
  | .error failure => (.error failure, context.note failure)

namespace Parser

variable {α β : Type}

protected def pure (a : α) : Parser α := fun cursor context => (.ok (cursor, a), context)

protected def bind (p : Parser α) (f : α → Parser β) : Parser β := fun cursor context =>
  match p cursor context with
  | (.ok (next, a), context) => f a next context
  | (.error failure, context) => (.error failure, context)

instance : Monad Parser where
  pure := Parser.pure
  bind := Parser.bind

/-- Ordered choice. When both fail, the failure is the one that lies further on. -/
protected def orElse (p : Parser α) (q : Unit → Parser α) : Parser α := fun cursor context =>
  match p cursor context with
  | (.ok result, context) => (.ok result, context)
  | (.error first, context) =>
    match q () cursor context with
    | (.ok result, context) => (.ok result, context)
    | (.error second, context) => (.error (first.furthest second), context)

instance : OrElse (Parser α) := ⟨Parser.orElse⟩

/-- No value, and no step forward, where the parser fails. -/
def optional (p : Parser α) : Parser (Option α) := fun cursor context =>
  match p cursor context with
  | (.ok (next, a), context) => (.ok (next, some a), context)
  | (.error _, context) => (.ok (cursor, none), context)

/-- The values of a parser until it fails or stands still. -/
def collect (p : Parser α) (cursor : Cursor) (context : Context) :
    (Cursor × List α) × Context :=
  match p cursor context with
  | (.error _, context) => ((cursor, []), context)
  | (.ok (next, a), context) =>
    if next.rest.length < cursor.rest.length then
      let ((last, items), context) := collect p next context
      ((last, a :: items), context)
    else ((cursor, []), context)
termination_by cursor.rest.length

/-- Repetition as often as possible; it never fails. -/
def many (p : Parser α) : Parser (List α) := fun cursor context =>
  let (result, context) := p.collect cursor context
  (.ok result, context)

def located (p : Parser α) : Parser (Position × α) := fun cursor context =>
  match p cursor context with
  | (.ok (next, a), context) => (.ok (next, cursor.position, a), context)
  | (.error failure, context) => (.error failure, context)

/-- A wording for failures that did not get past the start. -/
def labeled (p : Parser α) (message : String) : Parser α := fun cursor context =>
  match p cursor context with
  | (.ok result, context) => (.ok result, context)
  | (.error failure, context) =>
    if failure.offset = cursor.offset then
      let named : Failure := ⟨failure.position, .label message⟩
      (.error named, context.relabel named)
    else (.error failure, context)

def reporting (p : Parser α) (error : Diagnostic) : Parser α := fun cursor context =>
  match p cursor context with
  | (.ok result, context) => (.ok result, context.report error)
  | (.error failure, context) => (.error failure, context)

end Parser

end DialogTree
