import DialogTree.Parsing.Quoted
import DialogTree.Parsing.Recovery
import DialogTree.Parsing.Spacing
/-!
# The document grammar

    document   := spacing version commands
    version    := ("version" | "v") space natural spacing (";" spacing)?
    commands   := command (separator command)* separator?
    separator  := spacing ";" spacing | spacing with a line end
    command    := name space keyword spacing attributes (spacing body)?
    body       := an opening brace, commands, a closing brace
    attributes := "(" (attribute ("," attribute)* ","?)? ")"
    attribute  := key "=" value
    value      := string | raw string | truth value | float | integer | list
    list       := "[" (value ("," value)* ","?)? "]"

A broken command is reported at its furthest failure and skipped, so that one pass reports every broken
command. Nested lists and bodies recurse on a bound that every step lowers and every character outweighs.
-/

namespace DialogTree

namespace Grammar

/-! ## Values and attributes -/

/-- An item behind a comma. -/
def following {α : Type} (item : Parser α) : Parser α := do
  let _ ← spacing.parser
  let _ ← (literal ",").parser
  let _ ← spacing.parser
  item

/-- One or more items separated by commas, the last of which may stay. -/
def separated {α : Type} (item : Parser α) : Parser (List α) := do
  let first ← item
  let rest ← Parser.many (following item)
  let _ ← spacing.parser
  let _ ← Parser.optional (literal ",").parser
  return first :: rest

def delimited {α : Type} (opening : String) (item : Parser α) (closing : String) :
    Parser (List α) := do
  let _ ← (literal opening).parser
  let _ ← spacing.parser
  let items ← Parser.optional (separated item)
  let _ ← spacing.parser
  let _ ← (literal closing).parser
  return items.getD []

/-- A value with lists nested less deep than the bound. Floats are tried before integers, so that a point
is never left behind. -/
def valueWithin : Nat → Parser Value
  | 0 => fun cursor context => (.error ⟨cursor.position, .label "expected a value"⟩, context)
  | bound + 1 =>
    Parser.labeled
      ((Value.string <$> quotedString.parser) <|>
        (Value.string <$> rawString.parser) <|>
        (Value.bool <$> boolean.parser) <|>
        (Value.float <$> floatLiteral.parser) <|>
        (Value.integer <$> integerLiteral.parser) <|>
        (Value.list <$> delimited "[" (valueWithin bound) "]"))
      "expected a value"

/-- A value; its lists nest less deep than its text is long. -/
def value : Parser Value := fun cursor =>
  valueWithin (cursor.rest.length + 1) cursor

def declaredAttribute : Parser DeclaredAttribute := do
  let (position, key) ←
    ((identifier isKeyStart isKeyChar).parser.labeled "expected attribute name").located
  let _ ← spacing.parser
  let _ ← (literal "=").parser
  let _ ← spacing.parser
  let value ← value
  return ⟨key, value, some position⟩

def attributes : Parser (List DeclaredAttribute) :=
  delimited "(" declaredAttribute ")"

/-! ## Commands -/

def semicolon : Parser Unit := do
  let _ ← spacing.parser
  let _ ← (literal ";").parser
  let _ ← spacing.parser
  return ()

def separator : Parser Unit :=
  semicolon <|> lineBreak.parser

/-- Commands up to the end of a scope, with the cursor in front of that end. -/
abbrev Scope : Type := Cursor → Context → (Cursor × List Declaration) × Context

/-- A body. From its opening brace on it does not fail: what is wrong inside is reported, and the commands
that were read are kept. -/
def body (scope : Scope) : Parser (List Declaration) := fun cursor context =>
  match (literal "\x7b").parser cursor context with
  | (.error failure, context) => (.error failure, context)
  | (.ok (inner, _), context) =>
    let ((last, commands), context) := scope inner context
    if last.peek? = some '\x7d' then (.ok (last.skip 1, commands), context)
    else (.ok (last, commands), context.report (.grammar ⟨cursor.position, .unclosedBody⟩))

def spacedBody (scope : Scope) : Parser (List Declaration) := do
  let _ ← spacing.parser
  body scope

/-- A command up to its attributes. -/
def commandHead : Parser Declaration := do
  let (position, name) ←
    ((identifier isNameChar isNameChar).parser.labeled "expected command name").located
  let _ ← requiredSpacing.parser
  let keyword ← (identifier isKeyStart isKeyChar).parser.labeled "expected command keyword"
  let _ ← spacing.parser
  let attributes ← attributes.labeled "expected attribute list '('"
  return ⟨name, keyword, some position, attributes, none⟩

/-- One command whose body, if any, is read as the given scope. -/
def command (scope : Scope) : Parser Declaration := do
  let head ← commandHead
  let body ← Parser.optional (spacedBody scope)
  return { head with body }

/-- Whether a scope ends at the cursor: a body at its brace, the document at the end of the text. -/
def atEnd (inBody : Bool) (cursor : Cursor) : Bool :=
  cursor.isEmpty || (inBody && cursor.peek? == some '\x7d')

/-- The cursor in front of the next command, behind one that was read. -/
def afterCommand (inBody : Bool) (cursor : Cursor) (context : Context) : Cursor × Context :=
  match separator cursor context with
  | (.ok (next, _), context) => (next, context)
  | (.error failure, context) =>
    let next := cursor.skipSpacing
    (next, if atEnd inBody next then context else context.report (.grammar failure))

/-- A broken command is reported at its furthest failure. -/
def reportBroken (failure : Failure) (context : Context) : Context :=
  { context with furthest := none }.report (.grammar (context.furthest.getD failure))

/-- The cursor in front of the next command, behind one that is broken. -/
def afterFailure (inBody : Bool) (cursor : Cursor) (context : Context) : Cursor × Context :=
  let skipped := cursor.recover inBody
  match separator skipped context with
  | (.ok (next, _), context) => (next, context)
  | (.error _, context) => (skipped.skipSpacing, context)

/-- A scope read by a loop over its commands; a scope without a command and without a report is itself
reported. -/
def scopeOf (loop : Scope) : Scope := fun cursor context =>
  let before := context.errors.length
  let ((last, commands), context) := loop cursor.skipSpacing context
  if commands.isEmpty && context.errors.length == before then
    ((last, commands), context.report (.grammar ⟨last.position, .noCommand⟩))
  else ((last, commands), context)

def commandsWithin : Nat → Bool → Scope
  | 0, _, cursor, context => ((cursor, []), context)
  | bound + 1, inBody, cursor, context =>
    if atEnd inBody cursor then ((cursor, []), context)
    else
      match command (scopeOf (commandsWithin bound true)) cursor context.forget with
      | (.ok (next, declaration), context) =>
        let (next, context) := afterCommand inBody next context
        let ((last, rest), context) := commandsWithin bound inBody next context
        ((last, declaration :: rest), context)
      | (.error failure, context) =>
        let (next, context) := afterFailure inBody cursor (reportBroken failure context)
        commandsWithin bound inBody next context

/-- A scope; its commands and their bodies are fewer than its characters. -/
def scope (inBody : Bool) : Scope := fun cursor context =>
  scopeOf (commandsWithin (cursor.rest.length + 1) inBody) cursor context

/-! ## Documents -/

def version : Parser (Position × Nat) := do
  let _ ← (literal "version").parser <|> (literal "v").parser
  let _ ← requiredSpacing.parser
  let version ← (natural .ten).parser.located
  let _ ← spacing.parser
  let _ ← Parser.optional (literal ";").parser
  let _ ← spacing.parser
  return version

/-- The cursor behind the version header, which must name the supported version. -/
def header (cursor : Cursor) (context : Context) : Cursor × Context :=
  match version cursor context with
  | (.ok (next, position, found), context) =>
    (next, if found = supportedVersion then context
      else context.report (.unsupportedVersion found (some position)))
  | (.error _, context) =>
    (cursor, context.report (.grammar ⟨cursor.position, .versionHeader⟩))

/-- The declarations of a document, with everything that is wrong with its text. -/
def document (source : String) : List Declaration × List Diagnostic :=
  let (cursor, context) := header (Cursor.ofText source).skipSpacing .empty
  let ((_, declarations), context) := scope false cursor context
  (declarations, context.errors)

end Grammar

end DialogTree
