import DialogTree.Pattern.Class
import DialogTree.Rule.Basic
/-!
# Reading patterns

A pattern is a choice of sequences of repeated items. Groups may name themselves and change settings for
what they hold. Look-around and references back to groups are not part of the notation.
-/

namespace DialogTree

namespace Pattern

def Flags.set? (flags : Flags) (on : Bool) : Char → Option Flags
  | 'i' => some { flags with ignoreCase := on }
  | 'm' => some { flags with multiLine := on }
  | 's' => some { flags with dotAll := on }
  | 'x' => some { flags with spaced := on }
  | 'u' => some { flags with unicode := on }
  | 'U' => some flags
  | 'R' => some flags
  | _ => none

/-- The settings up to a colon or a closing parenthesis. Each letter occurs once and the minus sign stands
in front of a letter. The result tells whether the settings are for the rest of the enclosing group. -/
def readFlags (flags : Flags) (seen : List Char) (on : Bool) :
    List Char → Option (Flags × Bool × List Char)
  | [] => none
  | ':' :: rest => if seen.head? = some '-' then none else some (flags, false, rest)
  | ')' :: rest =>
    if seen.isEmpty || seen.head? = some '-' then none else some (flags, true, rest)
  | c :: rest =>
    if seen.contains c then none
    else if c = '-' then readFlags flags ('-' :: seen) false rest
    else match flags.set? on c with
      | some next => readFlags next (c :: seen) on rest
      | none => none

def isGroupChar (isFirst : Bool) (c : Char) : Bool :=
  c == '_' || c.isAlpha || (0x80 ≤ c.toNat && inRanges wordRanges c) ||
    (!isFirst && (c.isDigit || c == '.' || c == '[' || c == ']'))

def readGroupName (text : List Char) : Option (String × List Char) :=
  let name := text.takeWhile (· != '>')
  match text.drop name.length, name with
  | _ :: rest, first :: others =>
    if isGroupChar true first && others.all (isGroupChar false) then
      some (String.ofList name, rest)
    else none
  | _, _ => none

inductive GroupStart where
  | group (name : Option String) (flags : Flags)
  | settings (flags : Flags)

def readGroupStart (flags : Flags) (text : List Char) : Option (GroupStart × List Char) :=
  let named (rest : List Char) := (readGroupName rest).map fun (name, rest) =>
    (GroupStart.group (some name) flags, rest)
  match skipBlank flags text with
  | '?' :: '=' :: _ => none
  | '?' :: '!' :: _ => none
  | '?' :: '<' :: '=' :: _ => none
  | '?' :: '<' :: '!' :: _ => none
  | '?' :: 'P' :: '<' :: rest => named rest
  | '?' :: '<' :: rest => named rest
  | '?' :: rest =>
    (readFlags flags [] true rest).map fun (flags, forRest, rest) =>
      (if forRest then .settings flags else .group none flags, rest)
  | rest => some (.group none flags, rest)

/-- A decimal number with blanks around it, at most 32 bits wide. -/
def readCount (text : List Char) : Option Nat × List Char :=
  let text := text.dropWhile isBlank
  let digits := text.takeWhile Char.isDigit
  let rest := (text.drop digits.length).dropWhile isBlank
  let value := valueIn 10 digits
  (if digits.isEmpty || 2 ^ 32 ≤ value then none else some value, rest)

def readBounds (text : List Char) : Option ((Nat × Option Nat) × List Char) :=
  match readCount text with
  | (none, _) => none
  | (some least, '\x7d' :: rest) => some ((least, some least), rest)
  | (some least, ',' :: '\x7d' :: rest) => some ((least, none), rest)
  | (some least, ',' :: rest) =>
    match readCount rest with
    | (some most, '\x7d' :: rest) =>
      if least ≤ most then some ((least, some most), rest) else none
    | _ => none
  | _ => none

/-- The text behind the mark that makes a repetition prefer few matches. -/
def skipLazyMark (flags : Flags) (text : List Char) : List Char :=
  match skipBlank flags text with
  | '?' :: rest => rest
  | _ => text

/-- The items of a sequence, the last one first; a change of settings is no item to repeat. -/
abbrev Items : Type := List (Option Pattern)

def Items.pattern (items : Items) : Pattern :=
  items.foldl (fun pattern item? =>
    match item? with
    | some item => .sequence item pattern
    | none => pattern) .empty

def Items.repeatLast? (items : Items) (least : Nat) (most : Option Nat) : Option Items :=
  match items with
  | some item :: rest => some (some (.repeated item least most) :: rest)
  | _ => none

/-- Whether a pattern could match a part of a character without the Unicode setting. -/
def Flags.lineChar? (flags : Flags) : Option CharSet :=
  if !flags.unicode then none
  else if flags.dotAll then some .any
  else some (.complement (.one '\n'))

/-- The alternatives behind those already read, up to the end of the group or of the text. The names of
groups are collected, since no two groups share one. -/
def readChoice : Nat → Bool → Flags → List String → Option Pattern → Items → List Char →
    Option (Pattern × List String × List Char)
  | 0, _, _, _, _, _, _ => none
  | bound + 1, inGroup, flags, names, others?, items, text =>
    let current : Pattern := match others? with
      | none => items.pattern
      | some others => .choice others items.pattern
    let item (pattern : Pattern) (rest : List Char) :=
      readChoice bound inGroup flags names others? (some pattern :: items) rest
    let repetition (least : Nat) (most : Option Nat) (rest : List Char) :=
      (items.repeatLast? least most).bind fun items =>
        readChoice bound inGroup flags names others? items (skipLazyMark flags rest)
    match skipBlank flags text with
    | [] => if inGroup then none else some (current, names, [])
    | ')' :: rest => if inGroup then some (current, names, rest) else none
    | '|' :: rest => readChoice bound inGroup flags names (some current) [] rest
    | '(' :: rest =>
      match readGroupStart flags rest with
      | none => none
      | some (.settings flags, rest) =>
        readChoice bound inGroup flags names others? (none :: items) rest
      | some (.group name? inner, rest) =>
        if name?.any names.contains then none
        else
          (readChoice bound true inner (name?.toList ++ names) none [] rest).bind
            fun (pattern, names, rest) =>
              readChoice bound inGroup flags names others? (some pattern :: items) rest
    | '*' :: rest => repetition 0 none rest
    | '+' :: rest => repetition 1 none rest
    | '?' :: rest => repetition 0 (some 1) rest
    | '\x7b' :: rest =>
      (readBounds rest).bind fun ((least, most), rest) => repetition least most rest
    | '[' :: rest =>
      (readSet flags rest).bind fun (set, rest) => item (.one set) rest
    | '.' :: rest => flags.lineChar?.bind fun set => item (.one set) rest
    | '^' :: rest => item (.assert (if flags.multiLine then .lineStart else .textStart)) rest
    | '$' :: rest => item (.assert (if flags.multiLine then .lineEnd else .textEnd)) rest
    | '\\' :: rest =>
      (readEscape flags rest).bind fun (escape, rest) =>
        match escape with
        | .char c => item (.one (flags.adapt (.one c))) rest
        | .chars set => item (.one (flags.adapt set)) rest
        | .assertion assertion => item (.assert assertion) rest
    | c :: rest => item (.one (flags.adapt (.one c))) rest

def ofText? (text : String) : Option Pattern :=
  let chars := text.toList
  (readChoice (chars.length + 1) false .initial [] none [] chars).map Prod.fst

def isValid (text : String) : Bool := (ofText? text).isSome

def finds (pattern text : String) : Bool :=
  match ofText? pattern with
  | some pattern => pattern.occursIn text
  | none => false

/-- The engine that the program runs with when no other one is at hand. Properties of characters are known to it
by a few names only, and it sets no limit to the size of a pattern. -/
@[reducible] def engine : PatternEngine := ⟨isValid, finds⟩

end Pattern

end DialogTree
