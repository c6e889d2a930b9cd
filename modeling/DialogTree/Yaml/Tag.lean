import DialogTree.Yaml.Scalar
/-!
# Tags

A tag is written in full between angle brackets, or as a handle and a suffix. Handles stand for the leads
that directives give them.
-/

namespace DialogTree

namespace Yaml

/-- A tag as it is written. A tag in full has the empty handle. -/
structure WrittenTag where
  handle : String
  suffix : String
deriving DecidableEq, Repr

/-- Characters of a suffix. Between angle brackets, commas and square brackets are among them. -/
def isTagChar (inFull : Bool) (c : Char) : Bool :=
  isNameChar c || ";/?:@&=+$.%!~*'()".contains c || (inFull && (c = ',' || c = '[' || c = ']'))

def tagOctet? : List Char → Option Nat
  | '%' :: high :: low :: _ => hexValue? [high, low]
  | _ => none

def sequenceLength? (octet : Nat) : Option Nat :=
  if octet < 0x80 then some 1
  else if 0xC0 ≤ octet ∧ octet < 0xE0 then some 2
  else if 0xE0 ≤ octet ∧ octet < 0xF0 then some 3
  else if 0xF0 ≤ octet ∧ octet < 0xF8 then some 4
  else none

/-- Whether the escapes at the beginning of a text are that many further octets of a sequence. -/
def continues : Nat → List Char → Bool
  | 0, _ => true
  | n + 1, text =>
    (tagOctet? text).any (fun octet => 0x80 ≤ octet && octet < 0xC0) && continues n (text.drop 3)

/-- The characters of a tag from a source on; escapes are kept octet by octet. -/
def scanTagChars (inFull : Bool) : Nat → List Char → Source → Option (List Char × Source)
  | 0, _, _ => none
  | fuel + 1, text, source =>
    match source.rest with
    | [] => some (text, source)
    | c :: _ =>
      if !isTagChar inFull c then some (text, source)
      else if c = '%' then do
        let octet ← tagOctet? source.rest
        let count ← sequenceLength? octet
        if continues (count - 1) (source.rest.drop 3) then
          let octets := (List.range count).filterMap fun i => tagOctet? (source.rest.drop (3 * i))
          scanTagChars inFull fuel (text ++ octets.map Char.ofNat) (source.skipMany (3 * count))
        else none
      else scanTagChars inFull fuel (text ++ [c]) source.skip

def Source.tagChars (source : Source) (inFull : Bool) : Option (List Char × Source) :=
  scanTagChars inFull (source.rest.length + 1) [] source

/-- What looks like a handle: an exclamation mark, a name, and perhaps one more mark. -/
def Source.tagHandle? (source : Source) : Option (List Char × Source) :=
  match source.rest with
  | '!' :: rest =>
    let name := rest.takeWhile isNameChar
    let next := source.skipMany (1 + name.length)
    if next.rest.head? == some '!' then some ('!' :: name ++ ['!'], next.skip)
    else some ('!' :: name, next)
  | _ => none

/-- Whether a text is a handle with two marks. -/
def isNamedHandle : List Char → Bool
  | '!' :: rest => rest.getLast? == some '!'
  | _ => false

def Source.writtenTag? (source : Source) : Option (WrittenTag × Source) := do
  match source.rest with
  | '!' :: '<' :: _ =>
    let (suffix, next) ← (source.skipMany 2).tagChars true
    if suffix.isEmpty || next.rest.head? != some '>' then none
    else some (⟨"", String.ofList suffix⟩, next.skip)
  | _ =>
    let (handle, next) ← source.tagHandle?
    let (suffix, next) ← next.tagChars false
    if isNamedHandle handle then
      if suffix.isEmpty then none
      else some (⟨String.ofList handle, String.ofList suffix⟩, next)
    else if handle.length = 1 && suffix.isEmpty then some (⟨"", "!"⟩, next)
    else some (⟨"!", String.ofList (handle.drop 1 ++ suffix)⟩, next)

/-- A tag up to the gap behind it; inside brackets a comma may follow as well. -/
def Source.tag? (source : Source) (inFlow : Bool) : Option (WrittenTag × Source) := do
  let (tag, next) ← source.writtenTag?
  if atGap next.rest || (inFlow && next.rest.head? == some ',') then some (tag, next) else none

end Yaml

end DialogTree
