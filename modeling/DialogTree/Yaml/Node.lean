import DialogTree.Yaml.Token
/-!
# Nodes

A document is one node: a scalar, a sequence, or a mapping in written order. An alias is the node of its
anchor. A text with no document, or with more than one, is refused.
-/

namespace DialogTree

namespace Yaml

inductive Node where
  | scalar (tag : Option String) (style : ScalarStyle) (text : String)
  | sequence (tag : Option String) (items : List Node)
  | mapping (tag : Option String) (entries : List (Node × Node))
  /-- An alias inside the node that its anchor names. -/
  | cycle

namespace Node

/-- What stands where nothing is written. -/
def nothing : Node := scalar none .plain ""

instance : Inhabited Node := ⟨nothing⟩

mutual

def depth : Node → Nat
  | scalar .. => 0
  | sequence _ items => 1 + depthOfItems items
  | mapping _ entries => 1 + depthOfEntries entries
  | cycle => 0

def depthOfItems : List Node → Nat
  | [] => 0
  | item :: rest => max item.depth (depthOfItems rest)

def depthOfEntries : List (Node × Node) → Nat
  | [] => 0
  | (key, value) :: rest => max (max key.depth value.depth) (depthOfEntries rest)

end

end Node

/-! ## Composing -/

/-- The tokens ahead and the anchors behind. An anchor has no node while its node is still read. -/
structure Composer where
  tokens : List Token
  anchors : Array (String × Option Node)
  /-- The leads that handles stand for. -/
  handles : List (String × String)

abbrev Composing := StateT Composer Option

namespace Composing

def peek? : Composing (Option Token) := do return (← get).tokens.head?

def drop (count : Nat) : Composing Unit :=
  modify fun c => { c with tokens := c.tokens.drop count }

def fail {α : Type} : Composing α := fun _ => none

/-- One token that must come next. -/
def expect (token : Token) : Composing Unit := do
  if (← peek?) == some token then drop 1 else fail

/-- The node that an alias stands for. The last anchor of a name counts. -/
def resolveAlias (name : String) : Composing Node := do
  match (← get).anchors.toList.reverse.find? fun anchor => anchor.1 == name with
  | none => fail
  | some (_, none) => return .cycle
  | some (_, some node) => return node

/-- A tag with its handle replaced. -/
def resolveTag (tag : WrittenTag) : Composing String := do
  if tag.handle = "" then return tag.suffix
  else
    match (← get).handles.find? fun entry => entry.1 == tag.handle with
    | none => fail
    | some (_, lead) => return lead ++ tag.suffix

/-- The tag of a scalar with a text of its own. A single mark says nothing about it. -/
def scalarTag (tag : Option String) : Option String :=
  tag.filter (· != "!")

/-- What may stand in front of a node. -/
structure Properties where
  anchor : Option String
  tag : Option WrittenTag

def properties : Composing Properties := do
  match (← get).tokens with
  | .anchor name :: .tag tag :: _ => drop 2; return ⟨some name, some tag⟩
  | .tag tag :: .anchor name :: _ => drop 2; return ⟨some name, some tag⟩
  | .anchor name :: _ => drop 1; return ⟨some name, none⟩
  | .tag tag :: _ => drop 1; return ⟨none, some tag⟩
  | _ => return ⟨none, none⟩

/-- A node under an anchor, when it has one. -/
def anchored (name : Option String) (read : Composing Node) : Composing Node := do
  match name with
  | none => read
  | some name =>
    let place := (← get).anchors.size
    modify fun c => { c with anchors := c.anchors.push (name, none) }
    let node ← read
    modify fun c => { c with anchors := c.anchors.setIfInBounds place (name, some node) }
    return node

inductive Place where
  /-- A document or an entry of a block sequence. -/
  | block
  /-- The key or value of a block mapping, where a sequence needs no indentation. -/
  | pair
  /-- Inside brackets. -/
  | flow
deriving DecidableEq

/-- A node, or nothing in front of one of the given tokens. -/
def orNothing (stops : List Token) (read : Composing Node) : Composing Node := do
  match ← peek? with
  | some token => if stops.contains token then return .nothing else read
  | none => read

mutual

def node : Nat → Place → Composing Node
  | 0, _ => fail
  | fuel + 1, place => do
    match ← peek? with
    | some (.alias name) =>
      drop 1
      resolveAlias name
    | _ =>
      let ⟨anchor, written⟩ ← properties
      let tag ← written.mapM resolveTag
      anchored anchor do
        match ← peek?, place with
        | some .entry, .pair => return .sequence tag (← indentlessItems fuel)
        | some (.scalar style text), _ => drop 1; return .scalar (scalarTag tag) style text
        | some .openSequence, _ => drop 1; return .sequence tag (← flowItems fuel true)
        | some .openMapping, _ => drop 1; return .mapping tag (← flowEntries fuel true)
        | some .blockSequence, .block => drop 1; return .sequence tag (← blockItems fuel)
        | some .blockSequence, .pair => drop 1; return .sequence tag (← blockItems fuel)
        | some .blockMapping, .block => drop 1; return .mapping tag (← blockEntries fuel)
        | some .blockMapping, .pair => drop 1; return .mapping tag (← blockEntries fuel)
        | _, _ =>
          if anchor.isSome || written.isSome then return .scalar tag .plain "" else fail

def blockItems : Nat → Composing (List Node)
  | 0 => fail
  | fuel + 1 => do
    match ← peek? with
    | some .entry =>
      drop 1
      let item ← orNothing [.entry, .blockEnd] (node fuel .block)
      return item :: (← blockItems fuel)
    | some .blockEnd => drop 1; return []
    | _ => fail

/-- The entries of a sequence at the indentation of the mapping around it. -/
def indentlessItems : Nat → Composing (List Node)
  | 0 => fail
  | fuel + 1 => do
    match ← peek? with
    | some .entry =>
      drop 1
      let item ← orNothing [.entry, .key, .value, .blockEnd] (node fuel .block)
      return item :: (← indentlessItems fuel)
    | _ => return []

def blockEntries : Nat → Composing (List (Node × Node))
  | 0 => fail
  | fuel + 1 => do
    match ← peek? with
    | some .key =>
      drop 1
      let key ← orNothing [.key, .value, .blockEnd] (node fuel .pair)
      let value ← match ← peek? with
        | some .value =>
          drop 1
          orNothing [.key, .value, .blockEnd] (node fuel .pair)
        | _ => pure .nothing
      return (key, value) :: (← blockEntries fuel)
    | some .blockEnd => drop 1; return []
    | _ => fail

/-- The items of a bracketed sequence up to its end. A key makes a mapping of one entry. -/
def flowItems : Nat → Bool → Composing (List Node)
  | 0, _ => fail
  | fuel + 1, isFirst => do
    if (← peek?) == some .closeSequence then
      drop 1
      return []
    if !isFirst then expect .comma
    match ← peek? with
    | some .key =>
      drop 1
      let entry ← singleEntry fuel
      return .mapping none [entry] :: (← flowItems fuel false)
    | some .closeSequence => drop 1; return []
    | _ =>
      let item ← node fuel .flow
      return item :: (← flowItems fuel false)

/-- A key with its value inside a bracketed sequence. Where the key is missing, one token is passed over. -/
def singleEntry : Nat → Composing (Node × Node)
  | 0 => fail
  | fuel + 1 => do
    let key ← match ← peek? with
      | some .value => drop 1; pure .nothing
      | some .comma => drop 1; pure .nothing
      | some .closeSequence => drop 1; pure .nothing
      | _ => node fuel .flow
    match ← peek? with
    | some .value =>
      drop 1
      return (key, ← orNothing [.comma, .closeSequence] (node fuel .flow))
    | _ => return (key, .nothing)

/-- The entries of a bracketed mapping up to its end. A node without a colon is a key without a value. -/
def flowEntries : Nat → Bool → Composing (List (Node × Node))
  | 0, _ => fail
  | fuel + 1, isFirst => do
    if (← peek?) == some .closeMapping then
      drop 1
      return []
    if !isFirst then expect .comma
    match ← peek? with
    | some .key =>
      drop 1
      let key ← orNothing [.value, .comma, .closeMapping] (node fuel .flow)
      let value ← match ← peek? with
        | some .value =>
          drop 1
          orNothing [.comma, .closeMapping] (node fuel .flow)
        | _ => pure .nothing
      return (key, value) :: (← flowEntries fuel false)
    | some .closeMapping => drop 1; return []
    | _ =>
      let key ← node fuel .flow
      return (key, .nothing) :: (← flowEntries fuel false)

end

/-! ## Documents -/

def defaultHandles : List (String × String) :=
  [("!", "!"), ("!!", "tag:yaml.org,2002:")]

/-- Directives up to the start of the document: at most one version, and each handle at most once. -/
def directives : Bool → List (String × String) → List Token → Option (List (String × String) × List Token)
  | versioned, handles, .version major minor :: rest =>
    if versioned || major != 1 || !(minor == 1 || minor == 2) then none
    else directives true handles rest
  | versioned, handles, .handle name lead :: rest =>
    if handles.any fun entry => entry.1 == name then none
    else directives versioned (handles ++ [(name, lead)]) rest
  | _, handles, .documentStart :: rest => some (handles, rest)
  | _, _, _ => none

def isBlankDocument : List Token → Bool
  | [] => true
  | token :: _ => token == .documentStart || token == .documentEnd ||
    match token with
    | .version .. => true
    | .handle .. => true
    | _ => false

/-- The node of a document without its markers, which is all that the tokens hold. -/
def content (handles : List (String × String)) (tokens : List Token) : Option Node := do
  let (node, rest) ← (node (2 * tokens.length + 4) .block).run ⟨tokens, #[], handles⟩
  if (rest.tokens.dropWhile (· == .documentEnd)).isEmpty then some node else none

/-- The only document among the tokens. -/
def document (tokens : List Token) : Option Node :=
  match directives false [] tokens with
  | some (handles, rest) =>
    let handles := handles ++ defaultHandles
    if isBlankDocument rest then
      if (rest.dropWhile (· == .documentEnd)).isEmpty then some .nothing else none
    else content handles rest
  | none => content defaultHandles tokens

end Composing

def document (text : String) : Option Node :=
  (tokens text).bind Composing.document

end Yaml

end DialogTree
