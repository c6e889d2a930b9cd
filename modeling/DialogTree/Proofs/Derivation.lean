import DialogTree.Declaration
import DialogTree.Proofs.Numerals
import DialogTree.Proofs.Spacing
import DialogTree.Proofs.Strings

/-!
# Derivations of documents

The document grammar as derivations: each relation holds between what a text denotes, the cursor in front
of the text, and the cursor behind it. Spacing, names and runs of digits are longest matches; everything else is free, so that nothing
here depends on the order in which a reader tries the alternatives.
-/

namespace DialogTree

/-! ## Values and attributes -/

/-- Items that each follow a comma, with spacing around it. -/
inductive MoreTo {α : Type} (Item : α → Cursor → Cursor → Prop) : List α → Cursor → Cursor → Prop where
  | done {c : Cursor} : MoreTo Item [] c c
  | next {c b₁ b₂ b₃ b₄ d : Cursor} {s t : List Char} {item : α} {items : List α}
      (hBefore : c.SpacingTo s b₁) (hComma : b₁.Passes [','] b₂) (hBehind : b₂.SpacingTo t b₃)
      (hItem : Item item b₃ b₄) (hMore : MoreTo Item items b₄ d) : MoreTo Item (item :: items) c d

/-- Items in brackets; a comma may follow the last one. -/
inductive DelimitedTo {α : Type} (opening closing : String) (Item : α → Cursor → Cursor → Prop) :
    List α → Cursor → Cursor → Prop where
  | empty {c b₁ b₂ d : Cursor} {s : List Char} (hOpening : c.Passes opening.toList b₁)
      (hSpacing : b₁.SpacingTo s b₂) (hClosing : b₂.Passes closing.toList d) :
      DelimitedTo opening closing Item [] c d
  | items {c b₁ b₂ b₃ b₄ b₅ b₆ b₇ d : Cursor} {s t u : List Char} {item : α} {items : List α}
      (hOpening : c.Passes opening.toList b₁) (hSpacing : b₁.SpacingTo s b₂) (hItem : Item item b₂ b₃)
      (hMore : MoreTo Item items b₃ b₄) (hBefore : b₄.SpacingTo t b₅)
      (hComma : b₅.Passes [','] b₆ ∨ b₆ = b₅) (hBehind : b₆.SpacingTo u b₇)
      (hClosing : b₇.Passes closing.toList d) : DelimitedTo opening closing Item (item :: items) c d

inductive ValueTo : Value → Cursor → Cursor → Prop where
  | string {c d : Cursor} {text : String} (h : QuotedTo text c d) : ValueTo (.string text) c d
  | raw {c d : Cursor} {text : String} (h : RawTo text c d) : ValueTo (.string text) c d
  | bool {c d : Cursor} {b : Bool} (h : BoolTo b c d) : ValueTo (.bool b) c d
  | float {c d : Cursor} {x : Binary64} (h : FloatTo x c d) : ValueTo (.float x) c d
  | integer {c d : Cursor} {n : Int64} (h : IntegerTo n c d) : ValueTo (.integer n) c d
  | list {c d : Cursor} {items : List Value} (h : DelimitedTo "[" "]" ValueTo items c d) :
      ValueTo (.list items) c d

inductive AttributeTo : DeclaredAttribute → Cursor → Cursor → Prop where
  | intro {c b₁ b₂ b₃ b₄ d : Cursor} {s t : List Char} {key : String} {value : Value}
      (hKey : WordTo isKeyStart isKeyChar key c b₁) (hBefore : b₁.SpacingTo s b₂)
      (hEquals : b₂.Passes ['='] b₃) (hBehind : b₃.SpacingTo t b₄) (hValue : ValueTo value b₄ d) :
      AttributeTo ⟨key, value, some c.position⟩ c d

/-! ## Commands -/

/-- A semicolon in spacing, or spacing that holds the end of a line. -/
inductive SeparatorTo : Cursor → Cursor → Prop where
  | semicolon {c b₁ b₂ d : Cursor} {s t : List Char} (hBefore : c.SpacingTo s b₁)
      (hSemicolon : b₁.Passes [';'] b₂) (hBehind : b₂.SpacingTo t d) : SeparatorTo c d
  | line {c d : Cursor} {s : List Char} (hSpacing : c.SpacingTo s d) (hLine : '\n' ∈ s) :
      SeparatorTo c d

inductive HeadTo : String → String → List DeclaredAttribute → Cursor → Cursor → Prop where
  | intro {c b₁ b₂ b₃ b₄ d : Cursor} {s t : List Char} {name keyword : String}
      {attributes : List DeclaredAttribute} (hName : WordTo isNameChar isNameChar name c b₁)
      (hSpacing : b₁.SpacingTo s b₂) (hRequired : s ≠ [])
      (hKeyword : WordTo isKeyStart isKeyChar keyword b₂ b₃) (hBefore : b₃.SpacingTo t b₄)
      (hAttributes : DelimitedTo "(" ")" AttributeTo attributes b₄ d) :
      HeadTo name keyword attributes c d

mutual

inductive CommandTo : Declaration → Cursor → Cursor → Prop where
  | bare {c d : Cursor} {name keyword : String} {attributes : List DeclaredAttribute}
      (hHead : HeadTo name keyword attributes c d) :
      CommandTo ⟨name, keyword, some c.position, attributes, none⟩ c d
  | body {c b₁ b₂ b₃ b₄ d : Cursor} {s : List Char} {name keyword : String}
      {attributes : List DeclaredAttribute} {body : List Declaration}
      (hHead : HeadTo name keyword attributes c b₁) (hSpacing : b₁.SpacingTo s b₂)
      (hOpening : b₂.Passes ['\x7b'] b₃) (hBody : ScopeTo body b₃ b₄)
      (hClosing : b₄.Passes ['\x7d'] d) :
      CommandTo ⟨name, keyword, some c.position, attributes, some body⟩ c d

inductive ScopeTo : List Declaration → Cursor → Cursor → Prop where
  | intro {c b₁ b₂ d : Cursor} {s : List Char} {first : Declaration} {rest : List Declaration}
      (hSpacing : c.SpacingTo s b₁) (hFirst : CommandTo first b₁ b₂) (hRest : TailTo rest b₂ d) :
      ScopeTo (first :: rest) c d

/-- Commands that each follow a separator, and at the end a separator or mere spacing. -/
inductive TailTo : List Declaration → Cursor → Cursor → Prop where
  | next {c b₁ b₂ d : Cursor} {command : Declaration} {rest : List Declaration}
      (hSeparator : SeparatorTo c b₁) (hCommand : CommandTo command b₁ b₂)
      (hRest : TailTo rest b₂ d) : TailTo (command :: rest) c d
  | separator {c d : Cursor} (hSeparator : SeparatorTo c d) : TailTo [] c d
  | spacing {c d : Cursor} {s : List Char} (hSpacing : c.SpacingTo s d) : TailTo [] c d

end

/-! ## Documents -/

/-- The version header; a semicolon may follow it. -/
inductive HeaderTo : Cursor → Cursor → Prop where
  | intro {c b₁ b₂ b₃ b₄ b₅ d : Cursor} {s t u : List Char} {word : String}
      (hWord : word = "version" ∨ word = "v") (hPasses : c.Passes word.toList b₁)
      (hSpacing : b₁.SpacingTo s b₂) (hRequired : s ≠ []) (hVersion : NaturalTo supportedVersion b₂ b₃)
      (hBefore : b₃.SpacingTo t b₄) (hSemicolon : b₄.Passes [';'] b₅ ∨ b₅ = b₄)
      (hBehind : b₅.SpacingTo u d) : HeaderTo c d

/-- A whole text that denotes declarations. -/
inductive Derives : String → List Declaration → Prop where
  | intro {source : String} {b₁ b₂ d : Cursor} {s : List Char} {declarations : List Declaration}
      (hSpacing : (Cursor.ofText source).SpacingTo s b₁) (hHeader : HeaderTo b₁ b₂)
      (hScope : ScopeTo declarations b₂ d) (hEnd : d.rest = []) : Derives source declarations

end DialogTree
