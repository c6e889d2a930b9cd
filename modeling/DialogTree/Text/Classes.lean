/-!
# Character classes

Whitespace is the Unicode property White_Space and control is the category Cc. The classes of command
names, keywords and attribute keys are built from these and from ASCII.
-/

namespace DialogTree

/-- Whitespace: the property White_Space. -/
def isBlank (c : Char) : Bool :=
  let n := c.toNat
  (9 ≤ n && n ≤ 13) || n == 0x20 || n == 0x85 || n == 0xA0 || n == 0x1680 ||
    (0x2000 ≤ n && n ≤ 0x200A) || n == 0x2028 || n == 0x2029 || n == 0x202F || n == 0x205F ||
    n == 0x3000

/-- Control characters: the category Cc. -/
def isControl (c : Char) : Bool :=
  c.toNat < 0x20 || (0x7F ≤ c.toNat && c.toNat ≤ 0x9F)

/-- The first character of a keyword or an attribute key. -/
def isKeyStart (c : Char) : Bool :=
  c.isAlpha || c == '_'

def isKeyChar (c : Char) : Bool :=
  c.isAlphanum || c == '_'

/-- The characters with a meaning of their own in the document grammar. -/
def isPunctuation (c : Char) : Bool :=
  ['(', ')', '\x7b', '\x7d', '[', ']', '=', ',', ';', '#', '"', '\x60'].contains c

def isNameChar (c : Char) : Bool :=
  !isBlank c && !isControl c && !isPunctuation c

/-- Whether a text is a whole keyword or attribute key. -/
def isIdentifier (text : String) : Bool :=
  match text.toList with
  | [] => false
  | c :: rest => isKeyStart c && rest.all isKeyChar

theorem isIdentifier_ne_empty {word : String} (h : isIdentifier word = true) : word ≠ "" := by
  rintro rfl
  exact absurd h (by decide)

theorem isKeyChar_of_isKeyStart {c : Char} (h : isKeyStart c = true) : isKeyChar c = true := by
  simp only [isKeyStart, isKeyChar, Char.isAlphanum, Bool.or_eq_true] at h ⊢
  rcases h with h | h
  · exact .inl (.inl h)
  · exact .inr h

end DialogTree
