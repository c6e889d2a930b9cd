/-!
# Source positions

A position counts bytes from zero, and lines and columns from one. A column counts characters, and only a
line feed ends a line.
-/

namespace DialogTree

def byteLength : List Char → Nat
  | [] => 0
  | c :: text => c.utf8Size + byteLength text

theorem byteLength_append (a b : List Char) : byteLength (a ++ b) = byteLength a + byteLength b := by
  induction a with
  | nil => exact (Nat.zero_add _).symm
  | cons c a ih => rw [List.cons_append, byteLength, byteLength, ih, Nat.add_assoc]

structure Position where
  /-- Bytes before the position. -/
  offset : Nat
  line : Nat
  /-- One more than the number of characters since the line began. -/
  column : Nat
deriving DecidableEq, Repr

namespace Position

def start : Position := ⟨0, 1, 1⟩

instance : Inhabited Position := ⟨start⟩

def step (position : Position) (c : Char) : Position :=
  if c = '\n' then
    ⟨position.offset + c.utf8Size, position.line + 1, 1⟩
  else
    ⟨position.offset + c.utf8Size, position.line, position.column + 1⟩

def after (position : Position) (text : List Char) : Position :=
  text.foldl step position

@[simp] theorem after_nil (position : Position) : position.after [] = position := rfl

@[simp] theorem after_cons (position : Position) (c : Char) (text : List Char) :
    position.after (c :: text) = (position.step c).after text := rfl

theorem after_append (position : Position) (a b : List Char) :
    position.after (a ++ b) = (position.after a).after b := by
  simp [after]

theorem offset_step (position : Position) (c : Char) :
    (position.step c).offset = position.offset + c.utf8Size := by
  unfold step; split <;> rfl

theorem offset_after (position : Position) (text : List Char) :
    (position.after text).offset = position.offset + byteLength text := by
  induction text generalizing position with
  | nil => rfl
  | cons c text ih => rw [after_cons, ih, offset_step, byteLength, Nat.add_assoc]

theorem line_after (position : Position) (text : List Char) :
    (position.after text).line = position.line + text.count '\n' := by
  induction text generalizing position with
  | nil => rfl
  | cons c text ih =>
    rw [after_cons, ih, List.count_cons]
    unfold step
    split
    · rename_i hBreak
      simp [hBreak]
      omega
    · rename_i hOther
      simp [hOther]

/-- A column counts the characters behind the last line feed, or from the start of the text. -/
theorem column_after_start (text : List Char) :
    (start.after text).column = 1 + (text.reverse.takeWhile (· ≠ '\n')).length := by
  -- The last character decides, so the induction is on the reversed text.
  rw [← text.reverse_reverse]
  generalize text.reverse = backwards
  rw [List.reverse_reverse]
  induction backwards with
  | nil => rfl
  | cons c backwards ih =>
    rw [List.reverse_cons, after_append, after_cons, after_nil]
    unfold step
    split
    · simp [*]
    · simp [*]
      omega

def text (position : Position) : String :=
  toString position.line ++ ":" ++ toString position.column

end Position

end DialogTree
