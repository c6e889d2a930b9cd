import DialogTree.Proofs.Recovery.Strings

/-!
# Values and attributes in a chunk

Lists and attribute lists go through brackets that the chunk closes, so what stands in them is read within the
chunk.
-/

namespace DialogTree

open DialogTree.Parser Grammar

variable {origin : Cursor} {stack : List Char} {n n' : Nat} {m : Move}

/-! ## Items in brackets -/

section Items

variable {α : Type} {p p' : Parser α} {g : α → α}

theorem following_natural (hp : Natural m (Inside origin stack n) p p' g (Inside origin stack n)) :
    Natural m (Inside origin stack n) (following p) (following p') g (Inside origin stack n) :=
  (natural_lexeme spacing_natural).bind fun _ =>
    (natural_lexeme (literal_plain (k := ',') rfl (by decide))).bind fun _ =>
      (natural_lexeme spacing_natural).bind fun _ => hp

theorem separated_natural (hp : Natural m (Inside origin stack n) p p' g (Inside origin stack n)) :
    Natural m (Inside origin stack n) (separated p) (separated p') (List.map g) (Inside origin stack n) :=
  hp.bind fun _ => (following_natural hp).many.bind fun _ => (natural_lexeme spacing_natural).bind fun _ =>
    ((natural_lexeme (literal_plain (k := ',') rfl (by decide))).optional fun _ hc => hc).bind fun _ =>
      natural_pure rfl

theorem delimited_natural {opening closing : String} {k close : Char} (hOpening : opening.toList = [k])
    (hClosing : closing.toList = [close]) (hPair : closingOf? k = some close) (hBound : n ≤ n' + 1)
    (hp : Natural m (Inside origin (close :: stack) n') p p' g (Inside origin (close :: stack) n')) :
    Natural m (Inside origin stack n) (delimited opening p closing) (delimited opening p' closing)
      (List.map g) (Within origin stack n') := by
  have hIs : isClosing close = true := by
    unfold closingOf? at hPair
    split at hPair
    · cases hPair
      rfl
    · split at hPair
      · cases hPair
        rfl
      · split at hPair <;> cases hPair
        rfl
  refine (natural_lexeme (literal_opening hOpening hPair hBound)).bind fun _ =>
    (natural_lexeme spacing_natural).bind fun _ =>
      ((separated_natural hp).optional fun _ hc => hc).bind fun items =>
        (natural_lexeme spacing_natural).bind fun _ =>
          (natural_lexeme (literal_closing hClosing hIs)).bind fun _ => natural_pure ?_
  cases items <;> rfl

end Items

/-! ## Values -/

theorem not_inside_zero (c : Cursor) : ¬ Inside origin stack 0 c := by
  intro h
  have hLength := h.length_le
  have hLine := List.length_pos_of_mem h.line_mem
  omega

theorem natural_lexeme_map {α β : Type} {P Q : Cursor → Prop} {l : Lexeme α} (f : α → β)
    (hl : l.Natural m P Q) : Natural m P (f <$> l.parser) (f <$> l.parser) id Q :=
  (natural_lexeme hl).map fun _ => rfl

/-- Bounds on the depth of lists play no part where both outweigh the text that is left. -/
theorem valueWithin_natural (hStack : stack ≠ []) {bound bound' : Nat} (hBound : n ≤ bound)
    (hBound' : n ≤ bound') :
    Natural m (Inside origin stack n) (valueWithin bound) (valueWithin bound') id (Inside origin stack n) := by
  induction bound generalizing bound' n stack with
  | zero =>
    obtain rfl : n = 0 := Nat.le_zero.mp hBound
    exact ⟨fun c _ hc => absurd hc (not_inside_zero c), fun c _ _ _ _ hc => absurd hc (not_inside_zero c)⟩
  | succ bound ih =>
    cases n with
    | zero =>
      exact ⟨fun c _ hc => absurd hc (not_inside_zero c), fun c _ _ _ _ hc => absurd hc (not_inside_zero c)⟩
    | succ n =>
      cases bound' with
      | zero => omega
      | succ bound' =>
        -- The items of a list stand behind its bracket, so that one less of either bound is enough for them.
        have hItem : Natural m (Inside origin (']' :: stack) n) (valueWithin bound) (valueWithin bound') id
            (Inside origin (']' :: stack) n) :=
          ih (List.cons_ne_nil ']' stack) (by omega) (by omega)
        have hList : Natural m (Inside origin stack (n + 1)) (Value.list <$> delimited "[" (valueWithin bound) "]")
            (Value.list <$> delimited "[" (valueWithin bound') "]") id (Inside origin stack (n + 1)) := by
          refine ((delimited_natural (k := '[') rfl rfl rfl (Nat.le_refl _) hItem).map ?_).weaken (fun _ hc => hc) ?_
          · intro items
            rw [List.map_id, id]
          · intro c hc
            have hInside := hc.inside hStack
            exact hInside.mono (Nat.le_succ_of_le hInside.length_le)
        exact ((natural_lexeme_map _ quotedString_natural).orElse
          ((natural_lexeme_map _ rawString_natural).orElse
            ((natural_lexeme_map _ boolean_natural).orElse
              ((natural_lexeme_map _ floatLiteral_natural).orElse
                ((natural_lexeme_map _ integerLiteral_natural).orElse hList))))).labeled _

theorem value_natural (hStack : stack ≠ []) :
    Natural m (Inside origin stack n) value value id (Inside origin stack n) := by
  constructor
  · intro c x hc
    have hLength : c.rest.length ≤ (m.cursor c).rest.length + 1 := by
      simp [Move.cursor]
      omega
    exact (valueWithin_natural hStack (Nat.le_succ _) hLength).moves c x (hc.mono (Nat.le_refl _))
  · intro c x d a z hc hOk
    have hValue := @valueWithin_natural origin stack c.rest.length m hStack _ _ (Nat.le_succ _) (Nat.le_refl _)
    have hInside := hValue.ends c x d a z (hc.mono (Nat.le_refl _)) hOk
    exact hInside.mono (Nat.le_trans hInside.length_le hc.length_le)

/-! ## Attributes -/

theorem declaredAttribute_natural (hStack : stack ≠ []) :
    Natural m (Inside origin stack n) declaredAttribute declaredAttribute (·.movedBy m.before)
      (Inside origin stack n) :=
  ((natural_lexeme key_natural).labeled _).located.bind fun (_, _) =>
    (natural_lexeme spacing_natural).bind fun _ =>
      (natural_lexeme (literal_plain (k := '=') rfl (by decide))).bind fun _ =>
        (natural_lexeme spacing_natural).bind fun _ => (value_natural hStack).bind fun _ => natural_pure rfl

theorem attributes_natural :
    Natural m (Inside origin stack n) attributes attributes (List.map (·.movedBy m.before))
      (Within origin stack n) :=
  delimited_natural (k := '(') rfl rfl rfl (Nat.le_succ n)
    (declaredAttribute_natural (List.cons_ne_nil ')' stack))

end DialogTree
