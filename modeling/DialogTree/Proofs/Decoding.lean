import DialogTree.Proofs.Outcomes
import DialogTree.Proofs.Strings

/-!
# Decoding strings

What stands behind a string does not matter to what the string spells, since its closing quotation mark ends
every escape in it. So a string is read exactly where one is spelled, as the characters that are spelled, and
the cursor stops right behind the closing mark.
-/

namespace DialogTree

/-- Of what follows, only the first character matters to the spelling of a character. -/
theorem Spells.congr_head {written after other : List Char} {x : Char} (h : Spells written x after)
    (hHead : after.head? = other.head?) : Spells written x other := by
  cases h with
  | itself hQuote hBackslash => exact .itself hQuote hBackslash
  | named hLetter => exact .named hLetter
  | octal hDigits hRun hLimit hValue =>
    refine .octal hDigits ⟨hRun.length_le, hRun.all, ?_⟩ hLimit hValue
    rw [← hHead]
    exact hRun.longest
  | hex hMark hAll hValue => exact .hex hMark hAll hValue

theorem Spells.ne_nil {written after : List Char} {x : Char} (h : Spells written x after) : written ≠ [] := by
  cases h <;> exact List.cons_ne_nil _ _

theorem SpellsString.ne_nil {written text after : List Char} (h : SpellsString written text after) :
    written ≠ [] := by
  cases h with
  | close => exact List.cons_ne_nil _ _
  | next hSpells _ => exact List.append_ne_nil_of_left_ne_nil hSpells.ne_nil _

theorem SpellsString.congr {written text after : List Char} (h : SpellsString written text after)
    (other : List Char) : SpellsString written text other := by
  induction h with
  | close => exact .close
  | next hSpells hMore ih =>
    obtain ⟨x, more, rfl⟩ := List.exists_cons_of_ne_nil hMore.ne_nil
    exact .next (hSpells.congr_head rfl) ih

/-- A string is read exactly where one is spelled between quotation marks, whatever follows it. It is read as
the characters that are spelled, and nothing is read behind the closing mark. -/
theorem quotedString_decodes (cursor : Cursor) (context : Context) :
    (∀ next text after, quotedString.parser cursor context = (.ok (next, text), after) ↔
      after = context ∧ ∃ written, cursor.Passes ('"' :: written) next ∧ SpellsString written text.toList []) ∧
    ((∃ result, (quotedString.parser cursor context).1 = .ok result) ↔
      ∃ written letters rest, cursor.rest = '"' :: (written ++ rest) ∧ SpellsString written letters []) := by
  have hReads : ∀ next text after, quotedString.parser cursor context = (.ok (next, text), after) ↔
      after = context ∧ ∃ written, cursor.Passes ('"' :: written) next ∧ SpellsString written text.toList [] := by
    intro next text after
    rw [Parser.lexeme_ok_iff, quotedString_ok_iff, and_comm]
    refine and_congr_right fun _ => ?_
    constructor
    · rintro ⟨hPasses, hSpells⟩
      rw [String.toList_ofList]
      exact ⟨_, hPasses, hSpells.congr []⟩
    · rintro ⟨written, hPasses, hSpells⟩
      rw [← String.ofList_toList (s := text)]
      exact .intro hPasses (hSpells.congr _)
  refine ⟨hReads, ?_⟩
  constructor
  · rintro ⟨⟨next, text⟩, hResult⟩
    obtain ⟨-, written, hPasses, hSpells⟩ := (hReads next text _).mp (Prod.ext hResult rfl)
    exact ⟨written, text.toList, next.rest, hPasses.1, hSpells⟩
  · rintro ⟨written, letters, rest, hRest, hSpells⟩
    rw [← String.toList_ofList (l := letters)] at hSpells
    have hPasses := Cursor.passes_skip (c := cursor) (s := '"' :: written) ⟨rest, hRest.symm⟩
    exact ⟨_, congrArg Prod.fst ((hReads _ _ context).mpr ⟨rfl, written, hPasses, hSpells⟩)⟩

end DialogTree
