import DialogTree.Grammar
import DialogTree.Proofs.Derivation
import DialogTree.Proofs.Outcomes

/-!
# What is read as a value derives

Every value and every attribute list that the parsers read has a derivation, and derivations lead forward.
-/

namespace DialogTree

open DialogTree.Parser

variable {α : Type} {Item : α → Cursor → Cursor → Prop} {c d : Cursor}

/-! ## Derivations go forward -/

theorem Cursor.SpacingTo.reaches {s : List Char} (h : c.SpacingTo s d) : c.Reaches d :=
  h.passes.reaches

theorem WordTo.reaches {lead body : Char → Bool} {word : String} (h : WordTo lead body word c d) :
    c.Reaches d := by
  cases h with
  | intro hFirst _ hRun => exact hFirst.reaches.trans hRun.passes.reaches

theorem MoreTo.reaches {items : List α} (hItems : ∀ a ∈ items, ∀ c d, Item a c d → c.Reaches d)
    (h : MoreTo Item items c d) : c.Reaches d := by
  induction h with
  | done => exact .refl _
  | next hBefore hComma hBehind hItem _ ih =>
    have hHead := hItems _ List.mem_cons_self _ _ hItem
    have hRest := ih fun a ha => hItems a (List.mem_cons_of_mem _ ha)
    exact hBefore.reaches.trans (hComma.reaches.trans (hBehind.reaches.trans (hHead.trans hRest)))

theorem optional_comma_reaches {sign : List Char} (h : c.Passes sign d ∨ d = c) : c.Reaches d := by
  rcases h with h | rfl
  · exact h.reaches
  · exact .refl _

theorem DelimitedTo.reaches {opening closing : String} {items : List α}
    (hItems : ∀ a ∈ items, ∀ c d, Item a c d → c.Reaches d)
    (h : DelimitedTo opening closing Item items c d) : c.Reaches d := by
  cases h with
  | empty hOpening hSpacing hClosing =>
    exact hOpening.reaches.trans (hSpacing.reaches.trans hClosing.reaches)
  | items hOpening hSpacing hItem hMore hBefore hComma hBehind hClosing =>
    have hHead := hItems _ List.mem_cons_self _ _ hItem
    have hRest := hMore.reaches fun a ha => hItems a (List.mem_cons_of_mem _ ha)
    exact hOpening.reaches.trans (hSpacing.reaches.trans (hHead.trans (hRest.trans
      (hBefore.reaches.trans ((optional_comma_reaches hComma).trans
        (hBehind.reaches.trans hClosing.reaches))))))

theorem ValueTo.reaches {value : Value} {c d : Cursor} (h : ValueTo value c d) : c.Reaches d := by
  cases h with
  | string h => cases h with | intro hPasses _ => exact hPasses.reaches
  | raw h => cases h with | intro hPasses _ => exact hPasses.reaches
  | bool h => cases h with | intro hWord _ => exact hWord.reaches
  | float h =>
    cases h with
    | intro _ hPasses hWhole _ hPoint hFraction _ =>
      exact hPasses.reaches.trans (hWhole.passes.reaches.trans (hPoint.reaches.trans
        hFraction.passes.reaches))
  | integer h =>
    cases h with
    | intro _ hPasses hRun _ _ => exact hPasses.reaches.trans hRun.passes.reaches
  | list h =>
    rename_i items
    have hItems : ∀ item ∈ items, ∀ c d, ValueTo item c d → c.Reaches d :=
      fun item hMem _ _ hItem => ValueTo.reaches hItem
    exact h.reaches hItems
termination_by sizeOf value
decreasing_by
  have := List.sizeOf_lt_of_mem hMem
  simp only [Value.list.sizeOf_spec]
  omega

theorem AttributeTo.reaches {item : DeclaredAttribute} (h : AttributeTo item c d) : c.Reaches d := by
  cases h with
  | intro hKey hBefore hEquals hBehind hValue =>
    exact hKey.reaches.trans (hBefore.reaches.trans (hEquals.reaches.trans
      (hBehind.reaches.trans hValue.reaches)))

/-! ## What was read derives -/

variable {x z : Context} {p : Parser α} {a : α}

theorem literal_parsed {text word : String} (h : (literal text).parser c x = (.ok (d, word), z)) :
    c.Passes text.toList d :=
  (literal_ok_iff.mp (lexeme_ok_iff.mp h).1).1

theorem spacing_parsed {found : Spacing} (h : spacing.parser c x = (.ok (d, found), z)) :
    ∃ s, c.SpacingTo s d := by
  cases (lexeme_ok_iff.mp h).1
  exact ⟨_, Cursor.spacingTo_skipSpacing c⟩

/-- A repetition reads what any relation derives that holds of nothing and is extended by each item. -/
theorem collect_parsed {R : List α → Cursor → Cursor → Prop} (hDone : ∀ c, R [] c c)
    (hNext : ∀ ⦃c b d a items x z⦄, p c x = (.ok (b, a), z) → R items b d → R (a :: items) c d)
    (c : Cursor) (x : Context) : R (p.collect c x).1.2 c (p.collect c x).1.1 := by
  fun_induction Parser.collect p c x with
  | case1 c x failure y hEq => exact hDone c
  | case2 c x next a y hEq hLess last items z hRest ih =>
    rw [hRest] at ih
    exact hNext hEq ih
  | case3 c x next a y hEq hLess => exact hDone c

theorem many_parsed {R : List α → Cursor → Cursor → Prop} {items : List α} (hDone : ∀ c, R [] c c)
    (hNext : ∀ ⦃c b d a items x z⦄, p c x = (.ok (b, a), z) → R items b d → R (a :: items) c d)
    (h : p.many c x = (.ok (d, items), z)) : R items c d := by
  have hRun := collect_parsed hDone hNext c x
  unfold Parser.many at h
  simp only [Prod.mk.injEq, Except.ok.injEq] at h
  rwa [h.1] at hRun

def Sound (p : Parser α) (Item : α → Cursor → Cursor → Prop) : Prop :=
  ∀ ⦃c x d a z⦄, p c x = (.ok (d, a), z) → Item a c d

theorem following_sound (hp : Sound p Item) {b : Cursor} {items : List α}
    (h : Grammar.following p c x = (.ok (b, a), z)) (hMore : MoreTo Item items b d) :
    MoreTo Item (a :: items) c d := by
  unfold Grammar.following at h
  obtain ⟨b₁, _, _, hBefore, h⟩ := bind_ok h
  obtain ⟨b₂, _, _, hComma, h⟩ := bind_ok h
  obtain ⟨b₃, _, _, hBehind, h⟩ := bind_ok h
  obtain ⟨s, hBefore⟩ := spacing_parsed hBefore
  obtain ⟨t, hBehind⟩ := spacing_parsed hBehind
  exact .next hBefore (literal_parsed hComma) hBehind (hp h) hMore

theorem optional_literal_parsed {text : String} {o : Option String}
    (h : (literal text).parser.optional c x = (.ok (d, o), z)) : c.Passes text.toList d ∨ d = c := by
  rcases optional_ok h with ⟨word, -, hWord⟩ | ⟨-, hSame⟩
  · exact .inl (literal_parsed hWord)
  · exact .inr hSame

theorem delimited_sound {opening closing : String} {items : List α} (hp : Sound p Item)
    (h : Grammar.delimited opening p closing c x = (.ok (d, items), z)) :
    DelimitedTo opening closing Item items c d := by
  unfold Grammar.delimited at h
  obtain ⟨b₁, _, _, hOpening, h⟩ := bind_ok h
  obtain ⟨b₂, _, _, hSpacing, h⟩ := bind_ok h
  obtain ⟨b₃, found, _, hItems, h⟩ := bind_ok h
  obtain ⟨b₄, _, _, hBehind, h⟩ := bind_ok h
  obtain ⟨b₅, _, _, hClosing, h⟩ := bind_ok h
  obtain ⟨rfl, rfl, rfl⟩ := pure_ok h
  obtain ⟨s, hSpacing⟩ := spacing_parsed hSpacing
  obtain ⟨t, hBehind⟩ := spacing_parsed hBehind
  rcases optional_ok hItems with ⟨items, rfl, hList⟩ | ⟨rfl, rfl⟩
  · unfold Grammar.separated at hList
    obtain ⟨e₁, first, _, hFirst, hList⟩ := bind_ok hList
    obtain ⟨e₂, rest, _, hRest, hList⟩ := bind_ok hList
    obtain ⟨e₃, _, _, hBefore, hList⟩ := bind_ok hList
    obtain ⟨e₄, _, _, hComma, hList⟩ := bind_ok hList
    obtain ⟨rfl, rfl, rfl⟩ := pure_ok hList
    obtain ⟨u, hBefore⟩ := spacing_parsed hBefore
    have hMore : MoreTo Item rest e₁ e₂ := many_parsed (fun _ => .done)
      (fun _ _ _ _ _ _ _ hFound hMore => following_sound hp hFound hMore) hRest
    exact .items (literal_parsed hOpening) hSpacing (hp hFirst) hMore hBefore
      (optional_literal_parsed hComma) hBehind (literal_parsed hClosing)
  · -- Spacing was skipped before, so that none is left in front of the closing text.
    have hStop := hSpacing.run.stops
    rw [hBehind.eq, Cursor.skipSpacing_of_stops hStop] at hClosing
    exact .empty (literal_parsed hOpening) hSpacing (literal_parsed hClosing)

theorem lexeme_map_sound {β : Type} {l : Lexeme α} {f : α → β} {b : β} {R : α → Cursor → Cursor → Prop}
    (hl : ∀ {a}, l c = .ok (d, a) → R a c d) (h : (f <$> l.parser) c x = (.ok (d, b), z)) :
    ∃ a, b = f a ∧ R a c d := by
  obtain ⟨a, hp, rfl⟩ := map_ok h
  exact ⟨a, rfl, hl (lexeme_ok_iff.mp hp).1⟩

theorem valueWithin_sound (n : Nat) : Sound (Grammar.valueWithin n) ValueTo := by
  induction n with
  | zero =>
    intro c x d v z h
    cases h
  | succ n ih =>
    intro c x d v z h
    unfold Grammar.valueWithin at h
    rcases orElse_ok (labeled_ok h) with h | ⟨_, h⟩
    · obtain ⟨a, rfl, ha⟩ := lexeme_map_sound quotedString_ok_iff.mp h
      exact .string ha
    rcases orElse_ok h with h | ⟨_, h⟩
    · obtain ⟨a, rfl, ha⟩ := lexeme_map_sound rawString_ok_iff.mp h
      exact .raw ha
    rcases orElse_ok h with h | ⟨_, h⟩
    · obtain ⟨a, rfl, ha⟩ := lexeme_map_sound boolean_ok_iff.mp h
      exact .bool ha
    rcases orElse_ok h with h | ⟨_, h⟩
    · obtain ⟨a, rfl, ha⟩ := lexeme_map_sound floatLiteral_ok_iff.mp h
      exact .float ha
    rcases orElse_ok h with h | ⟨_, h⟩
    · obtain ⟨a, rfl, ha⟩ := lexeme_map_sound integerLiteral_ok_iff.mp h
      exact .integer ha
    · obtain ⟨items, hItems, rfl⟩ := map_ok h
      exact .list (delimited_sound ih hItems)

theorem value_sound : Sound Grammar.value ValueTo := fun _ _ _ _ _ h => valueWithin_sound _ h

theorem declaredAttribute_sound : Sound Grammar.declaredAttribute AttributeTo := by
  intro c x d item z h
  unfold Grammar.declaredAttribute at h
  obtain ⟨b₁, ⟨position, key⟩, _, hKey, h⟩ := bind_ok h
  obtain ⟨b₂, _, _, hBefore, h⟩ := bind_ok h
  obtain ⟨b₃, _, _, hEquals, h⟩ := bind_ok h
  obtain ⟨b₄, _, _, hBehind, h⟩ := bind_ok h
  obtain ⟨b₅, value, _, hValue, h⟩ := bind_ok h
  obtain ⟨rfl, rfl, rfl⟩ := pure_ok h
  obtain ⟨key', hPair, hKey⟩ := located_ok hKey
  cases hPair
  obtain ⟨s, hBefore⟩ := spacing_parsed hBefore
  obtain ⟨t, hBehind⟩ := spacing_parsed hBehind
  exact .intro (identifier_ok_iff.mp (lexeme_ok_iff.mp (labeled_ok hKey)).1) hBefore
    (literal_parsed hEquals) hBehind (value_sound hValue)

theorem attributes_sound : Sound Grammar.attributes (DelimitedTo "(" ")" AttributeTo) :=
  fun _ _ _ _ _ h => delimited_sound declaredAttribute_sound h

end DialogTree
