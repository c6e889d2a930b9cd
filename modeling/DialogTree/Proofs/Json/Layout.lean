import DialogTree.Json.Relaxed
import DialogTree.Proofs.Json.Scalars

/-!
# Layouts of JSON

The texts of a value on one line and over several lines differ in the spaces between its tokens only. A layout
is such a text with any such spaces; it holds no comment and no trailing comma.
-/

namespace DialogTree

namespace Json

def IsGap (gap : List Char) : Prop :=
  ∀ x ∈ gap, x = ' ' ∨ x = '\n'

theorem IsGap.dropWhile {gap text : List Char} {p : Char → Bool} (h : IsGap gap) (hSpace : p ' ' = true)
    (hLine : p '\n' = true) (hStop : ∀ c ∈ text.head?, p c = false) : (gap ++ text).dropWhile p = text := by
  have hAll : ∀ x ∈ gap, p x = true := by
    intro x hx
    rcases h x hx with rfl | rfl
    · exact hSpace
    · exact hLine
  rw [List.dropWhile_append_of_pos hAll]
  cases text with
  | nil => rfl
  | cons c text => simp [hStop c rfl]

/-- Parts up to the closing character. Every part but the first stands behind a comma, and spaces may stand
behind every comma and behind every part. -/
inductive PartsTo {α : Type} (Part : α → List Char → Prop) (closing : Char) : Bool → List α → List Char → Prop where
  | close {isFirst : Bool} : PartsTo Part closing isFirst [] [closing]
  | first {a : α} {parts : List α} {text behind more : List Char} (hPart : Part a text) (hBehind : IsGap behind)
      (hMore : PartsTo Part closing false parts more) :
      PartsTo Part closing true (a :: parts) (text ++ (behind ++ more))
  | next {a : α} {parts : List α} {before text behind more : List Char} (hBefore : IsGap before)
      (hPart : Part a text) (hBehind : IsGap behind) (hMore : PartsTo Part closing false parts more) :
      PartsTo Part closing false (a :: parts) (',' :: (before ++ (text ++ (behind ++ more))))

inductive EntryTo (Part : Value → List Char → Prop) : String × Value → List Char → Prop where
  | intro {key : String} {value : Value} {gap text : List Char} (hGap : IsGap gap) (hValue : Part value text) :
      EntryTo Part (key, value) (stringText key ++ (':' :: (gap ++ text)))

inductive Layout : Value → List Char → Prop where
  | scalar {value : Value} (hArray : ∀ items, value ≠ .array items) (hObject : ∀ entries, value ≠ .object entries) :
      Layout value (scalarText value)
  | array {items : List Value} {gap body : List Char} (hGap : IsGap gap)
      (hItems : PartsTo Layout ']' true items body) : Layout (.array items) ('[' :: (gap ++ body))
  | object {entries : List (String × Value)} {gap body : List Char} (hGap : IsGap gap)
      (hEntries : PartsTo (EntryTo Layout) '\x7d' true entries body) :
      Layout (.object entries) ('\x7b' :: (gap ++ body))

/-! ## Induction on values -/

/-- Every value has a property that arrays and objects have as soon as what they hold has it. -/
theorem Value.induction {P : Value → Prop}
    (hScalar : ∀ value, (∀ items, value ≠ .array items) → (∀ entries, value ≠ .object entries) → P value)
    (hArray : ∀ items, (∀ item ∈ items, P item) → P (.array items))
    (hObject : ∀ entries, (∀ entry ∈ entries, P entry.2) → P (.object entries)) (value : Value) : P value := by
  refine @Value.rec P (fun items => ∀ item ∈ items, P item) (fun entries => ∀ entry ∈ entries, P entry.2)
    (fun entry => P entry.2) ?_ ?_ ?_ ?_ ?_ hArray hObject ?_ ?_ ?_ ?_ ?_ value
  · exact hScalar _ (fun _ h => by cases h) (fun _ h => by cases h)
  · exact fun _ => hScalar _ (fun _ h => by cases h) (fun _ h => by cases h)
  · exact fun _ => hScalar _ (fun _ h => by cases h) (fun _ h => by cases h)
  · exact fun _ => hScalar _ (fun _ h => by cases h) (fun _ h => by cases h)
  · exact fun _ => hScalar _ (fun _ h => by cases h) (fun _ h => by cases h)
  · simp
  · exact fun item rest hItem hRest => List.forall_mem_cons.mpr ⟨hItem, hRest⟩
  · simp
  · exact fun entry rest hEntry hRest => List.forall_mem_cons.mpr ⟨hEntry, hRest⟩
  · exact fun key value hValue => hValue

/-! ## The written layouts -/

theorem isGap_nil : IsGap [] :=
  fun _ hx => by cases hx

theorem isGap_newline (depth : Nat) : IsGap (Value.newline depth) := by
  intro x hx
  rcases List.mem_cons.mp hx with rfl | hx
  · exact .inr rfl
  · exact .inl (List.mem_replicate.mp hx).2

section Separated

variable {α : Type} {Part : α → List Char → Prop} {write : α → List Char} {closing : Char} {before behind : List Char}

theorem partsTo_behind (hBefore : IsGap before) (hBehind : IsGap behind) {a : α} {parts : List α}
    (hParts : ∀ b ∈ a :: parts, Part b (write b)) :
    PartsTo Part closing false (a :: parts)
      (',' :: before ++ (separated (',' :: before) ((a :: parts).map write) ++ (behind ++ [closing]))) := by
  have hFirst := hParts a List.mem_cons_self
  induction parts generalizing a with
  | nil => exact .next hBefore hFirst hBehind .close
  | cons b parts ih =>
    have hOthers := fun c hMem => hParts c (List.mem_cons_of_mem a hMem)
    have hMore := PartsTo.next hBefore hFirst isGap_nil (ih hOthers (hOthers b List.mem_cons_self))
    simpa [separated] using hMore

theorem partsTo_separated (hBefore : IsGap before) (hBehind : IsGap behind) {a : α} {parts : List α}
    (hParts : ∀ b ∈ a :: parts, Part b (write b)) :
    PartsTo Part closing true (a :: parts)
      (separated (',' :: before) ((a :: parts).map write) ++ (behind ++ [closing])) := by
  have hFirst := hParts a List.mem_cons_self
  cases parts with
  | nil => exact .first hFirst hBehind .close
  | cons b parts =>
    have hOthers := fun c hMem => hParts c (List.mem_cons_of_mem a hMem)
    have hMore := PartsTo.first hFirst isGap_nil (@partsTo_behind _ _ _ closing _ _ hBefore hBehind _ _ hOthers)
    simpa [separated] using hMore

end Separated

def compactEntry (entry : String × Value) : List Char :=
  stringText entry.1 ++ ':' :: entry.2.compact

def prettyEntry (depth : Nat) (entry : String × Value) : List Char :=
  stringText entry.1 ++ ':' :: ' ' :: entry.2.pretty depth

theorem compactItems_eq_map (items : List Value) : Value.compactItems items = items.map Value.compact := by
  induction items with
  | nil => rfl
  | cons item items ih => rw [Value.compactItems, ih, List.map_cons]

theorem compactEntries_eq_map (entries : List (String × Value)) :
    Value.compactEntries entries = entries.map compactEntry := by
  induction entries with
  | nil => rfl
  | cons entry entries ih => rw [Value.compactEntries, ih, List.map_cons, compactEntry]

theorem prettyItems_eq_map (depth : Nat) (items : List Value) :
    Value.prettyItems depth items = items.map (Value.pretty depth) := by
  induction items with
  | nil => rfl
  | cons item items ih => rw [Value.prettyItems, ih, List.map_cons]

theorem prettyEntries_eq_map (depth : Nat) (entries : List (String × Value)) :
    Value.prettyEntries depth entries = entries.map (prettyEntry depth) := by
  induction entries with
  | nil => rfl
  | cons entry entries ih => rw [Value.prettyEntries, ih, List.map_cons, prettyEntry]

theorem compact_layout (value : Value) : Layout value value.compact := by
  induction value using Value.induction with
  | hScalar value hArray hObject =>
    have hText : value.compact = scalarText value := by
      cases value with
      | array items => exact absurd rfl (hArray items)
      | object entries => exact absurd rfl (hObject entries)
      | _ => rfl
    rw [hText]
    exact .scalar hArray hObject
  | hArray items hItems =>
    rw [Value.compact, compactItems_eq_map]
    cases items with
    | nil => exact .array isGap_nil .close
    | cons item items =>
      have hBody := @partsTo_separated _ Layout _ ']' _ _ isGap_nil isGap_nil _ _ hItems
      simpa using Layout.array isGap_nil hBody
  | hObject entries hEntries =>
    rw [Value.compact, compactEntries_eq_map]
    cases entries with
    | nil => exact .object isGap_nil .close
    | cons entry entries =>
      have hParts : ∀ part ∈ entry :: entries, EntryTo Layout part (compactEntry part) :=
        fun part hMem => .intro isGap_nil (hEntries part hMem)
      have hBody := @partsTo_separated _ _ _ '\x7d' _ _ isGap_nil isGap_nil _ _ hParts
      simpa using Layout.object isGap_nil hBody

theorem isGap_space : IsGap [' '] := by
  intro x hx
  exact .inl (List.mem_singleton.mp hx)

theorem pretty_layout (value : Value) : ∀ depth, Layout value (value.pretty depth) := by
  induction value using Value.induction with
  | hScalar value hArray hObject =>
    intro depth
    have hText : value.pretty depth = scalarText value := by
      cases value with
      | array items => exact absurd rfl (hArray items)
      | object entries => exact absurd rfl (hObject entries)
      | _ => rfl
    rw [hText]
    exact .scalar hArray hObject
  | hArray items hItems =>
    intro depth
    rw [Value.pretty, prettyItems_eq_map]
    cases items with
    | nil => exact .array isGap_nil .close
    | cons item items =>
      have hBody := @partsTo_separated _ Layout _ ']' _ _ (isGap_newline (depth + 1)) (isGap_newline depth) _ _
        (fun part hMem => hItems part hMem (depth + 1))
      have hText := Layout.array (isGap_newline (depth + 1)) hBody
      simpa [Value.spread] using hText
  | hObject entries hEntries =>
    intro depth
    rw [Value.pretty, prettyEntries_eq_map]
    cases entries with
    | nil => exact .object isGap_nil .close
    | cons entry entries =>
      have hParts : ∀ part ∈ entry :: entries, EntryTo Layout part (prettyEntry (depth + 1) part) :=
        fun part hMem => .intro isGap_space (hEntries part hMem (depth + 1))
      have hText := Layout.object (isGap_newline (depth + 1))
        (partsTo_separated (isGap_newline (depth + 1)) (isGap_newline depth) hParts)
      simpa [Value.spread] using hText

end Json

end DialogTree
