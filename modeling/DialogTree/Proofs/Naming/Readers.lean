import DialogTree.Document
import DialogTree.Proofs.Acceptance
import DialogTree.Proofs.Json.Declared
import DialogTree.Proofs.Naming.Declarations

/-!
# Documents are read as named trees

Whatever a text in the document grammar or a text in JSON is read as without a problem is a named tree.
-/

namespace DialogTree

variable {c d : Cursor}

/-! ## Texts in the document grammar -/

theorem WordTo.isIdentifier {word : String} (h : WordTo isKeyStart isKeyChar word c d) :
    isIdentifier word = true := by
  cases h with
  | intro _ hLead hRun =>
    rw [DialogTree.isIdentifier, String.toList_ofList]
    simp only [hLead, Bool.true_and, List.all_eq_true]
    exact hRun.all

theorem WordTo.all {p : Char → Bool} {word : String} (h : WordTo p p word c d) : ∀ x ∈ word.toList, p x = true := by
  cases h with
  | intro _ hLead hRun =>
    rw [String.toList_ofList, List.forall_mem_cons]
    exact ⟨hLead, hRun.all⟩

theorem MoreTo.forall_mem {α : Type} {Item : α → Cursor → Cursor → Prop} {P : α → Prop} {items : List α}
    (hItem : ∀ {a b c}, Item a b c → P a) (h : MoreTo Item items c d) : ∀ a ∈ items, P a := by
  induction h with
  | done => simp
  | next _ _ _ hFirst _ ih =>
    rw [List.forall_mem_cons]
    exact ⟨hItem hFirst, ih⟩

theorem DelimitedTo.forall_mem {α : Type} {Item : α → Cursor → Cursor → Prop} {P : α → Prop} {items : List α}
    {opening closing : String} (hItem : ∀ {a b c}, Item a b c → P a) (h : DelimitedTo opening closing Item items c d) :
    ∀ a ∈ items, P a := by
  cases h with
  | empty => simp
  | items _ _ hFirst hMore =>
    rw [List.forall_mem_cons]
    exact ⟨hItem hFirst, hMore.forall_mem hItem⟩

theorem AttributeTo.isIdentifier {item : DeclaredAttribute} (h : AttributeTo item c d) :
    isIdentifier item.key = true := by
  cases h with
  | intro hKey _ _ _ _ => exact hKey.isIdentifier

theorem HeadTo.named {name keyword : String} {attributes : List DeclaredAttribute} {position : Option Position}
    {body : Option (List Declaration)} (h : HeadTo name keyword attributes c d)
    (hSome : ∀ declarations, body = some declarations → declarations ≠ [])
    (hBelow : ∀ declarations, body = some declarations → ∀ below ∈ declarations, DeclarationNamed below) :
    DeclarationNamed ⟨name, keyword, position, attributes, body⟩ := by
  cases h with
  | intro hName _ _ hKeyword _ hAttributes =>
    exact .intro hName.all (fun _ => hKeyword.isIdentifier) (hAttributes.forall_mem AttributeTo.isIdentifier) hSome
      hBelow

mutual

theorem CommandTo.named {declaration : Declaration} {c d : Cursor} :
    CommandTo declaration c d → DeclarationNamed declaration
  | .bare hHead => hHead.named (fun _ h => by cases h) (fun _ h => by cases h)
  | .body hHead _ _ hBody _ => by
    obtain ⟨hSome, hEach⟩ := hBody.named
    refine hHead.named ?_ ?_
    · rintro _ ⟨⟩
      exact hSome
    · rintro _ ⟨⟩
      exact hEach

theorem ScopeTo.named {declarations : List Declaration} {c d : Cursor} :
    ScopeTo declarations c d → declarations ≠ [] ∧ ∀ declaration ∈ declarations, DeclarationNamed declaration
  | .intro _ hFirst hRest => by
    refine ⟨List.cons_ne_nil _ _, ?_⟩
    rw [List.forall_mem_cons]
    exact ⟨hFirst.named, hRest.named⟩

theorem TailTo.named {declarations : List Declaration} {c d : Cursor} :
    TailTo declarations c d → ∀ declaration ∈ declarations, DeclarationNamed declaration
  | .next _ hCommand hRest => by
    rw [List.forall_mem_cons]
    exact ⟨hCommand.named, hRest.named⟩
  | .separator _ => by simp
  | .spacing _ => by simp

end

theorem Derives.named {source : String} {declarations : List Declaration} (h : Derives source declarations) :
    declarations ≠ [] ∧ ∀ declaration ∈ declarations, DeclarationNamed declaration := by
  cases h with
  | intro _ _ hScope _ => exact hScope.named

/-! ## Texts in JSON -/

namespace Json

theorem isIdentifier_of_declares {entries : List (String × Value)} {items : List DeclaredAttribute}
    (h : List.Forall₂ DeclaresItem entries items) : ∀ item ∈ items, isIdentifier item.key = true := by
  intro item hMem
  obtain ⟨entry, -, hItem⟩ := exists_left_of_forall₂ h item hMem
  rw [hItem.key]
  exact hItem.identifier

mutual

theorem named_of_declares : ∀ (declaration : Declaration) {entry : String × Value},
    Declares entry declaration → DeclarationNamed declaration
  | ⟨_, _, _, _, none⟩, _, .bare hName _ hWord hItems _ =>
    .intro hName hWord (isIdentifier_of_declares hItems) (fun _ h => by cases h) (fun _ h => by cases h)
  | ⟨_, _, _, _, some declarations⟩, _, .body hName _ hWord hItems _ hSome hBelow => by
    refine .intro hName hWord (isIdentifier_of_declares hItems) ?_ ?_
    · rintro _ ⟨⟩ rfl
      exact hSome (List.forall₂_nil_right_iff.mp hBelow)
    · rintro _ ⟨⟩
      exact allNamed_of_declares declarations hBelow

theorem allNamed_of_declares : ∀ (declarations : List Declaration) {entries : List (String × Value)},
    List.Forall₂ Declares entries declarations → ∀ declaration ∈ declarations, DeclarationNamed declaration
  | [], _, _ => by simp
  | declaration :: rest, _, .cons hDeclares hDeclared => by
    rw [List.forall_mem_cons]
    exact ⟨named_of_declares declaration hDeclares, allNamed_of_declares rest hDeclared⟩

end

theorem document_named {source : String} {declarations : List Declaration} (h : document source = (declarations, [])) :
    declarations ≠ [] ∧ ∀ declaration ∈ declarations, DeclarationNamed declaration := by
  rw [document] at h
  split at h
  · obtain ⟨entries, -, hSome, -, hDeclares⟩ := declarations_ok_iff.mp h
    exact ⟨hSome, allNamed_of_declares declarations hDeclares⟩
  · cases h

end Json

/-! ## Documents -/

theorem finishDocument_ok {document : String} {declarations : List Declaration} {errors : List Diagnostic}
    {tree : Tree} (h : finishDocument document declarations errors = .ok tree) :
    errors = [] ∧ canonicalize declarations = (tree, []) := by
  obtain ⟨result, structural, hResult⟩ : ∃ result errors, canonicalize declarations = (result, errors) :=
    ⟨_, _, rfl⟩
  rw [finishDocument, hResult] at h
  simp only at h
  split at h
  · rename_i hNone
    obtain ⟨rfl, hStructural⟩ := List.append_eq_nil_iff.mp hNone
    obtain rfl := List.map_eq_nil_iff.mp hStructural
    cases h
    exact ⟨rfl, hResult⟩
  · cases h

theorem readText_ok {source document : String} {tree : Tree} (h : readText source document = .ok tree) :
    ∃ declarations, Derives source declarations ∧ canonicalize declarations = (tree, []) := by
  rw [readText_eq] at h
  obtain ⟨hErrors, hTree⟩ := finishDocument_ok h
  exact ⟨_, derives_of_document hErrors, hTree⟩

theorem readText_named {source document : String} {tree : Tree} (h : readText source document = .ok tree) :
    tree.Named := by
  obtain ⟨declarations, hDerives, hTree⟩ := readText_ok h
  obtain ⟨hSome, hNamed⟩ := hDerives.named
  exact canonicalize_named hSome hNamed hTree

theorem readJson_named {source document : String} {tree : Tree} (h : readJson source document = .ok tree) :
    tree.Named := by
  rw [readJson_eq] at h
  obtain ⟨hErrors, hTree⟩ := finishDocument_ok h
  have hDocument : Json.document source = ((Json.document source).1, []) := by rw [← hErrors]
  obtain ⟨hSome, hNamed⟩ := Json.document_named hDocument
  exact canonicalize_named hSome hNamed hTree

/-- Text and JSON are read as named trees only. -/
theorem read_named {source document : String} {tree : Tree}
    (h : readText source document = .ok tree ∨ readJson source document = .ok tree) : tree.Named := by
  rcases h with h | h
  · exact readText_named h
  · exact readJson_named h

/-- A version entry beside a command of that name, which has a body. -/
def versionedJson : String :=
  "\x7b\"version\": 1, \"version\": \x7b\"keyword\": \"dialog\", \"children\": \x7b\"ok\": \x7b\"keyword\": \"action\"\x7d\x7d\x7d,\x7d"

theorem read_named_versioned :
    (readJson versionedJson "info").isOk = true ∧ ∃ tree, readJson versionedJson "info" = .ok tree ∧ tree.Named := by
  have hRead : (readJson versionedJson "info").isOk = true := by decide +kernel
  refine ⟨hRead, ?_⟩
  cases hResult : readJson versionedJson "info" with
  | error problems =>
    rw [hResult] at hRead
    cases hRead
  | ok tree => exact ⟨tree, rfl, read_named (.inr hResult)⟩

end DialogTree
