import DialogTree.Document
import DialogTree.Proofs.Places.Commands
import DialogTree.Proofs.Places.Readers

/-!
# Diagnostics in their places

A text that is refused is refused with diagnostics that all have a place in it. They are those of the grammar
and then those of the structure, brought into the order of their offsets; at one offset that order stays.
-/

namespace DialogTree

variable {origin : Cursor}

/-! ## Structure -/

theorem Header.add_position {path : String} {header : Header} {item : DeclaredAttribute} {error : StructureError}
    (h : (header.add path item).2 = some error) : error.position = item.position := by
  unfold Header.add at h
  split at h
  · cases h; rfl
  · split at h
    · cases h; rfl
    · split at h
      · split at h <;> cases h
        rfl
      · cases h

theorem Header.addAll_covers (path : String) (header : Header) {items : List DeclaredAttribute}
    (h : ∀ item ∈ items, origin.Covers item.position) :
    ∀ error ∈ (header.addAll path items).2, origin.Covers error.position := by
  induction items generalizing header with
  | nil => exact fun _ hError => absurd hError List.not_mem_nil
  | cons item rest ih =>
    intro error hError
    rcases List.mem_append.mp hError with hError | hError
    · rw [add_position (Option.mem_toList.mp hError)]
      exact h item List.mem_cons_self
    · exact ih _ (fun other hOther => h other (List.mem_cons_of_mem item hOther)) error hError

mutual

theorem Declaration.toNode_covers (path : String) : ∀ declaration : Declaration, declaration.Within origin →
    ∀ error ∈ (declaration.toNode path).2, origin.Covers error.position
  | ⟨name, keyword, position, items, none⟩, .intro hPosition hAttributes _ => by
    intro error hError
    simp only [Declaration.toNode, List.mem_append] at hError
    rcases hError with hError | hError
    · split at hError
      · rw [List.mem_singleton.mp hError]
        exact hPosition
      · cases hError
    · exact Header.addAll_covers path .empty hAttributes error hError
  | ⟨name, keyword, position, items, some declarations⟩, .intro hPosition hAttributes hBody => by
    intro error hError
    simp only [Declaration.toNode, List.mem_append] at hError
    rcases hError with (hError | hError) | hError
    · split at hError
      · rw [List.mem_singleton.mp hError]
        exact hPosition
      · cases hError
    · exact Header.addAll_covers path .empty hAttributes error hError
    · exact addDeclarations_covers (some path) .empty declarations (hBody declarations rfl) error hError

/-- What is reported for declarations is reported at one of them, at one of their attributes, or inside one. -/
theorem addDeclarations_covers (parent : Option String) (tree : Tree) : ∀ declarations : List Declaration,
    (∀ declaration ∈ declarations, declaration.Within origin) →
      ∀ error ∈ (addDeclarations parent tree declarations).2, origin.Covers error.position
  | [], _ => fun _ hError => by cases hError
  | declaration :: rest, h => by
    have hFirst := h declaration List.mem_cons_self
    have hRest : ∀ other ∈ rest, other.Within origin := fun other hOther => h other (List.mem_cons_of_mem _ hOther)
    have hPosition : origin.Covers declaration.position := by
      cases hFirst with
      | intro hPosition => exact hPosition
    have hNode := Declaration.toNode_covers (childPath parent declaration.name) declaration hFirst
    intro error hError
    unfold addDeclarations at hError
    split at hError
    · -- Nothing inside a declaration without a name is reported.
      rcases List.mem_cons.mp hError with rfl | hError
      · exact hPosition
      · exact addDeclarations_covers parent tree rest hRest error hError
    · simp only at hError
      split at hError
      · simp only [List.cons_append, List.mem_cons, List.mem_append] at hError
        rcases hError with rfl | hError | hError
        · exact hPosition
        · exact hNode error hError
        · exact addDeclarations_covers parent tree rest hRest error hError
      · rcases List.mem_append.mp hError with hError | hError
        · exact hNode error hError
        · exact addDeclarations_covers parent _ rest hRest error hError

end

/-! ## Order -/

theorem filter_mergeSort {α : Type} {le : α → α → Bool}
    (hTrans : ∀ a b c, le a b = true → le b c = true → le a c = true)
    (hTotal : ∀ a b, (le a b || le b a) = true) {p : α → Bool} (hSame : ∀ a b, p a = true → p b = true → le a b = true)
    (l : List α) : (l.mergeSort le).filter p = l.filter p := by
  -- What satisfies the test is already in order, and merge sort keeps sublists that are.
  have hPairwise : (l.filter p).Pairwise fun a b => le a b = true :=
    List.pairwise_filter.mpr (List.pairwise_of_forall fun a b => hSame a b)
  have hSublist := (List.sublist_mergeSort hTrans hTotal hPairwise List.filter_sublist).filter p
  rw [List.filter_filter, show (fun a => p a && p a) = p by funext a; exact Bool.and_self _] at hSublist
  exact (hSublist.eq_of_length ((List.mergeSort_perm l le).filter p).length_eq.symm).symm

namespace Diagnostic

theorem precedes_trans (a b c : Diagnostic) (hab : a.precedes b = true) (hbc : b.precedes c = true) :
    a.precedes c = true := by
  unfold precedes at *
  generalize a.position = p at *
  generalize b.position = q at *
  generalize c.position = r at *
  match p, q, r with
  | none, _, _ => rfl
  | some p, some q, some r => simpa using Nat.le_trans (of_decide_eq_true hab) (of_decide_eq_true hbc)

theorem precedes_total (a b : Diagnostic) : (a.precedes b || b.precedes a) = true := by
  unfold precedes
  cases a.position with
  | none => rfl
  | some p =>
    cases b.position with
    | none => rfl
    | some q => simpa using Nat.le_total p.offset q.offset

def offset? (error : Diagnostic) : Option Nat := error.position.map Position.offset

end Diagnostic

/-- The diagnostics in ascending order of their offsets; those of one offset stand as they were found. -/
structure OrderedFrom (found errors : List Diagnostic) : Prop where
  perm : errors.Perm found
  sorted : errors.Pairwise fun a b => ∀ i ∈ a.offset?, ∀ j ∈ b.offset?, i ≤ j
  stable : ∀ offset : Nat, errors.filter (·.offset? = some offset) = found.filter (·.offset? = some offset)

theorem Diagnostics.orderedFrom (document : String) (found : List Diagnostic) :
    OrderedFrom found (Diagnostics.ofList document found).errors where
  perm := List.mergeSort_perm found Diagnostic.precedes
  sorted := by
    refine (List.pairwise_mergeSort Diagnostic.precedes_trans Diagnostic.precedes_total found).imp ?_
    intro a b hPrecedes i hi j hj
    obtain ⟨p, hp, rfl⟩ := Option.map_eq_some_iff.mp hi
    obtain ⟨q, hq, rfl⟩ := Option.map_eq_some_iff.mp hj
    simpa [Diagnostic.precedes, hp, hq] using hPrecedes
  stable offset := by
    refine filter_mergeSort Diagnostic.precedes_trans Diagnostic.precedes_total ?_ found
    intro a b ha hb
    obtain ⟨p, hp, hpOffset⟩ := Option.map_eq_some_iff.mp (of_decide_eq_true ha)
    obtain ⟨q, hq, hqOffset⟩ := Option.map_eq_some_iff.mp (of_decide_eq_true hb)
    simp [Diagnostic.precedes, hp, hq, hpOffset, hqOffset]

/-! ## Refused texts -/

theorem readText_error {source document : String} {diagnostics : Diagnostics}
    (h : readText source document = .error diagnostics) :
    (Grammar.document source).2 ++ (canonicalize (Grammar.document source).1).2.map .structural ≠ [] ∧
      diagnostics = .ofList document
        ((Grammar.document source).2 ++ (canonicalize (Grammar.document source).1).2.map .structural) := by
  simp only [readText_eq, finishDocument] at h
  split at h
  · cases h
  · rename_i hSome
    cases h
    exact ⟨hSome, rfl⟩

theorem found_covers {source : String} {error : Diagnostic}
    (h : error ∈ (Grammar.document source).2 ++ (canonicalize (Grammar.document source).1).2.map .structural) :
    (Cursor.ofText source).Covers error.position := by
  obtain ⟨hDeclarations, hErrors⟩ := document_within source
  rcases List.mem_append.mp h with h | h
  · exact hErrors error h
  · obtain ⟨problem, hProblem, rfl⟩ := List.mem_map.mp h
    exact addDeclarations_covers none .empty _ hDeclarations problem hProblem

/-- A refused text has diagnostics, in order, each with a place in the text that its offset, line and column
agree on; and from no cursor of a text is a cut made that is out of range or inside a character. -/
theorem readText_error_placed (source document : String) :
    (∀ diagnostics, readText source document = .error diagnostics →
      diagnostics.errors ≠ [] ∧
        OrderedFrom ((Grammar.document source).2 ++ (canonicalize (Grammar.document source).1).2.map .structural)
          diagnostics.errors ∧
        ∀ error ∈ diagnostics.errors, ∃ position, error.position = some position ∧
          position.offset ≤ source.utf8ByteSize ∧ String.Pos.Raw.IsValid source ⟨position.offset⟩ ∧
          position.PlacedIn source) ∧
      ∀ c, (Cursor.ofText source).Reaches c →
        IsSlice source c.offset source.utf8ByteSize (.ofList c.rest) ∧ Sliced.CutsAt c := by
  refine ⟨fun diagnostics h => ?_, fun c hc => ⟨hc.isSlice_rest, cutsAt c⟩⟩
  obtain ⟨hSome, rfl⟩ := readText_error h
  have hOrdered := Diagnostics.orderedFrom document
    ((Grammar.document source).2 ++ (canonicalize (Grammar.document source).1).2.map .structural)
  refine ⟨fun hNone => hSome ?_, hOrdered, fun error hError => ?_⟩
  · exact List.perm_nil.mp (hNone ▸ hOrdered.perm).symm
  · obtain ⟨c, hc, hPosition⟩ := found_covers (hOrdered.perm.mem_iff.mp hError)
    exact ⟨c.position, hPosition, hc.placedIn.offset_le, hc.placedIn.isValid, hc.placedIn⟩

/-- A version that is not supported, and a key that is no identifier, among letters of two bytes. -/
def elderText : List Char := "version 2\né dialog(größe=1)".toList

def elder : String :=
  String.ofList elderText

theorem elder_refused : ∃ diagnostics, readText elder "elder" = .error diagnostics := by
  have hRefused : (readText elder "elder").toOption.isNone = true := by
    rw [elder, readText_ofList]
    decide +kernel
  generalize readText elder "elder" = result at hRefused
  cases result with
  | error diagnostics => exact ⟨diagnostics, rfl⟩
  | ok tree => cases hRefused

theorem readText_error_placed_elder : ∃ diagnostics, readText elder "elder" = .error diagnostics ∧
    diagnostics.errors ≠ [] ∧
    OrderedFrom ((Grammar.document elder).2 ++ (canonicalize (Grammar.document elder).1).2.map .structural)
      diagnostics.errors ∧
    ∀ error ∈ diagnostics.errors, ∃ position, error.position = some position ∧
      position.offset ≤ elder.utf8ByteSize ∧ String.Pos.Raw.IsValid elder ⟨position.offset⟩ ∧
      position.PlacedIn elder := by
  obtain ⟨diagnostics, hRead⟩ := elder_refused
  exact ⟨diagnostics, hRead, (readText_error_placed elder "elder").1 diagnostics hRead⟩

end DialogTree
