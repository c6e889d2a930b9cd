import DialogTree.Files.Path
import Mathlib.Data.List.Induction
import Mathlib.Data.List.Lex
import Mathlib.Data.List.Sort
import Mathlib.Data.String.Basic

/-!
# Sorted paths

The order of paths is a strict total order of their parts. So sorted paths are ascending and hold every path once,
in its first spelling, and apart from spellings they depend on nothing but which paths there are.
-/

namespace DialogTree

/-! ## The order -/

namespace PathPart

theorem name_lt_name (s t : String) : (name s).lt (name t) = true ↔ s < t :=
  decide_eq_true_iff

instance : IsStrictTotalOrder PathPart (fun a b => a.lt b = true) where
  trichotomous a b hNotLess hNotMore := by
    cases a <;> cases b
    case name.name s t =>
      rw [name_lt_name] at hNotLess hNotMore
      exact congrArg name (le_antisymm (not_lt.mp hNotMore) (not_lt.mp hNotLess))
    all_goals simp_all [lt, rank]
  irrefl a := by
    cases a
    case name s => exact fun h => lt_irrefl s ((name_lt_name s s).mp h)
    all_goals simp [lt, rank]
  trans a b c hFirst hSecond := by
    cases a <;> cases b <;> cases c
    case name.name.name s t u =>
      rw [name_lt_name] at hFirst hSecond ⊢
      exact lt_trans hFirst hSecond
    all_goals simp_all [lt, rank]

end PathPart

namespace Path

variable {paths : List Path} {path other : Path}

theorem partsLt_iff_lex (s t : List PathPart) :
    partsLt s t = true ↔ List.Lex (fun a b => a.lt b = true) s t := by
  induction s generalizing t with
  | nil => cases t <;> simp [partsLt]
  | cons a s ih =>
    cases t with
    | nil => simp [partsLt]
    | cons b t => simp [partsLt, List.cons_lex_cons_iff, ih]

instance : IsStrictTotalOrder (List PathPart) (fun s t => partsLt s t = true) := by
  have hLex : IsStrictWeakOrder (List PathPart) (List.Lex fun a b => a.lt b = true) :=
    isStrictWeakOrder_of_isOrderConnected
  simp only [partsLt_iff_lex]
  exact {}

theorem lt_trans {a b c : Path} (hFirst : a.lt b) (hSecond : b.lt c) : a.lt c :=
  trans_of (fun s t => partsLt s t = true) hFirst hSecond

theorem lt_of_not_lt (hNot : ¬path.lt other) (hNe : path.parts ≠ other.parts) : other.lt path :=
  ((trichotomous_of (fun s t => partsLt s t = true) path.parts other.parts).resolve_left hNot).resolve_left hNe

theorem parts_ne_of_lt (hLess : path.lt other) : path.parts ≠ other.parts :=
  fun hSame => irrefl_of (fun s t => partsLt s t = true) other.parts (by rwa [lt, hSame] at hLess)

instance : Std.Asymm (fun a b : Path => a.lt b = true) :=
  ⟨fun _ _ hLess hMore => parts_ne_of_lt (lt_trans hLess hMore) rfl⟩

/-! ## Inserting a path -/

def Ascending (paths : List Path) : Prop :=
  paths.Pairwise fun a b => a.lt b = true

/-- A path is inserted where no other one has its parts. -/
theorem mem_insertSorted (hAscending : Ascending paths) :
    other ∈ insertSorted path paths ↔
      other ∈ paths ∨ other = path ∧ ∀ earlier ∈ paths, earlier.parts ≠ path.parts := by
  induction paths with
  | nil => simp [insertSorted]
  | cons first rest ih =>
    obtain ⟨hFirst, hRest⟩ := List.pairwise_cons.mp hAscending
    rw [insertSorted]
    split
    case isTrue hLess =>
      -- every path stands behind the new one, so none has its parts
      have hNew : ∀ earlier ∈ first :: rest, earlier.parts ≠ path.parts := by
        intro earlier hEarlier
        obtain rfl | hEarlier := List.mem_cons.mp hEarlier
        · exact (parts_ne_of_lt hLess).symm
        · exact (parts_ne_of_lt (lt_trans hLess (hFirst earlier hEarlier))).symm
      rw [List.mem_cons, and_iff_left hNew, or_comm]
    case isFalse hNot =>
      split
      case isTrue hSame =>
        have hSame : path.parts = first.parts := by simpa using hSame
        simp [hSame]
      case isFalse hOther =>
        have hOther : first.parts ≠ path.parts := fun hSame => hOther (by simp [hSame])
        rw [List.mem_cons, ih hRest, List.mem_cons, List.forall_mem_cons, and_iff_right hOther, or_assoc]

theorem exists_parts_insertSorted (path : Path) (paths : List Path) (hAscending : Ascending paths)
    (parts : List PathPart) :
    (∃ found ∈ insertSorted path paths, found.parts = parts) ↔
      (∃ found ∈ paths, found.parts = parts) ∨ path.parts = parts := by
  simp only [mem_insertSorted hAscending]
  constructor
  · rintro ⟨found, hFound | ⟨rfl, -⟩, hParts⟩
    · exact .inl ⟨found, hFound, hParts⟩
    · exact .inr hParts
  · rintro (⟨found, hFound, hParts⟩ | hParts)
    · exact ⟨found, .inl hFound, hParts⟩
    · by_cases hNew : ∀ earlier ∈ paths, earlier.parts ≠ path.parts
      · exact ⟨path, .inr ⟨rfl, hNew⟩, hParts⟩
      · push Not at hNew
        obtain ⟨earlier, hEarlier, hSame⟩ := hNew
        exact ⟨earlier, .inl hEarlier, hSame.trans hParts⟩

theorem Ascending.insertSorted (hAscending : Ascending paths) : Ascending (insertSorted path paths) := by
  induction paths with
  | nil => exact List.pairwise_singleton _ path
  | cons first rest ih =>
    obtain ⟨hFirst, hRest⟩ := List.pairwise_cons.mp hAscending
    rw [Path.insertSorted]
    split
    case isTrue hLess =>
      refine List.pairwise_cons.mpr ⟨fun later hLater => ?_, hAscending⟩
      obtain rfl | hLater := List.mem_cons.mp hLater
      · exact hLess
      · exact lt_trans hLess (hFirst later hLater)
    case isFalse hNot =>
      split
      case isTrue => exact hAscending
      case isFalse hOther =>
        refine List.pairwise_cons.mpr ⟨fun later hLater => ?_, ih hRest⟩
        obtain hLater | ⟨rfl, -⟩ := (mem_insertSorted hRest).mp hLater
        · exact hFirst later hLater
        · exact lt_of_not_lt hNot (by simpa using hOther)

/-! ## Sorted paths -/

/-- A path is the first of a list with its parts. -/
def FirstSpelling (paths : List Path) (path : Path) : Prop :=
  ∃ before after, paths = before ++ path :: after ∧ ∀ earlier ∈ before, earlier.parts ≠ path.parts

/-- No two paths of a list differ in nothing but their spelling. -/
def SpelledAlike (paths : List Path) : Prop :=
  ∀ a ∈ paths, ∀ b ∈ paths, a.parts = b.parts → a = b

theorem FirstSpelling.mem (h : FirstSpelling paths path) : path ∈ paths := by
  obtain ⟨before, after, rfl, -⟩ := h
  simp

theorem firstSpelling_concat :
    FirstSpelling (paths ++ [path]) other ↔
      FirstSpelling paths other ∨ other = path ∧ ∀ earlier ∈ paths, earlier.parts ≠ path.parts := by
  constructor
  · rintro ⟨before, after, hPaths, hBefore⟩
    obtain rfl | ⟨front, last, rfl⟩ := List.eq_nil_or_concat after
    · obtain ⟨rfl, rfl⟩ : paths = before ∧ path = other := by
        simpa using List.append_inj' hPaths rfl
      exact .inr ⟨rfl, hBefore⟩
    · rw [List.concat_eq_append, ← List.cons_append, ← List.append_assoc] at hPaths
      exact .inl ⟨before, front, (List.append_inj' hPaths rfl).1, hBefore⟩
  · rintro (⟨before, after, rfl, hBefore⟩ | ⟨rfl, hNew⟩)
    · exact ⟨before, after ++ [path], by simp, hBefore⟩
    · exact ⟨paths, [], rfl, hNew⟩

theorem sorted_concat (paths : List Path) (path : Path) :
    sorted (paths ++ [path]) = insertSorted path (sorted paths) := by
  rw [sorted, List.foldl_append]
  rfl

theorem ascending_sorted (paths : List Path) : Ascending (sorted paths) := by
  induction paths using List.reverseRecOn with
  | nil => exact .nil
  | append_singleton paths path ih =>
    rw [sorted_concat]
    exact ih.insertSorted

theorem exists_parts_sorted (paths : List Path) (parts : List PathPart) :
    (∃ found ∈ sorted paths, found.parts = parts) ↔ ∃ found ∈ paths, found.parts = parts := by
  induction paths using List.reverseRecOn with
  | nil => rfl
  | append_singleton paths path ih =>
    rw [sorted_concat, exists_parts_insertSorted path _ (ascending_sorted paths), ih]
    simp [or_and_right, exists_or]

theorem mem_sorted : path ∈ sorted paths ↔ FirstSpelling paths path := by
  induction paths using List.reverseRecOn with
  | nil => simp [sorted, FirstSpelling]
  | append_singleton paths last ih =>
    have hNew : (∀ earlier ∈ sorted paths, earlier.parts ≠ last.parts) ↔
        ∀ earlier ∈ paths, earlier.parts ≠ last.parts := by
      simpa using not_congr (exists_parts_sorted paths last.parts)
    rw [sorted_concat, mem_insertSorted (ascending_sorted paths), ih, hNew, firstSpelling_concat]

theorem map_parts_sorted_eq {others : List Path}
    (hParts : ∀ parts, (∃ found ∈ paths, found.parts = parts) ↔ ∃ found ∈ others, found.parts = parts) :
    (sorted paths).map parts = (sorted others).map parts := by
  have hPairwise (paths : List Path) :
      ((sorted paths).map parts).Pairwise fun s t => partsLt s t = true :=
    List.pairwise_map.mpr (ascending_sorted paths)
  refine (hPairwise paths).eq_of_mem_iff (hPairwise others) fun s => ?_
  rw [List.mem_map, List.mem_map, exists_parts_sorted, exists_parts_sorted]
  exact hParts s

theorem SpelledAlike.mem_sorted (h : SpelledAlike paths) : path ∈ sorted paths ↔ path ∈ paths := by
  refine ⟨fun hSorted => (Path.mem_sorted.mp hSorted).mem, fun hPath => ?_⟩
  obtain ⟨found, hFound, hParts⟩ := (exists_parts_sorted paths path.parts).mpr ⟨path, hPath, rfl⟩
  exact h found (Path.mem_sorted.mp hFound).mem path hPath hParts ▸ hFound

theorem SpelledAlike.of_mem_iff {others : List Path} (h : SpelledAlike paths)
    (hMem : ∀ path, path ∈ others ↔ path ∈ paths) : SpelledAlike others :=
  fun a hA b hB => h a ((hMem a).mp hA) b ((hMem b).mp hB)

/-- Without two spellings of one path, the sorted paths depend on nothing but which paths there are. -/
theorem SpelledAlike.sorted_eq {others : List Path} (h : SpelledAlike paths)
    (hMem : ∀ path, path ∈ others ↔ path ∈ paths) : sorted others = sorted paths := by
  refine (ascending_sorted others).eq_of_mem_iff (ascending_sorted paths) fun path => ?_
  rw [(h.of_mem_iff hMem).mem_sorted, h.mem_sorted, hMem]

end Path

end DialogTree
