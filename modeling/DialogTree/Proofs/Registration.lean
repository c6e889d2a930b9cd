import DialogTree.Schema.Registry
import Mathlib.Data.List.Nodup
import Mathlib.Data.String.Basic

/-!
# Registries over time

A registry is asked to register schemas and to freeze, in any order and as often as one likes, and some of the
requests are refused. The first schema of a pair stays with it whatever is asked later, and nothing is added
behind a freeze. So the schema of a pair can be told from the requests alone.
-/

namespace DialogTree

/-! ## The order of keys -/

namespace SchemaKey

variable {a b c : SchemaKey}

theorem lt_iff : a.lt b ↔ a.keyword < b.keyword ∨ a.keyword = b.keyword ∧ a.kind < b.kind := by
  rw [lt, Bool.or_eq_true, Bool.and_eq_true, decide_eq_true_iff, decide_eq_true_iff, beq_iff_eq]

theorem lt_irrefl (a : SchemaKey) : ¬a.lt a := by
  rw [lt_iff]
  rintro (h | ⟨-, h⟩)
  · exact String.lt_irrefl _ h
  · exact String.lt_irrefl _ h

theorem ne_of_lt (h : a.lt b) : a ≠ b :=
  fun hEq => lt_irrefl b (hEq ▸ h)

theorem lt_trans (hLeft : a.lt b) (hRight : b.lt c) : a.lt c := by
  rw [lt_iff] at hLeft hRight ⊢
  obtain hLeft | ⟨hSame, hLeft⟩ := hLeft
  · obtain hRight | ⟨hEq, -⟩ := hRight
    · exact .inl (String.lt_trans hLeft hRight)
    · exact .inl (hEq ▸ hLeft)
  · rw [hSame]
    exact hRight.imp_right fun ⟨hEq, hRight⟩ => ⟨hEq, String.lt_trans hLeft hRight⟩

theorem lt_of_not_lt (hNot : ¬a.lt b) (hNe : a ≠ b) : b.lt a := by
  rw [lt_iff, not_or, not_and] at hNot
  rw [lt_iff]
  obtain hKeyword | hKeyword | hKeyword := lt_trichotomy a.keyword b.keyword
  · exact absurd hKeyword hNot.1
  · obtain hKind | hKind | hKind := lt_trichotomy a.kind b.kind
    · exact absurd hKind (hNot.2 hKeyword)
    · exact absurd (by cases a; cases b; cases hKeyword; cases hKind; rfl) hNe
    · exact .inr ⟨hKeyword.symm, hKind⟩
  · exact .inl hKeyword

end SchemaKey

namespace Registry

/-! ## Insertion -/

variable {key : SchemaKey} {schema : Schema} {entries : List (SchemaKey × Schema)}

theorem mem_insertSorted {entry : SchemaKey × Schema} :
    entry ∈ insertSorted key schema entries ↔ entry = (key, schema) ∨ entry ∈ entries := by
  induction entries with
  | nil => simp [insertSorted]
  | cons first rest ih =>
    rw [insertSorted]
    split
    · exact List.mem_cons
    · rw [List.mem_cons, ih, List.mem_cons]
      exact or_left_comm

theorem length_insertSorted : (insertSorted key schema entries).length = entries.length + 1 := by
  induction entries with
  | nil => rfl
  | cons first rest ih =>
    rw [insertSorted]
    split
    · rfl
    · rw [List.length_cons, ih, List.length_cons]

theorem pairwise_insertSorted (hNew : key ∉ entries.map Prod.fst)
    (h : entries.Pairwise fun a b => a.1.lt b.1) :
    (insertSorted key schema entries).Pairwise fun a b => a.1.lt b.1 := by
  induction entries with
  | nil => exact List.pairwise_singleton _ _
  | cons first rest ih =>
    obtain ⟨hFirst, hRest⟩ := List.pairwise_cons.mp h
    rw [List.map_cons, List.mem_cons, not_or] at hNew
    rw [insertSorted]
    split
    next hLess =>
      refine List.pairwise_cons.mpr ⟨fun entry hMem => ?_, h⟩
      obtain rfl | hMem := List.mem_cons.mp hMem
      · exact hLess
      · exact SchemaKey.lt_trans hLess (hFirst entry hMem)
    next hNotLess =>
      refine List.pairwise_cons.mpr ⟨fun entry hMem => ?_, ih hNew.2 hRest⟩
      obtain rfl | hMem := mem_insertSorted.mp hMem
      · exact SchemaKey.lt_of_not_lt hNotLess hNew.1
      · exact hFirst entry hMem

theorem find?_insertSorted (hNew : key ∉ entries.map Prod.fst) (wanted : SchemaKey) :
    ((insertSorted key schema entries).find? (·.1 == wanted)).map Prod.snd =
      if wanted = key then some schema else (entries.find? (·.1 == wanted)).map Prod.snd := by
  induction entries with
  | nil =>
    by_cases hWanted : wanted = key
    · simp [insertSorted, hWanted]
    · simp [insertSorted, hWanted, Ne.symm hWanted]
  | cons first rest ih =>
    rw [List.map_cons, List.mem_cons, not_or] at hNew
    rw [insertSorted]
    split
    · by_cases hWanted : wanted = key
      · simp [hWanted]
      · rw [List.find?_cons_of_neg (by simpa using Ne.symm hWanted), if_neg hWanted]
    · by_cases hFirst : first.1 = wanted
      · have hWanted : wanted ≠ key := hFirst ▸ Ne.symm hNew.1
        rw [List.find?_cons_of_pos (by simpa using hFirst), if_neg hWanted,
          List.find?_cons_of_pos (by simpa using hFirst)]
      · rw [List.find?_cons_of_neg (by simpa using hFirst), ih hNew.2,
          List.find?_cons_of_neg (by simpa using hFirst)]

/-! ## Registration -/

variable {registry registered : Registry} {keyword kind : String} {error : RegistryError}

theorem lookup?_eq_none_iff : registry.lookup? keyword kind = none ↔ ⟨keyword, kind⟩ ∉ registry.keys := by
  rw [lookup?, Option.map_eq_none_iff, List.find?_eq_none, keys, List.mem_map]
  constructor
  · rintro h ⟨entry, hMem, hKey⟩
    exact h entry hMem (beq_iff_eq.mpr hKey)
  · intro h entry hMem hKey
    exact h ⟨entry, hMem, beq_iff_eq.mp hKey⟩

theorem register_ok_iff : registry.register keyword kind schema = (registered, .ok ()) ↔
    (registry.frozen = false ∧ keyword ≠ "" ∧ registry.lookup? keyword kind = none) ∧
      registered = { registry with entries := insertSorted ⟨keyword, kind⟩ schema registry.entries } := by
  rw [lookup?_eq_none_iff, register]
  cases hFrozen : registry.frozen with
  | true => simp
  | false =>
    by_cases hEmpty : keyword = ""
    · simp [hEmpty]
    · by_cases hTaken : ⟨keyword, kind⟩ ∈ registry.keys
      · simp [hEmpty, hTaken]
      · simp [hEmpty, hTaken, eq_comm]

/-- Why a schema is not registered: first because the registry is frozen, then for want of a keyword, and last
because the pair is taken. -/
theorem register_error_iff : registry.register keyword kind schema = (registered, .error error) ↔
    registered = registry ∧ (registry.frozen = true ∧ error = .frozen ⟨keyword, kind⟩ ∨
      registry.frozen = false ∧ keyword = "" ∧ error = .emptyKeyword ∨
      registry.frozen = false ∧ keyword ≠ "" ∧ registry.lookup? keyword kind ≠ none ∧
        error = .duplicate ⟨keyword, kind⟩) := by
  rw [Ne, Ne, lookup?_eq_none_iff, not_not, register]
  cases hFrozen : registry.frozen with
  | true => simp [eq_comm]
  | false =>
    by_cases hEmpty : keyword = ""
    · simp [hEmpty, eq_comm]
    · by_cases hTaken : ⟨keyword, kind⟩ ∈ registry.keys
      · simp [hEmpty, hTaken, eq_comm]
      · simp [hEmpty, hTaken]

theorem lookup?_register (h : registry.register keyword kind schema = (registered, .ok ())) (key : SchemaKey) :
    registered.lookup? key.keyword key.kind =
      if key = ⟨keyword, kind⟩ then some schema else registry.lookup? key.keyword key.kind := by
  obtain ⟨⟨-, -, hNew⟩, rfl⟩ := register_ok_iff.mp h
  exact find?_insertSorted (lookup?_eq_none_iff.mp hNew) key

/-! ## Calls -/

inductive Call where
  | register (keyword kind : String) (schema : Schema)
  | freeze

/-- The registry behind a call, be it refused or not. -/
def perform (registry : Registry) : Call → Registry
  | .register keyword kind schema => (registry.register keyword kind schema).1
  | .freeze => registry.freeze

def run (registry : Registry) (calls : List Call) : Registry :=
  calls.foldl perform registry

/-- The schema that calls give a key: that of the first registration of it, unless a freeze comes earlier. -/
def given? (key : SchemaKey) : List Call → Option Schema
  | [] => none
  | .freeze :: _ => none
  | .register keyword kind schema :: rest =>
    if keyword ≠ "" ∧ key = ⟨keyword, kind⟩ then some schema else given? key rest

theorem run_cons (registry : Registry) (call : Call) (calls : List Call) :
    registry.run (call :: calls) = (registry.perform call).run calls := rfl

theorem perform_register_ok (h : registry.register keyword kind schema = (registered, .ok ())) :
    registry.perform (.register keyword kind schema) = registered := by
  rw [perform, h]

theorem perform_register_error (h : registry.register keyword kind schema = (registered, .error error)) :
    registry.perform (.register keyword kind schema) = registry := by
  rw [perform, h]
  exact (register_error_iff.mp h).1

theorem frozen_perform_register (registry : Registry) (keyword kind : String) (schema : Schema) :
    (registry.perform (.register keyword kind schema)).frozen = registry.frozen := by
  rcases h : registry.register keyword kind schema with ⟨registered, error | ⟨⟩⟩
  · rw [perform_register_error h]
  · rw [perform_register_ok h, (register_ok_iff.mp h).2]

/-- What a call does to a look-up: a schema that is there stays, and else one is there if the call gives one. -/
theorem lookup?_perform (registry : Registry) (call : Call) (key : SchemaKey) :
    (registry.perform call).lookup? key.keyword key.kind =
      (registry.lookup? key.keyword key.kind).or (if registry.frozen then none else given? key [call]) := by
  cases call with
  | freeze =>
    rw [perform, lookup?_freeze, given?, ite_self, Option.or_none]
  | register keyword kind schema =>
    rcases h : registry.register keyword kind schema with ⟨registered, error | ⟨⟩⟩
    · rw [perform_register_error h]
      obtain ⟨hFrozen, -⟩ | ⟨hFrozen, hKeyword, -⟩ | ⟨hFrozen, hKeyword, hTaken, -⟩ := (register_error_iff.mp h).2
      · simp [hFrozen]
      · simp [given?, hKeyword]
      · by_cases hKey : key = ⟨keyword, kind⟩
        · obtain ⟨taken, hTaken⟩ := Option.ne_none_iff_exists'.mp hTaken
          simp [hKey, hTaken]
        · simp [given?, hKey]
    · obtain ⟨⟨hFrozen, hKeyword, hNew⟩, -⟩ := register_ok_iff.mp h
      rw [perform_register_ok h, lookup?_register h, hFrozen]
      by_cases hKey : key = ⟨keyword, kind⟩
      · simp [given?, hKey, hKeyword, hNew]
      · simp [given?, hKey]

theorem lookup?_run (registry : Registry) (calls : List Call) (key : SchemaKey) :
    (registry.run calls).lookup? key.keyword key.kind =
      (registry.lookup? key.keyword key.kind).or (if registry.frozen then none else given? key calls) := by
  induction calls generalizing registry with
  | nil => rw [given?, ite_self, Option.or_none]; rfl
  | cons call rest ih =>
    rw [run_cons, ih, lookup?_perform, Option.or_assoc]
    congr 1
    cases call with
    | freeze => simp [perform, freeze, given?]
    | register keyword kind schema =>
      rw [frozen_perform_register]
      cases registry.frozen with
      | true => rfl
      | false =>
        simp only [given?, Bool.false_eq_true, if_false]
        split
        · rfl
        · rfl

/-! ## Order -/

/-- The keys are in strictly ascending order, so that none is there twice. -/
def Ascending (registry : Registry) : Prop :=
  registry.keys.Pairwise fun a b => a.lt b

theorem ascending_empty : empty.Ascending := List.Pairwise.nil

theorem ascending_perform (h : registry.Ascending) (call : Call) : (registry.perform call).Ascending := by
  cases call with
  | freeze => exact h
  | register keyword kind schema =>
    rcases hCall : registry.register keyword kind schema with ⟨registered, error | ⟨⟩⟩
    · rw [perform_register_error hCall]
      exact h
    · rw [perform_register_ok hCall]
      obtain ⟨⟨-, -, hNew⟩, rfl⟩ := register_ok_iff.mp hCall
      exact List.pairwise_map.mpr (pairwise_insertSorted (lookup?_eq_none_iff.mp hNew) (List.pairwise_map.mp h))

theorem ascending_run (h : registry.Ascending) (calls : List Call) : (registry.run calls).Ascending := by
  induction calls generalizing registry with
  | nil => exact h
  | cons call rest ih => exact ih (ascending_perform h call)

theorem Ascending.nodup (h : registry.Ascending) : registry.keys.Nodup :=
  List.Pairwise.imp SchemaKey.ne_of_lt h

theorem Ascending.mem_entries_iff (h : registry.Ascending) {key : SchemaKey} :
    (key, schema) ∈ registry.entries ↔ registry.lookup? key.keyword key.kind = some schema := by
  constructor
  · intro hMem
    cases hFind : registry.entries.find? (·.1 == key) with
    | none => exact absurd (BEq.rfl (a := key)) (List.find?_eq_none.mp hFind _ hMem)
    | some entry =>
      have hEntry : entry = (key, schema) :=
        List.inj_on_of_nodup_map h.nodup (List.mem_of_find?_eq_some hFind) hMem
          (by simpa using List.find?_some hFind)
      rw [lookup?, hFind, hEntry]
      rfl
  · intro hLookup
    obtain ⟨⟨_, _⟩, hFind, rfl⟩ := Option.map_eq_some_iff.mp hLookup
    obtain rfl : _ = key := by simpa using List.find?_some hFind
    exact List.mem_of_find?_eq_some hFind

/-! ## Every run -/

/-- What holds of a registry at any time. -/
structure WritesOnce (registry : Registry) : Prop where
  accepts : ∀ keyword kind schema, (∃ registered, registry.register keyword kind schema = (registered, .ok ())) ↔
    registry.frozen = false ∧ keyword ≠ "" ∧ registry.lookup? keyword kind = none
  /-- What is registered is there, and all else is as it was. -/
  writes : ∀ keyword kind schema registered, registry.register keyword kind schema = (registered, .ok ()) →
    (∀ key : SchemaKey, registered.lookup? key.keyword key.kind =
      if key = ⟨keyword, kind⟩ then some schema else registry.lookup? key.keyword key.kind) ∧
      registered.size = registry.size + 1 ∧ registered.frozen = registry.frozen
  /-- A refused call changes nothing and has its reason. -/
  refuses : ∀ keyword kind schema next error, registry.register keyword kind schema = (next, .error error) →
    next = registry ∧ (registry.frozen = true ∧ error = .frozen ⟨keyword, kind⟩ ∨
      registry.frozen = false ∧ keyword = "" ∧ error = .emptyKeyword ∨
      registry.frozen = false ∧ keyword ≠ "" ∧ registry.lookup? keyword kind ≠ none ∧
        error = .duplicate ⟨keyword, kind⟩)
  /-- A schema is the same in every later state. -/
  keeps : ∀ keyword kind schema, registry.lookup? keyword kind = some schema →
    ∀ later, (registry.run later).lookup? keyword kind = some schema
  /-- Behind a freeze every state has the same schemas. -/
  settles : ∀ later keyword kind, (registry.freeze.run later).lookup? keyword kind = registry.lookup? keyword kind
  ascending : registry.Ascending
  /-- Each pair with its schema is among the entries, and only once. -/
  lists : registry.keys.Nodup ∧ ∀ key schema, (key, schema) ∈ registry.entries ↔
    registry.lookup? key.keyword key.kind = some schema

theorem Ascending.writesOnce (h : registry.Ascending) : registry.WritesOnce where
  accepts keyword kind schema :=
    ⟨fun ⟨_, hCall⟩ => (register_ok_iff.mp hCall).1, fun hFree => ⟨_, register_ok_iff.mpr ⟨hFree, rfl⟩⟩⟩
  writes keyword kind schema registered hCall := by
    refine ⟨lookup?_register hCall, ?_⟩
    obtain ⟨-, rfl⟩ := register_ok_iff.mp hCall
    exact ⟨length_insertSorted, rfl⟩
  refuses keyword kind schema next error hCall := register_error_iff.mp hCall
  keeps keyword kind schema hLookup later := by
    rw [lookup?_run registry later ⟨keyword, kind⟩, hLookup, Option.some_or]
  settles later keyword kind := by
    rw [lookup?_run registry.freeze later ⟨keyword, kind⟩, lookup?_freeze]
    exact Option.or_none
  ascending := h
  lists := ⟨h.nodup, fun _ _ => h.mem_entries_iff⟩

/-- After any calls a registry writes once, and its schemas are those that the calls gave first. -/
theorem run_writesOnce (calls : List Call) : (empty.run calls).WritesOnce ∧
    ∀ key : SchemaKey, (empty.run calls).lookup? key.keyword key.kind = given? key calls := by
  refine ⟨(ascending_run ascending_empty calls).writesOnce, fun key => ?_⟩
  rw [lookup?_run]
  rfl

/-- Of two schemas for one pair the first is kept, a pair without a keyword is refused, and so is all behind
the freeze. -/
example (first second : Schema) :
    let calls : List Call := [.register "link" "" first, .register "" "x" first, .register "link" "" second,
      .register "dialog" "info" second, .freeze, .register "window" "" first]
    (empty.run calls).entries = [(⟨"dialog", "info"⟩, second), (⟨"link", ""⟩, first)] := by
  cbv

end Registry

end DialogTree
