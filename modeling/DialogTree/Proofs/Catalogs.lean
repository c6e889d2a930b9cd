import DialogTree.Catalog.Basic
import DialogTree.Proofs.Drafts
import DialogTree.Proofs.Registration
import Mathlib.Data.List.Perm.Basic

/-!
# What a catalog does to a registry

The entries of a catalog are compiled and registered one by one, and the first fault ends that. So a registry is
left with the schemas in front of the fault, each of which is new in it and lists the attributes of its entry as they
are written. Where the schemas of two catalogs are all new, their order does not matter.
-/

namespace DialogTree

/-! ## Registries that hold more -/

namespace Registry

variable {registry next : Registry} {a b : SchemaKey × Schema} {added more : List (SchemaKey × Schema)}

def holding (registry : Registry) (added : List (SchemaKey × Schema)) : Registry :=
  { registry with
    entries := added.foldl (fun entries entry => insertSorted entry.1 entry.2 entries) registry.entries }

@[simp] theorem holding_nil (registry : Registry) : registry.holding [] = registry := rfl

theorem holding_cons (registry : Registry) (a : SchemaKey × Schema) (added : List (SchemaKey × Schema)) :
    registry.holding (a :: added) = (registry.holding [a]).holding added := rfl

theorem holding_append (registry : Registry) (added more : List (SchemaKey × Schema)) :
    registry.holding (added ++ more) = (registry.holding added).holding more := by
  rw [holding, List.foldl_append]
  rfl

@[simp] theorem frozen_holding (registry : Registry) (added : List (SchemaKey × Schema)) :
    (registry.holding added).frozen = registry.frozen := rfl

theorem insertSorted_perm (a : SchemaKey × Schema) (entries : List (SchemaKey × Schema)) :
    (insertSorted a.1 a.2 entries).Perm (a :: entries) := by
  induction entries with
  | nil => exact .refl _
  | cons first rest ih =>
    rw [insertSorted]
    split
    · exact .refl _
    · exact (ih.cons first).trans (.swap a first rest)

theorem holding_perm (registry : Registry) (added : List (SchemaKey × Schema)) :
    (registry.holding added).entries.Perm (registry.entries ++ added) := by
  induction added generalizing registry with
  | nil => simp
  | cons a added ih =>
    have hFirst : (registry.holding [a]).entries.Perm (a :: registry.entries) := insertSorted_perm a _
    exact (ih (registry.holding [a])).trans ((hFirst.append_right added).trans List.perm_middle.symm)

theorem mem_keys_holding {key : SchemaKey} :
    key ∈ (registry.holding added).keys ↔ key ∈ registry.keys ∨ key ∈ added.map Prod.fst := by
  rw [keys, ((holding_perm registry added).map Prod.fst).mem_iff, List.map_append, List.mem_append, keys]

/-- Two schemas may be added in either order when the smaller key comes first in one of them. -/
theorem insertSorted_comm_of_lt (hLess : a.1.lt b.1) (entries : List (SchemaKey × Schema)) :
    insertSorted a.1 a.2 (insertSorted b.1 b.2 entries) =
      insertSorted b.1 b.2 (insertSorted a.1 a.2 entries) := by
  have hNot : ¬b.1.lt a.1 := fun hMore => SchemaKey.lt_irrefl _ (SchemaKey.lt_trans hLess hMore)
  induction entries with
  | nil => simp [insertSorted, hLess, hNot]
  | cons first rest ih =>
    by_cases hFirst : a.1.lt first.1
    · by_cases hSecond : b.1.lt first.1
      · simp [insertSorted, hFirst, hSecond, hLess, hNot]
      · simp [insertSorted, hFirst, hSecond, hNot]
    · have hSecond : ¬b.1.lt first.1 := fun hMore => hFirst (SchemaKey.lt_trans hLess hMore)
      simp [insertSorted, hFirst, hSecond, ih]

theorem insertSorted_comm (hNe : a.1 ≠ b.1) (entries : List (SchemaKey × Schema)) :
    insertSorted a.1 a.2 (insertSorted b.1 b.2 entries) =
      insertSorted b.1 b.2 (insertSorted a.1 a.2 entries) := by
  by_cases hLess : a.1.lt b.1
  · exact insertSorted_comm_of_lt hLess entries
  · exact (insertSorted_comm_of_lt (SchemaKey.lt_of_not_lt hLess hNe) entries).symm

/-- Schemas with different keys may be added in any order. -/
theorem holding_eq_of_perm (hPerm : added.Perm more) (hKeys : (added.map Prod.fst).Nodup) :
    registry.holding added = registry.holding more := by
  have hComm : ∀ a ∈ added, ∀ b ∈ added, ∀ entries,
      insertSorted b.1 b.2 (insertSorted a.1 a.2 entries) =
        insertSorted a.1 a.2 (insertSorted b.1 b.2 entries) := by
    intro a ha b hb entries
    by_cases hSame : b.1 = a.1
    · rw [List.inj_on_of_nodup_map hKeys hb ha hSame]
    · exact insertSorted_comm hSame entries
  rw [holding, hPerm.foldl_eq' hComm, holding]

/-! ## Schemas that a registry takes -/

/-- The registry has room for the schemas: it is not frozen, and each of them has a keyword and a key of its own. -/
structure HasRoomFor (registry : Registry) (added : List (SchemaKey × Schema)) : Prop where
  frozen : ∀ entry ∈ added, registry.frozen = false
  keyword : ∀ entry ∈ added, entry.1.keyword ≠ ""
  fresh : ∀ entry ∈ added, entry.1 ∉ registry.keys
  nodup : (added.map Prod.fst).Nodup

theorem hasRoomFor_nil (registry : Registry) : registry.HasRoomFor [] := by
  constructor <;> simp

theorem hasRoomFor_append_iff : registry.HasRoomFor (added ++ more) ↔
    registry.HasRoomFor added ∧ (registry.holding added).HasRoomFor more := by
  constructor
  · intro h
    have hKeys := h.nodup
    rw [List.map_append, List.nodup_append] at hKeys
    obtain ⟨hAdded, hMore, hApart⟩ := hKeys
    refine ⟨⟨?_, ?_, ?_, hAdded⟩, ⟨?_, ?_, ?_, hMore⟩⟩
    · exact fun entry hEntry => h.frozen entry (List.mem_append_left _ hEntry)
    · exact fun entry hEntry => h.keyword entry (List.mem_append_left _ hEntry)
    · exact fun entry hEntry => h.fresh entry (List.mem_append_left _ hEntry)
    · exact fun entry hEntry => h.frozen entry (List.mem_append_right _ hEntry)
    · exact fun entry hEntry => h.keyword entry (List.mem_append_right _ hEntry)
    · intro entry hEntry hTaken
      obtain hOld | hNew := mem_keys_holding.mp hTaken
      · exact h.fresh entry (List.mem_append_right _ hEntry) hOld
      · exact hApart _ hNew _ (List.mem_map_of_mem hEntry) rfl
  · rintro ⟨hFirst, hSecond⟩
    refine ⟨?_, ?_, ?_, ?_⟩
    · intro entry hEntry
      exact (List.mem_append.mp hEntry).elim (hFirst.frozen entry) (hSecond.frozen entry)
    · intro entry hEntry
      exact (List.mem_append.mp hEntry).elim (hFirst.keyword entry) (hSecond.keyword entry)
    · intro entry hEntry hTaken
      obtain hEntry | hEntry := List.mem_append.mp hEntry
      · exact hFirst.fresh entry hEntry hTaken
      · exact hSecond.fresh entry hEntry (mem_keys_holding.mpr (.inl hTaken))
    · rw [List.map_append, List.nodup_append]
      refine ⟨hFirst.nodup, hSecond.nodup, ?_⟩
      rintro key hKey _ hSame rfl
      obtain ⟨entry, hEntry, rfl⟩ := List.mem_map.mp hSame
      exact hSecond.fresh entry hEntry (mem_keys_holding.mpr (.inr hKey))

theorem HasRoomFor.perm (h : registry.HasRoomFor added) (hPerm : added.Perm more) : registry.HasRoomFor more where
  frozen entry hEntry := h.frozen entry (hPerm.mem_iff.mpr hEntry)
  keyword entry hEntry := h.keyword entry (hPerm.mem_iff.mpr hEntry)
  fresh entry hEntry := h.fresh entry (hPerm.mem_iff.mpr hEntry)
  nodup := (hPerm.map Prod.fst).nodup_iff.mp h.nodup

theorem register_ok_iff_room {keyword kind : String} {schema : Schema} :
    registry.register keyword kind schema = (next, .ok ()) ↔
      registry.HasRoomFor [(⟨keyword, kind⟩, schema)] ∧ next = registry.holding [(⟨keyword, kind⟩, schema)] := by
  rw [register_ok_iff, lookup?_eq_none_iff]
  refine and_congr_left fun _ => ⟨?_, ?_⟩
  · rintro ⟨hFrozen, hKeyword, hFresh⟩
    constructor <;> simp [hFrozen, hKeyword, hFresh]
  · intro h
    exact ⟨h.frozen _ List.mem_cons_self, h.keyword _ List.mem_cons_self, h.fresh _ List.mem_cons_self⟩

/-- Why a registry refuses a key behind entries with other keys. -/
inductive Refuses (registry : Registry) (earlier : List SchemaKey) (key : SchemaKey) : RegistryError → Prop where
  | frozen (hFrozen : registry.frozen = true) : Refuses registry earlier key (.frozen key)
  | emptyKeyword (hOpen : registry.frozen = false) (hEmpty : key.keyword = "") :
    Refuses registry earlier key .emptyKeyword
  | duplicate (hOpen : registry.frozen = false) (hKeyword : key.keyword ≠ "")
    (hTaken : key ∈ registry.keys ∨ key ∈ earlier) : Refuses registry earlier key (.duplicate key)

theorem register_error_iff_refuses {keyword kind : String} {schema : Schema} {error : RegistryError} :
    (registry.holding added).register keyword kind schema = (next, .error error) ↔
      next = registry.holding added ∧ registry.Refuses (added.map Prod.fst) ⟨keyword, kind⟩ error := by
  rw [register_error_iff, Ne, Ne, lookup?_eq_none_iff, not_not, mem_keys_holding, frozen_holding]
  refine and_congr_right fun _ => ?_
  constructor
  · rintro (⟨hFrozen, rfl⟩ | ⟨hOpen, hEmpty, rfl⟩ | ⟨hOpen, hKeyword, hTaken, rfl⟩)
    · exact .frozen hFrozen
    · exact .emptyKeyword hOpen hEmpty
    · exact .duplicate hOpen hKeyword hTaken
  · intro hRefuses
    cases hRefuses with
    | frozen hFrozen => exact .inl ⟨hFrozen, rfl⟩
    | emptyKeyword hOpen hEmpty => exact .inr (.inl ⟨hOpen, hEmpty, rfl⟩)
    | duplicate hOpen hKeyword hTaken => exact .inr (.inr ⟨hOpen, hKeyword, hTaken, rfl⟩)

/-- The registry `next` holds what the registry held, the added schemas, and nothing else. -/
structure Extends (registry next : Registry) (added : List (SchemaKey × Schema)) : Prop where
  contents : next.entries.Perm (registry.entries ++ added)
  fresh : (∀ entry ∈ added, entry.1 ∉ registry.keys) ∧ (added.map Prod.fst).Nodup
  lookup : ∀ key : SchemaKey, next.lookup? key.keyword key.kind =
    (registry.lookup? key.keyword key.kind).or ((added.find? (·.1 == key)).map Prod.snd)
  ascending : registry.Ascending → next.Ascending
  frozen : next.frozen = registry.frozen

theorem lookup?_holding (h : registry.HasRoomFor added) (key : SchemaKey) :
    (registry.holding added).lookup? key.keyword key.kind =
      (registry.lookup? key.keyword key.kind).or ((added.find? (·.1 == key)).map Prod.snd) := by
  induction added generalizing registry with
  | nil => simp
  | cons a added ih =>
    obtain ⟨hFirst, hRest⟩ := hasRoomFor_append_iff.mp (show registry.HasRoomFor ([a] ++ added) from h)
    have hNew : a.1 ∉ registry.keys := hFirst.fresh a List.mem_cons_self
    have hAdded : (registry.holding [a]).lookup? key.keyword key.kind =
        if key = a.1 then some a.2 else registry.lookup? key.keyword key.kind := find?_insertSorted hNew key
    rw [holding_cons, ih hRest, hAdded]
    by_cases hKey : key = a.1
    · subst hKey
      rw [if_pos rfl, Option.some_or, lookup?_eq_none_iff.mpr hNew, Option.none_or,
        List.find?_cons_of_pos (by simp), Option.map_some]
    · rw [if_neg hKey, List.find?_cons_of_neg (by simpa using Ne.symm hKey)]

theorem ascending_holding (h : registry.HasRoomFor added) (hAscending : registry.Ascending) :
    (registry.holding added).Ascending := by
  induction added generalizing registry with
  | nil => exact hAscending
  | cons a added ih =>
    obtain ⟨hFirst, hRest⟩ := hasRoomFor_append_iff.mp (show registry.HasRoomFor ([a] ++ added) from h)
    have hNew : a.1 ∉ registry.keys := hFirst.fresh a List.mem_cons_self
    exact ih hRest (List.pairwise_map.mpr (pairwise_insertSorted hNew (List.pairwise_map.mp hAscending)))

theorem HasRoomFor.extends (h : registry.HasRoomFor added) : registry.Extends (registry.holding added) added where
  contents := holding_perm registry added
  fresh := ⟨h.fresh, h.nodup⟩
  lookup := lookup?_holding h
  ascending := ascending_holding h
  frozen := rfl

end Registry

/-! ## Entries -/

namespace CatalogEntry

/-- The attributes of an entry as declarations, in their order. -/
def declarations (entry : CatalogEntry) : List SchemaEntry :=
  entry.attributes.map fun spec => ⟨spec.name, spec.required, .rule spec.rule⟩

section Entries

variable [PatternEngine] {registry next : Registry} {entry : CatalogEntry} {earlier : List CatalogEntry}
  {error : CatalogError}

/-- The schema that an entry writes: its attributes in their order, required or not, each checked by its rule, and
its bounds on children. -/
def schema (entry : CatalogEntry) : Schema where
  attributes := entry.attributes.map fun spec => ⟨spec.name, spec.required, spec.rule.checker⟩
  children := entry.children

def compiled (entries : List CatalogEntry) : List (SchemaKey × Schema) :=
  entries.map fun entry => (entry.key, entry.schema)

/-- The entry writes a schema: its bounds are in order, its attributes have names of their own that may be declared,
and its patterns are patterns. -/
structure Sound (entry : CatalogEntry) : Prop where
  bounds : BoundsInOrder entry.children
  declarations : Consistent entry.declarations

/-- What is wrong with an entry behind other entries. The first fault of its schema comes before one of the
registry. -/
inductive Fault (registry : Registry) (earlier : List CatalogEntry) (entry : CatalogEntry) :
    CatalogError → Prop where
  | schema {error : SchemaError} (hFault : SchemaFault entry.declarations entry.children error) :
    Fault registry earlier entry (.schema entry.key error)
  | registry {error : RegistryError} (hSound : entry.Sound)
    (hRefused : registry.Refuses (earlier.map key) entry.key error) : Fault registry earlier entry (.registry error)

def Faultless (registry : Registry) (entries : List CatalogEntry) : Prop :=
  ∀ earlier entry later error, entries = earlier ++ entry :: later → ¬entry.Fault registry earlier error

/-- The first entry with a fault, and the entries in front of it. -/
structure FirstFault (registry : Registry) (entries earlier : List CatalogEntry) (entry : CatalogEntry)
    (error : CatalogError) : Prop where
  split : ∃ later, entries = earlier ++ entry :: later
  faultless : Faultless registry earlier
  fault : entry.Fault registry earlier error

theorem keys_compiled (entries : List CatalogEntry) : (compiled entries).map Prod.fst = entries.map key := by
  rw [compiled, List.map_map]
  rfl

theorem build_draft_ok_iff {schema : Schema} :
    entry.draft.build = .ok schema ↔ entry.Sound ∧ schema = entry.schema := by
  have hCompiled : entry.declarations.map SchemaEntry.compiled = entry.schema.attributes := by
    rw [declarations, List.map_map]
    rfl
  rw [SchemaDraft.build_ok_iff]
  change (_ ∧ _) ∧ schema = ⟨entry.declarations.map SchemaEntry.compiled, _⟩ ↔ _
  rw [hCompiled]
  exact and_congr_left fun _ => ⟨fun h => ⟨h.1, h.2⟩, fun h => ⟨h.bounds, h.declarations⟩⟩

theorem build_draft_error_iff {fault : SchemaError} :
    entry.draft.build = .error fault ↔ SchemaFault entry.declarations entry.children fault :=
  SchemaDraft.build_error_iff

theorem registerInto_of_fault {fault : SchemaError} (h : SchemaFault entry.declarations entry.children fault) :
    entry.registerInto registry = (registry, .error (.schema entry.key fault)) := by
  rw [registerInto, build_draft_error_iff.mpr h]

theorem registerInto_of_sound (h : entry.Sound) :
    entry.registerInto registry =
      ((registry.register entry.keyword entry.kind entry.schema).1,
        (registry.register entry.keyword entry.kind entry.schema).2.mapError .registry) := by
  simp only [registerInto, build_draft_ok_iff.mpr ⟨h, rfl⟩]
  rcases registry.register entry.keyword entry.kind entry.schema with ⟨other, fault | ⟨⟩⟩ <;> rfl

theorem sound_or_fault (entry : CatalogEntry) :
    entry.Sound ∨ ∃ fault, SchemaFault entry.declarations entry.children fault :=
  entry.draft.consistent_or_schemaFault.imp_left fun h => ⟨h.1, h.2⟩

theorem registerInto_ok_iff : entry.registerInto registry = (next, .ok ()) ↔
    entry.Sound ∧ registry.HasRoomFor [(entry.key, entry.schema)] ∧
      next = registry.holding [(entry.key, entry.schema)] := by
  rcases entry.sound_or_fault with hSound | ⟨fault, hFault⟩
  · have hRegister := @Registry.register_ok_iff_room registry next entry.keyword entry.kind entry.schema
    rw [registerInto_of_sound hSound, key, ← hRegister, and_iff_right hSound]
    rcases registry.register entry.keyword entry.kind entry.schema with ⟨other, refusal | ⟨⟩⟩ <;>
      simp [Except.mapError]
  · have hNot : ¬entry.Sound := fun hSound => by
      have hBuilt : entry.draft.build = .ok entry.schema := build_draft_ok_iff.mpr ⟨hSound, rfl⟩
      rw [build_draft_error_iff.mpr hFault] at hBuilt
      cases hBuilt
    simp [registerInto_of_fault hFault, hNot]

theorem registerInto_error_iff :
    entry.registerInto (registry.holding (compiled earlier)) = (next, .error error) ↔
      next = registry.holding (compiled earlier) ∧ entry.Fault registry earlier error := by
  constructor
  · intro hError
    rcases entry.sound_or_fault with hSound | ⟨fault, hFault⟩
    · rw [registerInto_of_sound hSound] at hError
      rcases hRegister : (registry.holding (compiled earlier)).register entry.keyword entry.kind entry.schema with
        ⟨other, refusal | ⟨⟩⟩
      · rw [hRegister] at hError
        cases hError
        obtain ⟨hSame, hRefused⟩ := Registry.register_error_iff_refuses.mp hRegister
        exact ⟨hSame, .registry hSound (keys_compiled earlier ▸ hRefused)⟩
      · rw [hRegister] at hError
        cases hError
    · rw [registerInto_of_fault hFault] at hError
      cases hError
      exact ⟨rfl, .schema hFault⟩
  · rintro ⟨rfl, hFault⟩
    cases hFault with
    | schema hFault => exact registerInto_of_fault hFault
    | registry hSound hRefused =>
      rw [← keys_compiled] at hRefused
      rw [registerInto_of_sound hSound, Registry.register_error_iff_refuses.mpr ⟨rfl, hRefused⟩]
      rfl

end Entries

end CatalogEntry

/-! ## Catalogs -/

namespace Catalog

open CatalogEntry

section Catalogs

variable [PatternEngine] {registry next : Registry} {entries : List CatalogEntry} {error : CatalogError}

theorem registerEntries_cons (registry : Registry) (entry : CatalogEntry) (rest : List CatalogEntry) :
    registerEntries registry (entry :: rest) =
      match entry.registerInto registry with
      | (next, .error error) => (next, .error error)
      | (next, .ok ()) => registerEntries next rest := rfl

theorem registerEntries_ok_iff : registerEntries registry entries = (next, .ok ()) ↔
    (∀ entry ∈ entries, entry.Sound) ∧ registry.HasRoomFor (compiled entries) ∧
      next = registry.holding (compiled entries) := by
  induction entries generalizing registry with
  | nil =>
    constructor
    · rintro ⟨⟩
      exact ⟨fun _ h => absurd h List.not_mem_nil, Registry.hasRoomFor_nil _, rfl⟩
    · rintro ⟨-, -, rfl⟩
      rfl
  | cons entry rest ih =>
    have hSplit : registry.HasRoomFor (compiled (entry :: rest)) ↔ registry.HasRoomFor [(entry.key, entry.schema)] ∧
        (registry.holding [(entry.key, entry.schema)]).HasRoomFor (compiled rest) :=
      @Registry.hasRoomFor_append_iff registry [(entry.key, entry.schema)] (compiled rest)
    rw [registerEntries_cons, List.forall_mem_cons, hSplit]
    constructor
    · rcases hFirst : entry.registerInto registry with ⟨between, fault | ⟨⟩⟩
      · rintro ⟨⟩
      · intro hRest
        obtain ⟨hSound, hRoom, rfl⟩ := registerInto_ok_iff.mp hFirst
        obtain ⟨hSounds, hMore, rfl⟩ := ih.mp hRest
        exact ⟨⟨hSound, hSounds⟩, ⟨hRoom, hMore⟩, rfl⟩
    · rintro ⟨⟨hSound, hSounds⟩, ⟨hRoom, hMore⟩, rfl⟩
      rw [registerInto_ok_iff.mpr ⟨hSound, hRoom, rfl⟩]
      exact ih.mpr ⟨hSounds, hMore, rfl⟩

theorem registerEntries_error (h : registerEntries registry entries = (next, .error error)) :
    ∃ earlier entry later between, entries = earlier ++ entry :: later ∧
      registerEntries registry earlier = (between, .ok ()) ∧ entry.registerInto between = (next, .error error) := by
  induction entries generalizing registry with
  | nil => cases h
  | cons entry rest ih =>
    rw [registerEntries_cons] at h
    rcases hFirst : entry.registerInto registry with ⟨between, fault | ⟨⟩⟩
    · rw [hFirst] at h
      cases h
      exact ⟨[], entry, rest, registry, rfl, rfl, hFirst⟩
    · rw [hFirst] at h
      obtain ⟨earlier, faulty, later, behind, rfl, hEarlier, hFaulty⟩ := ih h
      refine ⟨entry :: earlier, faulty, later, behind, rfl, ?_, hFaulty⟩
      rw [registerEntries_cons, hFirst]
      exact hEarlier

theorem registerEntries_append_ok {earlier rest : List CatalogEntry}
    (h : registerEntries registry (earlier ++ rest) = (next, .ok ())) :
    ∃ between, registerEntries registry earlier = (between, .ok ()) ∧
      registerEntries between rest = (next, .ok ()) := by
  induction earlier generalizing registry with
  | nil => exact ⟨registry, rfl, h⟩
  | cons entry earlier ih =>
    rw [List.cons_append, registerEntries_cons] at h
    rw [registerEntries_cons]
    rcases hFirst : entry.registerInto registry with ⟨registered, fault | ⟨⟩⟩
    · rw [hFirst] at h
      cases h
    · rw [hFirst] at h
      exact ih h

theorem faultless_of_ok (h : registerEntries registry entries = (next, .ok ())) : Faultless registry entries := by
  rintro earlier entry later error rfl hFault
  obtain ⟨between, hEarlier, hRest⟩ := registerEntries_append_ok h
  obtain ⟨-, -, rfl⟩ := registerEntries_ok_iff.mp hEarlier
  rw [registerEntries_cons, registerInto_error_iff.mpr ⟨rfl, hFault⟩] at hRest
  cases hRest

theorem firstFault_of_error (h : registerEntries registry entries = (next, .error error)) :
    ∃ earlier entry, FirstFault registry entries earlier entry error ∧ registry.Extends next (compiled earlier) := by
  obtain ⟨earlier, entry, later, between, hSplit, hEarlier, hEntry⟩ := registerEntries_error h
  have hFaultless := faultless_of_ok hEarlier
  obtain ⟨-, hRoom, rfl⟩ := registerEntries_ok_iff.mp hEarlier
  obtain ⟨rfl, hFault⟩ := registerInto_error_iff.mp hEntry
  exact ⟨earlier, entry, ⟨⟨later, hSplit⟩, hFaultless, hFault⟩, hRoom.extends⟩

variable {catalog second : Catalog} {count : Nat}

theorem registerInto_ok_iff : catalog.registerInto registry = (next, .ok count) ↔
    catalog.version ∈ supportedVersions ∧ count = catalog.entries.length ∧
      registerEntries registry catalog.entries = (next, .ok ()) := by
  rw [registerInto]
  by_cases hVersion : catalog.version ∈ supportedVersions
  · rcases registerEntries registry catalog.entries with ⟨other, ⟨error⟩ | ⟨⟩⟩
    · simp [hVersion, Except.map]
    · simp [hVersion, Except.map, and_comm, eq_comm]
  · simp [hVersion]

/-- Schemas that a registry takes one list after the other it takes in the other order as well. -/
theorem registerEntries_swap {first later : List CatalogEntry} {between last : Registry}
    (hFirst : registerEntries registry first = (between, .ok ()))
    (hLater : registerEntries between later = (last, .ok ())) :
    ∃ other, registerEntries registry later = (other, .ok ()) ∧ registerEntries other first = (last, .ok ()) := by
  obtain ⟨hSound, hRoom, rfl⟩ := registerEntries_ok_iff.mp hFirst
  obtain ⟨hMore, hThen, rfl⟩ := registerEntries_ok_iff.mp hLater
  have hBoth : registry.HasRoomFor (compiled first ++ compiled later) :=
    Registry.hasRoomFor_append_iff.mpr ⟨hRoom, hThen⟩
  have hSwapped := hBoth.perm List.perm_append_comm
  obtain ⟨hFresh, hBehind⟩ := Registry.hasRoomFor_append_iff.mp hSwapped
  have hSame : (registry.holding (compiled first)).holding (compiled later) =
      (registry.holding (compiled later)).holding (compiled first) := by
    rw [← Registry.holding_append, ← Registry.holding_append,
      Registry.holding_eq_of_perm List.perm_append_comm hBoth.nodup]
  exact ⟨registry.holding (compiled later), registerEntries_ok_iff.mpr ⟨hMore, hFresh, rfl⟩,
    registerEntries_ok_iff.mpr ⟨hSound, hBehind, hSame⟩⟩

/-- What a catalog does to a registry. A version that is not supported changes nothing; else the registry is left
with the schemas that the entries in front of the first faulty one write and the fault is returned, or, without a
fault, it is left with those of all entries and their number is returned. Two catalogs that a registry takes one
after the other it takes in either order, and the registries are the same then. -/
theorem registerInto_effect (catalog second : Catalog) (registry : Registry) :
    (catalog.version ∉ supportedVersions ∧
        catalog.registerInto registry = (registry, .error (.unsupportedVersion catalog.version)) ∨
      catalog.version ∈ supportedVersions ∧ (∃ earlier entry error next,
        FirstFault registry catalog.entries earlier entry error ∧ registry.Extends next (compiled earlier) ∧
          catalog.registerInto registry = (next, .error error)) ∨
      catalog.version ∈ supportedVersions ∧ (∃ next,
        Faultless registry catalog.entries ∧ registry.Extends next (compiled catalog.entries) ∧
          catalog.registerInto registry = (next, .ok catalog.entries.length))) ∧
    ∀ between last count later, catalog.registerInto registry = (between, .ok count) →
      second.registerInto between = (last, .ok later) →
        ∃ other, second.registerInto registry = (other, .ok later) ∧
          catalog.registerInto other = (last, .ok count) := by
  constructor
  · by_cases hVersion : catalog.version ∈ supportedVersions
    · right
      rw [registerInto, if_pos (List.contains_iff_mem.mpr hVersion)]
      rcases hResult : registerEntries registry catalog.entries with ⟨next, error | ⟨⟩⟩
      · obtain ⟨earlier, entry, hFault, hExtends⟩ := firstFault_of_error hResult
        exact .inl ⟨hVersion, earlier, entry, error, next, hFault, hExtends, rfl⟩
      · obtain ⟨-, hRoom, rfl⟩ := registerEntries_ok_iff.mp hResult
        exact .inr ⟨hVersion, _, faultless_of_ok hResult, hRoom.extends, rfl⟩
    · refine .inl ⟨hVersion, ?_⟩
      rw [registerInto, if_neg (by simpa using hVersion)]
  · intro between last count later hFirst hSecond
    obtain ⟨hVersion, hCount, hEntries⟩ := registerInto_ok_iff.mp hFirst
    obtain ⟨hVersion', hCount', hEntries'⟩ := registerInto_ok_iff.mp hSecond
    obtain ⟨other, hOther, hLast⟩ := registerEntries_swap hEntries hEntries'
    exact ⟨other, registerInto_ok_iff.mpr ⟨hVersion', hCount', hOther⟩,
      registerInto_ok_iff.mpr ⟨hVersion, hCount, hLast⟩⟩

end Catalogs

def meter : CatalogEntry :=
  ⟨"meter", "", [⟨"value", true, .integer ⟨some 0, some 100⟩⟩,
    ⟨"unit", false, .string ⟨none, none, some "^[a-z]+$", []⟩⟩], some (.atMost 2)⟩

def statusLine : CatalogEntry :=
  ⟨"status", "line", [⟨"message", true, .string .any⟩], none⟩

/-- The second of three entries declares a key that is reserved. -/
def faultyGauges : Catalog :=
  ⟨"1.0", [meter, ⟨"dialog", "bad", [⟨"title", false, .any⟩, ⟨"children", false, .any⟩], none⟩, statusLine]⟩

theorem registerInto_effect_midway :
    letI := Pattern.engine
    (∃ next, faultyGauges.registerInto .empty =
        (next, .error (.schema ⟨"dialog", "bad"⟩ (.reservedAttribute "children"))) ∧
      Registry.empty.Extends next (compiled [meter])) ∧
    ∃ between last other, registerInto ⟨"1", [meter]⟩ .empty = (between, .ok 1) ∧
      registerInto ⟨"1", [statusLine]⟩ between = (last, .ok 1) ∧
      registerInto ⟨"1", [statusLine]⟩ .empty = (other, .ok 1) ∧ registerInto ⟨"1", [meter]⟩ other = (last, .ok 1) := by
  let _ := Pattern.engine
  constructor
  · have hStops : (faultyGauges.registerInto .empty).2 =
        .error (.schema ⟨"dialog", "bad"⟩ (.reservedAttribute "children")) := by decide +kernel
    have hSize : (faultyGauges.registerInto .empty).1.entries.length = 1 := by decide +kernel
    obtain ⟨hVersion, -⟩ | ⟨-, earlier, entry, error, next, hFirst, hExtends, hRun⟩ | ⟨-, next, -, -, hRun⟩ :=
      (registerInto_effect faultyGauges faultyGauges .empty).1
    · exact absurd (by decide) hVersion
    · rw [hRun] at hStops hSize
      obtain ⟨later, hSplit⟩ := hFirst.split
      have hLength : earlier.length = 1 := by
        rw [← hSize, hExtends.contents.length_eq, compiled]
        simp [Registry.empty]
      have hTaken : (earlier ++ entry :: later).take earlier.length = earlier := List.take_left
      rw [← hSplit, hLength] at hTaken
      rw [← hTaken] at hExtends
      rw [Except.error.inj hStops] at hRun
      exact ⟨next, hRun, hExtends⟩
    · rw [hRun] at hStops
      cases hStops
  · have hFirst : registerInto ⟨"1", [meter]⟩ .empty = ((registerInto ⟨"1", [meter]⟩ .empty).1, .ok 1) :=
      Prod.ext rfl (by decide +kernel)
    have hSecond : registerInto ⟨"1", [statusLine]⟩ (registerInto ⟨"1", [meter]⟩ .empty).1 =
        ((registerInto ⟨"1", [statusLine]⟩ (registerInto ⟨"1", [meter]⟩ .empty).1).1, .ok 1) :=
      Prod.ext rfl (by decide +kernel)
    obtain ⟨other, hOther, hLast⟩ :=
      (registerInto_effect ⟨"1", [meter]⟩ ⟨"1", [statusLine]⟩ .empty).2 _ _ _ _ hFirst hSecond
    exact ⟨_, _, other, hFirst, hSecond, hOther, hLast⟩

end Catalog

end DialogTree
