import DialogTree.Value
/-!
# Attribute maps

An attribute map holds one value per key, in the order in which the keys were first inserted.
-/

namespace DialogTree

/-- Keys are distinct, so that a key has what it is stored with. -/
theorem find?_key_eq_some_iff {α : Type} {entries : List (String × α)} {key : String} {found : α}
    (hNodup : (entries.map Prod.fst).Nodup) :
    (entries.find? fun entry => entry.1 == key).map Prod.snd = some found ↔ (key, found) ∈ entries := by
  induction entries with
  | nil => simp
  | cons entry entries ih =>
    obtain ⟨first, v⟩ := entry
    rw [List.map_cons, List.nodup_cons] at hNodup
    by_cases hFirst : first = key
    · subst hFirst
      have hAbsent : (first, found) ∉ entries :=
        fun hMem => hNodup.1 (List.mem_map.mpr ⟨(first, found), hMem, rfl⟩)
      simp [hAbsent, eq_comm]
    · have hOther : (first == key) = false := by simpa using hFirst
      have hNot : (key, found) ≠ (first, v) := fun h => hFirst (Prod.mk.inj h).1.symm
      rw [List.find?_cons_of_neg (by simp [hOther]), ih hNodup.2]
      simp [hNot]

structure AttributeMap where
  entries : List (String × Value)
  nodup : (entries.map Prod.fst).Nodup

namespace AttributeMap

theorem ext_of {a b : AttributeMap} (h : a.entries = b.entries) : a = b := by
  cases a; cases b; simp_all

def empty : AttributeMap := ⟨[], List.nodup_nil⟩

instance : Inhabited AttributeMap := ⟨empty⟩

def keys (map : AttributeMap) : List String :=
  map.entries.map Prod.fst

def size (map : AttributeMap) : Nat :=
  map.entries.length

def get? (map : AttributeMap) (key : String) : Option Value :=
  (map.entries.find? fun entry => entry.1 == key).map Prod.snd

def contains (map : AttributeMap) (key : String) : Bool :=
  map.entries.any fun entry => entry.1 == key

theorem contains_iff {map : AttributeMap} {key : String} :
    map.contains key = true ↔ key ∈ map.keys := by
  simp only [contains, keys, List.any_eq_true, beq_iff_eq, List.mem_map]

theorem isSome_get? (map : AttributeMap) (key : String) : (map.get? key).isSome = map.contains key := by
  rw [get?, contains, Option.isSome_map, List.isSome_find?]

theorem get?_eq_some_iff {map : AttributeMap} {key : String} {value : Value} :
    map.get? key = some value ↔ (key, value) ∈ map.entries :=
  find?_key_eq_some_iff map.nodup

theorem get?_eq_none_iff {map : AttributeMap} {key : String} :
    map.get? key = none ↔ ∀ value, (key, value) ∉ map.entries := by
  constructor
  · intro hNone value hMem
    rw [get?_eq_some_iff.mpr hMem] at hNone
    cases hNone
  · intro hAbsent
    cases hValue : map.get? key with
    | none => rfl
    | some value => exact absurd (get?_eq_some_iff.mp hValue) (hAbsent value)

theorem get?_eq_none_of_not_mem {map : AttributeMap} {key : String} (h : key ∉ map.keys) : map.get? key = none := by
  rw [← Option.not_isSome_iff_eq_none, isSome_get?, contains_iff]
  exact h

theorem map_fst_map_snd (entries : List (String × Value)) (f : String → Value → Value) :
    (entries.map fun entry => (entry.1, f entry.1 entry.2)).map Prod.fst = entries.map Prod.fst := by
  simp [Function.comp_def]

def mapValues (map : AttributeMap) (f : String → Value → Value) : AttributeMap where
  entries := map.entries.map fun entry => (entry.1, f entry.1 entry.2)
  nodup := by rw [map_fst_map_snd]; exact map.nodup

@[simp] theorem keys_mapValues (map : AttributeMap) (f : String → Value → Value) :
    (map.mapValues f).keys = map.keys :=
  map_fst_map_snd map.entries f

theorem get?_mapValues (map : AttributeMap) (f : String → Value → Value) (key : String) :
    (map.mapValues f).get? key = (map.get? key).map (f key) := by
  cases hValue : map.get? key with
  | some value =>
    rw [get?_eq_some_iff] at hValue
    exact get?_eq_some_iff.mpr (List.mem_map.mpr ⟨(key, value), hValue, rfl⟩)
  | none =>
    rw [get?_eq_none_iff] at hValue
    refine get?_eq_none_iff.mpr fun mapped hMem => ?_
    obtain ⟨⟨_, value⟩, hEntry, hPair⟩ := List.mem_map.mp hMem
    cases hPair
    exact hValue value hEntry

def modify (map : AttributeMap) (key : String) (f : Value → Value) : AttributeMap :=
  map.mapValues fun k value => if k = key then f value else value

theorem get?_modify (map : AttributeMap) (edited : String) (f : Value → Value) (key : String) :
    (map.modify edited f).get? key = if edited = key then (map.get? key).map f else map.get? key := by
  rw [modify, get?_mapValues]
  by_cases hKey : edited = key
  · simp [hKey]
  · simp [hKey, Ne.symm hKey]

/-- A new key goes to the end; a known key keeps its place and takes the new value. -/
def insert (map : AttributeMap) (key : String) (value : Value) : AttributeMap :=
  if h : key ∈ map.keys then map.modify key fun _ => value
  else
    { entries := map.entries ++ [(key, value)]
      nodup := by
        rw [List.map_append, List.nodup_append]
        refine ⟨map.nodup, by simp, ?_⟩
        rintro a ha b hb rfl
        simp only [List.map_cons, List.map_nil, List.mem_singleton] at hb
        exact h (hb ▸ ha) }

/-- An insertion together with the value that it replaces. -/
def exchange (map : AttributeMap) (key : String) (value : Value) : Option Value × AttributeMap :=
  (map.get? key, map.insert key value)

/-- The pairs inserted one after another. -/
def ofList (pairs : List (String × Value)) : AttributeMap :=
  pairs.foldl (fun map pair => map.insert pair.1 pair.2) empty

theorem keys_insert (map : AttributeMap) (key : String) (value : Value) :
    (map.insert key value).keys = if key ∈ map.keys then map.keys else map.keys ++ [key] := by
  unfold insert
  split
  · exact keys_mapValues ..
  · simp [keys]

theorem entries_insert_of_not_mem {map : AttributeMap} {key : String} (value : Value) (h : key ∉ map.keys) :
    (map.insert key value).entries = map.entries ++ [(key, value)] := by
  rw [insert, dif_neg h]

theorem get?_insert (map : AttributeMap) (key : String) (value : Value) (other : String) :
    (map.insert key value).get? other = if key = other then some value else map.get? other := by
  by_cases hKnown : key ∈ map.keys
  · have hSome : (map.get? key).isSome = true := by rw [isSome_get?, contains_iff.mpr hKnown]
    rw [insert, dif_pos hKnown, get?_modify]
    by_cases hKey : key = other
    · subst hKey
      obtain ⟨old, hOld⟩ := Option.isSome_iff_exists.mp hSome
      simp [hOld]
    · simp [hKey]
  · rw [get?, entries_insert_of_not_mem value hKnown, List.find?_append, Option.map_or, ← get?]
    by_cases hKey : key = other
    · subst hKey
      simp [get?_eq_none_of_not_mem hKnown]
    · simp [hKey]

/-- Equality of content, the order of the keys included. -/
def equals (a b : AttributeMap) : Bool :=
  a.keys == b.keys && Value.allEqual (a.entries.map Prod.snd) (b.entries.map Prod.snd)

end AttributeMap

end DialogTree
