import DialogTree.Tree.AttributeMap
import Mathlib.Data.Finset.Card
import Mathlib.Data.List.Induction

/-!
# Attributes in the order of insertion

Pairs that are inserted one after another leave each key once, where it came first, with the value that came last. A
key that comes again keeps its place and takes the new value, and nothing else changes.
-/

namespace DialogTree

def lastValue? (pairs : List (String × Value)) (key : String) : Option Value :=
  (pairs.reverse.find? fun pair => pair.1 == key).map Prod.snd

/-- What becomes of the entries when a key is given a value: the value takes the place of the one that the key had, or
a new entry stands behind all others. -/
inductive PutsEntry (key : String) (value : Value) :
    Option Value → List (String × Value) → List (String × Value) → Prop where
  | inPlace {front back : List (String × Value)} {old : Value} :
      PutsEntry key value (some old) (front ++ (key, old) :: back) (front ++ (key, value) :: back)
  | behind {entries : List (String × Value)} (hNew : key ∉ entries.map Prod.fst) :
      PutsEntry key value none entries (entries ++ [(key, value)])

namespace AttributeMap

variable {map : AttributeMap} {pairs : List (String × Value)} {key : String} {value old : Value}

/-! ## One insertion -/

theorem entries_modify (map : AttributeMap) (key : String) (f : Value → Value) :
    (map.modify key f).entries = map.entries.map fun entry => (entry.1, if entry.1 = key then f entry.2 else entry.2) :=
  rfl

theorem map_eq_self {entries : List (String × Value)} (hOther : ∀ entry ∈ entries, entry.1 ≠ key) (f : Value → Value) :
    (entries.map fun entry => (entry.1, if entry.1 = key then f entry.2 else entry.2)) = entries := by
  refine (List.map_congr_left fun entry hMem => ?_).trans (List.map_id entries)
  simp [hOther entry hMem]

theorem modify_puts (h : map.get? key = some old) (f : Value → Value) :
    PutsEntry key (f old) (some old) map.entries (map.modify key f).entries := by
  obtain ⟨front, back, hEntries⟩ := List.append_of_mem (get?_eq_some_iff.mp h)
  have hDistinct := map.nodup
  rw [hEntries, List.map_append, List.map_cons, List.nodup_middle, List.nodup_cons, ← List.map_append] at hDistinct
  have hOther : ∀ entry ∈ front ++ back, entry.1 ≠ key := by
    intro entry hMem hKey
    exact hDistinct.1 (List.mem_map.mpr ⟨entry, hMem, hKey⟩)
  have hFront := map_eq_self (fun entry hMem => hOther entry (List.mem_append_left back hMem)) f
  have hBack := map_eq_self (fun entry hMem => hOther entry (List.mem_append_right front hMem)) f
  rw [entries_modify, hEntries, List.map_append, List.map_cons, hFront, hBack, if_pos rfl]
  exact .inPlace

theorem modify_eq_self (h : map.get? key = none) (f : Value → Value) : map.modify key f = map := by
  apply ext_of
  rw [entries_modify]
  apply map_eq_self
  rintro entry hMem rfl
  exact get?_eq_none_iff.mp h entry.2 hMem

/-- An insertion gives back the value that the key had, and puts the new one in its place or behind all entries. -/
theorem exchange_puts (map : AttributeMap) (key : String) (value : Value) :
    PutsEntry key value (map.exchange key value).1 map.entries (map.exchange key value).2.entries := by
  rw [exchange]
  by_cases hKnown : key ∈ map.keys
  · obtain ⟨old, hOld⟩ := Option.isSome_iff_exists.mp ((isSome_get? map key).trans (contains_iff.mpr hKnown))
    rw [insert, dif_pos hKnown, hOld]
    exact modify_puts hOld fun _ => value
  · rw [get?_eq_none_of_not_mem hKnown, entries_insert_of_not_mem value hKnown]
    exact .behind hKnown

/-! ## Insertions one after another -/

/-- The pairs inserted one after another: what each insertion gives back, and the map in the end. -/
def exchangeAll (map : AttributeMap) : List (String × Value) → List (Option Value) × AttributeMap
  | [] => ([], map)
  | (key, value) :: rest =>
    let (previous, next) := map.exchange key value
    let (returned, last) := next.exchangeAll rest
    (previous :: returned, last)

theorem ofList_concat (pairs : List (String × Value)) (key : String) (value : Value) :
    ofList (pairs ++ [(key, value)]) = (ofList pairs).insert key value := by
  rw [ofList, List.foldl_append]
  rfl

theorem exchangeAll_ofList (before rest : List (String × Value)) :
    ((ofList before).exchangeAll rest).2 = ofList (before ++ rest) := by
  induction rest generalizing before with
  | nil => simp [exchangeAll]
  | cons pair rest ih =>
    have hRest := ih (before ++ [pair])
    rw [ofList_concat, ← List.append_cons] at hRest
    exact hRest

theorem lastValue?_concat (pairs : List (String × Value)) (key : String) (value : Value) (other : String) :
    lastValue? (pairs ++ [(key, value)]) other = if key = other then some value else lastValue? pairs other := by
  rw [lastValue?, List.reverse_concat]
  by_cases hKey : key = other
  · simp [hKey]
  · simp [hKey, lastValue?]

theorem get?_ofList (pairs : List (String × Value)) (key : String) :
    (ofList pairs).get? key = lastValue? pairs key := by
  induction pairs using List.reverseRecOn with
  | nil => rfl
  | append_singleton pairs pair ih => rw [ofList_concat, get?_insert, lastValue?_concat, ih]

theorem keys_ofList (pairs : List (String × Value)) : (ofList pairs).keys = (pairs.map Prod.fst).eraseDups := by
  induction pairs using List.reverseRecOn with
  | nil => rfl
  | append_singleton pairs pair ih =>
    rw [ofList_concat, keys_insert, ih, List.map_append, List.eraseDups_append]
    by_cases hKnown : pair.1 ∈ pairs.map Prod.fst
    · simp [hKnown, List.removeAll]
    · simp [hKnown, List.removeAll, List.eraseDups_cons]

theorem returned_exchangeAll (before rest : List (String × Value)) (i : Nat) :
    ((ofList before).exchangeAll rest).1[i]? = rest[i]?.map fun pair => lastValue? (before ++ rest.take i) pair.1 := by
  induction rest generalizing before i with
  | nil => rfl
  | cons pair rest ih =>
    cases i with
    | zero => simp [exchangeAll, exchange, get?_ofList]
    | succ i =>
      have hRest := ih (before ++ [pair]) i
      rw [ofList_concat, List.append_assoc, List.singleton_append] at hRest
      exact hRest

end AttributeMap

/-- The pairs as a map that keeps the order in which their keys came first. -/
structure InsertionOrdered (pairs : List (String × Value)) (map : AttributeMap) : Prop where
  keys : map.keys = (pairs.map Prod.fst).eraseDups
  distinct : map.keys.Nodup
  get : ∀ key, map.get? key = lastValue? pairs key
  get_iff_mem : ∀ key value, map.get? key = some value ↔ (key, value) ∈ map.entries
  contains_iff : ∀ key, map.contains key = true ↔ key ∈ pairs.map Prod.fst
  size : map.size = (pairs.map Prod.fst).toFinset.card
  /-- The value that is found under a key is the one that an edit in place changes. -/
  edited : ∀ key value f, lastValue? pairs key = some value →
    PutsEntry key (f value) (some value) map.entries (map.modify key f).entries
  unedited : ∀ key f, lastValue? pairs key = none → map.modify key f = map
  /-- One more insertion gives back the last value of its key, and changes no other entry. -/
  inserted : ∀ key value,
    (map.exchange key value).1 = lastValue? pairs key ∧
      PutsEntry key value (lastValue? pairs key) map.entries (map.exchange key value).2.entries

theorem insertionOrdered_ofList (pairs : List (String × Value)) : InsertionOrdered pairs (.ofList pairs) := by
  have hKeys := AttributeMap.keys_ofList pairs
  have hGet := AttributeMap.get?_ofList pairs
  have hDistinct : (AttributeMap.ofList pairs).keys.Nodup := (AttributeMap.ofList pairs).nodup
  exact
    { keys := hKeys
      distinct := hDistinct
      get := hGet
      get_iff_mem := fun key value => AttributeMap.get?_eq_some_iff
      contains_iff := fun key => by rw [AttributeMap.contains_iff, hKeys, List.mem_eraseDups]
      size := by
        have hFinset : (pairs.map Prod.fst).toFinset = (AttributeMap.ofList pairs).keys.toFinset := by
          ext key
          simp [hKeys]
        rw [hFinset, List.toFinset_card_of_nodup hDistinct, AttributeMap.keys, List.length_map, AttributeMap.size]
      edited := fun key value f hLast => AttributeMap.modify_puts ((hGet key).trans hLast) f
      unedited := fun key f hNone => AttributeMap.modify_eq_self ((hGet key).trans hNone) f
      inserted := fun key value => by
        have hPuts := AttributeMap.exchange_puts (.ofList pairs) key value
        rw [AttributeMap.exchange, hGet] at hPuts ⊢
        exact ⟨rfl, hPuts⟩ }

/-- Whatever pairs are inserted one after another, or collected at once, the map has their keys in the order in which
these came first, each with the value that it was given last. Each insertion gives back what the pairs in front of it
gave to its key last. -/
theorem exchangeAll_insertionOrdered (pairs : List (String × Value)) :
    InsertionOrdered pairs (.ofList pairs) ∧ (AttributeMap.empty.exchangeAll pairs).2 = .ofList pairs ∧
      ∀ i : Nat, (AttributeMap.empty.exchangeAll pairs).1[i]? =
        pairs[i]?.map fun pair => lastValue? (pairs.take i) pair.1 :=
  ⟨insertionOrdered_ofList pairs, AttributeMap.exchangeAll_ofList [] pairs,
    AttributeMap.returned_exchangeAll [] pairs⟩

example : AttributeMap.empty.exchangeAll [("z", .integer 1), ("a", .integer 2), ("z", .integer 3)] =
    ([none, none, some (.integer 1)], .ofList [("z", .integer 3), ("a", .integer 2)]) := by
  rfl

end DialogTree
