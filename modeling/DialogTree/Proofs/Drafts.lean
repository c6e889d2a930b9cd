import DialogTree.Pattern.Reader
import DialogTree.Schema.Basic
import Mathlib.Data.List.Nodup

/-!
# Schemas built from declarations

A schema is declared call by call, in any order, and the declarations are looked at when it is built. What is built
lists the declarations as they were made. What is not built names the first of them that is faulty.
-/

namespace DialogTree

/-! ## Declarations -/

/-- The pattern restricts the strings under a rule, in lists at any depth. -/
inductive Rule.Restricts (pattern : String) : Rule → Prop where
  | string {rule : StringRule} (hPattern : rule.pattern = some pattern) : Restricts pattern (.string rule)
  | list {item : Rule} {minLength maxLength : Option Nat} (hItem : item.Restricts pattern) :
      Restricts pattern (.list item minLength maxLength)

/-- A key that a command carries outside its attributes. -/
inductive IsStructural : String → Prop where
  | keyword : IsStructural "keyword"
  | kind : IsStructural "type"
  | children : IsStructural "children"
  | name : IsStructural "name"

theorem isStructural_iff {key : String} : IsStructural key ↔ isUndeclarable key = true := by
  rw [isUndeclarable_iff]
  constructor
  · intro h
    cases h with
    | keyword => exact .inl rfl
    | kind => exact .inr (.inl rfl)
    | children => exact .inr (.inr (.inl rfl))
    | name => exact .inr (.inr (.inr rfl))
  · rintro (rfl | rfl | rfl | rfl)
    · exact .keyword
    · exact .kind
    · exact .children
    · exact .name

section Faults

variable [PatternEngine]

namespace SchemaEntry

/-- Every pattern that the attribute is checked by is one. -/
def Compiles (entry : SchemaEntry) : Prop :=
  ∀ rule, entry.check = .rule rule → ∀ pattern, rule.Restricts pattern → PatternEngine.isValid pattern = true

def compiled (entry : SchemaEntry) : AttributeSpec :=
  ⟨entry.name, entry.required,
    match entry.check with
    | .rule rule => rule.checker
    | .custom checker => checker⟩

end SchemaEntry

structure Consistent (entries : List SchemaEntry) : Prop where
  declarable : ∀ entry ∈ entries, ¬ IsStructural entry.name
  distinct : (entries.map SchemaEntry.name).Nodup
  compiles : ∀ entry ∈ entries, entry.Compiles

inductive DeclarationFault (earlier : List SchemaEntry) (entry : SchemaEntry) : SchemaError → Prop where
  | reserved (hStructural : IsStructural entry.name) : DeclarationFault earlier entry (.reservedAttribute entry.name)
  | duplicate (hDeclarable : ¬ IsStructural entry.name) (hTaken : ∃ other ∈ earlier, other.name = entry.name) :
      DeclarationFault earlier entry (.duplicateAttribute entry.name)
  | pattern {rule : Rule} {pattern : String} (hDeclarable : ¬ IsStructural entry.name)
      (hNew : ∀ other ∈ earlier, other.name ≠ entry.name) (hRule : entry.check = .rule rule)
      (hPattern : rule.Restricts pattern) (hInvalid : PatternEngine.isValid pattern = false) :
      DeclarationFault earlier entry (.invalidPattern pattern)

def BoundsInOrder (bounds? : Option ChildBounds) : Prop :=
  ∀ bounds ∈ bounds?, ∀ max ∈ bounds.max, bounds.min ≤ max

/-- The first fault of declarations with bounds: that of the bounds, or else of the first faulty declaration. -/
inductive SchemaFault (entries : List SchemaEntry) (bounds? : Option ChildBounds) : SchemaError → Prop where
  | bounds {min max : Nat} (hBounds : bounds? = some ⟨min, some max⟩) (hInverted : max < min) :
      SchemaFault entries bounds? (.invalidChildBounds min max)
  | declaration {earlier later : List SchemaEntry} {entry : SchemaEntry} {error : SchemaError}
      (hBounds : BoundsInOrder bounds?) (hEntries : entries = earlier ++ entry :: later)
      (hEarlier : Consistent earlier) (hFault : DeclarationFault earlier entry error) :
      SchemaFault entries bounds? error

end Faults

/-! ## One declaration -/

section Declaration

variable {earlier : List SchemaEntry} {entry : SchemaEntry} {error : SchemaError}

theorem contains_names : (earlier.map SchemaEntry.name).contains entry.name = true ↔
    ∃ other ∈ earlier, other.name = entry.name := by
  rw [List.contains_iff_mem, List.mem_map]

variable [PatternEngine]

theorem Rule.invalidPattern?_eq_some_iff {rule : Rule} {pattern : String} :
    rule.invalidPattern? = some pattern ↔ rule.Restricts pattern ∧ PatternEngine.isValid pattern = false := by
  induction rule with
  | string rule =>
    rw [invalidPattern?, Option.filter_eq_some_iff, Bool.not_eq_true']
    refine and_congr_left fun _ => ⟨.string, fun h => ?_⟩
    cases h with
    | string hPattern => exact hPattern
  | list item minLength maxLength ih =>
    rw [invalidPattern?, ih]
    refine and_congr_left fun _ => ⟨.list, fun h => ?_⟩
    cases h with
    | list hItem => exact hItem
  | _ => exact iff_of_false (fun h => by cases h) fun h => by cases h.1

theorem Rule.invalidPattern?_eq_none_iff {rule : Rule} :
    rule.invalidPattern? = none ↔ ∀ pattern, rule.Restricts pattern → PatternEngine.isValid pattern = true := by
  rw [Option.eq_none_iff_forall_ne_some]
  refine forall_congr' fun pattern => ?_
  rw [Ne, invalidPattern?_eq_some_iff, not_and, Bool.not_eq_false]

theorem SchemaEntry.checker_of_compiles (h : entry.Compiles) : entry.checker = .ok entry.compiled.checker := by
  obtain ⟨name, required, check⟩ := entry
  cases check with
  | custom checker => rfl
  | rule rule =>
    have hNone : rule.invalidPattern? = none := Rule.invalidPattern?_eq_none_iff.mpr (h rule rfl)
    simp only [SchemaEntry.checker, hNone]
    rfl

theorem SchemaEntry.checker_of_invalid {rule : Rule} {pattern : String} (hRule : entry.check = .rule rule)
    (hPattern : rule.Restricts pattern) (hInvalid : PatternEngine.isValid pattern = false) :
    entry.checker = .error (.invalidPattern pattern) := by
  have hSome : rule.invalidPattern? = some pattern := Rule.invalidPattern?_eq_some_iff.mpr ⟨hPattern, hInvalid⟩
  simp only [SchemaEntry.checker, hRule, hSome]

structure SchemaEntry.Follows (entry : SchemaEntry) (earlier : List SchemaEntry) : Prop where
  declarable : ¬ IsStructural entry.name
  new : ∀ other ∈ earlier, other.name ≠ entry.name
  compiles : entry.Compiles

theorem SchemaEntry.Follows.build (h : entry.Follows earlier) :
    entry.build (earlier.map SchemaEntry.name) = .ok entry.compiled := by
  have hNew : ¬ (earlier.map SchemaEntry.name).contains entry.name = true := by
    rw [contains_names]
    rintro ⟨other, hOther, hName⟩
    exact h.new other hOther hName
  rw [SchemaEntry.build, if_neg (isStructural_iff.not.mp h.declarable), if_neg hNew, checker_of_compiles h.compiles]
  rfl

theorem DeclarationFault.build (h : DeclarationFault earlier entry error) :
    entry.build (earlier.map SchemaEntry.name) = .error error := by
  rw [SchemaEntry.build]
  cases h with
  | reserved hStructural => rw [if_pos (isStructural_iff.mp hStructural)]
  | duplicate hDeclarable hTaken =>
    rw [if_neg (isStructural_iff.not.mp hDeclarable), if_pos (contains_names.mpr hTaken)]
  | pattern hDeclarable hNew hRule hPattern hInvalid =>
    rw [if_neg (isStructural_iff.not.mp hDeclarable), if_neg, SchemaEntry.checker_of_invalid hRule hPattern hInvalid]
    · rfl
    · rw [contains_names]
      rintro ⟨other, hOther, hName⟩
      exact hNew other hOther hName

theorem follows_or_fault (earlier : List SchemaEntry) (entry : SchemaEntry) :
    entry.Follows earlier ∨ ∃ error, DeclarationFault earlier entry error := by
  by_cases hStructural : IsStructural entry.name
  · exact .inr ⟨_, .reserved hStructural⟩
  · by_cases hTaken : ∃ other ∈ earlier, other.name = entry.name
    · exact .inr ⟨_, .duplicate hStructural hTaken⟩
    · have hNew : ∀ other ∈ earlier, other.name ≠ entry.name := fun other hOther hName => hTaken ⟨other, hOther, hName⟩
      by_cases hCompiles : entry.Compiles
      · exact .inl ⟨hStructural, hNew, hCompiles⟩
      · simp only [SchemaEntry.Compiles, not_forall, Bool.not_eq_true] at hCompiles
        obtain ⟨rule, hRule, pattern, hPattern, hInvalid⟩ := hCompiles
        exact .inr ⟨_, .pattern hStructural hNew hRule hPattern hInvalid⟩

end Declaration

/-! ## Declarations one after another -/

section Declarations

variable {earlier entries before after : List SchemaEntry} {entry : SchemaEntry} {error : SchemaError}

theorem map_name_concat : earlier.map SchemaEntry.name ++ [entry.name] = (earlier ++ [entry]).map SchemaEntry.name := by
  rw [List.map_append, List.map_singleton]

variable [PatternEngine]

theorem consistent_nil : Consistent [] :=
  ⟨fun _ h => absurd h List.not_mem_nil, List.nodup_nil, fun _ h => absurd h List.not_mem_nil⟩

/-- Behind consistent declarations the next one is consistent with them, or else it is faulty. -/
theorem consistent_concat_iff : Consistent (earlier ++ [entry]) ↔ Consistent earlier ∧ entry.Follows earlier := by
  constructor
  · rintro ⟨hDeclarable, hDistinct, hCompiles⟩
    rw [List.map_append, List.nodup_append] at hDistinct
    have hLast : entry ∈ earlier ++ [entry] := List.mem_append_right _ List.mem_cons_self
    refine ⟨⟨?_, hDistinct.1, ?_⟩, hDeclarable entry hLast, ?_, hCompiles entry hLast⟩
    · exact fun other hOther => hDeclarable other (List.mem_append_left _ hOther)
    · exact fun other hOther => hCompiles other (List.mem_append_left _ hOther)
    · exact fun other hOther =>
        hDistinct.2.2 _ (List.mem_map_of_mem hOther) _ (List.mem_map_of_mem List.mem_cons_self)
  · rintro ⟨⟨hDeclarable, hDistinct, hCompiles⟩, hLast, hNew, hLastCompiles⟩
    refine ⟨?_, ?_, ?_⟩
    · rw [List.forall_mem_append, List.forall_mem_singleton]
      exact ⟨hDeclarable, hLast⟩
    · rw [List.map_append, List.map_singleton, List.nodup_append]
      refine ⟨hDistinct, List.nodup_singleton _, ?_⟩
      intro name hName _ hOther
      obtain ⟨other, hMem, rfl⟩ := List.mem_map.mp hName
      rw [List.mem_singleton.mp hOther]
      exact hNew other hMem
    · rw [List.forall_mem_append, List.forall_mem_singleton]
      exact ⟨hCompiles, hLastCompiles⟩

theorem Consistent.of_append (h : Consistent (before ++ after)) : Consistent before where
  declarable entry hEntry := h.declarable entry (List.mem_append_left _ hEntry)
  distinct := by
    have hDistinct := h.distinct
    rw [List.map_append] at hDistinct
    exact hDistinct.of_append_left
  compiles entry hEntry := h.compiles entry (List.mem_append_left _ hEntry)

/-- What has been listed so far are the earlier declarations; each step lists one more. -/
theorem Consistent.buildEntries (h : Consistent (earlier ++ entries)) :
    buildEntries (earlier.map SchemaEntry.name) entries = .ok (entries.map SchemaEntry.compiled) := by
  induction entries generalizing earlier with
  | nil => rfl
  | cons entry rest ih =>
    have hStep : earlier ++ entry :: rest = (earlier ++ [entry]) ++ rest := by
      rw [List.append_assoc, List.singleton_append]
    rw [hStep] at h
    have hFirst := (consistent_concat_iff.mp h.of_append).2
    simp only [DialogTree.buildEntries, hFirst.build, map_name_concat, ih h]
    rfl

theorem buildEntries_of_fault (h : Consistent (earlier ++ before))
    (hFault : DeclarationFault (earlier ++ before) entry error) :
    buildEntries (earlier.map SchemaEntry.name) (before ++ entry :: after) = .error error := by
  induction before generalizing earlier with
  | nil =>
    rw [List.append_nil] at hFault
    simp only [List.nil_append, buildEntries, hFault.build]
  | cons first rest ih =>
    have hStep : earlier ++ first :: rest = (earlier ++ [first]) ++ rest := by
      rw [List.append_assoc, List.singleton_append]
    rw [hStep] at h hFault
    have hFirst := (consistent_concat_iff.mp h.of_append).2
    simp only [List.cons_append, buildEntries, hFirst.build, map_name_concat, ih h hFault]
    rfl

theorem consistent_or_fault (h : Consistent earlier) (entries : List SchemaEntry) : Consistent (earlier ++ entries) ∨
    ∃ before entry after error, entries = before ++ entry :: after ∧ Consistent (earlier ++ before) ∧
      DeclarationFault (earlier ++ before) entry error := by
  induction entries generalizing earlier with
  | nil => exact .inl (by rwa [List.append_nil])
  | cons entry rest ih =>
    rcases follows_or_fault earlier entry with hFollows | ⟨error, hFault⟩
    · have hStep : ∀ more, earlier ++ entry :: more = (earlier ++ [entry]) ++ more := by
        intro more
        rw [List.append_assoc, List.singleton_append]
      have hLonger := consistent_concat_iff.mpr ⟨h, hFollows⟩
      rcases ih hLonger with hAll | ⟨before, faulty, after, error, rfl, hBefore, hFault⟩
      · exact .inl (by rwa [hStep])
      · exact .inr ⟨entry :: before, faulty, after, error, rfl, by rwa [hStep], by rwa [hStep]⟩
    · exact .inr ⟨[], entry, rest, error, rfl, by rwa [List.append_nil], by rwa [List.append_nil]⟩

end Declarations

/-! ## Drafts -/

namespace SchemaDraft

variable {draft : SchemaDraft} {schema : Schema} {error : SchemaError}

theorem boundsError?_eq_none (h : BoundsInOrder draft.children) : draft.boundsError? = none := by
  rw [boundsError?]
  split
  · rename_i min max hBounds
    rw [if_neg (Nat.not_lt.mpr (h _ hBounds max rfl))]
  · rfl

variable [PatternEngine]

theorem build_of_consistent (hBounds : BoundsInOrder draft.children) (h : Consistent draft.entries) :
    draft.build = .ok ⟨draft.entries.map SchemaEntry.compiled, draft.children⟩ := by
  have hFresh : Consistent ([] ++ draft.entries) := h
  have hEntries : buildEntries [] draft.entries = .ok (draft.entries.map SchemaEntry.compiled) := hFresh.buildEntries
  simp only [build, boundsError?_eq_none hBounds, hEntries]
  rfl

theorem build_of_fault (h : SchemaFault draft.entries draft.children error) : draft.build = .error error := by
  cases h with
  | bounds hBounds hInverted => simp only [build, boundsError?, hBounds, if_pos hInverted]
  | declaration hBounds hEntries hEarlier hFault =>
    have hRefused : buildEntries [] draft.entries = .error error := by
      rw [hEntries]
      have hFresh : Consistent ([] ++ _) := hEarlier
      exact buildEntries_of_fault hFresh hFault
    simp only [build, boundsError?_eq_none hBounds, hRefused]
    rfl

theorem consistent_or_schemaFault (draft : SchemaDraft) : BoundsInOrder draft.children ∧ Consistent draft.entries ∨
    ∃ error, SchemaFault draft.entries draft.children error := by
  by_cases hBounds : BoundsInOrder draft.children
  · rcases consistent_or_fault consistent_nil draft.entries with h | ⟨earlier, entry, later, error, hEntries, h, hFault⟩
    · exact .inl ⟨hBounds, h⟩
    · exact .inr ⟨error, .declaration hBounds hEntries h hFault⟩
  · simp only [BoundsInOrder, not_forall, Nat.not_le] at hBounds
    obtain ⟨⟨min, max?⟩, hBounds, max, rfl, hInverted⟩ := hBounds
    exact .inr ⟨_, .bounds hBounds hInverted⟩

theorem build_ok_iff : draft.build = .ok schema ↔ (BoundsInOrder draft.children ∧ Consistent draft.entries) ∧
    schema = ⟨draft.entries.map SchemaEntry.compiled, draft.children⟩ := by
  constructor
  · intro h
    rcases draft.consistent_or_schemaFault with ⟨hBounds, hEntries⟩ | ⟨error, hFault⟩
    · rw [build_of_consistent hBounds hEntries] at h
      exact ⟨⟨hBounds, hEntries⟩, (Except.ok.inj h).symm⟩
    · rw [build_of_fault hFault] at h
      cases h
  · rintro ⟨⟨hBounds, hEntries⟩, rfl⟩
    exact build_of_consistent hBounds hEntries

theorem build_error_iff : draft.build = .error error ↔ SchemaFault draft.entries draft.children error := by
  constructor
  · intro h
    rcases draft.consistent_or_schemaFault with ⟨hBounds, hEntries⟩ | ⟨other, hFault⟩
    · rw [build_of_consistent hBounds hEntries] at h
      cases h
    · rw [build_of_fault hFault] at h
      rwa [← Except.error.inj h]
  · exact build_of_fault

theorem distinct_of_build (h : draft.build = .ok schema) : (schema.attributes.map AttributeSpec.name).Nodup := by
  obtain ⟨⟨-, hConsistent⟩, rfl⟩ := build_ok_iff.mp h
  rw [List.map_map]
  exact hConsistent.distinct

end SchemaDraft

/-! ## Calls -/

inductive SchemaCall where
  | require (name : String) (rule : Rule)
  | allow (name : String) (rule : Rule)
  | declare (name : String) (required : Bool) (checker : Checker)
  | withChildren (bounds : ChildBounds)

namespace SchemaCall

def entry? : SchemaCall → Option SchemaEntry
  | .require name rule => some ⟨name, true, .rule rule⟩
  | .allow name rule => some ⟨name, false, .rule rule⟩
  | .declare name required checker => some ⟨name, required, .custom checker⟩
  | .withChildren _ => none

def bounds? : SchemaCall → Option ChildBounds
  | .withChildren bounds => some bounds
  | _ => none

def declared (calls : List SchemaCall) : List SchemaEntry :=
  calls.filterMap entry?

def lastBounds? (calls : List SchemaCall) : Option ChildBounds :=
  (calls.filterMap bounds?).getLast?

end SchemaCall

namespace SchemaDraft

def perform (draft : SchemaDraft) : SchemaCall → SchemaDraft
  | .require name rule => draft.require name rule
  | .allow name rule => draft.allow name rule
  | .declare name required checker => draft.declare name required (.custom checker)
  | .withChildren bounds => draft.withChildren bounds

def run (draft : SchemaDraft) (calls : List SchemaCall) : SchemaDraft :=
  calls.foldl perform draft

theorem perform_eq (draft : SchemaDraft) (call : SchemaCall) :
    draft.perform call = ⟨draft.entries ++ call.entry?.toList, call.bounds?.or draft.children⟩ := by
  cases call with
  | withChildren bounds =>
    rw [SchemaCall.entry?, Option.toList_none, List.append_nil]
    rfl
  | _ => rfl

theorem run_eq (draft : SchemaDraft) (calls : List SchemaCall) :
    draft.run calls =
      ⟨draft.entries ++ SchemaCall.declared calls, (SchemaCall.lastBounds? calls).or draft.children⟩ := by
  induction calls generalizing draft with
  | nil =>
    rw [SchemaCall.declared, List.filterMap_nil, List.append_nil]
    rfl
  | cons call calls ih =>
    have hEntries : SchemaCall.declared (call :: calls) = call.entry?.toList ++ SchemaCall.declared calls := by
      rw [SchemaCall.declared, List.filterMap_cons]
      cases call.entry? <;> rfl
    have hBounds : SchemaCall.lastBounds? (call :: calls) = (SchemaCall.lastBounds? calls).or call.bounds? := by
      rw [SchemaCall.lastBounds?, List.filterMap_cons]
      cases call.bounds? with
      | none => exact Option.or_none.symm
      | some bounds =>
        simp only [List.getLast?_cons]
        rw [SchemaCall.lastBounds?]
        cases (calls.filterMap SchemaCall.bounds?).getLast? <;> rfl
    rw [hEntries, hBounds, Option.or_assoc, ← List.append_assoc]
    exact (ih (draft.perform call)).trans (by rw [perform_eq])

theorem entries_run_empty (calls : List SchemaCall) : (empty.run calls).entries = SchemaCall.declared calls := by
  rw [run_eq]
  rfl

theorem children_run_empty (calls : List SchemaCall) : (empty.run calls).children = SchemaCall.lastBounds? calls := by
  rw [run_eq]
  exact Option.or_none

end SchemaDraft

section Lookup

variable [PatternEngine] {entries : List SchemaEntry} {entry : SchemaEntry}

theorem Consistent.filter_name (h : Consistent entries) (hEntry : entry ∈ entries) :
    entries.filter (fun other => other.name = entry.name) = [entry] := by
  obtain ⟨before, after, rfl⟩ := List.append_of_mem hEntry
  have hDistinct := h.distinct
  rw [List.map_append, List.map_cons, List.nodup_append, List.nodup_cons] at hDistinct
  obtain ⟨-, ⟨hAfter, -⟩, hBefore⟩ := hDistinct
  have hNone : ∀ other ∈ before, ¬ decide (other.name = entry.name) = true := by
    intro other hOther hName
    exact hBefore _ (List.mem_map_of_mem hOther) _ List.mem_cons_self (of_decide_eq_true hName)
  have hOthers : ∀ other ∈ after, ¬ decide (other.name = entry.name) = true := by
    intro other hOther hName
    exact hAfter (of_decide_eq_true hName ▸ List.mem_map_of_mem hOther)
  rw [List.filter_append, List.filter_cons_of_pos (by simp), List.filter_eq_nil_iff.mpr hNone,
    List.filter_eq_nil_iff.mpr hOthers, List.nil_append]

theorem attribute?_compiled (h : Consistent entries) (bounds? : Option ChildBounds) (hEntry : entry ∈ entries) :
    (⟨entries.map SchemaEntry.compiled, bounds?⟩ : Schema).attribute? entry.name = some entry.compiled := by
  rw [Schema.attribute?, List.find?_map, ← List.head?_filter]
  have hOnly := h.filter_name hEntry
  exact congrArg (fun found => Option.map SchemaEntry.compiled (List.head? found)) hOnly

end Lookup

/-- A draft is built exactly when the bounds given last, if any, are in order and its declarations can stand in one
schema. The schema lists them in their order, and finds each of them alone under its name. A draft is refused exactly
for the first fault of the bounds and declarations. -/
theorem calls_build [PatternEngine] (calls : List SchemaCall) :
    (∀ schema, (SchemaDraft.empty.run calls).build = .ok schema ↔
      (BoundsInOrder (SchemaCall.lastBounds? calls) ∧ Consistent (SchemaCall.declared calls)) ∧
        schema = ⟨(SchemaCall.declared calls).map SchemaEntry.compiled, SchemaCall.lastBounds? calls⟩) ∧
    (∀ schema, (SchemaDraft.empty.run calls).build = .ok schema →
      (∀ entry ∈ SchemaCall.declared calls,
        (SchemaCall.declared calls).filter (fun other => other.name = entry.name) = [entry] ∧
          schema.attribute? entry.name = some entry.compiled) ∧
        ∀ name, (∀ entry ∈ SchemaCall.declared calls, entry.name ≠ name) → schema.attribute? name = none) ∧
    ∀ error, (SchemaDraft.empty.run calls).build = .error error ↔
      SchemaFault (SchemaCall.declared calls) (SchemaCall.lastBounds? calls) error := by
  simp only [SchemaDraft.build_ok_iff, SchemaDraft.build_error_iff, SchemaDraft.entries_run_empty,
    SchemaDraft.children_run_empty, implies_true, true_and, and_true]
  rintro schema ⟨⟨-, hConsistent⟩, rfl⟩
  refine ⟨fun entry hEntry => ⟨hConsistent.filter_name hEntry, attribute?_compiled hConsistent _ hEntry⟩, ?_⟩
  intro name hNone
  rw [Schema.attribute?, List.find?_map, Option.map_eq_none_iff, List.find?_eq_none]
  intro entry hEntry hName
  exact hNone entry hEntry (eq_of_beq hName)

/-- Bounds that are out of order and replaced later, and a pattern inside a list. -/
def taggedCalls : List SchemaCall := [
  .withChildren ⟨3, some 1⟩,
  .require "tags" (.list (.string { StringRule.any with pattern := some "^[a-z]+$" }) (some 1) none),
  .withChildren (.exactly 2),
  .allow "title" (.string .any)]

theorem calls_build_tagged :
    letI := Pattern.engine
    ∃ schema, (SchemaDraft.empty.run taggedCalls).build = .ok schema ∧
      schema = ⟨(SchemaCall.declared taggedCalls).map SchemaEntry.compiled, some (.exactly 2)⟩ ∧
      (∀ entry ∈ SchemaCall.declared taggedCalls, schema.attribute? entry.name = some entry.compiled) ∧
      schema.attribute? "message" = none := by
  let _ := Pattern.engine
  have hBuilds : (SchemaDraft.empty.run taggedCalls).build.isOk = true := by decide +kernel
  obtain ⟨hBuilt, hLookup, -⟩ := calls_build taggedCalls
  cases hBuild : (SchemaDraft.empty.run taggedCalls).build with
  | error error =>
    rw [hBuild] at hBuilds
    cases hBuilds
  | ok schema =>
    obtain ⟨hFound, hAbsent⟩ := hLookup schema hBuild
    refine ⟨schema, rfl, ((hBuilt schema).mp hBuild).2, fun entry hEntry => (hFound entry hEntry).2, ?_⟩
    exact hAbsent "message" (by decide)

end DialogTree
