import DialogTree.Proofs.Coercion.Trees
import DialogTree.Proofs.Number.Nearest
import DialogTree.Proofs.Rules.Forms
import DialogTree.Proofs.Tree.PreOrder

/-!
# Numbers in accepted forms

The accepted form of a value denotes what the value denotes, where integers and floats are compared as exact
numbers. The one exception is an integer under a rule for floats: where no float is equal to it, a nearest one
takes its place. The same holds of every attribute of an accepted tree.
-/

namespace DialogTree

/-! ## What values denote -/

/-- The content of a value, in which an integer and a float of the same number are the same. -/
inductive Meaning where
  | text (text : String)
  | truth (value : Bool)
  | number (number : ℚ)
  /-- A float that is no finite number. -/
  | special (float : Binary64)
  | list (items : List Meaning)

def Binary64.meaning (x : Binary64) : Meaning :=
  match x.rational? with
  | some number => .number number
  | none => .special x

namespace Value

mutual

def meaning : Value → Meaning
  | string text => .text text
  | bool value => .truth value
  | integer number => .number number.toInt
  | float x => x.meaning
  | list items => .list (meanings items)

def meanings : List Value → List Meaning
  | [] => []
  | item :: rest => meaning item :: meanings rest

end

end Value

/-- The float is equal to the integer, or no float is and this one is a nearest. -/
def Binary64.Represents (x : Binary64) (n : Int) : Prop :=
  x.rational? = some (n : ℚ) ∨ (∀ y : Binary64, y.rational? ≠ some (n : ℚ)) ∧ x.IsNearest n

theorem Binary64.IsNearest.represents {x : Binary64} {n : Int} (h : x.IsNearest n) : x.Represents n := by
  rw [Represents, or_iff_not_imp_right]
  intro hEqual
  obtain ⟨y, hy⟩ : ∃ y : Binary64, y.rational? = some (n : ℚ) := by
    by_contra hNone
    exact hEqual ⟨fun y hy => hNone ⟨y, hy⟩, h⟩
  obtain ⟨q, hq, hNearest⟩ := h
  have hDistance := hNearest y n hy
  rw [sub_self, abs_zero, abs_nonpos_iff, sub_eq_zero] at hDistance
  rw [hq, hDistance]

/-! ## Rules -/

namespace Rule

/-- The second value denotes what the first one does, up to integers that a rule for floats rounds. -/
def Keeps : Rule → Value → Value → Prop
  | float _, .integer number, accepted => ∃ x : Binary64, accepted = .float x ∧ x.Represents number.toInt
  | list item _ _, .list items, accepted =>
    ∃ others, accepted = .list others ∧ List.Forall₂ item.Keeps items others
  | _, value, accepted => accepted.meaning = value.meaning

theorem Accepts.keeps [PatternEngine] {rule : Rule} {value accepted : Value} (h : rule.Accepts value accepted) :
    rule.Keeps value accepted := by
  induction rule generalizing value accepted with
  | string rule =>
    obtain ⟨text, rfl, rfl, -⟩ := h
    rfl
  | integer rule =>
    obtain ⟨number, hNumber, rfl, -⟩ := h
    cases value with
    | integer other =>
      obtain rfl : other = number := Option.some.inj hNumber
      rfl
    | float x =>
      have hExact := Binary64.toInt64?_eq_some_iff.mp hNumber
      change (Value.integer number).meaning = (Value.float x).meaning
      rw [Value.meaning, Value.meaning, Binary64.meaning, hExact]
    | _ => cases hNumber
  | float rule =>
    obtain ⟨x, hNumber, rfl, -⟩ := h
    cases value with
    | integer number =>
      obtain rfl := Option.some.inj hNumber
      have hLow := number.le_toInt
      have hHigh := number.toInt_lt
      -- Integers of 64 bits are far below the largest float, so that the nearest one is finite.
      have hRange : number.toInt.natAbs < 2 ^ 64 := by omega
      exact ⟨_, rfl, (Binary64.ofInt_isNearest hRange (by decide)).represents⟩
    | float y =>
      obtain rfl : y = x := Option.some.inj hNumber
      rfl
    | _ => cases hNumber
  | bool =>
    obtain ⟨b, rfl, rfl⟩ := h
    rfl
  | list item minLength maxLength ih =>
    obtain ⟨items, others, rfl, rfl, -, hItems⟩ := h
    exact ⟨others, rfl, hItems.imp fun _ _ => ih⟩
  | any =>
    obtain rfl : accepted = value := h
    rfl

end Rule

/-! ## Trees -/

section Trees

variable [PatternEngine]

/-- The value of an attribute in an accepted tree: it is unchanged, or its declaration has a rule that keeps
what it denotes. -/
inductive KeptValue (registry : Registry) (keyword kind key : String) : Value → Value → Prop where
  | same {value : Value} : KeptValue registry keyword kind key value value
  | ruled {schema : Schema} {spec : AttributeSpec} {rule : Rule} {value accepted : Value}
      (hSchema : registry.lookup? keyword kind = some schema) (hSpec : spec ∈ schema.attributes)
      (hName : spec.name = key) (hRule : spec.checker = rule.checker) (hKeeps : rule.Keeps value accepted) :
      KeptValue registry keyword kind key value accepted

inductive KeptEntry (registry : Registry) (keyword kind : String) : String × Value → String × Value → Prop where
  | intro {key : String} {value accepted : Value} (hValue : KeptValue registry keyword kind key value accepted) :
      KeptEntry registry keyword kind (key, value) (key, accepted)

/-- A command with the names that lead to it, and the command in its place in an accepted tree. -/
structure KeptCommand (registry : Registry) (before after : List String × Node) : Prop where
  names : after.1 = before.1
  keyword : after.2.keyword = before.2.keyword
  kind : after.2.kind = before.2.kind
  attributes : List.Forall₂ (KeptEntry registry before.2.keyword before.2.schemaType)
    before.2.attributes.entries after.2.attributes.entries

variable {registry : Registry}

theorem AcceptedEntry.kept (hRuled : registry.Ruled) {keyword kind : String} {entry accepted : String × Value}
    (h : AcceptedEntry registry keyword kind entry accepted) : KeptEntry registry keyword kind entry accepted := by
  obtain ⟨hValue⟩ := h
  cases hValue with
  | undeclared _ => exact .intro .same
  | declared hSchema hSpec hName hCheck =>
    obtain ⟨rule, hRule⟩ := (hRuled.lookup hSchema).ruled _ hSpec
    rw [hRule] at hCheck
    exact .intro (.ruled hSchema hSpec hName hRule (Rule.check_ok_iff.mp hCheck).keeps)

theorem AcceptedNode.kept (hRuled : registry.Ruled) {node accepted : Node} (h : AcceptedNode registry node accepted)
    (names : List String) : KeptCommand registry (names, node) (names, accepted) := by
  cases h with
  | bare hAttributes => exact ⟨rfl, rfl, rfl, hAttributes.imp fun _ _ => AcceptedEntry.kept hRuled⟩
  | body hAttributes _ => exact ⟨rfl, rfl, rfl, hAttributes.imp fun _ _ => AcceptedEntry.kept hRuled⟩

mutual

theorem AcceptedNode.keptBelow (hRuled : registry.Ruled) : ∀ {node accepted : Node},
    AcceptedNode registry node accepted → ∀ above : List String,
      List.Forall₂ (KeptCommand registry) (node.commandsBelow above) (accepted.commandsBelow above)
  | _, _, .bare _, _ => .nil
  | _, _, .body _ hChildren, above => hChildren.keptUnder hRuled above

theorem AcceptedTree.keptUnder (hRuled : registry.Ruled) : ∀ {tree accepted : Tree},
    AcceptedTree registry tree accepted → ∀ above : List String,
      List.Forall₂ (KeptCommand registry) (tree.commandsUnder above) (accepted.commandsUnder above)
  | _, _, .nil, _ => .nil
  | _, _, .cons hNode hRest, above =>
    .cons (hNode.kept hRuled _) (List.rel_append (hNode.keptBelow hRuled _) (hRest.keptUnder hRuled above))

end

/-- A checker keeps every number but the integers that it has to round to a float, and so does the acceptance of
a tree, command by command and attribute by attribute. -/
theorem accepted_numbers_kept :
    (∀ (rule : Rule) (value accepted : Value), rule.checker.check value = .ok accepted → rule.Keeps value accepted) ∧
    ∀ (registry : Registry) (mode : ValidationMode) (tree accepted : Tree) (warnings : List ValidationWarning),
      registry.Ruled → registry.accept mode tree = .ok (accepted, warnings) →
        List.Forall₂ (KeptCommand registry) tree.commands accepted.commands := by
  constructor
  · intro rule value accepted hCheck
    exact (Rule.check_ok_iff.mp hCheck).keeps
  · intro registry mode tree accepted warnings hRuled hAccept
    obtain ⟨hValid, rfl⟩ := accept_ok hAccept
    exact (acceptedTree_coerceTree hRuled none tree hValid).keptUnder hRuled []

end Trees

/-- Windows have a list of lengths. -/
def measuredWindows [PatternEngine] : Registry :=
  ⟨[(⟨"window", ""⟩, ⟨[⟨"lengths", true, (Rule.list (.float .any) none none).checker⟩], none⟩)], true⟩

/-- A window with lengths that are written as integers, of which the second is no float. -/
def measuredWindow : Tree :=
  ⟨[("main", ⟨"window", none, .ofList [("lengths", .list [.integer 3, .integer 9007199254740993])], none, none⟩)]⟩

theorem measuredWindows_ruled [PatternEngine] : measuredWindows.Ruled := by
  intro entry hMem
  obtain rfl := List.mem_singleton.mp hMem
  refine ⟨SchemaDraft.empty.require "lengths" (.list (.float .any) none none), fun declared hDeclared => ?_, rfl⟩
  obtain rfl := List.mem_singleton.mp hDeclared
  exact ⟨_, rfl⟩

theorem accepted_numbers_kept_window :
    letI := Pattern.engine
    (Rule.float .any).checker.check (.integer 3) = .ok (.float (.ofInt 3)) ∧
    (Rule.float .any).Keeps (.integer 3) (.float (.ofInt 3)) ∧
    measuredWindows.Ruled ∧ ∃ accepted, measuredWindows.accept .strict measuredWindow = .ok (accepted, []) ∧
      List.Forall₂ (KeptCommand measuredWindows) measuredWindow.commands accepted.commands := by
  let _ := Pattern.engine
  have hReport : measuredWindows.validate .strict measuredWindow = ⟨[], []⟩ :=
    Report.ext_of (by decide +kernel) (by decide +kernel)
  have hAccept := accept_of_valid (congrArg Report.errors hReport)
  rw [hReport] at hAccept
  exact ⟨rfl, accepted_numbers_kept.1 _ _ _ rfl, measuredWindows_ruled, _, hAccept,
    accepted_numbers_kept.2 _ .strict _ _ _ measuredWindows_ruled hAccept⟩

/-- The integer behind 2^53 is no float. Under a rule for floats its number changes. -/
theorem widening_changes_number :
    letI := Pattern.engine
    (Rule.float .any).checker.check (.integer 9007199254740993) = .ok (.float (.ofInt 9007199254740992)) ∧
    (Value.float (.ofInt 9007199254740992)).meaning ≠ (Value.integer 9007199254740993).meaning := by
  let _ := Pattern.engine
  have hRounded : Binary64.ofInt (9007199254740993 : Int64).toInt = .ofInt 9007199254740992 := by decide +kernel
  have hWhole : (Binary64.ofInt 9007199254740992).toInt64? = some 9007199254740992 := by decide +kernel
  have hExact := Binary64.toInt64?_eq_some_iff.mp hWhole
  constructor
  · exact Rule.check_ok_iff.mpr ⟨_, congrArg some hRounded, rfl, ⟨by rintro _ ⟨⟩, by rintro _ ⟨⟩⟩⟩
  · rw [Value.meaning, Value.meaning, Binary64.meaning, hExact]
    simp only [ne_eq, Meaning.number.injEq, Rat.intCast_inj]
    decide

end DialogTree
