import DialogTree.Proofs.Naming.Readers
import DialogTree.Proofs.Reread.Commands
import DialogTree.Proofs.RoundTrip
import DialogTree.Proofs.Tree.PreOrder

/-!
# Documents that can be read again

A document may hold a number beyond the largest one, which is read as an infinity. The text written for such
a tree cannot be read, and these are the only documents whose trees are not read back from their own text.
-/

namespace DialogTree

open Grammar

/-! ## Finite numbers in trees -/

def Tree.FiniteNumbers (tree : Tree) : Prop :=
  ∀ names node, CommandAt tree names node → ∀ pair ∈ node.attributes.entries, FiniteFloats pair.2

theorem Tree.finiteNumbers_iff {tree : Tree} :
    (∀ command ∈ tree.commands, ∀ pair ∈ command.2.attributes.entries, FiniteFloats pair.2) ↔ tree.FiniteNumbers := by
  simp only [Prod.forall, mem_commands_iff, Tree.FiniteNumbers]

instance (tree : Tree) : Decidable tree.FiniteNumbers :=
  decidable_of_iff _ Tree.finiteNumbers_iff

theorem finiteNumbers_of_formed {tree : Tree} (hEach : ∀ entry ∈ tree.nodes, CommandFormed entry) :
    tree.FiniteNumbers := by
  intro names node hAt
  induction hAt with
  | @top _ _ _ hMem =>
    cases hEach _ hMem with
    | intro _ _ _ hValues _ _ _ => exact hValues
  | @inner _ children _ _ _ _ hMem hChildren _ ih =>
    obtain ⟨nodes⟩ := children
    cases hEach _ hMem with
    | intro _ _ _ _ _ _ hBelow => exact ih (hBelow nodes hChildren)

theorem CommandNamed.formed {entry : String × Node} (h : CommandNamed entry)
    (hFinite : Tree.FiniteNumbers ⟨[entry]⟩) : CommandFormed entry := by
  induction h with
  | @intro name keyword kind attributes children position hName hKeyword hKeys _ hSome hDistinct _ ih =>
    have hOwn := hFinite [name] _ (.top List.mem_cons_self)
    refine .intro hName hKeyword hKeys hOwn hSome hDistinct fun nodes hNodes entry hMem => ?_
    exact ih nodes hNodes entry hMem fun names node hAt =>
      hFinite (name :: names) node (.inner List.mem_cons_self hNodes (hAt.of_mem hMem))

/-- A named tree is well-formed exactly when all its numbers are finite. -/
theorem Tree.Named.wellFormed_iff {tree : Tree} (h : tree.Named) : tree.WellFormed ↔ tree.FiniteNumbers := by
  obtain ⟨nodes⟩ := tree
  constructor
  · intro hFormed
    exact finiteNumbers_of_formed hFormed.each
  · intro hFinite
    refine ⟨h.some, h.distinct, fun entry hMem => (h.each entry hMem).formed fun names node hAt => ?_⟩
    exact hFinite names node (hAt.of_mem hMem)

/-! ## Documents -/

theorem HeaderTo.unique {c d e : Cursor} (h : HeaderTo c d) (hOther : HeaderTo c e) (hd : ∀ b, ¬ d.Passes [';'] b)
    (he : ∀ b, ¬ e.Passes [';'] b) : d = e := by
  obtain ⟨y, hRead, -⟩ := h.header_eq hd .empty
  obtain ⟨z, hAgain, -⟩ := hOther.header_eq he .empty
  rw [hRead] at hAgain
  cases hAgain
  rfl

theorem Tree.Named.wellFormed_of_derives {tree : Tree} {declarations : List Declaration} (h : tree.Named)
    (hDerives : Derives tree.render declarations) : tree.WellFormed := by
  obtain ⟨nodes⟩ := tree
  refine ⟨h.some, h.distinct, ?_⟩
  cases nodes with
  | nil => simp
  | cons first rest =>
    obtain ⟨name, node⟩ := first
    obtain ⟨b, last, hVersion, hCommands, hEnd⟩ := render_passes name node rest
    obtain ⟨_, hFirst, -⟩ := Cursor.Passes.split (s := commandText 0 name node) hCommands
    have hHead := command_head (h.each (name, node) List.mem_cons_self).name hFirst
    obtain ⟨hStops, hHeader⟩ := render_header hVersion hHead.stops
    have hAtEnd : ∀ {e : Cursor}, e.rest = [] → atEnd false e = true := fun h => by simp [atEnd, Cursor.isEmpty, h]
    cases hDerives with
    | intro hSpacing hFound hScope hFoundEnd =>
      obtain rfl := hSpacing.stays hStops
      obtain rfl := hFound.unique hHeader (fun _ => hScope.starts hFound.stops) (hHead.not_passes (by decide))
      exact (scope_rereads (fun entry hMem => (h.each entry hMem).name) (fun entry hMem => (h.each entry hMem).rereads)
        (fun _ hMem => by cases hMem) hCommands (hAtEnd hEnd) hScope (hAtEnd hFoundEnd)).1

theorem Tree.Named.finite_of_reread {tree read : Tree} {document : String} (h : tree.Named)
    (hRead : readText tree.render document = .ok read) : tree.FiniteNumbers := by
  obtain ⟨declarations, hDerives, -⟩ := readText_ok hRead
  exact h.wellFormed_iff.mp (h.wellFormed_of_derives hDerives)

/-- What was read is read back from its own text exactly when all its numbers are finite. -/
theorem reread_iff_finite {source document : String} {tree : Tree} (h : readText source document = .ok tree) :
    (∃ read, readText tree.render document = .ok read ∧ read.equals tree = true) ↔ tree.FiniteNumbers := by
  have hNamed := readText_named h
  constructor
  · rintro ⟨read, hRead, -⟩
    exact hNamed.finite_of_reread hRead
  · intro hFinite
    have hFormed := hNamed.wellFormed_iff.mpr hFinite
    obtain ⟨declarations, hDerives, hSays⟩ := hFormed.derives
    rw [readText, document_of_derives hDerives]
    exact hFormed.finishes document hSays

/-- A document with a number of three hundred and ten digits. -/
def oversizedText : List Char :=
  "version 1\ninfo dialog(size=1".toList ++ List.replicate 309 '0' ++ ".0)".toList

def oversized : String :=
  String.ofList oversizedText

theorem oversized_infinite : ∃ tree, readText oversized "info" = .ok tree ∧ ¬ tree.FiniteNumbers := by
  have hRead : (readText oversized "info").toOption.any (fun tree => !decide tree.FiniteNumbers) = true := by
    rw [oversized, readText_ofList]
    decide +kernel
  generalize readText oversized "info" = result at hRead
  cases result with
  | error problems => cases hRead
  | ok tree => exact ⟨tree, rfl, by simpa [Except.toOption] using hRead⟩

theorem reread_iff_finite_oversized : ∃ tree, readText oversized "info" = .ok tree ∧
    ((∃ read, readText tree.render "info" = .ok read ∧ read.equals tree = true) ↔ tree.FiniteNumbers) := by
  obtain ⟨tree, hRead, -⟩ := oversized_infinite
  exact ⟨tree, hRead, reread_iff_finite hRead⟩

/-- The number is accepted, and what is written for it is not. -/
theorem oversized_not_reread : ∃ tree, readText oversized "info" = .ok tree ∧
    ¬ ∃ read, readText tree.render "info" = .ok read ∧ read.equals tree = true := by
  obtain ⟨tree, hRead, hInfinite⟩ := oversized_infinite
  refine ⟨tree, hRead, ?_⟩
  rintro ⟨read, hAgain, -⟩
  exact hInfinite ((readText_named hRead).finite_of_reread hAgain)

end DialogTree
