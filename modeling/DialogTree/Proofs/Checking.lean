import DialogTree.CommandLine.Run
import DialogTree.Files.Memory
import DialogTree.Pattern.Reader
import DialogTree.Proofs.Paths

/-!
# The status of a check

A check fails in the earliest phase in which one of its documents fails, and it counts the documents that fail. Which
documents it checks does not depend on the order of the inputs, but which spelling of a path it opens does.
-/

namespace DialogTree

namespace CommandLine

variable {files : FileSystem} {registry : Registry} {options : CheckOptions} {path : Path} {phase : Phase}

/-! ## Phases -/

theorem Phase.min_eq (a b : Phase) :
    (a.min b = a ∧ a.exitCode ≤ b.exitCode) ∨ (a.min b = b ∧ b.exitCode ≤ a.exitCode) := by
  rw [Phase.min]
  split
  · exact .inl ⟨rfl, ‹_›⟩
  · exact .inr ⟨rfl, by omega⟩

theorem foldl_min_least (first : Phase) (phases : List Phase) :
    phases.foldl Phase.min first ∈ first :: phases ∧
      ∀ other ∈ first :: phases, (phases.foldl Phase.min first).exitCode ≤ other.exitCode := by
  induction phases generalizing first with
  | nil => simp
  | cons next phases ih =>
    obtain ⟨hMem, hLeast⟩ := ih (first.min next)
    rw [List.foldl_cons]
    have hStart := hLeast _ List.mem_cons_self
    refine ⟨?_, fun other hOther => ?_⟩
    · obtain ⟨hMin, -⟩ | ⟨hMin, -⟩ := first.min_eq next <;> rw [hMin] at hMem ⊢ <;> grind
    · obtain ⟨hMin, hLe⟩ | ⟨hMin, hLe⟩ := first.min_eq next <;> rw [hMin] at hStart hLeast ⊢ <;> grind

theorem earliest?_eq_none {phases : List Phase} : earliest? phases = none ↔ phases = [] := by
  cases phases <;> simp [earliest?]

theorem earliest?_eq_some {phases : List Phase} (h : earliest? phases = some phase) :
    phase ∈ phases ∧ ∀ other ∈ phases, phase.exitCode ≤ other.exitCode := by
  cases phases with
  | nil => cases h
  | cons first phases =>
    obtain rfl := Option.some.inj h
    exact foldl_min_least first phases

/-! ## How a document fails -/

def CheckOptions.mode (options : CheckOptions) : ValidationMode :=
  if options.strict then .strict else .lenient

def Unreadable (files : FileSystem) (path : Path) : Prop :=
  ∃ error, files.readText path = .error error

def Unparsable (files : FileSystem) (options : CheckOptions) (path : Path) : Prop :=
  ∃ errors, loadDocument files options.inputFormat path = .error (.unparsable errors)

/-- The document is read, and the check of its tree finds errors. -/
def Invalid (files : FileSystem) (registry : Registry) (options : CheckOptions) (path : Path) : Prop :=
  ∃ tree, loadDocument files options.inputFormat path = .ok tree ∧
    (registry.validate options.mode tree).errors ≠ []

/-- The document is read, and the check of its tree finds no errors, whatever it warns of. -/
def Valid (files : FileSystem) (registry : Registry) (options : CheckOptions) (path : Path) : Prop :=
  ∃ tree, loadDocument files options.inputFormat path = .ok tree ∧
    (registry.validate options.mode tree).errors = []

/-- How the check of a document ends, by the phase in which it fails. -/
inductive Ends (files : FileSystem) (registry : Registry) (options : CheckOptions) (path : Path) :
    Option Phase → Prop where
  | unreadable (h : Unreadable files path) : Ends files registry options path (some .read)
  | unparsable (h : Unparsable files options path) : Ends files registry options path (some .parse)
  | invalid (h : Invalid files registry options path) : Ends files registry options path (some .validation)
  | valid (h : Valid files registry options path) : Ends files registry options path none

theorem unreadable_iff (format : InputFormat) :
    Unreadable files path ↔ ∃ message, loadDocument files format path = .error (.unreadable message) := by
  rw [loadDocument]
  cases hRead : files.readText path with
  | error error => simp [Unreadable, hRead]
  | ok source =>
    simp only [Unreadable, hRead, reduceCtorEq, exists_false, false_iff, not_exists]
    intro message
    cases (if readsJson format path then readJson source path.text else readText source path.text) <;>
      simp [Except.mapError]

def phaseOf (files : FileSystem) (registry : Registry) (options : CheckOptions) (path : Path) : Option Phase :=
  (checkDocument files registry options path).outcome.failedPhase?

theorem phaseOf_of_ok {tree : Tree} (hLoad : loadDocument files options.inputFormat path = .ok tree) :
    phaseOf files registry options path =
      if (registry.validate options.mode tree).errors = [] then none else some .validation := by
  rw [phaseOf, checkDocument, hLoad]
  exact if_congr List.isEmpty_iff rfl rfl

theorem ends (files : FileSystem) (registry : Registry) (options : CheckOptions) (path : Path) :
    Ends files registry options path (phaseOf files registry options path) := by
  cases hLoad : loadDocument files options.inputFormat path with
  | error error =>
    rw [phaseOf, checkDocument, hLoad]
    cases error with
    | unreadable message => exact .unreadable ((unreadable_iff _).mpr ⟨message, hLoad⟩)
    | unparsable errors => exact .unparsable ⟨errors, hLoad⟩
  | ok tree =>
    rw [phaseOf_of_ok hLoad]
    split
    case isTrue hErrors => exact .valid ⟨tree, hLoad, hErrors⟩
    case isFalse hErrors => exact .invalid ⟨tree, hLoad, hErrors⟩

theorem Ends.phaseOf_eq {phase? : Option Phase} (h : Ends files registry options path phase?) :
    phaseOf files registry options path = phase? := by
  cases h with
  | unreadable h =>
    obtain ⟨message, hLoad⟩ := (unreadable_iff options.inputFormat).mp h
    rw [phaseOf, checkDocument, hLoad, Outcome.failedPhase?]
  | unparsable h =>
    obtain ⟨errors, hLoad⟩ := h
    rw [phaseOf, checkDocument, hLoad, Outcome.failedPhase?]
  | invalid h =>
    obtain ⟨tree, hLoad, hErrors⟩ := h
    rw [phaseOf_of_ok hLoad, if_neg hErrors]
  | valid h =>
    obtain ⟨tree, hLoad, hErrors⟩ := h
    rw [phaseOf_of_ok hLoad, if_pos hErrors]

theorem phaseOf_isSome_iff : (phaseOf files registry options path).isSome ↔
    Unreadable files path ∨ Unparsable files options path ∨ Invalid files registry options path := by
  constructor
  · cases hPhase : phaseOf files registry options path with
    | none => simp
    | some phase =>
      have hEnds := ends files registry options path
      rw [hPhase] at hEnds
      cases hEnds with
      | unreadable h => exact fun _ => .inl h
      | unparsable h => exact fun _ => .inr (.inl h)
      | invalid h => exact fun _ => .inr (.inr h)
  · rintro (h | h | h)
    · rw [(Ends.unreadable h).phaseOf_eq, Option.isSome_some]
    · rw [(Ends.unparsable h).phaseOf_eq, Option.isSome_some]
    · rw [(Ends.invalid h).phaseOf_eq, Option.isSome_some]

theorem failedPhases_map (files : FileSystem) (registry : Registry) (options : CheckOptions)
    (documents : List Path) :
    failedPhases (documents.map (checkDocument files registry options)) =
      documents.filterMap (phaseOf files registry options) := by
  rw [failedPhases, List.filterMap_map]
  rfl

/-! ## What a run reports -/

/-- The result of a check of documents: its status is that of the earliest phase in which a document fails, and its
output is the reports of the documents, in their order, with the number of those that fail. -/
structure Reported (files : FileSystem) (registry : Registry) (options : CheckOptions) (documents : List Path)
    (result : Result) : Prop where
  absent : documents = [] →
    result = .ofError ⟨.read, "no .uidl or .json documents found in the given inputs"⟩
  unread : documents = [] ∨ (∃ path ∈ documents, Unreadable files path) → result.exitCode = 3
  unparsed : documents ≠ [] → (∀ path ∈ documents, ¬Unreadable files path) →
    (∃ path ∈ documents, Unparsable files options path) → result.exitCode = 4
  invalid : documents ≠ [] → (∀ path ∈ documents, ¬Unreadable files path ∧ ¬Unparsable files options path) →
    (∃ path ∈ documents, Invalid files registry options path) → result.exitCode = 5
  valid : documents ≠ [] → (∀ path ∈ documents, Valid files registry options path) → result.exitCode = 0
  counted : documents ≠ [] → ∃ failing : List Path, failing.Sublist documents ∧
    (∀ path ∈ documents, path ∈ failing ↔
      Unreadable files path ∨ Unparsable files options path ∨ Invalid files registry options path) ∧
    result.output =
      reportOutcomes options.format (documents.map (checkDocument files registry options)) ++
        if failing = [] then .empty
        else .note ("error: " ++ toString failing.length ++ " of " ++ toString documents.length ++
          " document(s) failed")

def resultOf (files : FileSystem) (registry : Registry) (options : CheckOptions) (documents : List Path) : Result :=
  let outcomes := documents.map (checkDocument files registry options)
  .ofOutput (reportOutcomes options.format outcomes) (failureOf? outcomes)

theorem exitCode_resultOf (documents : List Path) :
    (resultOf files registry options documents).exitCode =
      ((earliest? (documents.filterMap (phaseOf files registry options))).map Phase.exitCode).getD 0 := by
  rw [resultOf, failureOf?, failedPhases_map]
  cases earliest? (documents.filterMap (phaseOf files registry options)) <;> rfl

theorem exitCode_resultOf_of_earliest {documents : List Path}
    (hPhase : ∃ path ∈ documents, phaseOf files registry options path = some phase)
    (hEarliest : ∀ path ∈ documents, ∀ other, phaseOf files registry options path = some other →
      phase.exitCode ≤ other.exitCode) :
    (resultOf files registry options documents).exitCode = phase.exitCode := by
  obtain ⟨path, hPath, hFails⟩ := hPhase
  have hMem : phase ∈ documents.filterMap (phaseOf files registry options) :=
    List.mem_filterMap.mpr ⟨path, hPath, hFails⟩
  rw [exitCode_resultOf]
  cases hFirst : earliest? (documents.filterMap (phaseOf files registry options)) with
  | none => simp [earliest?_eq_none.mp hFirst] at hMem
  | some first =>
    obtain ⟨hFound, hLeast⟩ := earliest?_eq_some hFirst
    obtain ⟨other, hOther, hOtherFails⟩ := List.mem_filterMap.mp hFound
    exact Nat.le_antisymm (hLeast phase hMem) (hEarliest other hOther first hOtherFails)

theorem read_le (phase : Phase) : Phase.read.exitCode ≤ phase.exitCode := by
  cases phase <;> decide

theorem parse_le (hRead : ¬Unreadable files path)
    (hPhase : phaseOf files registry options path = some phase) : Phase.parse.exitCode ≤ phase.exitCode := by
  have hEnds := ends files registry options path
  rw [hPhase] at hEnds
  cases hEnds with
  | unreadable h => exact absurd h hRead
  | unparsable | invalid => decide

theorem validation_le (hParse : ¬Unreadable files path ∧ ¬Unparsable files options path)
    (hPhase : phaseOf files registry options path = some phase) :
    Phase.validation.exitCode ≤ phase.exitCode := by
  have hEnds := ends files registry options path
  rw [hPhase] at hEnds
  cases hEnds with
  | unreadable h => exact absurd h hParse.1
  | unparsable h => exact absurd h hParse.2
  | invalid => exact le_rfl

def failing (files : FileSystem) (registry : Registry) (options : CheckOptions) (documents : List Path) :
    List Path :=
  documents.filter fun path => (phaseOf files registry options path).isSome

theorem mem_failing {documents : List Path} (hPath : path ∈ documents) :
    path ∈ failing files registry options documents ↔
      Unreadable files path ∨ Unparsable files options path ∨ Invalid files registry options path := by
  rw [failing, List.mem_filter, and_iff_right hPath, phaseOf_isSome_iff]

theorem length_failing (documents : List Path) :
    (failing files registry options documents).length =
      (documents.filterMap (phaseOf files registry options)).length := by
  induction documents with
  | nil => rfl
  | cons path documents ih =>
    rw [failing] at ih ⊢
    cases hPhase : phaseOf files registry options path <;> simp [hPhase, ih]

theorem failing_eq_nil {documents : List Path} :
    failing files registry options documents = [] ↔
      documents.filterMap (phaseOf files registry options) = [] := by
  rw [← List.length_eq_zero_iff, length_failing, List.length_eq_zero_iff]

theorem output_resultOf (documents : List Path) :
    (resultOf files registry options documents).output =
      reportOutcomes options.format (documents.map (checkDocument files registry options)) ++
        if failing files registry options documents = [] then .empty
        else .note ("error: " ++ toString (failing files registry options documents).length ++ " of " ++
          toString documents.length ++ " document(s) failed") := by
  rw [resultOf, failureOf?, failedPhases_map, length_failing, List.length_map]
  cases hFirst : earliest? (documents.filterMap (phaseOf files registry options)) with
  | none =>
    rw [if_pos (failing_eq_nil.mpr (earliest?_eq_none.mp hFirst))]
    change _ = Output.append _ _
    simp [Result.ofOutput, Output.append, Output.empty]
  | some first =>
    have hSome : failing files registry options documents ≠ [] := fun hNil => by
      simp [earliest?_eq_none.mpr (failing_eq_nil.mp hNil)] at hFirst
    rw [if_neg hSome]
    simp [Result.ofOutput, String.append_assoc]

section Runs

variable [PatternEngine]

theorem checkDocuments_of_registry (hRegistry : buildRegistry files options.registry = .ok registry) :
    checkDocuments files options =
      if (documentPaths files options.inputs).isEmpty then
        .error ⟨.read, "no .uidl or .json documents found in the given inputs"⟩
      else .ok ((documentPaths files options.inputs).map (checkDocument files registry options)) := by
  rw [checkDocuments, hRegistry]
  rfl

theorem runCheck_of_registry (hRegistry : buildRegistry files options.registry = .ok registry) :
    runCheck files options =
      if documentPaths files options.inputs = [] then
        .ofError ⟨.read, "no .uidl or .json documents found in the given inputs"⟩
      else resultOf files registry options (documentPaths files options.inputs) := by
  rw [runCheck, checkDocuments_of_registry hRegistry]
  by_cases hNone : documentPaths files options.inputs = []
  · rw [hNone]
    rfl
  · rw [if_neg (by simpa using hNone), if_neg hNone]
    rfl

theorem reported (hRegistry : buildRegistry files options.registry = .ok registry) :
    Reported files registry options (documentPaths files options.inputs) (runCheck files options) := by
  rw [runCheck_of_registry hRegistry]
  generalize documentPaths files options.inputs = documents
  refine ⟨fun hNone => if_pos hNone, fun h => ?_, fun hSome hRead hParse => ?_, fun hSome hParse hCheck => ?_,
    fun hSome hValid => ?_, fun hSome => ?_⟩
  case refine_1 =>
    obtain hNone | ⟨path, hPath, hUnreadable⟩ := h
    · rw [if_pos hNone]
      rfl
    · rw [if_neg (List.ne_nil_of_mem hPath)]
      exact exitCode_resultOf_of_earliest ⟨path, hPath, (Ends.unreadable hUnreadable).phaseOf_eq⟩
        fun _ _ other _ => read_le other
  all_goals rw [if_neg hSome]
  case refine_2 =>
    obtain ⟨path, hPath, hUnparsable⟩ := hParse
    exact exitCode_resultOf_of_earliest ⟨path, hPath, (Ends.unparsable hUnparsable).phaseOf_eq⟩
      fun other hOther _ => parse_le (hRead other hOther)
  case refine_3 =>
    obtain ⟨path, hPath, hInvalid⟩ := hCheck
    exact exitCode_resultOf_of_earliest ⟨path, hPath, (Ends.invalid hInvalid).phaseOf_eq⟩
      fun other hOther _ => validation_le (hParse other hOther)
  case refine_4 =>
    have hNone : documents.filterMap (phaseOf files registry options) = [] :=
      List.filterMap_eq_nil_iff.mpr fun path hPath => (Ends.valid (hValid path hPath)).phaseOf_eq
    rw [exitCode_resultOf, hNone]
    rfl
  case refine_5 =>
    exact ⟨failing files registry options documents, List.filter_sublist, fun path hPath => mem_failing hPath,
      output_resultOf documents⟩

/-! ## Without a registry -/

def catalogStep (files : FileSystem) (registry : Registry) (path : Path) : Except RunError Registry :=
  match addCatalog files registry path with
  | .ok next => .ok next
  | .error reason => .error ⟨.configuration, "schema catalog '" ++ path.text ++ "': " ++ reason⟩

theorem buildRegistry_eq (files : FileSystem) (registryOptions : RegistryOptions) :
    buildRegistry files registryOptions = (startRegistry registryOptions.withBuiltin).bind fun start =>
      (registryOptions.catalogs.foldlM (catalogStep files) start).bind fun registry => .ok registry.freeze :=
  rfl

theorem catalogStep_congr {others : FileSystem} (hRead : others.readText path = files.readText path)
    (registry : Registry) : catalogStep others registry path = catalogStep files registry path := by
  rw [catalogStep, catalogStep, addCatalog, addCatalog, hRead]

theorem foldlM_catalogStep_congr {others : FileSystem} {catalogs : List Path}
    (hRead : ∀ path ∈ catalogs, others.readText path = files.readText path) (registry : Registry) :
    catalogs.foldlM (catalogStep others) registry = catalogs.foldlM (catalogStep files) registry := by
  induction catalogs generalizing registry with
  | nil => rfl
  | cons path catalogs ih =>
    obtain ⟨hFirst, hLater⟩ := List.forall_mem_cons.mp hRead
    simp only [List.foldlM_cons, catalogStep_congr hFirst, ih hLater]

/-- The registry depends on the files of its catalogs alone. -/
theorem buildRegistry_congr {others : FileSystem} {registryOptions : RegistryOptions}
    (hRead : ∀ path ∈ registryOptions.catalogs, others.readText path = files.readText path) :
    buildRegistry others registryOptions = buildRegistry files registryOptions := by
  simp only [buildRegistry_eq, foldlM_catalogStep_congr hRead]

theorem phase_of_foldlM_catalogStep {catalogs : List Path} {error : RunError} (registry : Registry)
    (h : catalogs.foldlM (catalogStep files) registry = .error error) : error.phase = .configuration := by
  induction catalogs generalizing registry with
  | nil => cases h
  | cons path catalogs ih =>
    rw [List.foldlM_cons, catalogStep] at h
    cases hAdded : addCatalog files registry path with
    | error reason =>
      rw [hAdded] at h
      cases h
      rfl
    | ok next =>
      rw [hAdded] at h
      exact ih next h

theorem phase_of_buildRegistry {registryOptions : RegistryOptions} {error : RunError}
    (h : buildRegistry files registryOptions = .error error) : error.phase = .configuration := by
  rw [buildRegistry_eq] at h
  cases hStart : startRegistry registryOptions.withBuiltin with
  | error first =>
    rw [hStart] at h
    cases h
    rw [startRegistry] at hStart
    split at hStart
    · split at hStart <;> cases hStart
      rfl
    · cases hStart
  | ok start =>
    rw [hStart] at h
    change Except.bind (registryOptions.catalogs.foldlM (catalogStep files) start) _ = _ at h
    cases hFold : registryOptions.catalogs.foldlM (catalogStep files) start with
    | error first =>
      rw [hFold] at h
      cases h
      exact phase_of_foldlM_catalogStep start hFold
    | ok registry =>
      rw [hFold] at h
      cases h

theorem runCheck_of_error {error : RunError} (h : buildRegistry files options.registry = .error error) :
    runCheck files options = .ofError error := by
  rw [runCheck, checkDocuments, h]
  rfl

end Runs

/-! ## The documents of a run -/

/-- What the inputs stand for: themselves, unless they are directories, and the documents in directories. -/
def found (files : FileSystem) (inputs : List Path) : List Path :=
  inputs.flatMap (expandInput files)

theorem hasDocumentExtension_iff :
    hasDocumentExtension path = true ↔ ∃ extension ∈ documentExtensions, path.extension? = some extension := by
  rw [hasDocumentExtension]
  cases path.extension? <;> simp

theorem mem_found {inputs : List Path} :
    path ∈ found files inputs ↔
      (path ∈ inputs ∧ files.names? path = none) ∨
      ∃ directory ∈ inputs, ∃ names, files.names? directory = some names ∧
        ∃ name ∈ names, path = directory.join name ∧
          (∃ extension ∈ documentExtensions, path.extension? = some extension) ∧ files.isFile path = true := by
  simp only [found, List.mem_flatMap, expandInput, ← hasDocumentExtension_iff]
  constructor
  · rintro ⟨input, hInput, hPath⟩
    split at hPath
    case h_1 names hNames =>
      simp only [List.mem_filter, List.mem_map, isDocument, Bool.and_eq_true] at hPath
      obtain ⟨⟨name, hName, rfl⟩, hDocument⟩ := hPath
      exact .inr ⟨input, hInput, names, hNames, name, hName, rfl, hDocument⟩
    case h_2 hNone =>
      obtain rfl := List.mem_singleton.mp hPath
      exact .inl ⟨hInput, hNone⟩
  · rintro (⟨hInput, hNone⟩ | ⟨directory, hDirectory, names, hNames, name, hName, rfl, hDocument⟩)
    · exact ⟨path, hInput, by simp [hNone]⟩
    · refine ⟨directory, hDirectory, ?_⟩
      simp only [hNames, List.mem_filter, isDocument, Bool.and_eq_true]
      exact ⟨List.mem_map_of_mem hName, hDocument⟩

theorem mem_found_congr {inputs others : List Path} (hMem : ∀ input, input ∈ others ↔ input ∈ inputs)
    (path : Path) : path ∈ found files others ↔ path ∈ found files inputs := by
  simp only [found, List.mem_flatMap, hMem]

/-- A run checks the documents of its inputs in the order of their paths, each path in its first spelling. Its status
is 6 without a registry, when no file but the catalogs is read, and else that of the earliest phase in which a
document fails. The order of the inputs decides about nothing but spellings. -/
theorem runCheck_reports [PatternEngine] (files : FileSystem) (options : CheckOptions) :
    (∀ error, buildRegistry files options.registry = .error error →
      runCheck files options = .ofError error ∧ (runCheck files options).exitCode = 6 ∧
      ∀ (others : FileSystem) (more : CheckOptions), more.registry = options.registry →
        (∀ path ∈ options.registry.catalogs, others.readText path = files.readText path) →
        runCheck others more = runCheck files options) ∧
    (∀ registry, buildRegistry files options.registry = .ok registry →
      Reported files registry options (documentPaths files options.inputs) (runCheck files options)) ∧
    Path.Ascending (documentPaths files options.inputs) ∧
    (∀ path, path ∈ documentPaths files options.inputs ↔ Path.FirstSpelling (found files options.inputs) path) ∧
    (∀ path, path ∈ found files options.inputs ↔
      (path ∈ options.inputs ∧ files.names? path = none) ∨
      ∃ directory ∈ options.inputs, ∃ names, files.names? directory = some names ∧
        ∃ name ∈ names, path = directory.join name ∧
          (∃ extension ∈ documentExtensions, path.extension? = some extension) ∧ files.isFile path = true) ∧
    ∀ inputs, (∀ input, input ∈ inputs ↔ input ∈ options.inputs) →
      (documentPaths files inputs).map Path.parts = (documentPaths files options.inputs).map Path.parts ∧
      (Path.SpelledAlike (found files options.inputs) →
        runCheck files { options with inputs := inputs } = runCheck files options) := by
  refine ⟨fun error hError => ?_, fun registry => reported, Path.ascending_sorted _, fun _ => Path.mem_sorted,
    fun _ => mem_found, fun inputs hMem => ⟨?_, fun hAlike => ?_⟩⟩
  case refine_1 =>
    have hRun := runCheck_of_error hError
    refine ⟨hRun, ?_, fun others more hRegistry hRead => ?_⟩
    · rw [hRun, Result.ofError, Result.ofOutput, phase_of_buildRegistry hError]
      rfl
    · have hOther : buildRegistry others more.registry = .error error := by
        rw [hRegistry, buildRegistry_congr hRead, hError]
      rw [runCheck_of_error hOther, hRun]
  case refine_2 =>
    refine Path.map_parts_sorted_eq fun parts => ?_
    exact exists_congr fun path => and_congr_left' (mem_found_congr hMem path)
  case refine_3 =>
    have hSame : documentPaths files inputs = documentPaths files options.inputs :=
      hAlike.sorted_eq (mem_found_congr hMem)
    cases hRegistry : buildRegistry files options.registry with
    | error error =>
      have hRun : runCheck files { options with inputs := inputs } = _ := runCheck_of_error hRegistry
      rw [hRun, runCheck_of_error hRegistry]
    | ok registry =>
      have hRun : runCheck files { options with inputs := inputs } = _ := runCheck_of_registry hRegistry
      rw [hRun, runCheck_of_registry hRegistry, hSame]
      rfl

/-- A file that cannot be opened is among the documents of its directory, and fails as one of them. -/
example :
    letI := Pattern.engine
    let files : FileSystem := ⟨fun path =>
      if path.text = "d" then .ok (.directory ["b.uidl", "a.uidl"])
      else if path.text = "d/a.uidl" then .ok (.file (.ok "version 1\nh link(target=\"a\")\n".toUTF8))
      else .ok (.file (.error (.unopened "Permission denied (os error 13)")))⟩
    runCheck files ⟨[⟨"d"⟩], false, .auto, .text, ⟨[], true⟩⟩ =
      ⟨3, "d/a.uidl: ok\nfailed to read 'd/b.uidl': Permission denied (os error 13)\n",
        "error: 1 of 2 document(s) failed\n"⟩ := by
  decide +kernel

/-- Two inputs are two spellings of one path. A slash behind the name of a file keeps it from being read, so the status
is that of the spelling that comes first. -/
theorem runCheck_spellings :
    letI := Pattern.engine
    ∃ (files : FileSystem) (options : CheckOptions) (inputs : List Path), inputs.Perm options.inputs ∧
      (runCheck files options).exitCode = 0 ∧
      (runCheck files { options with inputs := inputs }).exitCode = 3 := by
  let _ := Pattern.engine
  let source := "version 1\ninfo1 dialog(type=\"info\", message=\"Hi\")\n"
  let files : FileSystem := .ofFiles [⟨["a.uidl"], some source.toUTF8⟩]
  let options : CheckOptions := ⟨[⟨"a.uidl"⟩, ⟨"a.uidl/"⟩], false, .auto, .text, ⟨[], true⟩⟩
  refine ⟨files, options, [⟨"a.uidl/"⟩, ⟨"a.uidl"⟩], .swap _ _ _, ?_, ?_⟩
  · decide +kernel
  · decide +kernel

end CommandLine

end DialogTree
