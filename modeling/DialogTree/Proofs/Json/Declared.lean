import DialogTree.Proofs.Json.Shape

/-!
# What a JSON document declares

Nothing is reported for a JSON value exactly when each of its commands is declared as it stands: with its
keyword, with every other entry as an attribute, and with its children.
-/

namespace DialogTree

namespace Json

/-! ## Declarations -/

structure DeclaresItem (entry : String × Value) (item : DeclaredAttribute) : Prop where
  identifier : isIdentifier entry.1 = true
  key : item.key = entry.1
  value : Denotes entry.2 item.value
  position : item.position = none

/-- A command entry and what is declared for it. Empty names and keywords are left to the tree, and so are
repeated and reserved names and keys. -/
inductive Declares : String × Value → Declaration → Prop where
  | bare {name keyword : String} {entries : List (String × Value)} {items : List DeclaredAttribute}
      (hName : ∀ x ∈ name.toList, isNameChar x = true) (hKeyword : valuesOf keywordKey entries = [.string keyword])
      (hWord : keyword ≠ "" → isIdentifier keyword = true)
      (hItems : List.Forall₂ DeclaresItem (writtenOf entries) items) (hBare : valuesOf childrenKey entries = []) :
      Declares (name, .object entries) ⟨name, keyword, none, items, none⟩
  | body {name keyword : String} {entries children : List (String × Value)} {items : List DeclaredAttribute}
      {declarations : List Declaration}
      (hName : ∀ x ∈ name.toList, isNameChar x = true) (hKeyword : valuesOf keywordKey entries = [.string keyword])
      (hWord : keyword ≠ "" → isIdentifier keyword = true)
      (hItems : List.Forall₂ DeclaresItem (writtenOf entries) items)
      (hBody : valuesOf childrenKey entries = [.object children]) (hSome : children ≠ [])
      (hBelow : List.Forall₂ Declares children declarations) :
      Declares (name, .object entries) ⟨name, keyword, none, items, some declarations⟩

theorem Declares.name_eq {entry : String × Value} {declaration : Declaration} (h : Declares entry declaration) :
    declaration.name = entry.1 := by
  cases h with
  | bare => rfl
  | body => rfl

inductive DeclaresBody : Value → List Declaration → Prop where
  | intro {children : List (String × Value)} {declarations : List Declaration} (hSome : children ≠ [])
      (hBelow : List.Forall₂ Declares children declarations) : DeclaresBody (.object children) declarations

/-- What one entry gives to the fields of a command when nothing is reported. -/
inductive Fields.Takes (fields : Fields) (entry : String × Value) : Fields → Prop where
  | keyword {text : String} (hKey : entry.1 = keywordKey) (hText : entry.2 = .string text)
      (hNew : fields.keyword = none) : fields.Takes entry { fields with keyword := some text }
  | body {declarations : List Declaration} (hKey : entry.1 = childrenKey) (hBody : DeclaresBody entry.2 declarations)
      (hNew : fields.body = none) : fields.Takes entry { fields with body := some declarations }
  | item {item : DeclaredAttribute} (hKeyword : entry.1 ≠ keywordKey) (hChildren : entry.1 ≠ childrenKey)
      (hItem : DeclaresItem entry item) :
      fields.Takes entry { fields with attributes := fields.attributes ++ [item] }

structure Fields.Grows (fields : Fields) (entries : List (String × Value)) (last : Fields) : Prop where
  keyword : fields.keyword.toList.map Value.string ++ valuesOf keywordKey entries =
    last.keyword.toList.map Value.string
  body : ∃ bodies, List.Forall₂ DeclaresBody (valuesOf childrenKey entries) bodies ∧
    fields.body.toList ++ bodies = last.body.toList
  attributes : ∃ items, List.Forall₂ DeclaresItem (writtenOf entries) items ∧
    fields.attributes ++ items = last.attributes

/-! ## Fields -/

theorem valuesOf_cons (key : String) (entry : String × Value) (entries : List (String × Value)) :
    valuesOf key (entry :: entries) =
      if entry.1 = key then entry.2 :: valuesOf key entries else valuesOf key entries := by
  by_cases hKey : entry.1 = key <;> simp [valuesOf, hKey]

theorem writtenOf_cons (entry : String × Value) (entries : List (String × Value)) :
    writtenOf (entry :: entries) =
      if entry.1 ≠ keywordKey ∧ entry.1 ≠ childrenKey then entry :: writtenOf entries else writtenOf entries := by
  simp [writtenOf, List.filter_cons]

theorem childrenKey_ne : childrenKey ≠ keywordKey := by
  decide

variable {path : String} {fields next last : Fields}

theorem Fields.Grows.nil_iff : fields.Grows [] last ↔ last = fields := by
  constructor
  · rintro ⟨hKeyword, ⟨bodies, hBodies, hBody⟩, ⟨items, hItems, hAttributes⟩⟩
    cases hBodies
    cases hItems
    obtain ⟨keyword, attributes, body⟩ := fields
    obtain ⟨keyword', attributes', body'⟩ := last
    obtain rfl : attributes = attributes' := by simpa using hAttributes
    obtain rfl : body = body' := by
      cases body <;> cases body' <;> simp_all
    obtain rfl : keyword = keyword' := by
      cases keyword <;> cases keyword' <;> simp_all [valuesOf]
    rfl
  · rintro rfl
    exact ⟨by simp [valuesOf], ⟨[], .nil, by simp⟩, ⟨[], .nil, by simp⟩⟩

theorem Fields.Grows.cons {entry : String × Value} {entries : List (String × Value)} (hStep : fields.Takes entry next)
    (h : next.Grows entries last) : fields.Grows (entry :: entries) last := by
  obtain ⟨hKeyword, ⟨bodies, hBodies, hBody⟩, ⟨items, hItems, hAttributes⟩⟩ := h
  cases hStep with
  | keyword hKey hText hNew =>
    refine ⟨?_, ⟨bodies, ?_, hBody⟩, ⟨items, ?_, hAttributes⟩⟩
    · simpa [valuesOf_cons, hKey, hText, hNew] using hKeyword
    · simpa [valuesOf_cons, hKey, childrenKey_ne.symm] using hBodies
    · simpa [writtenOf_cons, hKey] using hItems
  | @body declarations hKey hFirst hNew =>
    refine ⟨?_, ⟨declarations :: bodies, ?_, ?_⟩, ⟨items, ?_, hAttributes⟩⟩
    · simpa [valuesOf_cons, hKey, childrenKey_ne] using hKeyword
    · simpa [valuesOf_cons, hKey] using ⟨hFirst, hBodies⟩
    · simpa [hNew] using hBody
    · simpa [writtenOf_cons, hKey] using hItems
  | @item item hNotKeyword hNotChildren hItem =>
    refine ⟨?_, ⟨bodies, ?_, hBody⟩, ⟨item :: items, ?_, ?_⟩⟩
    · simpa [valuesOf_cons, hNotKeyword] using hKeyword
    · simpa [valuesOf_cons, hNotChildren] using hBodies
    · simpa [writtenOf_cons, hNotKeyword, hNotChildren] using ⟨hItem, hItems⟩
    · simpa using hAttributes

theorem Fields.Grows.uncons {entry : String × Value} {entries : List (String × Value)}
    (h : fields.Grows (entry :: entries) last) : ∃ next, fields.Takes entry next ∧ next.Grows entries last := by
  obtain ⟨key, value⟩ := entry
  obtain ⟨hKeyword, ⟨bodies, hBodies, hBody⟩, ⟨items, hItems, hAttributes⟩⟩ := h
  by_cases hIsKeyword : key = keywordKey
  · subst hIsKeyword
    -- The last keyword is one, so that there is none yet and this one is a text.
    obtain ⟨hNew, text, rfl⟩ : fields.keyword = none ∧ ∃ text, value = .string text := by
      rw [valuesOf_cons, if_pos rfl] at hKeyword
      cases hFields : fields.keyword <;> cases hLast : last.keyword <;> simp_all
    refine ⟨_, .keyword rfl rfl hNew, ?_, ⟨bodies, ?_, hBody⟩, ⟨items, ?_, hAttributes⟩⟩
    · simpa [valuesOf_cons, hNew] using hKeyword
    · simpa [valuesOf_cons, childrenKey_ne.symm] using hBodies
    · simpa [writtenOf_cons] using hItems
  · by_cases hIsChildren : key = childrenKey
    · subst hIsChildren
      rw [valuesOf_cons, if_pos rfl, List.forall₂_cons_left_iff] at hBodies
      obtain ⟨declarations, others, hFirst, hOthers, rfl⟩ := hBodies
      have hNew : fields.body = none := by
        cases hFields : fields.body <;> cases hLast : last.body <;> simp_all
      refine ⟨_, .body rfl hFirst hNew, ?_, ⟨others, hOthers, ?_⟩, ⟨items, ?_, hAttributes⟩⟩
      · simpa [valuesOf_cons, childrenKey_ne] using hKeyword
      · simpa [hNew] using hBody
      · simpa [writtenOf_cons] using hItems
    · rw [writtenOf_cons, if_pos ⟨hIsKeyword, hIsChildren⟩, List.forall₂_cons_left_iff] at hItems
      obtain ⟨item, others, hFirst, hOthers, rfl⟩ := hItems
      refine ⟨_, .item hIsKeyword hIsChildren hFirst, ?_, ⟨bodies, ?_, hBody⟩, ⟨others, hOthers, ?_⟩⟩
      · simpa [valuesOf_cons, hIsKeyword] using hKeyword
      · simpa [valuesOf_cons, hIsChildren] using hBodies
      · simpa using hAttributes

theorem Fields.addKeyword_ok_iff {value : Value} :
    fields.addKeyword path value = (next, []) ↔ fields.Takes (keywordKey, value) next := by
  constructor
  · intro h
    cases value with
    | string text =>
      cases hNew : fields.keyword with
      | some _ => simp [Fields.addKeyword, hNew] at h
      | none =>
        obtain rfl : { fields with keyword := some text } = next := by simpa [Fields.addKeyword, hNew] using h
        exact .keyword rfl rfl hNew
    | _ => simp [Fields.addKeyword] at h
  · intro h
    cases h with
    | keyword _ hText hNew =>
      obtain rfl : value = _ := hText
      simp [Fields.addKeyword, hNew]
    | body hKey => exact absurd hKey.symm childrenKey_ne
    | item hKeyword => exact absurd rfl hKeyword

theorem Fields.addAttribute_ok_iff {key : String} {value : Value} (hKeyword : key ≠ keywordKey)
    (hChildren : key ≠ childrenKey) :
    fields.addAttribute path key value = (next, []) ↔ fields.Takes (key, value) next := by
  rw [Fields.addAttribute]
  constructor
  · intro h
    split at h
    · rename_i hIdentifier
      split at h
      · rename_i read hRead
        cases h
        exact .item hKeyword hChildren ⟨hIdentifier, rfl, (literalValue_ok_iff value).mp hRead, rfl⟩
      · cases h
    · cases h
  · intro h
    cases h with
    | keyword hKey => exact absurd hKey hKeyword
    | body hKey => exact absurd hKey hChildren
    | @item item _ _ hItem =>
      obtain ⟨hIdentifier, hKey, hValue, hPosition⟩ := hItem
      obtain ⟨_, read, _⟩ := item
      obtain rfl := hKey
      obtain rfl := hPosition
      rw [if_pos hIdentifier, (literalValue_ok_iff value).mpr hValue]

/-- A run of entries is read without a report when its first one and then the others are. The readers of a body
and of entries call each other, so that the body is taken as a hypothesis here. -/
theorem readFields_cons_ok_iff {entry : String × Value} {rest : List (String × Value)}
    (hBody : ∀ next, readBody path fields entry.2 = (next, []) ↔ fields.Takes (childrenKey, entry.2) next) :
    readFields path fields (entry :: rest) = (last, []) ↔
      ∃ next, fields.Takes entry next ∧ readFields path next rest = (last, []) := by
  obtain ⟨key, value⟩ := entry
  obtain ⟨next, errors, hNext⟩ : ∃ next errors,
      (if key = keywordKey then fields.addKeyword path value
        else if key = childrenKey then readBody path fields value
        else fields.addAttribute path key value) = (next, errors) := ⟨_, _, rfl⟩
  obtain ⟨reached, lastErrors, hRest⟩ : ∃ reached errors, readFields path next rest = (reached, errors) :=
    ⟨_, _, rfl⟩
  have hTakes : ∀ other, fields.Takes (key, value) other ↔ (next, errors) = (other, []) := by
    intro other
    rw [← hNext]
    split
    · rename_i hKey
      rw [hKey, Fields.addKeyword_ok_iff]
    · split
      · rename_i hKey
        rw [hKey, hBody]
      · rename_i hKeyword hChildren
        rw [Fields.addAttribute_ok_iff hKeyword hChildren]
  simp only [readFields, hNext, hRest, hTakes, Prod.mk.injEq, List.append_eq_nil_iff]
  constructor
  · rintro ⟨rfl, rfl, rfl⟩
    exact ⟨next, ⟨rfl, rfl⟩, hRest⟩
  · rintro ⟨_, ⟨rfl, rfl⟩, hLast⟩
    obtain ⟨rfl, rfl⟩ := Prod.mk.inj (hRest.symm.trans hLast)
    exact ⟨rfl, rfl, rfl⟩

theorem nameErrors_eq_nil_iff {name : String} :
    nameErrors path name = [] ↔ ∀ x ∈ name.toList, isNameChar x = true := by
  rw [nameErrors, ← List.all_eq_true]
  split
  · rename_i hAll
    simp [hAll]
  · rename_i hOther
    simp [hOther]

theorem Fields.Grows.declares {name : String} {entries : List (String × Value)} {declaration? : Option Declaration}
    (h : Fields.empty.Grows entries fields) (hName : ∀ x ∈ name.toList, isNameChar x = true)
    (hDeclare : declare path name fields = (declaration?, [])) :
    ∃ declaration, declaration? = some declaration ∧ Declares (name, .object entries) declaration := by
  obtain ⟨hKeyword, ⟨bodies, hBodies, hBody⟩, ⟨items, hItems, hAttributes⟩⟩ := h
  obtain rfl : items = fields.attributes := hAttributes
  obtain rfl : bodies = fields.body.toList := hBody
  rw [declare] at hDeclare
  cases hFields : fields.keyword with
  | none => simp [hFields] at hDeclare
  | some keyword =>
    have hText : valuesOf keywordKey entries = [.string keyword] := by
      simpa [Fields.empty, hFields] using hKeyword
    have hAll : (name.toList.all isNameChar) = true := List.all_eq_true.mpr hName
    simp only [hFields, hAll] at hDeclare
    split at hDeclare
    · cases hDeclare
    · rename_i hIdentifier
      obtain rfl := (Prod.mk.inj hDeclare).1
      have hWord : keyword ≠ "" → isIdentifier keyword = true := by simpa using hIdentifier
      refine ⟨_, rfl, ?_⟩
      cases hDeclared : fields.body with
      | none =>
        rw [hDeclared, Option.toList_none, List.forall₂_nil_right_iff] at hBodies
        exact .bare hName hText hWord hItems hBodies
      | some declarations =>
        rw [hDeclared, Option.toList_some, List.forall₂_cons_right_iff] at hBodies
        obtain ⟨value, values, hBody, hNone, hValues⟩ := hBodies
        cases hNone
        cases hBody with
        | intro hSome hBelow => exact .body hName hText hWord hItems hValues hSome hBelow

theorem declare_eq (path : String) {name keyword : String} (items : List DeclaredAttribute)
    (body : Option (List Declaration)) (hName : ∀ x ∈ name.toList, isNameChar x = true)
    (hWord : keyword ≠ "" → isIdentifier keyword = true) :
    declare path name ⟨some keyword, items, body⟩ = (some ⟨name, keyword, none, items, body⟩, []) := by
  have hAll : (name.toList.all isNameChar) = true := List.all_eq_true.mpr hName
  have hIdentifier : ¬ (keyword ≠ "" ∧ (!isIdentifier keyword) = true) := by simpa using hWord
  simp only [declare, hAll]
  rw [if_neg hIdentifier]
  rfl

theorem Declares.grows (path : String) {name : String} {entries : List (String × Value)} {declaration : Declaration}
    (h : Declares (name, .object entries) declaration) :
    (∀ x ∈ name.toList, isNameChar x = true) ∧
      ∃ fields, Fields.empty.Grows entries fields ∧ declare path name fields = (some declaration, []) := by
  cases h with
  | bare hName hKeyword hWord hItems hBare =>
    refine ⟨hName, _, ⟨?_, ⟨[], by simp [hBare], rfl⟩, ⟨_, hItems, rfl⟩⟩, declare_eq path _ none hName hWord⟩
    simp [Fields.empty, hKeyword]
  | @body _ _ _ _ _ declarations hName hKeyword hWord hItems hBody hSome hBelow =>
    refine ⟨hName, _, ⟨?_, ⟨[declarations], ?_, rfl⟩, ⟨_, hItems, rfl⟩⟩, declare_eq path _ (some _) hName hWord⟩
    · simp [Fields.empty, hKeyword]
    · rw [hBody]
      exact .cons (.intro hSome hBelow) .nil

mutual

/-- Nothing is reported for a command exactly when it is declared as it stands. -/
theorem readCommand_ok_iff (parent : Option String) (name : String) : ∀ (value : Value)
    {declaration? : Option Declaration}, readCommand parent name value = (declaration?, []) ↔
      ∃ declaration, declaration? = some declaration ∧ Declares (name, value) declaration
  | .object entries, declaration? => by
    obtain ⟨fields, errors, hFields⟩ :
        ∃ fields errors, readFields (childPath parent name) .empty entries = (fields, errors) := ⟨_, _, rfl⟩
    obtain ⟨last?, lastErrors, hLast⟩ :
        ∃ last? errors, declare (childPath parent name) name fields = (last?, errors) := ⟨_, _, rfl⟩
    simp only [readCommand, hFields, hLast, Prod.mk.injEq, List.append_eq_nil_iff]
    constructor
    · rintro ⟨rfl, ⟨hName, rfl⟩, rfl⟩
      exact ((readFields_ok_iff _ entries).mp hFields).declares (nameErrors_eq_nil_iff.mp hName) hLast
    · rintro ⟨declaration, rfl, h⟩
      obtain ⟨hName, given, hGrows, hDeclare⟩ := h.grows (childPath parent name)
      obtain ⟨rfl, rfl⟩ := Prod.mk.inj (hFields.symm.trans ((readFields_ok_iff _ entries).mpr hGrows))
      obtain ⟨rfl, rfl⟩ := Prod.mk.inj (hLast.symm.trans hDeclare)
      exact ⟨rfl, ⟨nameErrors_eq_nil_iff.mpr hName, rfl⟩, rfl⟩
  | .null, _ | .bool _, _ | .integer _, _ | .float _, _ | .string _, _ | .array _, _ => by
    constructor
    · intro h
      simp [readCommand] at h
    · rintro ⟨_, -, h⟩
      cases h

theorem readFields_ok_iff (path : String) : ∀ (entries : List (String × Value)) {fields last : Fields},
    readFields path fields entries = (last, []) ↔ fields.Grows entries last
  | [], fields, last => by
    rw [readFields, Prod.mk.injEq, Fields.Grows.nil_iff, eq_comm]
    simp
  | (key, value) :: rest, fields, last => by
    rw [readFields_cons_ok_iff fun next => readBody_ok_iff path value]
    constructor
    · rintro ⟨next, hStep, hRest⟩
      exact .cons hStep ((readFields_ok_iff path rest).mp hRest)
    · intro h
      obtain ⟨next, hStep, hRest⟩ := h.uncons
      exact ⟨next, hStep, (readFields_ok_iff path rest).mpr hRest⟩

theorem readBody_ok_iff (path : String) : ∀ (value : Value) {fields next : Fields},
    readBody path fields value = (next, []) ↔ fields.Takes (childrenKey, value) next
  | .object children, fields, next => by
    -- What is read of the children stands in the fields and in the reports, so it is named once.
    obtain ⟨body, errors, hChildren⟩ : ∃ body errors, readCommands (some path) children = (body, errors) := ⟨_, _, rfl⟩
    simp only [readBody, hChildren]
    constructor
    · intro h
      split at h
      · cases h
      · rename_i hNew
        obtain ⟨rfl, hErrors⟩ := Prod.mk.inj h
        split at hErrors
        · cases hErrors
        · rename_i hSome
          subst hErrors
          refine .body rfl (.intro (by simpa using hSome) ?_) (by simpa using hNew)
          exact (readCommands_ok_iff (some path) children).mp hChildren
    · intro h
      cases h with
      | keyword hKey => exact absurd hKey childrenKey_ne
      | item _ hChildren => exact absurd rfl hChildren
      | body _ hBody hNew =>
        cases hBody with
        | intro hSome hBelow =>
          have hRead := (readCommands_ok_iff (some path) children).mpr hBelow
          obtain ⟨rfl, rfl⟩ := Prod.mk.inj (hChildren.symm.trans hRead)
          simp [hNew, hSome]
  | .null, _, _ | .bool _, _, _ | .integer _, _, _ | .float _, _, _ | .string _, _, _ | .array _, _, _ => by
    constructor
    · intro h
      simp [readBody] at h
    · intro h
      cases h with
      | keyword hKey => exact absurd hKey childrenKey_ne
      | body _ hBody => cases hBody
      | item _ hChildren => exact absurd rfl hChildren

theorem readCommands_ok_iff (parent : Option String) : ∀ (entries : List (String × Value))
    {declarations : List Declaration},
    readCommands parent entries = (declarations, []) ↔ List.Forall₂ Declares entries declarations
  | [], declarations => by
    rw [readCommands, List.forall₂_nil_left_iff, Prod.mk.injEq, eq_comm]
    simp
  | (name, value) :: rest, declarations => by
    obtain ⟨first?, errors, hFirst⟩ : ∃ first? errors, readCommand parent name value = (first?, errors) :=
      ⟨_, _, rfl⟩
    obtain ⟨others, lastErrors, hRest⟩ : ∃ others errors, readCommands parent rest = (others, errors) := ⟨_, _, rfl⟩
    simp only [readCommands, hFirst, hRest, Prod.mk.injEq, List.append_eq_nil_iff, List.forall₂_cons_left_iff]
    constructor
    · rintro ⟨rfl, rfl, rfl⟩
      obtain ⟨declaration, rfl, hDeclares⟩ := (readCommand_ok_iff parent name value).mp hFirst
      exact ⟨declaration, others, hDeclares, (readCommands_ok_iff parent rest).mp hRest, rfl⟩
    · rintro ⟨declaration, others', hDeclares, hOthers, rfl⟩
      have hCommand := (readCommand_ok_iff parent name value).mpr ⟨declaration, rfl, hDeclares⟩
      obtain ⟨rfl, rfl⟩ := Prod.mk.inj (hFirst.symm.trans hCommand)
      obtain ⟨rfl, rfl⟩ := Prod.mk.inj (hRest.symm.trans ((readCommands_ok_iff parent rest).mpr hOthers))
      exact ⟨rfl, rfl, rfl⟩

end

/-! ## Documents -/

theorem versionErrors_eq_nil_iff {value : Value} : versionErrors value = [] ↔ value = .integer supportedVersion := by
  cases value with
  | integer number =>
    rw [versionErrors]
    split
    · rename_i hNumber
      simp [hNumber]
    · rename_i hNumber
      constructor
      · intro h
        split at h <;> cases h
      · intro h
        exact absurd (Value.integer.inj h) hNumber
  | _ => simp [versionErrors]

theorem readEntriesOfDocument_ok_iff {entries : List (String × Value)} {declarations : List Declaration} :
    readEntriesOfDocument entries = (declarations, []) ↔
      VersionSupported entries ∧ List.Forall₂ Declares (commandEntries entries) declarations := by
  induction entries generalizing declarations with
  | nil =>
    rw [readEntriesOfDocument, commandEntries, List.filter_nil, List.forall₂_nil_left_iff, Prod.mk.injEq, eq_comm]
    simp [VersionSupported]
  | cons entry entries ih =>
    obtain ⟨name, value⟩ := entry
    obtain ⟨others, lastErrors, hRest⟩ : ∃ others errors, readEntriesOfDocument entries = (others, errors) :=
      ⟨_, _, rfl⟩
    rw [hRest] at ih
    cases hEntry : isVersionEntry name value with
    | true =>
      have hOthers : commandEntries ((name, value) :: entries) = commandEntries entries := by
        simp [commandEntries, hEntry]
      have hVersion : VersionSupported ((name, value) :: entries) ↔
          versionErrors value = [] ∧ VersionSupported entries := by
        simp [VersionSupported, hEntry, versionErrors_eq_nil_iff]
      simp only [readEntriesOfDocument, hRest, hEntry, if_true, hOthers, hVersion, and_assoc, ← ih, Prod.mk.injEq,
        List.append_eq_nil_iff]
      exact and_left_comm
    | false =>
      have hOthers : commandEntries ((name, value) :: entries) = (name, value) :: commandEntries entries := by
        simp [commandEntries, hEntry]
      have hVersion : VersionSupported ((name, value) :: entries) ↔ VersionSupported entries := by
        simp [VersionSupported, hEntry]
      obtain ⟨first?, errors, hFirst⟩ : ∃ first? errors, readCommand none name value = (first?, errors) :=
        ⟨_, _, rfl⟩
      simp only [readEntriesOfDocument, hRest, hEntry, hFirst, hOthers, hVersion, List.forall₂_cons_left_iff,
        Bool.false_eq_true, if_false, Prod.mk.injEq, List.append_eq_nil_iff, List.map_eq_nil_iff]
      constructor
      · rintro ⟨rfl, rfl, rfl⟩
        obtain ⟨declaration, rfl, hDeclares⟩ := (readCommand_ok_iff none name value).mp hFirst
        obtain ⟨hSupported, hAll⟩ := ih.mp rfl
        exact ⟨hSupported, declaration, others, hDeclares, hAll, rfl⟩
      · rintro ⟨hSupported, declaration, others', hDeclares, hAll, rfl⟩
        have hCommand := (readCommand_ok_iff none name value).mpr ⟨declaration, rfl, hDeclares⟩
        obtain ⟨rfl, rfl⟩ := Prod.mk.inj (hFirst.symm.trans hCommand)
        obtain ⟨rfl, rfl⟩ := Prod.mk.inj (ih.mpr ⟨hSupported, hAll⟩)
        exact ⟨rfl, rfl, rfl⟩

theorem declarations_ok_iff {value : Value} {declared : List Declaration} :
    declarations value = (declared, []) ↔
      ∃ entries, value = .object entries ∧ declared ≠ [] ∧ VersionSupported entries ∧
        List.Forall₂ Declares (commandEntries entries) declared := by
  constructor
  · intro h
    cases value with
    | object entries =>
      rw [declarations] at h
      split at h
      · cases h
      · rename_i hNone
        obtain ⟨hVersion, hDeclares⟩ := readEntriesOfDocument_ok_iff.mp h
        refine ⟨entries, rfl, ?_, hVersion, hDeclares⟩
        rintro rfl
        exact hNone h
    | _ => cases h
  · rintro ⟨entries, rfl, hSome, hVersion, hDeclares⟩
    rw [declarations, readEntriesOfDocument_ok_iff.mpr ⟨hVersion, hDeclares⟩]
    cases declared with
    | nil => exact absurd rfl hSome
    | cons => rfl

end Json

end DialogTree
