import DialogTree.Parsing.Parser
import DialogTree.Proofs.Passing

/-!
# Outcomes of parsers

What a combined parser gives, in terms of what its parts give. A parser yields a value, or refuses a
cursor, when it does so in every context and reports nothing. Every parser only adds reports.
-/

namespace DialogTree

namespace Parser

variable {α β : Type} {p : Parser α} {c d e : Cursor} {x z : Context} {a : α} {b : β}

/-! ## Successes taken apart -/

theorem lexeme_ok_iff {l : Lexeme α} : l.parser c x = (.ok (d, a), z) ↔ l c = .ok (d, a) ∧ z = x := by
  unfold Lexeme.parser
  cases l c <;> simp [eq_comm]

theorem pure_ok {b' : β} (h : (pure b : Parser β) c x = (.ok (d, b'), z)) : b' = b ∧ d = c ∧ z = x := by
  cases h
  exact ⟨rfl, rfl, rfl⟩

theorem bind_ok {f : α → Parser β} (h : (p >>= f) c x = (.ok (e, b), z)) :
    ∃ d a y, p c x = (.ok (d, a), y) ∧ f a d y = (.ok (e, b), z) := by
  change Parser.bind p f c x = _ at h
  unfold Parser.bind at h
  split at h
  · rename_i next a y hp
    exact ⟨next, a, y, hp, h⟩
  · cases h

theorem map_ok {f : α → β} (h : (f <$> p) c x = (.ok (d, b), z)) :
    ∃ a, p c x = (.ok (d, a), z) ∧ b = f a := by
  obtain ⟨next, a, y, hp, hf⟩ := bind_ok (p := p) (f := fun a => pure (f a)) h
  obtain ⟨rfl, rfl, rfl⟩ := pure_ok hf
  exact ⟨a, hp, rfl⟩

theorem orElse_ok {q : Parser α} (h : (p <|> q) c x = (.ok (d, a), z)) :
    p c x = (.ok (d, a), z) ∨ ∃ y, q c y = (.ok (d, a), z) := by
  change Parser.orElse p (fun _ => q) c x = _ at h
  unfold Parser.orElse at h
  split at h
  · rename_i hp
    exact .inl (hp.trans h)
  · split at h
    · rename_i y _ _ _ hq
      exact .inr ⟨_, hq.trans h⟩
    · cases h

theorem optional_ok {o : Option α} (h : p.optional c x = (.ok (d, o), z)) :
    (∃ a, o = some a ∧ p c x = (.ok (d, a), z)) ∨ (o = none ∧ d = c) := by
  unfold Parser.optional at h
  split at h
  · rename_i next a y hp
    cases h
    exact .inl ⟨a, rfl, hp⟩
  · cases h
    exact .inr ⟨rfl, rfl⟩

theorem located_ok {r : Position × α} (h : p.located c x = (.ok (d, r), z)) :
    ∃ a, r = (c.position, a) ∧ p c x = (.ok (d, a), z) := by
  unfold Parser.located at h
  split at h
  · rename_i next a y hp
    cases h
    exact ⟨a, rfl, hp⟩
  · cases h

theorem labeled_ok {message : String} (h : p.labeled message c x = (.ok (d, a), z)) :
    p c x = (.ok (d, a), z) := by
  unfold Parser.labeled at h
  split at h
  · rename_i hp
    exact hp.trans h
  · split at h <;> cases h

end Parser

/-! ## Reports -/

/-- A relation between the reports before and behind a parser that composes. -/
class ReportOrder (S : List Diagnostic → List Diagnostic → Prop) : Prop where
  refl : ∀ reports, S reports reports
  trans : ∀ {a b c}, S a b → S b c → S a c

instance : ReportOrder Eq := ⟨Eq.refl, Eq.trans⟩

instance : ReportOrder List.IsPrefix := ⟨List.prefix_refl, List.IsPrefix.trans⟩

def Parser.Keeps {α : Type} (S : List Diagnostic → List Diagnostic → Prop) (p : Parser α) : Prop :=
  ∀ c x, S x.errors (p c x).2.errors

abbrev Parser.Silent {α : Type} (p : Parser α) : Prop := p.Keeps Eq

/-- The parser adds reports and drops none. -/
abbrev Parser.Grows {α : Type} (p : Parser α) : Prop := p.Keeps List.IsPrefix

namespace Context

@[simp] theorem errors_note (x : Context) (f : Failure) : (x.note f).errors = x.errors := by
  unfold note
  split
  · rfl
  · split <;> rfl

@[simp] theorem errors_relabel (x : Context) (f : Failure) : (x.relabel f).errors = x.errors := by
  unfold relabel
  split
  · rfl
  · split <;> rfl

@[simp] theorem errors_report (x : Context) (error : Diagnostic) :
    (x.report error).errors = x.errors ++ [error] := rfl

end Context

namespace Parser

variable {α β : Type} {p : Parser α} {S : List Diagnostic → List Diagnostic → Prop}

theorem Keeps.optional (hp : p.Keeps S) : p.optional.Keeps S := by
  intro c x
  have h := hp c x
  unfold Parser.optional
  split
  · rename_i hEq
    rwa [hEq] at h
  · rename_i hEq
    rwa [hEq] at h

theorem Keeps.located (hp : p.Keeps S) : p.located.Keeps S := by
  intro c x
  have h := hp c x
  unfold Parser.located
  split
  · rename_i hEq
    rwa [hEq] at h
  · rename_i hEq
    rwa [hEq] at h

theorem Keeps.labeled (hp : p.Keeps S) (message : String) : (p.labeled message).Keeps S := by
  intro c x
  have h := hp c x
  unfold Parser.labeled
  split
  · rename_i hEq
    rwa [hEq] at h
  · rename_i hEq
    rw [hEq] at h
    split
    · simpa using h
    · exact h

variable [ReportOrder S]

theorem keeps_lexeme (l : Lexeme α) : l.parser.Keeps S := by
  intro c x
  unfold Lexeme.parser
  split
  · exact ReportOrder.refl x.errors
  · simpa using ReportOrder.refl x.errors

theorem keeps_pure (a : α) : (pure a : Parser α).Keeps S := fun _ x => ReportOrder.refl x.errors

theorem Keeps.bind {f : α → Parser β} (hp : p.Keeps S) (hf : ∀ a, (f a).Keeps S) : (p >>= f).Keeps S := by
  intro c x
  change S x.errors (Parser.bind p f c x).2.errors
  have h := hp c x
  unfold Parser.bind
  split
  · rename_i next a y hEq
    rw [hEq] at h
    exact ReportOrder.trans h (hf a next y)
  · rename_i hEq
    rwa [hEq] at h

theorem Keeps.map {f : α → β} (hp : p.Keeps S) : (f <$> p).Keeps S :=
  Keeps.bind (f := fun a => pure (f a)) hp fun a => keeps_pure (f a)

theorem Keeps.orElse {q : Parser α} (hp : p.Keeps S) (hq : q.Keeps S) : (p <|> q).Keeps S := by
  intro c x
  change S x.errors (Parser.orElse p (fun _ => q) c x).2.errors
  have h := hp c x
  unfold Parser.orElse
  split
  · rename_i hEq
    rwa [hEq] at h
  · rename_i failure y hEq
    rw [hEq] at h
    have h' := hq c y
    split
    · rename_i hEq'
      rw [show q c y = _ from hEq'] at h'
      exact ReportOrder.trans h h'
    · rename_i hEq'
      rw [show q c y = _ from hEq'] at h'
      exact ReportOrder.trans h h'

theorem Keeps.many (hp : p.Keeps S) : p.many.Keeps S := by
  intro c x
  change S x.errors (p.collect c x).2.errors
  fun_induction Parser.collect p c x with
  | case1 c x failure y hEq =>
    have h := hp c x
    rwa [hEq] at h
  | case2 c x next a y hEq hNext last items z hRest ih =>
    have h := hp c x
    rw [hEq] at h
    rw [hRest] at ih
    exact ReportOrder.trans h ih
  | case3 c x next a y hEq hNext =>
    have h := hp c x
    rwa [hEq] at h

theorem Silent.grows (h : p.Silent) : p.Grows := fun c x => (h c x) ▸ List.prefix_refl x.errors

/-! ## Successes and refusals put together -/

/-- The parser succeeds at the cursor in every context, and reports nothing. -/
def Yields (p : Parser α) (c : Cursor) (a : α) (d : Cursor) : Prop :=
  ∀ x, ∃ y, p c x = (.ok (d, a), y) ∧ y.errors = x.errors

/-- The parser fails at the cursor in every context, and reports nothing. -/
def Refuses (p : Parser α) (c : Cursor) : Prop :=
  ∀ x, ∃ failure y, p c x = (.error failure, y) ∧ y.errors = x.errors

variable {c d e : Cursor} {a : α} {b : β}

theorem yields_lexeme {l : Lexeme α} (h : l c = .ok (d, a)) : l.parser.Yields c a d := by
  intro x
  exact ⟨x, by simp [Lexeme.parser, h], rfl⟩

theorem yields_pure (c : Cursor) (a : α) : (pure a : Parser α).Yields c a c := fun x => ⟨x, rfl, rfl⟩

theorem Yields.bind {f : α → Parser β} (hp : p.Yields c a d) (hf : (f a).Yields d b e) :
    (p >>= f).Yields c b e := by
  intro x
  obtain ⟨y, hp, hy⟩ := hp x
  obtain ⟨z, hf, hz⟩ := hf y
  refine ⟨z, ?_, hz.trans hy⟩
  change Parser.bind p f c x = _
  simp only [Parser.bind, hp, hf]

theorem Yields.map {f : α → β} (hp : p.Yields c a d) : (f <$> p).Yields c (f a) d :=
  Yields.bind (f := fun a => pure (f a)) hp (yields_pure d (f a))

theorem refuses_of_silent (hp : p.Silent) (h : ∀ x d a z, p c x ≠ (.ok (d, a), z)) : p.Refuses c := by
  intro x
  have hSilent := hp c x
  cases hResult : p c x with
  | mk result y =>
    rw [hResult] at hSilent
    cases result with
    | error failure => exact ⟨failure, y, rfl, hSilent.symm⟩
    | ok result => exact absurd hResult (h x result.1 result.2 y)

theorem refuses_map_lexeme {l : Lexeme α} {f : α → β} (h : ∀ d a, l c ≠ .ok (d, a)) :
    (f <$> l.parser).Refuses c := by
  apply refuses_of_silent (keeps_lexeme l).map
  intro x d b z hOk
  obtain ⟨a, hp, -⟩ := map_ok hOk
  exact h d a (lexeme_ok_iff.mp hp).1

theorem Refuses.bind {f : α → Parser β} (hp : p.Refuses c) : (p >>= f).Refuses c := by
  intro x
  obtain ⟨failure, y, hp, hy⟩ := hp x
  refine ⟨failure, y, ?_, hy⟩
  change Parser.bind p f c x = _
  simp only [Parser.bind, hp]

theorem Yields.bind_refuses {f : α → Parser β} (hp : p.Yields c a d) (hf : (f a).Refuses d) :
    (p >>= f).Refuses c := by
  intro x
  obtain ⟨y, hp, hy⟩ := hp x
  obtain ⟨failure, z, hf, hz⟩ := hf y
  refine ⟨failure, z, ?_, hz.trans hy⟩
  change Parser.bind p f c x = _
  simp only [Parser.bind, hp, hf]

theorem Yields.orElse {q : Parser α} (hp : p.Yields c a d) : (p <|> q).Yields c a d := by
  intro x
  obtain ⟨y, hp, hy⟩ := hp x
  refine ⟨y, ?_, hy⟩
  change Parser.orElse p (fun _ => q) c x = _
  simp only [Parser.orElse, hp]

theorem Refuses.orElse {q : Parser α} (hp : p.Refuses c) (hq : q.Yields c a d) :
    (p <|> q).Yields c a d := by
  intro x
  obtain ⟨failure, y, hp, hy⟩ := hp x
  obtain ⟨z, hq, hz⟩ := hq y
  refine ⟨z, ?_, hz.trans hy⟩
  change Parser.orElse p (fun _ => q) c x = _
  simp only [Parser.orElse, hp, hq]

theorem Yields.optional (hp : p.Yields c a d) : p.optional.Yields c (some a) d := by
  intro x
  obtain ⟨y, hp, hy⟩ := hp x
  exact ⟨y, by simp only [Parser.optional, hp], hy⟩

theorem Refuses.optional (hp : p.Refuses c) : p.optional.Yields c none c := by
  intro x
  obtain ⟨failure, y, hp, hy⟩ := hp x
  exact ⟨y, by simp only [Parser.optional, hp], hy⟩

theorem Refuses.many (hp : p.Refuses c) : p.many.Yields c [] c := by
  intro x
  obtain ⟨failure, y, hp, hy⟩ := hp x
  refine ⟨y, ?_, hy⟩
  unfold Parser.many
  rw [Parser.collect, hp]

theorem Yields.many {items : List α} (hp : p.Yields c a d) (hNext : d.rest.length < c.rest.length)
    (hMore : p.many.Yields d items e) : p.many.Yields c (a :: items) e := by
  intro x
  obtain ⟨y, hp, hy⟩ := hp x
  obtain ⟨z, hMore, hz⟩ := hMore y
  refine ⟨z, ?_, hz.trans hy⟩
  unfold Parser.many at hMore ⊢
  rw [Parser.collect, hp]
  simp only [hNext, if_true]
  cases hRest : p.collect d y with
  | mk result w =>
    rw [hRest] at hMore
    cases hMore
    rfl

theorem Yields.located (hp : p.Yields c a d) : p.located.Yields c (c.position, a) d := by
  intro x
  obtain ⟨y, hp, hy⟩ := hp x
  exact ⟨y, by simp only [Parser.located, hp], hy⟩

theorem Yields.labeled {message : String} (hp : p.Yields c a d) : (p.labeled message).Yields c a d := by
  intro x
  obtain ⟨y, hp, hy⟩ := hp x
  exact ⟨y, by simp only [Parser.labeled, hp], hy⟩

end Parser

end DialogTree
