import DialogTree.Parsing.Cursor

/-!
# Texts that a cursor passes

A cursor passes a text when the text stands in front of it and the later cursor follows behind. A run is the
longest text of one class of characters; the class alone determines it.
-/

namespace DialogTree

namespace Cursor

/-- The text stands at the cursor, and the later cursor is right behind it. -/
def Passes (cursor : Cursor) (text : List Char) (later : Cursor) : Prop :=
  cursor.rest = text ++ later.rest ∧ later.position = cursor.position.after text

variable {c d e : Cursor} {s t : List Char}

theorem ext_of (hRest : c.rest = d.rest) (hPosition : c.position = d.position) : c = d := by
  cases c; cases d; simp_all

theorem Passes.refl (c : Cursor) : c.Passes [] c := ⟨rfl, rfl⟩

theorem Passes.trans (hs : c.Passes s d) (ht : d.Passes t e) : c.Passes (s ++ t) e := by
  refine ⟨?_, ?_⟩
  · rw [hs.1, ht.1, List.append_assoc]
  · rw [ht.2, hs.2, Position.after_append]

theorem Passes.eq_skip (h : c.Passes s d) : d = c.skip s.length := by
  apply ext_of
  · simp [h.1]
  · simp [skip, h.1, h.2]

theorem passes_skip (h : s <+: c.rest) : c.Passes s (c.skip s.length) := by
  obtain ⟨t, ht⟩ := h
  constructor <;> simp [skip, ← ht]

theorem Passes.split (h : c.Passes (s ++ t) d) : ∃ b, c.Passes s b ∧ b.Passes t d := by
  have hPrefix : s <+: c.rest := ⟨t ++ d.rest, by rw [h.1, List.append_assoc]⟩
  have hFirst := passes_skip hPrefix
  refine ⟨_, hFirst, ?_, ?_⟩
  · simp [h.1]
  · rw [h.2, Position.after_append, hFirst.2]

theorem passes_iff : c.Passes s d ↔ s <+: c.rest ∧ d = c.skip s.length := by
  constructor
  · intro h
    exact ⟨⟨d.rest, h.1.symm⟩, h.eq_skip⟩
  · rintro ⟨hs, rfl⟩
    exact passes_skip hs

theorem passes_take (c : Cursor) (count : Nat) : c.Passes (c.rest.take count) (c.skip count) :=
  ⟨(List.take_append_drop count c.rest).symm, rfl⟩

theorem skip_skip (c : Cursor) (a b : Nat) : (c.skip a).skip b = c.skip (a + b) := by
  apply ext_of
  · simp
  · simp [skip, List.take_add, Position.after_append]

theorem Passes.length_eq (h : c.Passes s d) : c.rest.length = s.length + d.rest.length := by
  simp [h.1]

theorem Passes.textTo (h : c.Passes s d) : c.textTo d = s := by
  simp [Cursor.textTo, h.1]

theorem Passes.reaches (h : c.Passes s d) : c.Reaches d := ⟨s, h.1, h.2⟩

theorem Reaches.length_le (h : c.Reaches d) : d.rest.length ≤ c.rest.length := by
  obtain ⟨s, hs, _⟩ := h
  simp [hs]

/-- Of what a cursor reaches, what is left of the text tells where it is. -/
theorem Reaches.unique (hFirst : c.Reaches d) (hSecond : c.Reaches e) (hRest : d.rest = e.rest) : d = e := by
  obtain ⟨front, hFront, hPosition⟩ := hFirst
  obtain ⟨front', hFront', hPosition'⟩ := hSecond
  rw [hFront, hRest] at hFront'
  obtain rfl := List.append_cancel_right hFront'
  exact ext_of hRest (hPosition.trans hPosition'.symm)

theorem passes_cons {x : Char} {rest : List Char} (h : c.rest = x :: rest) :
    c.Passes [x] (c.skip 1) :=
  passes_skip (s := [x]) ⟨rest, h.symm⟩

/-! ## Runs -/

/-- The longest text at the cursor whose characters all satisfy a test. -/
structure PassesRun (c : Cursor) (p : Char → Bool) (s : List Char) (d : Cursor) : Prop where
  passes : c.Passes s d
  all : ∀ x ∈ s, p x = true
  stops : ∀ x ∈ d.rest.head?, p x = false

theorem passesRun_takeWhile (c : Cursor) (p : Char → Bool) :
    c.PassesRun p (c.takeWhile p) (c.skipWhile p) where
  passes := ⟨List.takeWhile_append_dropWhile.symm, rfl⟩
  all x hx := by
    have h := List.all_takeWhile (p := p) (l := c.rest)
    exact List.all_eq_true.mp h x hx
  stops x hx := by
    have h := List.head?_dropWhile_not p c.rest
    simp only [skipWhile, Option.mem_def] at hx
    simpa [hx] using h

theorem takeWhile_append_of_stops {p : Char → Bool} {s t : List Char} (hs : ∀ x ∈ s, p x = true)
    (ht : ∀ x ∈ t.head?, p x = false) : (s ++ t).takeWhile p = s := by
  rw [List.takeWhile_append_of_pos hs]
  cases t with
  | nil => simp
  | cons x t =>
    have hx := ht x rfl
    simp [hx]

theorem PassesRun.eq {p : Char → Bool} (h : c.PassesRun p s d) :
    s = c.takeWhile p ∧ d = c.skipWhile p := by
  have hs : c.takeWhile p = s := by
    rw [takeWhile, h.passes.1]
    exact takeWhile_append_of_stops h.all h.stops
  refine ⟨hs.symm, ?_⟩
  rw [h.passes.eq_skip, (passesRun_takeWhile c p).passes.eq_skip, hs]

end Cursor

end DialogTree
