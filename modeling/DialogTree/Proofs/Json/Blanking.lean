import DialogTree.Json.RelaxedBytes
import Mathlib.Data.List.Basic

/-!
# Blanking bytes

Relaxing writes spaces over the bytes of comments and over commas, and moves no byte. Line ends stay where they are,
strings stay as they are, and no mark of a comment is left outside of strings. Written over bytes or over characters,
the result is the same text.
-/

namespace DialogTree

namespace Json

/-! ## One byte -/

theorem blankByte_cases (b : UInt8) :
    b = '\n'.toUInt8 ∧ blankByte b = b ∨ b ≠ '\n'.toUInt8 ∧ blankByte b = ' '.toUInt8 := by
  rw [blankByte]
  split
  · exact .inl ⟨‹_›, rfl⟩
  · exact .inr ⟨‹_›, rfl⟩

theorem blankByte_eq {b mark : UInt8} (hLine : mark ≠ '\n'.toUInt8) (hSpace : mark ≠ ' '.toUInt8) :
    blankByte b ≠ mark := by
  rcases blankByte_cases b with ⟨rfl, hBlank⟩ | ⟨-, hBlank⟩
  · rw [hBlank]
    exact hLine.symm
  · rw [hBlank]
    exact hSpace.symm

namespace Place

variable {place : Place} {b : UInt8} {following : Option UInt8}

inductive CodeStep (b : UInt8) (following : Option UInt8) : Place → Prop where
  | string (hQuote : b = '"'.toUInt8) : CodeStep b following .string
  | comment {inside : Place} (hInside : inside = .line ∨ inside = .blockStart) : CodeStep b following inside
  | code (hQuote : b ≠ '"'.toUInt8) (hHash : b ≠ '#'.toUInt8)
      (hSlash : b = '/'.toUInt8 → following ≠ some '/'.toUInt8 ∧ following ≠ some '*'.toUInt8) :
      CodeStep b following .code

theorem codeStep (b : UInt8) (following : Option UInt8) : CodeStep b following (next .code b following) := by
  rw [next]
  split
  · exact .string ‹_›
  · split
    · exact .comment (.inl rfl)
    · split
      · exact .comment (.inl rfl)
      · split
        · exact .comment (.inr rfl)
        · simp_all [CodeStep.code]

/-- Where the scan of strings alone stands: between tokens when the whole scan is in a comment. -/
def text : Place → Place
  | .string => .string
  | .escape => .escape
  | _ => .code

theorem text_of_comment (h : place.region (place.next b following) = .comment) :
    place.text = .code ∧ (place.next b following).text = .code := by
  cases place with
  | code =>
    have hStep := codeStep b following
    generalize next .code b following = after at hStep h ⊢
    cases hStep with
    | comment hInside =>
      rcases hInside with rfl | rfl
      · exact ⟨rfl, rfl⟩
      · exact ⟨rfl, rfl⟩
    | string => cases h
    | code => cases h
  | string => cases h
  | escape => cases h
  | line =>
    refine ⟨rfl, ?_⟩
    rw [next]
    split
    · rfl
    · rfl
  | block =>
    refine ⟨rfl, ?_⟩
    rw [next]
    split
    · rfl
    · rfl
  | blockStart => exact ⟨rfl, rfl⟩
  | blockEnd => exact ⟨rfl, rfl⟩

theorem text_inString (b : UInt8) : (inString .string b).text = inString .string b := by
  rw [inString]
  split
  · rfl
  · split
    · rfl
    · rfl

/-- Behind a byte that is blanked in comments, the scan of strings stands where the whole scan does. -/
theorem inString_text (place : Place) (b : UInt8) (following : Option UInt8) :
    place.text.inString (if place.region (place.next b following) = .comment then blankByte b else b) =
      (place.next b following).text := by
  split
  · obtain ⟨hPlace, hNext⟩ := text_of_comment ‹_›
    rw [hPlace, hNext]
    exact if_neg (blankByte_eq (by decide) (by decide))
  · rename_i hRegion
    cases place with
    | code =>
      have hStep := codeStep b following
      generalize next .code b following = after at hStep hRegion ⊢
      cases hStep with
      | string hQuote => exact if_pos hQuote
      | code hQuote => exact if_neg hQuote
      | comment hInside => rcases hInside with rfl | rfl <;> exact absurd rfl hRegion
    | string => exact (text_inString b).symm
    | escape => rfl
    | _ => exact absurd rfl hRegion

theorem region_string (h : place.region (place.next b following) = .string) :
    (place.text = .string ∨ place.text = .escape) ∨ b = '"'.toUInt8 := by
  cases place with
  | code =>
    have hStep := codeStep b following
    generalize next .code b following = after at hStep h
    cases hStep with
    | string hQuote => exact .inr hQuote
    | comment hInside =>
      rcases hInside with rfl | rfl
      · cases h
      · cases h
    | code => cases h
  | string => exact .inl (.inl rfl)
  | escape => exact .inl (.inr rfl)
  | _ => cases h

theorem region_code (h : place.region (place.next b following) = .code) :
    b ≠ '#'.toUInt8 ∧ (b = '/'.toUInt8 → following ≠ some '/'.toUInt8 ∧ following ≠ some '*'.toUInt8) := by
  cases place with
  | code =>
    have hStep := codeStep b following
    generalize next .code b following = after at hStep h
    cases hStep with
    | string => cases h
    | comment hInside =>
      rcases hInside with rfl | rfl
      · cases h
      · cases h
    | code _ hHash hSlash => exact ⟨hHash, hSlash⟩
  | _ => cases h

end Place

inductive RelaxesByte : Region → UInt8 → UInt8 → Prop where
  | kept {region : Region} {b : UInt8} (hRegion : region ≠ .comment) : RelaxesByte region b b
  | comment {b : UInt8} : RelaxesByte .comment b (blankByte b)
  | comma : RelaxesByte .code ','.toUInt8 ' '.toUInt8

/-- The relaxed bytes of what is left of a text, from a place of the scan on. -/
def relaxFrom (place : Place) (source : List UInt8) : List UInt8 :=
  blankCommaBytes place.text (blankCommentBytes place source)

theorem relaxFrom_cons (place : Place) (b : UInt8) (rest : List UInt8) :
    ∃ b', RelaxesByte (place.region (place.next b rest.head?)) b b' ∧
      relaxFrom place (b :: rest) = b' :: relaxFrom (place.next b rest.head?) rest := by
  have hText := place.inString_text b rest.head?
  have hString := @Place.region_string place b rest.head?
  simp only [relaxFrom, blankCommentBytes, blankCommaBytes, hText]
  refine ⟨_, ?_, rfl⟩
  cases hRegion : place.region (place.next b rest.head?) with
  | code =>
    simp only [reduceCtorEq, if_false]
    split
    · rename_i hTrailing
      obtain rfl := hTrailing.2.1
      exact .comma
    · exact .kept Region.noConfusion
  | string =>
    simp only [reduceCtorEq, if_false]
    rw [if_neg]
    · exact .kept Region.noConfusion
    · rintro ⟨hCode, rfl, -⟩
      exact absurd ((hString hRegion).resolve_left hCode) (by decide)
  | comment =>
    simp only [if_true]
    rw [if_neg]
    · exact .comment
    · rintro ⟨-, hComma, -⟩
      exact blankByte_eq (by decide) (by decide) hComma

/-! ## All bytes -/

theorem length_relaxFrom (place : Place) (source : List UInt8) : (relaxFrom place source).length = source.length := by
  induction source generalizing place with
  | nil => rfl
  | cons b rest ih =>
    obtain ⟨b', -, hStep⟩ := relaxFrom_cons place b rest
    rw [hStep, List.length_cons, List.length_cons, ih]

/-- At every place stands a byte of the source, its region, and what becomes of it; behind the end there is nothing. -/
inductive RelaxesAt : Option Region → Option UInt8 → Option UInt8 → Prop where
  | byte {region : Region} {b b' : UInt8} (hByte : RelaxesByte region b b') : RelaxesAt (some region) (some b) (some b')
  | nothing : RelaxesAt none none none

theorem relaxFrom_at (place : Place) (source : List UInt8) (i : Nat) :
    RelaxesAt (regions place source)[i]? source[i]? (relaxFrom place source)[i]? := by
  induction source generalizing place i with
  | nil => exact .nothing
  | cons b rest ih =>
    obtain ⟨b', hByte, hStep⟩ := relaxFrom_cons place b rest
    rw [hStep, regions]
    cases i with
    | zero => exact .byte hByte
    | succ i =>
      simp only [List.getElem?_cons_succ]
      exact ih _ i

theorem regions_code_at (place : Place) (source : List UInt8) (i : Nat) (h : (regions place source)[i]? = some .code) :
    source[i]? ≠ some '#'.toUInt8 ∧
      (source[i]? = some '/'.toUInt8 → source[i + 1]? ≠ some '/'.toUInt8 ∧ source[i + 1]? ≠ some '*'.toUInt8) := by
  induction source generalizing place i with
  | nil => cases h
  | cons b rest ih =>
    rw [regions] at h
    cases i with
    | zero =>
      have hMarks := Place.region_code (Option.some.inj h)
      rw [List.head?_eq_getElem?] at hMarks
      simpa using hMarks
    | succ i => exact ih _ i h

/-- The layout of a text is kept: bytes stand where they stood, and what is written over them are spaces. -/
structure KeepsLayout (regions : List Region) (before after : List UInt8) : Prop where
  length : after.length = before.length
  byte : ∀ i : Nat, after[i]? = before[i]? ∨ after[i]? = some ' '.toUInt8
  line : ∀ i : Nat, after[i]? = some '\n'.toUInt8 ↔ before[i]? = some '\n'.toUInt8
  string : ∀ i : Nat, regions[i]? = some .string → after[i]? = before[i]?
  hash : ∀ i : Nat, regions[i]? ≠ some .string → after[i]? ≠ some '#'.toUInt8
  slash : ∀ i : Nat, regions[i]? ≠ some .string → after[i]? = some '/'.toUInt8 →
    after[i + 1]? ≠ some '/'.toUInt8 ∧ after[i + 1]? ≠ some '*'.toUInt8

namespace RelaxesAt

variable {region? : Option Region} {before? after? : Option UInt8} {mark : UInt8}

theorem same_or_space (h : RelaxesAt region? before? after?) : after? = before? ∨ after? = some ' '.toUInt8 := by
  cases h with
  | nothing => exact .inl rfl
  | @byte region b b' hByte =>
    cases hByte with
    | kept => exact .inl rfl
    | comma => exact .inr rfl
    | comment =>
      rcases blankByte_cases b with ⟨-, hBlank⟩ | ⟨-, hBlank⟩
      · rw [hBlank]
        exact .inl rfl
      · rw [hBlank]
        exact .inr rfl

theorem line (h : RelaxesAt region? before? after?) : after? = some '\n'.toUInt8 ↔ before? = some '\n'.toUInt8 := by
  cases h with
  | nothing => exact Iff.rfl
  | @byte region b b' hByte =>
    cases hByte with
    | kept => exact Iff.rfl
    | comma => decide
    | comment =>
      rcases blankByte_cases b with ⟨-, hBlank⟩ | ⟨hLine, hBlank⟩
      · rw [hBlank]
      · rw [hBlank, Option.some.injEq, Option.some.injEq]
        exact iff_of_false (by decide) hLine

theorem string (h : RelaxesAt (some .string) before? after?) : after? = before? := by
  cases h with
  | byte hByte =>
    cases hByte with
    | kept => rfl

/-- A mark behind the relaxing is one of the source, and in no comment. -/
theorem of_mark (h : RelaxesAt region? before? (some mark)) (hLine : mark ≠ '\n'.toUInt8) (hSpace : mark ≠ ' '.toUInt8) :
    before? = some mark ∧ (region? = some .string ∨ region? = some .code) := by
  generalize hAfter : some mark = after? at h
  cases h with
  | nothing => cases hAfter
  | @byte region b b' hByte =>
    cases hByte with
    | kept hRegion =>
      obtain rfl := Option.some.inj hAfter
      refine ⟨rfl, ?_⟩
      cases region with
      | code => exact .inr rfl
      | string => exact .inl rfl
      | comment => exact absurd rfl hRegion
    | comma => exact absurd (Option.some.inj hAfter) hSpace
    | comment => exact absurd (Option.some.inj hAfter).symm (blankByte_eq hLine hSpace)

end RelaxesAt

section Marks

variable {place : Place} {source : List UInt8} {mark : UInt8} {i : Nat}

theorem mark_at (h : (relaxFrom place source)[i]? = some mark) (hLine : mark ≠ '\n'.toUInt8)
    (hSpace : mark ≠ ' '.toUInt8) :
    source[i]? = some mark ∧ ((regions place source)[i]? = some .string ∨ (regions place source)[i]? = some .code) := by
  have hByte := relaxFrom_at place source i
  rw [h] at hByte
  exact hByte.of_mark hLine hSpace

theorem keepsLayout_relaxFrom (place : Place) (source : List UInt8) :
    KeepsLayout (regions place source) source (relaxFrom place source) where
  length := length_relaxFrom place source
  byte i := (relaxFrom_at place source i).same_or_space
  line i := (relaxFrom_at place source i).line
  string := by
    intro i hString
    have hByte := relaxFrom_at place source i
    rw [hString] at hByte
    exact hByte.string
  hash := by
    intro i hString hHash
    obtain ⟨hBefore, hRegion⟩ := mark_at hHash (by decide) (by decide)
    exact (regions_code_at place source i (hRegion.resolve_left hString)).1 hBefore
  slash := by
    intro i hString hSlash
    obtain ⟨hBefore, hRegion⟩ := mark_at hSlash (by decide) (by decide)
    obtain ⟨hLine, hBlock⟩ := (regions_code_at place source i (hRegion.resolve_left hString)).2 hBefore
    constructor
    · intro hNext
      exact hLine (mark_at hNext (by decide) (by decide)).1
    · intro hNext
      exact hBlock (mark_at hNext (by decide) (by decide)).1

end Marks

/-! ## The relaxed text scanned again -/

/-- The region of a byte that is in no comment any more. -/
def Region.bare : Region → Region
  | .string => .string
  | _ => .code

theorem head?_relaxFrom (place : Place) (source : List UInt8) :
    (relaxFrom place source).head? = source.head? ∨ (relaxFrom place source).head? = some ' '.toUInt8 := by
  rw [List.head?_eq_getElem?, List.head?_eq_getElem?]
  exact (relaxFrom_at place source 0).same_or_space

namespace Place

theorem next_code_of_plain {b : UInt8} {following : Option UInt8} (hQuote : b ≠ '"'.toUInt8) (hHash : b ≠ '#'.toUInt8)
    (hSlash : b = '/'.toUInt8 → following ≠ some '/'.toUInt8 ∧ following ≠ some '*'.toUInt8) :
    next .code b following = .code := by
  rw [next, if_neg hQuote, if_neg hHash]
  by_cases h : b = '/'.toUInt8
  · obtain ⟨hLine, hBlock⟩ := hSlash h
    simp [hLine, hBlock]
  · simp [h]

theorem next_relaxed_comment {place : Place} {b b' : UInt8} {following : Option UInt8} (following' : Option UInt8)
    (hRegion : place.region (place.next b following) = .comment) (hByte : RelaxesByte .comment b b') :
    place.text.next b' following' = (place.next b following).text ∧
      place.text.region (place.next b following).text = .code := by
  obtain ⟨hPlace, hNext⟩ := text_of_comment hRegion
  cases hByte with
  | kept hNot => exact absurd rfl hNot
  | comment =>
    rw [hPlace, hNext]
    refine ⟨next_code_of_plain ?_ ?_ ?_, rfl⟩
    · exact blankByte_eq (by decide) (by decide)
    · exact blankByte_eq (by decide) (by decide)
    · exact fun h => absurd h (blankByte_eq (by decide) (by decide))

theorem next_relaxed_string {place : Place} {b : UInt8} {following : Option UInt8} (following' : Option UInt8)
    (hRegion : place.region (place.next b following) = .string) :
    place.text.next b following' = (place.next b following).text ∧
      place.text.region (place.next b following).text = .string := by
  cases place with
  | code =>
    have hStep := codeStep b following
    generalize next .code b following = after at hStep hRegion ⊢
    cases hStep with
    | string hQuote => exact ⟨if_pos hQuote, rfl⟩
    | comment hInside => rcases hInside with rfl | rfl <;> cases hRegion
    | code => cases hRegion
  | string => exact ⟨(text_inString b).symm, rfl⟩
  | escape => exact ⟨rfl, rfl⟩
  | _ => cases hRegion

theorem next_relaxed_code {place : Place} {b b' : UInt8} {following following' : Option UInt8}
    (hRegion : place.region (place.next b following) = .code) (hByte : RelaxesByte .code b b')
    (hFollowing : following' = following ∨ following' = some ' '.toUInt8) :
    place.text.next b' following' = (place.next b following).text ∧
      place.text.region (place.next b following).text = .code := by
  cases place with
  | code =>
    have hStep := codeStep b following
    generalize next .code b following = after at hStep hRegion ⊢
    cases hStep with
    | string => cases hRegion
    | comment hInside => rcases hInside with rfl | rfl <;> cases hRegion
    | code hQuote hHash hSlash =>
      refine ⟨?_, rfl⟩
      cases hByte with
      | comma => exact next_code_of_plain (by decide) (by decide) (fun h => absurd h (by decide))
      | kept =>
        apply next_code_of_plain hQuote hHash
        intro h
        rcases hFollowing with rfl | rfl
        · exact hSlash h
        · exact ⟨by decide, by decide⟩
  | _ => cases hRegion

/-- A relaxed byte takes the scan where the byte took it, but into no comment. -/
theorem next_relaxed {place : Place} {b b' : UInt8} {following following' : Option UInt8}
    (hByte : RelaxesByte (place.region (place.next b following)) b b')
    (hFollowing : following' = following ∨ following' = some ' '.toUInt8) :
    place.text.next b' following' = (place.next b following).text ∧
      place.text.region (place.next b following).text = (place.region (place.next b following)).bare := by
  cases hRegion : place.region (place.next b following) with
  | comment => exact next_relaxed_comment following' hRegion (hRegion ▸ hByte)
  | string =>
    rw [hRegion] at hByte
    cases hByte with
    | kept => exact next_relaxed_string following' hRegion
  | code => exact next_relaxed_code hRegion (hRegion ▸ hByte) hFollowing

end Place

theorem regions_relaxFrom (place : Place) (source : List UInt8) :
    regions place.text (relaxFrom place source) = (regions place source).map Region.bare := by
  induction source generalizing place with
  | nil => rfl
  | cons b rest ih =>
    obtain ⟨b', hByte, hStep⟩ := relaxFrom_cons place b rest
    obtain ⟨hNext, hRegion⟩ := Place.next_relaxed hByte (head?_relaxFrom (place.next b rest.head?) rest)
    rw [hStep, regions, regions, List.map_cons, hNext, hRegion, ih]

end Json

end DialogTree
