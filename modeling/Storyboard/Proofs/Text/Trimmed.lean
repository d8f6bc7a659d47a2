import Mathlib.Data.List.DropRight
import Storyboard.Text.Blank

/-!
# White space at the ends of a text

A part of a text is the text trimmed if only white space stands around it and it has none at its own
ends. `trim` gives this part of every text, and no other (`trim_eq_iff`).
-/

namespace Storyboard

namespace Text

/-! ### White space -/

/-- The white space characters, as closed ranges of code points. -/
def blankRanges : List (Nat × Nat) :=
  [(9, 13), (0x20, 0x20), (0x85, 0x85), (0xA0, 0xA0), (0x1680, 0x1680), (0x2000, 0x200A),
    (0x2028, 0x2029), (0x202F, 0x202F), (0x205F, 0x205F), (0x3000, 0x3000)]

theorem isBlank_iff {c : Char} :
    isBlank c = true ↔ ∃ b ∈ blankRanges, b.1 ≤ c.toNat ∧ c.toNat ≤ b.2 := by
  simp only [isBlank, Bool.or_eq_true, Bool.and_eq_true, decide_eq_true_eq, beq_iff_eq]
  simp only [blankRanges, List.exists_mem_cons_iff, List.not_mem_nil, false_and, exists_false,
    or_false]
  omega

/-- There is nothing in the text but white space. -/
def Blank (cs : List Char) : Prop := ∀ c ∈ cs, isBlank c = true

/-! ### Trimmed texts -/

theorem trim_append_blank (cs : List Char) {bs : List Char} (blank : Blank bs) :
    trim (cs ++ bs) = trim cs := by
  have dropped : bs.dropWhile isBlank = [] := List.dropWhile_eq_nil_iff.mpr blank
  unfold trim trimStart trimEnd dropEndWhile
  rw [List.dropWhile_append]
  split
  · next empty =>
    rw [dropped, List.isEmpty_iff.mp empty]
  · have reversed : bs.reverse.dropWhile isBlank = [] :=
      List.dropWhile_eq_nil_iff.mpr fun c member => blank c (List.mem_reverse.mp member)
    rw [List.reverse_append, List.dropWhile_append, reversed]
    rfl

theorem trim_blank_append {bs : List Char} (blank : Blank bs) (cs : List Char) :
    trim (bs ++ cs) = trim cs := by
  rw [trim, trim, trimStart, trimStart, List.dropWhile_append, List.dropWhile_eq_nil_iff.mpr blank]
  rfl

/-- The part is what is left of the text without the white space at its ends. -/
structure Trimmed (cs part : List Char) : Prop where
  within : ∃ before after, cs = before ++ part ++ after ∧ Blank before ∧ Blank after
  first : ∀ c ∈ part.head?, isBlank c = false
  last : ∀ c ∈ part.getLast?, isBlank c = false

theorem trim_of_ends {cs : List Char} (first : ∀ c ∈ cs.head?, isBlank c = false)
    (last : ∀ c ∈ cs.getLast?, isBlank c = false) : trim cs = cs := by
  have kept {ds : List Char} (first : ∀ c ∈ ds.head?, isBlank c = false) :
      ds.dropWhile isBlank = ds := by
    cases ds with
    | nil => rfl
    | cons d ds => rw [List.dropWhile_cons, first d rfl]; rfl
  rw [trim, trimStart, kept first, trimEnd, dropEndWhile,
    kept fun c head => last c (by rwa [List.head?_reverse] at head), List.reverse_reverse]

theorem trim_visible {cs : List Char} (visible : ∀ c ∈ cs, isBlank c = false) : trim cs = cs :=
  trim_of_ends (fun c head => visible c (List.mem_of_mem_head? head))
    fun c last => visible c (List.mem_of_getLast? last)

theorem trim_trimmed (cs : List Char) : Trimmed cs (trim cs) := by
  have starts (ds : List Char) : ∀ c ∈ (ds.dropWhile isBlank).head?, isBlank c = false := by
    intro c head
    have stop := List.head?_dropWhile_not isBlank ds
    rwa [head] at stop
  have whole : trim cs ++ (trimStart cs).rtakeWhile isBlank = cs.dropWhile isBlank :=
    List.rdropWhile_append_rtakeWhile
  refine ⟨⟨cs.takeWhile isBlank, (trimStart cs).rtakeWhile isBlank, ?_,
    fun c member => List.mem_takeWhile_imp member, fun c member => List.mem_rtakeWhile_imp member⟩,
    fun c head => ?_, fun c last => ?_⟩
  · rw [List.append_assoc, whole, List.takeWhile_append_dropWhile]
  · exact starts cs c (whole ▸ List.mem_head?_append_of_mem_head? head)
  · rw [trim, trimEnd, dropEndWhile, List.getLast?_reverse] at last
    exact starts _ c last

theorem trim_eq_iff {cs part : List Char} : trim cs = part ↔ Trimmed cs part := by
  constructor
  · rintro rfl
    exact trim_trimmed cs
  · intro trimmed
    obtain ⟨before, after, rfl, blank, blank'⟩ := trimmed.within
    rw [trim_append_blank _ blank', trim_blank_append blank, trim_of_ends trimmed.first trimmed.last]

theorem trim_eq_nil_iff {cs : List Char} : trim cs = [] ↔ Blank cs := by
  constructor
  · intro empty
    obtain ⟨before, after, whole, blank, blank'⟩ := (trim_trimmed cs).within
    rw [empty, List.append_nil] at whole
    rw [whole]
    exact fun c member => (List.mem_append.mp member).elim (blank c) (blank' c)
  · intro blank
    exact trim_append_blank [] blank

theorem trim_within (cs : List Char) : trim cs <:+: cs := by
  obtain ⟨before, after, whole, _⟩ := (trim_trimmed cs).within
  exact ⟨before, after, whole.symm⟩

theorem trimString_eq_iff {text part : String} :
    trimString text = part ↔ Trimmed text.toList part.toList := by
  rw [trimString, ← String.toList_inj, String.toList_ofList, trim_eq_iff]

theorem trimString_isEmpty_iff {text : String} :
    (trimString text).isEmpty = true ↔ Blank text.toList := by
  rw [String.isEmpty_iff, trimString, String.ofList_eq_empty_iff, trim_eq_nil_iff]

end Text

end Storyboard
