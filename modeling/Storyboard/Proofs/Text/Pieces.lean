import Storyboard.Proofs.Text.Trimmed

/-!
# Pieces of a text

`splitWhere` takes a text apart at its marks. The pieces hold no mark, and with the marks put back
between them they are the text. The words of a text are its pieces between white space.
-/

namespace Storyboard

namespace Text

theorem splitWhere_ne_nil (p : Char → Bool) (cs : List Char) : splitWhere p cs ≠ [] := by
  cases cs with
  | nil => simp [splitWhere]
  | cons c rest =>
    unfold splitWhere
    split
    · simp
    · split <;> simp

theorem splitWhere_append {p : Char → Bool} {c : Char} (mark : p c = true) (as bs : List Char) :
    splitWhere p (as ++ c :: bs) = splitWhere p as ++ splitWhere p bs := by
  induction as with
  | nil => simp [splitWhere, mark]
  | cons a as ih =>
    obtain ⟨piece, pieces, split⟩ := List.exists_cons_of_ne_nil (splitWhere_ne_nil p as)
    cases marked : p a <;> simp [splitWhere, marked, ih, split]

theorem splitWhere_of_none {p : Char → Bool} {cs : List Char} (none : ∀ c ∈ cs, p c = false) :
    splitWhere p cs = [cs] := by
  induction cs with
  | nil => rfl
  | cons c cs ih =>
    have rest := ih fun c member => none c (List.mem_cons_of_mem _ member)
    simp [splitWhere, none c List.mem_cons_self, rest]

/-- The pieces and the mark between them give the text back. -/
theorem intercalate_splitWhere (mark : Char) (cs : List Char) :
    [mark].intercalate (splitWhere (· = mark) cs) = cs := by
  induction cs with
  | nil => rfl
  | cons c cs ih =>
    obtain ⟨piece, pieces, split⟩ := List.exists_cons_of_ne_nil (splitWhere_ne_nil (· = mark) cs)
    rw [split] at ih
    by_cases hc : c = mark
    · simp [splitWhere, hc, split, ih]
    · cases pieces <;> simp_all [splitWhere]

/-- Pieces without the mark come back when the text that they make up is taken apart. -/
theorem splitWhere_intercalate {mark : Char} {pieces : List (List Char)} (some_piece : pieces ≠ [])
    (unmarked : ∀ piece ∈ pieces, mark ∉ piece) :
    splitWhere (· = mark) ([mark].intercalate pieces) = pieces := by
  have single {piece : List Char} (none : mark ∉ piece) : splitWhere (· = mark) piece = [piece] :=
    splitWhere_of_none fun c member => decide_eq_false fun same => none (same ▸ member)
  induction pieces with
  | nil => exact absurd rfl some_piece
  | cons piece rest ih =>
    obtain ⟨first, others⟩ := List.forall_mem_cons.mp unmarked
    cases rest with
    | nil => simpa using single first
    | cons next rest =>
      rw [List.intercalate_cons_cons, List.append_assoc, List.singleton_append,
        splitWhere_append (by simp), ih (by simp) others, single first]
      rfl

theorem not_mark_of_mem_splitWhere {p : Char → Bool} {cs piece : List Char} {c : Char}
    (part : piece ∈ splitWhere p cs) (member : c ∈ piece) : p c = false := by
  induction cs generalizing piece with
  | nil =>
    obtain rfl := List.mem_singleton.mp part
    cases member
  | cons d rest ih =>
    obtain ⟨first, others, pieces⟩ := List.exists_cons_of_ne_nil (splitWhere_ne_nil p rest)
    rw [pieces] at ih
    cases marked : p d with
    | true =>
      simp only [splitWhere, marked, pieces, if_true, List.mem_cons] at part
      rcases part with rfl | rfl | later
      · cases member
      · exact ih List.mem_cons_self member
      · exact ih (List.mem_cons_of_mem _ later) member
    | false =>
      simp only [splitWhere, marked, pieces, Bool.false_eq_true, if_false, List.mem_cons] at part
      rcases part with rfl | later
      · rcases List.mem_cons.mp member with rfl | inside
        · exact marked
        · exact ih List.mem_cons_self inside
      · exact ih (List.mem_cons_of_mem _ later) member

/-! ### Marks of more than one character -/

theorem dropLeading?_eq_none {start cs : List Char} (other : ¬ start <+: cs) :
    dropLeading? start cs = none :=
  Option.eq_none_iff_forall_ne_some.mpr fun rest leads =>
    other ⟨rest, (dropLeading?_eq_some_iff.mp leads).symm⟩

theorem splitAtMark?_eq_some {mark cs before after : List Char}
    (found : splitAtMark? mark cs = some (before, after)) : cs = before ++ mark ++ after := by
  induction cs generalizing before with
  | nil =>
    unfold splitAtMark? at found
    split at found
    · next empty =>
      obtain ⟨rfl, rfl⟩ := Prod.mk.inj (Option.some.inj found)
      simpa using empty
    · cases found
  | cons c cs ih =>
    unfold splitAtMark? at found
    split at found
    · next rest leads =>
      obtain ⟨rfl, rfl⟩ := Prod.mk.inj (Option.some.inj found)
      exact dropLeading?_eq_some_iff.mp leads
    · obtain ⟨⟨early, late⟩, later, same⟩ := Option.map_eq_some_iff.mp found
      obtain ⟨rfl, rfl⟩ := Prod.mk.inj same
      simp [ih later]

theorem splitAtMark?_before {mark cs before after : List Char} (marked : mark ≠ [])
    (found : splitAtMark? mark cs = some (before, after)) : ¬ mark <:+: before := by
  induction cs generalizing before with
  | nil => simp [splitAtMark?, marked] at found
  | cons c cs ih =>
    have whole := splitAtMark?_eq_some found
    unfold splitAtMark? at found
    split at found
    · obtain ⟨rfl, rfl⟩ := Prod.mk.inj (Option.some.inj found)
      simpa using marked
    · next elsewhere =>
      obtain ⟨⟨early, late⟩, later, same⟩ := Option.map_eq_some_iff.mp found
      obtain ⟨rfl, rfl⟩ := Prod.mk.inj same
      rw [List.infix_cons_iff]
      rintro (⟨rest, leads⟩ | inside)
      · have here : dropLeading? mark (c :: cs) = some (rest ++ mark ++ late) := by
          rw [dropLeading?_eq_some_iff, whole, ← leads]
          simp
        cases elsewhere.symm.trans here
      · exact ih later inside

theorem splitAtMark?_eq_none_iff {mark cs : List Char} (marked : mark ≠ []) :
    splitAtMark? mark cs = none ↔ ¬ mark <:+: cs := by
  induction cs with
  | nil => simp [splitAtMark?, marked]
  | cons c cs ih =>
    rw [List.infix_cons_iff, splitAtMark?]
    split
    · next after leads =>
      have starts : mark <+: c :: cs := ⟨after, (dropLeading?_eq_some_iff.mp leads).symm⟩
      simp [starts]
    · next elsewhere =>
      have starts : ¬ mark <+: c :: cs := by
        rintro ⟨after, whole⟩
        cases elsewhere.symm.trans (dropLeading?_eq_some_iff.mpr whole.symm)
      rw [Option.map_eq_none_iff, ih]
      simp [starts]

/-- A mark is found where it comes first. -/
theorem splitAtMark?_append {mark before : List Char} (marked : mark ≠ [])
    (first : ∀ a b, before ++ mark = a ++ mark ++ b → b = []) (rest : List Char) :
    splitAtMark? mark (before ++ mark ++ rest) = some (before, rest) := by
  induction before with
  | nil =>
    obtain ⟨c, cs, rfl⟩ := List.exists_cons_of_ne_nil marked
    have leads : dropLeading? (c :: cs) (c :: (cs ++ rest)) = some rest :=
      dropLeading?_eq_some_iff.mpr rfl
    rw [List.nil_append, List.cons_append, splitAtMark?, leads]
  | cons c before ih =>
    have late : dropLeading? mark (c :: (before ++ mark ++ rest)) = none := by
      refine dropLeading?_eq_none fun leads => ?_
      have short : mark.length ≤ (c :: before ++ mark).length := by
        rw [List.length_append]
        omega
      obtain ⟨b, whole⟩ := List.prefix_of_prefix_length_le leads
        (List.prefix_append (c :: before ++ mark) rest) short
      obtain rfl := first [] b (by rw [← whole, List.nil_append])
      have length := congrArg List.length whole
      simp only [List.append_nil, List.length_append, List.length_cons] at length
      omega
    have later := ih fun a b same => first (c :: a) b (by rw [List.cons_append, same]; simp)
    rw [List.cons_append, List.cons_append, splitAtMark?, late, later]
    rfl

/-! ### Words -/

/-- The text begins with the word, and white space or nothing follows. -/
structure FirstWord (cs word rest : List Char) : Prop where
  whole : cs = word ++ rest
  visible : ∀ c ∈ word, isBlank c = false
  stop : ∀ c ∈ rest.head?, isBlank c = true

theorem exists_firstWord (cs : List Char) : ∃ word rest, FirstWord cs word rest := by
  refine ⟨cs.takeWhile (fun c => !isBlank c), cs.dropWhile (fun c => !isBlank c),
    List.takeWhile_append_dropWhile.symm, fun c member => by simpa using List.mem_takeWhile_imp member,
    fun c head => ?_⟩
  have stop := List.head?_dropWhile_not (fun c => !isBlank c) cs
  rw [head] at stop
  simpa using stop

theorem FirstWord.words {cs word rest : List Char} (first : FirstWord cs word rest)
    (named : word ≠ []) : (words cs).head? = some word := by
  obtain ⟨rfl, visible, stop⟩ := first
  have alone := splitWhere_of_none visible
  cases rest with
  | nil => simp [Text.words, alone, named]
  | cons c rest => simp [Text.words, splitWhere_append (stop c rfl), alone, named]

/-- The white space character after the word may be dropped before the rest is trimmed. -/
theorem FirstWord.trim_drop {cs word rest : List Char} (first : FirstWord cs word rest) :
    trim (rest.drop 1) = trim rest := by
  cases rest with
  | nil => rfl
  | cons c rest =>
    have blank : Blank [c] := fun _ member => List.mem_singleton.mp member ▸ first.stop c rfl
    exact (trim_blank_append blank rest).symm

theorem words_blank_append {gap : List Char} (blank : Blank gap) (cs : List Char) :
    words (gap ++ cs) = words cs := by
  induction gap with
  | nil => rfl
  | cons c gap ih =>
    have rest := ih fun d member => blank d (List.mem_cons_of_mem _ member)
    rw [List.cons_append, words, splitWhere, if_pos (blank c List.mem_cons_self)]
    exact rest

end Text

end Storyboard
