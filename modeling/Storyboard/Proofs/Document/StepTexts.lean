import Storyboard.Document.Animation
import Storyboard.Proofs.Number.Numeral
import Storyboard.Proofs.Text.Pieces
import Storyboard.Proofs.Text.Trimmed

/-!
# Texts of steps

The header of a step names its targets, a camera step behind a mode, and its lines give values to keys.
`ModeText`, `TargetsText` and `ValueText` say which text stands for what, in terms of characters alone,
and the readers give that of every text.
-/

namespace Storyboard

open Number Text

namespace Document

/-! ### Modes -/

/-- The mode that leads the targets of a camera step, if one does, and the targets. -/
inductive ModeText (cs : List Char) : Option String × List Char → Prop where
  | mode {word rest targets : List Char} (first : FirstWord cs word rest)
      (known : String.ofList word ∈ ["fitAll", "fitNodes", "focus", "zoom", "pan"])
      (left : Trimmed rest targets) : ModeText cs (some (String.ofList word), targets)
  | none {word rest : List Char} (first : FirstWord cs word rest)
      (other : String.ofList word ∉ ["fitAll", "fitNodes", "focus", "zoom", "pan"]) :
      ModeText cs (none, cs)

theorem splitFirstWord_eq {cs word rest : List Char} (first : FirstWord cs word rest) :
    splitFirstWord cs = (word, rest.drop 1) := by
  obtain ⟨rfl, visible, stop⟩ := first
  have run : ∀ c ∈ word, (!isBlank c) = true := fun c member => by simp [visible c member]
  have ends : ∀ c ∈ rest.head?, (!isBlank c) = false := fun c head => by simp [stop c head]
  rw [splitFirstWord, takeWhile_append_of_stop run ends, dropWhile_append_of_stop run ends]

theorem splitCameraMode_eq_iff {cs : List Char} {read : Option String × List Char} :
    splitCameraMode cs = read ↔ ModeText cs read := by
  constructor
  · rintro rfl
    obtain ⟨word, rest, first⟩ := exists_firstWord cs
    rw [splitCameraMode, splitFirstWord_eq first]
    dsimp only
    split
    · next known =>
      rw [first.trim_drop]
      exact .mode first (by simpa [cameraModes] using known) (trim_trimmed rest)
    · next other => exact .none first (by simpa [cameraModes] using other)
  · intro text
    cases text with
    | mode first known left =>
      have listed : cameraModes.contains (String.ofList _) = true := List.contains_iff_mem.mpr known
      simp only [splitCameraMode, splitFirstWord_eq first, listed, if_true, first.trim_drop,
        trim_eq_iff.mpr left]
    | none first other =>
      have unlisted : cameraModes.contains (String.ofList _) = false :=
        Bool.eq_false_iff.mpr fun listed => other (List.contains_iff_mem.mp listed)
      simp only [splitCameraMode, splitFirstWord_eq first, unlisted, Bool.false_eq_true, if_false]

/-! ### Targets -/

/-- The mark between the two ends of a pair. -/
def arrow : List Char := ['-', '>']

theorem arrow_split {as bs cs ds : List Char} (first : ¬ arrow <:+: as) (second : ¬ arrow <:+: cs)
    (same : as ++ arrow ++ bs = cs ++ arrow ++ ds) : as = cs ∧ bs = ds := by
  -- The longer of the two begins with the other and with all or a part of an arrow.
  have reaches {as bs cs ds : List Char} (second : ¬ arrow <:+: cs)
      (same : as ++ arrow ++ bs = cs ++ arrow ++ ds) : ¬ ∃ c rest, cs = as ++ c :: rest := by
    rintro ⟨c, rest, rfl⟩
    simp only [List.append_assoc, List.append_cancel_left_eq] at same
    cases rest with
    | nil => simp [arrow] at same
    | cons d rest =>
      simp only [arrow, List.cons_append, List.nil_append, List.cons.injEq] at same
      obtain ⟨rfl, rfl, _⟩ := same
      exact second ⟨as, rest, by simp [arrow]⟩
  have shifted := same
  rw [List.append_assoc, List.append_assoc] at shifted
  rcases List.append_eq_append_iff.mp shifted with ⟨middle, later, _⟩ | ⟨middle, later, _⟩
  · cases middle with
    | nil =>
      rw [List.append_nil] at later
      subst later
      simpa using same
    | cons c rest => exact absurd ⟨c, rest, later⟩ (reaches second same)
  · cases middle with
    | nil =>
      rw [List.append_nil] at later
      subst later
      simpa using same
    | cons c rest => exact absurd ⟨c, rest, later⟩ (reaches first same.symm)

/-- What one piece of a list of targets names. A pair needs both its ends. -/
inductive TargetText (cs : List Char) : Option Target → Prop where
  | blank (blank : Blank cs) : TargetText cs none
  | entity {name : List Char} (left : Trimmed cs name) (named : name ≠ [])
      (plain : ¬ arrow <:+: name) : TargetText cs (some (.entity (String.ofList name)))
  | pair {before after source target : List Char} (left : Trimmed cs (before ++ arrow ++ after))
      (first : ¬ arrow <:+: before) (sourced : Trimmed before source) (targeted : Trimmed after target)
      (both : source ≠ [] ∧ target ≠ []) :
      TargetText cs (some (.pair (String.ofList source) (String.ofList target)))
  | half {before after : List Char} (left : Trimmed cs (before ++ arrow ++ after))
      (first : ¬ arrow <:+: before) (open_end : Blank before ∨ Blank after) : TargetText cs none

/-- What one piece of a list of targets is read as. -/
def targetIn? (cs : List Char) : Option Target :=
  if (trim cs).isEmpty then none else target? (trim cs)

theorem targetsOf_eq (cs : List Char) :
    targetsOf cs = (splitWhere (· = ',') cs).filterMap targetIn? := by
  rw [targetsOf, listItems, List.filterMap_filter, List.filterMap_map]
  refine List.filterMap_congr fun piece _ => ?_
  simp only [Function.comp_apply, targetIn?]
  cases (trim piece).isEmpty <;> rfl

theorem splitAtMark?_arrow {before after : List Char} (first : ¬ arrow <:+: before) :
    splitAtMark? arrow (before ++ arrow ++ after) = some (before, after) := by
  cases found : splitAtMark? arrow (before ++ arrow ++ after) with
  | none => exact absurd ⟨before, after, rfl⟩ ((splitAtMark?_eq_none_iff (by decide)).mp found)
  | some parts =>
    obtain ⟨rfl, rfl⟩ := arrow_split first (splitAtMark?_before (by decide) found)
      (splitAtMark?_eq_some found)
    rfl

theorem targetIn?_of_trimmed {cs part : List Char} (left : Trimmed cs part) (filled : part ≠ []) :
    targetIn? cs = target? part := by
  simp [targetIn?, trim_eq_iff.mpr left, filled]

/-- Of the two ends that an arrow parts, none may be blank. -/
theorem targetIn?_arrow {cs before after : List Char} (left : Trimmed cs (before ++ arrow ++ after))
    (first : ¬ arrow <:+: before) : targetIn? cs =
      if trim before = [] ∨ trim after = [] then none
      else some (.pair (String.ofList (trim before)) (String.ofList (trim after))) := by
  have found : splitAtMark? ['-', '>'] (before ++ arrow ++ after) = some (before, after) :=
    splitAtMark?_arrow first
  rw [targetIn?_of_trimmed left (by simp [arrow]), target?, found]
  simp

theorem targetIn?_eq_iff {cs : List Char} {read : Option Target} :
    targetIn? cs = read ↔ TargetText cs read := by
  constructor
  · rintro rfl
    have left := trim_trimmed cs
    by_cases blank : trim cs = []
    · rw [targetIn?, blank]
      exact .blank (trim_eq_nil_iff.mp blank)
    · cases found : splitAtMark? arrow (trim cs) with
      | none =>
        have plain := (splitAtMark?_eq_none_iff (by decide)).mp found
        rw [targetIn?_of_trimmed left blank, target?, show splitAtMark? ['-', '>'] _ = _ from found]
        exact .entity left blank plain
      | some parts =>
        obtain ⟨before, after⟩ := parts
        have first := splitAtMark?_before (by decide) found
        rw [splitAtMark?_eq_some found] at left
        rw [targetIn?_arrow left first]
        split
        · next missing => exact .half left first (missing.imp trim_eq_nil_iff.mp trim_eq_nil_iff.mp)
        · next both =>
          exact .pair left first (trim_trimmed before) (trim_trimmed after) (not_or.mp both)
  · intro text
    cases text with
    | blank blank => rw [targetIn?, trim_eq_nil_iff.mpr blank]; rfl
    | entity left named plain =>
      have unsplit := (splitAtMark?_eq_none_iff (by decide)).mpr plain
      rw [targetIn?_of_trimmed left named, target?, show splitAtMark? ['-', '>'] _ = _ from unsplit]
    | pair left first sourced targeted both =>
      rw [targetIn?_arrow left first, trim_eq_iff.mpr sourced, trim_eq_iff.mpr targeted,
        if_neg (not_or.mpr both)]
    | half left first open_end =>
      rw [targetIn?_arrow left first,
        if_pos (open_end.imp trim_eq_nil_iff.mpr trim_eq_nil_iff.mpr)]

/-- The quotation mark at an end, if there is one. -/
def quoteAt (c : Option Char) : List Char := c.toList.filter fun c => c = '"' || c = '\''

/-- The text without one quotation mark at each end that has one. -/
inductive Unquoted : List Char → List Char → Prop where
  | mk {cs rest inner : List Char} (first : cs = quoteAt cs.head? ++ rest)
      (last : rest = inner ++ quoteAt rest.getLast?) : Unquoted cs inner

theorem Unquoted.unique {cs inner inner' : List Char} (one : Unquoted cs inner)
    (other : Unquoted cs inner') : inner = inner' := by
  obtain ⟨first, last⟩ := one
  obtain ⟨first', last'⟩ := other
  obtain rfl := List.append_cancel_left (first.symm.trans first')
  exact List.append_cancel_right (last.symm.trans last')

variable {T : Type} [Scalar T]

end Document

end Storyboard
