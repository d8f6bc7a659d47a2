import Storyboard.Document.Line
import Storyboard.Proofs.Text.Pieces
import Storyboard.Proofs.Text.Place

/-!
# Lines and their places

The lines of a text are its pieces between line feeds, in their order. Each of them knows where it
stands, whatever ends the lines before it; so does what is left of it without white space at its ends.
-/

namespace Storyboard

open Text

namespace Document

theorem occupies_dropReturn (cs : List Char) :
    Occupies cs (dropReturn cs) 0 (byteLength (dropReturn cs)) := by
  unfold dropReturn
  cases found : dropTrailing? ['\r'] cs with
  | none => exact ⟨[], [], by simp, rfl, rfl⟩
  | some rest => exact ⟨[], ['\r'], dropTrailing?_eq_some_iff.mp found, rfl, rfl⟩

theorem dropReturn_append (cs : List Char) :
    ∃ bs, (∀ c ∈ bs, isBlank c = true) ∧ dropReturn cs ++ bs = cs := by
  unfold dropReturn
  cases found : dropTrailing? ['\r'] cs with
  | none => exact ⟨[], by simp, by simp⟩
  | some rest => exact ⟨['\r'], by simp; rfl, (dropTrailing?_eq_some_iff.mp found).symm⟩

theorem trim_dropReturn (cs : List Char) : trim (dropReturn cs) = trim cs := by
  obtain ⟨bs, blank, same⟩ := dropReturn_append cs
  rw [← trim_append_blank _ blank, same]

theorem occupies_of_mem_placeLines (before : List Char) {pieces : List (List Char)} {l : Line}
    (line : l ∈ placeLines (byteLength before) pieces) :
    Occupies (before ++ ['\n'].intercalate pieces) l.text l.offset
      (l.offset + byteLength l.text) := by
  induction pieces generalizing before with
  | nil => cases line
  | cons piece rest ih =>
    obtain ⟨after, whole⟩ :
        ∃ after, before ++ ['\n'].intercalate (piece :: rest) = before ++ piece ++ after := by
      cases rest with
      | nil => exact ⟨[], by simp⟩
      | cons next rest => exact ⟨'\n' :: ['\n'].intercalate (next :: rest), by simp⟩
    rcases List.mem_cons.mp line with rfl | later
    · have placed := Occupies.intro before piece after
      rw [← whole] at placed
      simpa using placed.trans (occupies_dropReturn piece)
    · cases rest with
      | nil => cases later
      | cons next rest =>
        have offset : byteLength before + byteLength piece + 1 =
            byteLength (before ++ piece ++ ['\n']) := by
          simp only [byteLength_append]
          rfl
        rw [offset] at later
        simpa using ih _ later

theorem texts_placeLines (offset : Nat) (pieces : List (List Char)) :
    (placeLines offset pieces).map Line.text = pieces.map dropReturn := by
  induction pieces generalizing offset with
  | nil => rfl
  | cons piece rest ih => simp [placeLines, ih]

theorem le_offset {pieces : List (List Char)} {offset : Nat} {l : Line}
    (line : l ∈ placeLines offset pieces) : offset ≤ l.offset := by
  induction pieces generalizing offset with
  | nil => cases line
  | cons piece rest ih =>
    rcases List.mem_cons.mp line with rfl | later
    · exact Nat.le_refl _
    · have bound := ih later
      omega

theorem offsets_placeLines (offset : Nat) (pieces : List (List Char)) :
    (placeLines offset pieces).Pairwise fun l m => l.offset < m.offset := by
  induction pieces generalizing offset with
  | nil => exact .nil
  | cons piece rest ih =>
    refine .cons (fun l later => ?_) (ih _)
    have bound := le_offset later
    show offset < l.offset
    omega

/-- The lines are the pieces of the text between line feeds, without carriage returns at their ends,
and each starts behind the one before. -/
theorem linesOf_pieces (source : List Char) : ∃ pieces, ['\n'].intercalate pieces = source ∧
    (∀ piece ∈ pieces, '\n' ∉ piece) ∧ (linesOf source).map Line.text = pieces.map dropReturn ∧
    (linesOf source).Pairwise fun l m => l.offset < m.offset := by
  refine ⟨splitWhere (· = '\n') source, intercalate_splitWhere '\n' source, ?_,
    texts_placeLines 0 _, offsets_placeLines 0 _⟩
  intro piece part member
  simpa using not_mark_of_mem_splitWhere part member

/-- Each line ends before the next one starts. -/
theorem ends_placeLines (offset : Nat) (pieces : List (List Char)) :
    (placeLines offset pieces).Pairwise fun l m => l.offset + byteLength l.text < m.offset := by
  induction pieces generalizing offset with
  | nil => exact .nil
  | cons piece rest ih =>
    refine .cons (fun l later => ?_) (ih _)
    obtain ⟨returns, _, whole⟩ := dropReturn_append piece
    have length : byteLength (dropReturn piece) ≤ byteLength piece := by
      rw [← congrArg byteLength whole, byteLength_append]
      exact Nat.le_add_right _ _
    have bound := le_offset later
    show offset + byteLength (dropReturn piece) < l.offset
    omega

/-- No two lines of a text have the same place, even without the white space around them. -/
theorem spans_linesOf (source : List Char) :
    (linesOf source).Pairwise fun l m => l.span ≠ m.span := by
  refine (ends_placeLines 0 _).imp fun {l m} before same => ?_
  have start : l.start ≤ l.offset + byteLength l.text := by
    have whole := congrArg byteLength (List.takeWhile_append_dropWhile (p := isBlank) (l := l.text))
    rw [byteLength_append] at whole
    rw [Line.start]
    omega
  have starts : l.start = m.start := congrArg Span.start same
  have later : m.offset ≤ m.start := Nat.le_add_right _ _
  omega

section

variable {source : List Char} {l : Line} (line : l ∈ linesOf source)
include line

theorem Line.occupies : Occupies source l.text l.offset (l.offset + byteLength l.text) := by
  have placed := occupies_of_mem_placeLines [] line
  rwa [List.nil_append, intercalate_splitWhere] at placed

theorem Line.no_feed : '\n' ∉ l.text := by
  obtain ⟨pieces, _, feedless, texts, _⟩ := linesOf_pieces source
  have member : l.text ∈ pieces.map dropReturn := texts ▸ List.mem_map_of_mem line
  obtain ⟨piece, part, same⟩ := List.mem_map.mp member
  intro feed
  rw [← same] at feed
  exact feedless piece part ((occupies_dropReturn piece).mem feed)

theorem mem_of_mem_linesOf {c : Char} (member : c ∈ l.text) : c ∈ source :=
  (Line.occupies line).mem member

/-- The span of a line is the place of the line without white space at its ends. -/
theorem Line.occupies_span : Occupies source l.trimmed l.span.start l.span.stop := by
  have placed := (Line.occupies line).trans (occupies_trim l.text)
  rwa [← Nat.add_assoc] at placed

theorem Line.trimmed_clean (text : l.isEmpty = false) : Clean l.trimmed :=
  trim_clean (Line.no_feed line) (List.isEmpty_eq_false_iff.mp text)

end

end Document

end Storyboard
