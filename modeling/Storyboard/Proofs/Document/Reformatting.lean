import Mathlib.Logic.Relation
import Storyboard.Proofs.Document.Ids
import Storyboard.Proofs.Document.Lines
import Storyboard.Proofs.Document.Placeless
import Storyboard.Proofs.Lists

/-!
# Reformatting

Empty lines and remarks say nothing, wherever they stand; white space at the end of a line does not
count, and neither does the way in which lines end. A text that differs from another in nothing else
describes the same diagram (`parse_reformatted`).
-/

namespace Storyboard

open Text

namespace Document

/-! ### Readings of lines -/

/-- Lines that differ only in white space at their ends are heard alike. -/
theorem readings_single {l m : Line} {as bs : List Char} (same : l.text ++ as = m.text ++ bs)
    (first : ∀ c ∈ as, isBlank c = true) (second : ∀ c ∈ bs, isBlank c = true) :
    readings [l] = readings [m] := by
  have text : l.trimmed = m.trimmed := by
    rw [Line.trimmed, Line.trimmed, ← trim_append_blank l.text first, same,
      trim_append_blank m.text second]
  have speaks := isMeaningful_trimmed text
  cases heard : m.isMeaningful with
  | false => simp [readings, speaks, heard]
  | true =>
    -- Neither text is empty, so both begin with the same character.
    have some_text {l : Line} (heard : l.isMeaningful = true) : ∃ c rest, l.text = c :: rest := by
      refine List.exists_cons_of_ne_nil fun empty => ?_
      have none : l.trimmed = [] := trim_eq_nil_iff.mpr (by simp [empty, Blank])
      simp [Line.isMeaningful, Line.isEmpty, none] at heard
    obtain ⟨c, rest, begins⟩ := some_text heard
    obtain ⟨d, others, starts⟩ := some_text (speaks.trans heard)
    rw [begins, starts, List.cons_append, List.cons_append] at same
    obtain ⟨rfl, _⟩ := List.cons.inj same
    have indented : l.isIndented = m.isIndented := by
      simp only [Line.isIndented, begins, starts]
    simp [readings, Line.reading, speaks, heard, text, indented]

/-- What is read of a text. -/
def heard (source : List Char) : List (List Char × Bool) := readings (linesOf source)

/-- A line feed sets apart what is read. -/
theorem heard_feed (as bs : List Char) : heard (as ++ '\n' :: bs) = heard as ++ heard bs := by
  have pieces : splitWhere (· = '\n') (as ++ '\n' :: bs) =
      splitWhere (· = '\n') as ++ splitWhere (· = '\n') bs := splitWhere_append (by simp) as bs
  rw [heard, heard, heard, ← readings_append]
  apply readings_texts
  simp only [linesOf, texts_placeLines, pieces, List.map_append]

theorem heard_line {line : List Char} (whole : '\n' ∉ line) :
    heard line = readings [⟨dropReturn line, 0⟩] := by
  have piece : splitWhere (· = '\n') line = [line] := splitWhere_of_none fun c member => by
    simpa using fun feed : c = '\n' => whole (feed ▸ member)
  rw [heard, linesOf, piece]
  rfl

/-- White space at the end of a text is not heard. -/
theorem heard_append_blank (source : List Char) {bs : List Char}
    (blank : ∀ c ∈ bs, isBlank c = true ∧ c ≠ '\n') : heard (source ++ bs) = heard source := by
  have line {last : List Char} (whole : '\n' ∉ last) : heard (last ++ bs) = heard last := by
    have still : '\n' ∉ last ++ bs := by
      rw [List.mem_append, not_or]
      exact ⟨whole, fun member => (blank _ member).2 rfl⟩
    obtain ⟨xs, first, dropped⟩ := dropReturn_append last
    obtain ⟨ys, second, left⟩ := dropReturn_append (last ++ bs)
    rw [heard_line whole, heard_line still]
    have whole_text : dropReturn (last ++ bs) ++ ys = dropReturn last ++ (xs ++ bs) := by
      rw [left, ← List.append_assoc, dropped]
    exact readings_single whole_text second
      (List.forall_mem_append.mpr ⟨first, fun c member => (blank c member).1⟩)
  by_cases feed : '\n' ∈ source
  · obtain ⟨before, last, rfl, whole⟩ := exists_last_split feed
    rw [List.append_assoc, List.cons_append, heard_feed, heard_feed, line whole]
  · exact line feed

/-- A line that is blank, or a remark behind blanks. -/
def SaysNothing (line : List Char) : Prop :=
  '\n' ∉ line ∧ ∃ indent rest, line = indent ++ rest ∧ (∀ c ∈ indent, isBlank c = true) ∧
    (rest = [] ∨ ∃ remark, rest = '%' :: '%' :: remark)

theorem trim_remark (remark : List Char) :
    trim ('%' :: '%' :: remark) = '%' :: '%' :: trimEnd remark := by
  have start : trimStart ('%' :: '%' :: remark) = '%' :: '%' :: remark := rfl
  rw [trim, start, trimEnd, trimEnd, dropEndWhile, dropEndWhile, List.reverse_cons, List.reverse_cons,
    List.append_assoc, List.dropWhile_append]
  split
  · next blank =>
    rw [List.isEmpty_iff.mp blank]
    rfl
  · simp

theorem heard_silent {line : List Char} (silent : SaysNothing line) : heard line = [] := by
  obtain ⟨whole, indent, rest, rfl, blank, nothing⟩ := silent
  have text : trim (dropReturn (indent ++ rest)) = trim rest := by
    rw [trim_dropReturn, trim_blank_append blank]
  rw [heard_line whole]
  generalize same : (⟨dropReturn (indent ++ rest), 0⟩ : Line) = l
  have trimmed : l.trimmed = trim rest := same ▸ text
  have meaningless : l.isMeaningful = false := by
    rcases nothing with rfl | ⟨remark, rfl⟩
    · have none : l.trimmed = [] := trimmed
      simp [Line.isMeaningful, Line.isEmpty, none]
    · simp [Line.isMeaningful, Line.isComment, trimmed, trim_remark, dropLeading?]
  simp [readings, meaningless]

/-! ### Reformatting -/

/-- What follows is the end of a line, or of the text. -/
def EndsLine (after : List Char) : Prop :=
  after = [] ∨ (∃ rest, after = '\n' :: rest) ∨ ∃ rest, after = '\r' :: '\n' :: rest

/-- One change to how a text is set out. -/
inductive Reformats : List Char → List Char → Prop where
  /-- A line that says nothing comes in before a line. -/
  | insert {before after line : List Char} (silent : SaysNothing line)
      (start : before = [] ∨ ∃ lines, before = lines ++ ['\n']) :
      Reformats (before ++ after) (before ++ line ++ '\n' :: after)
  /-- A line that says nothing comes in at the end. -/
  | append {source line : List Char} (silent : SaysNothing line) :
      Reformats source (source ++ '\n' :: line)
  /-- Spaces and tabs come in at the end of a line. -/
  | trail {before after spaces : List Char} (blank : ∀ c ∈ spaces, c = ' ' ∨ c = '\t')
      (ends : EndsLine after) : Reformats (before ++ after) (before ++ spaces ++ after)
  /-- A line feed becomes a carriage return and a line feed. -/
  | feed {before after : List Char} :
      Reformats (before ++ '\n' :: after) (before ++ '\r' :: '\n' :: after)

theorem Reformats.heard {source other : List Char} (edit : Reformats source other) :
    Document.heard other = Document.heard source := by
  have returns : ∀ c ∈ ['\r'], isBlank c = true ∧ c ≠ '\n' := by simp [isBlank]
  cases edit with
  | @insert before after line silent start =>
    rcases start with rfl | ⟨lines, rfl⟩
    · rw [List.nil_append, heard_feed, heard_silent silent, List.nil_append, List.nil_append]
    · simp only [List.append_assoc, List.cons_append, List.nil_append]
      rw [heard_feed, heard_feed, heard_feed, heard_silent silent, List.nil_append]
  | append silent => rw [heard_feed, heard_silent silent, List.append_nil]
  | @trail before after spaces blank ends =>
    have spaces_blank : ∀ c ∈ spaces, isBlank c = true ∧ c ≠ '\n' := by
      intro c member
      rcases blank c member with rfl | rfl <;> decide
    rcases ends with rfl | ⟨rest, rfl⟩ | ⟨rest, rfl⟩
    · rw [List.append_nil, List.append_nil, heard_append_blank before spaces_blank]
    · rw [heard_feed, heard_feed, heard_append_blank before spaces_blank]
    · have split (before : List Char) :
          before ++ '\r' :: '\n' :: rest = (before ++ ['\r']) ++ '\n' :: rest := by simp
      rw [split, split, heard_feed, heard_feed, heard_append_blank _ returns,
        heard_append_blank _ spaces_blank, heard_append_blank _ returns]
  | @feed before after =>
    have split : before ++ '\r' :: '\n' :: after = (before ++ ['\r']) ++ '\n' :: after := by simp
    rw [split, heard_feed, heard_feed, heard_append_blank _ returns]

theorem Reformats.subset {source other : List Char} (edit : Reformats source other) :
    source ⊆ other := by
  cases edit <;> intro c <;> simp <;> tauto

theorem heard_reformatted {source other : List Char}
    (edits : Relation.ReflTransGen Reformats source other) :
    heard other = heard source ∧ source ⊆ other := by
  induction edits with
  | refl => exact ⟨rfl, List.Subset.refl _⟩
  | tail _ edit ih => exact ⟨edit.heard.trans ih.1, List.Subset.trans ih.2 edit.subset⟩

variable {T G : Type} [Scalar T] [Scalar G] [Narrow T G]

/-- A text that parses still parses, to the same diagram and with the same warnings but for their
places, after empty lines and remarks were put in anywhere, spaces and tabs at the ends of lines, and
carriage returns before line feeds. -/
theorem parse_reformatted {source other : String} {parsed : Parsed T G}
    (ok : parse source = .ok parsed)
    (edits : Relation.ReflTransGen Reformats source.toList other.toList) :
    ∃ again : Parsed T G, parse other = .ok again ∧ again.diagram = parsed.diagram ∧
      again.warnings.map Diagnostic.unplaced = parsed.warnings.map Diagnostic.unplaced := by
  obtain ⟨same, sub⟩ := heard_reformatted edits
  have text : source.toList.all isBlank = false := by
    cases blank : source.toList.all isBlank with
    | false => rfl
    | true => simp [parse, blank] at ok
  have still : other.toList.all isBlank = false := by
    obtain ⟨c, member, dark⟩ := List.all_eq_false.mp text
    exact List.all_eq_false.mpr ⟨c, sub member, dark⟩
  have outcomes := parse_gist (T := T) (G := G) (text.trans still.symm) (sectionsOf_gist same.symm)
  rw [ok] at outcomes
  generalize parse (T := T) (G := G) other = outcome at outcomes ⊢
  cases outcomes with
  | ok diagram warnings => exact ⟨_, rfl, diagram.symm, warnings.symm⟩

/-- A remark in a block, spaces behind a node, a carriage return and an empty line at the end. -/
theorem parse_reformatted_block : ∃ parsed again : Parsed Rat Rat,
    parse "A[x]\n@config\nfps: 9\n@end" = .ok parsed ∧
    parse "A[x]  \n@config\r\n %% remark\nfps: 9\n@end\n" = .ok again ∧
    again.diagram = parsed.diagram := by
  obtain ⟨parsed, ok, _⟩ := exists_parsed_of (T := Rat) (G := Rat) "A[x]\n@config\nfps: 9\n@end"
    (p := fun _ => true) (by decide +kernel)
  have trail : Reformats "A[x]\n@config\nfps: 9\n@end".toList "A[x]  \n@config\nfps: 9\n@end".toList :=
    @Reformats.trail "A[x]".toList "\n@config\nfps: 9\n@end".toList [' ', ' '] (by simp)
      (.inr (.inl ⟨_, rfl⟩))
  have feed : Reformats _ "A[x]  \n@config\r\nfps: 9\n@end".toList :=
    @Reformats.feed "A[x]  \n@config".toList "fps: 9\n@end".toList
  have remark : Reformats _ "A[x]  \n@config\r\n %% remark\nfps: 9\n@end".toList :=
    @Reformats.insert "A[x]  \n@config\r\n".toList "fps: 9\n@end".toList " %% remark".toList
      ⟨by decide, [' '], _, rfl, by simp [isBlank], .inr ⟨_, rfl⟩⟩
      (.inr ⟨"A[x]  \n@config\r".toList, by decide⟩)
  have last : Reformats _ "A[x]  \n@config\r\n %% remark\nfps: 9\n@end\n".toList :=
    @Reformats.append "A[x]  \n@config\r\n %% remark\nfps: 9\n@end".toList []
      ⟨by simp, [], [], rfl, by simp, .inl rfl⟩
  obtain ⟨again, parses, same, _⟩ := parse_reformatted ok
    (.head trail (.head feed (.head remark (.single last))))
  exact ⟨parsed, again, ok, parses, same⟩

end Document

end Storyboard
