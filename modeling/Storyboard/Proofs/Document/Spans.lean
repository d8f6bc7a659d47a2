import Storyboard.Proofs.Document.Endpoints
import Storyboard.Proofs.Document.Outcome

/-!
# Places that diagnostics point at

Every label of what parsing says points at a text of its own in the source: the text of a line without
white space at its ends, or that of a declaration (`spans_valid`).
-/

namespace Storyboard

open Text

/-- What stands in a source at a span. -/
def Span.slice (source : String) (span : Span) : String :=
  String.Pos.Raw.extract source ⟨span.start⟩ ⟨span.stop⟩

/-- The span lies in the source, begins and ends between characters, and holds a text that lies in
one line and has no white space at its ends. -/
structure Span.Valid (source : String) (span : Span) : Prop where
  some : span.start < span.stop
  inside : span.stop ≤ source.utf8ByteSize
  start : String.Pos.Raw.IsValid source ⟨span.start⟩
  stop : String.Pos.Raw.IsValid source ⟨span.stop⟩
  clean : Clean (span.slice source).toList

theorem Span.valid_of_occupies {source : String} {span : Span} {text : List Char}
    (h : Occupies source.toList text span.start span.stop) (clean : Clean text) :
    span.Valid source := by
  obtain ⟨inside, start, stop⟩ := h.valid
  have some : text ≠ [] := by
    obtain ⟨c, rest, rfl, _⟩ := clean.first
    exact List.cons_ne_nil c rest
  exact ⟨h.lt some, inside, start, stop, h.extract.symm ▸ clean⟩

namespace Document

theorem mentionsIn_places (l : Line) : mentionsIn l = (placesIn l).map Placed.value := by
  unfold mentionsIn placesIn
  cases header? l.trimmed <;> cases nodeLine? l.trimmed <;> cases edgeLine? l.trimmed <;> rfl

theorem placesIn_written {l : Line} {e : Placed Endpoint} (stands : e ∈ placesIn l) :
    ∃ text, Occupies l.trimmed text e.start e.stop ∧ e.value.Written text := by
  unfold placesIn at stands
  split at stands
  · cases stands
  · next noded =>
    obtain rfl := List.mem_singleton.mp stands
    exact nodeLine?_written noded
  · next edged =>
    obtain ⟨source, target⟩ := edgeLine?_written edged
    rcases List.mem_cons.mp stands with rfl | other
    · exact source
    · obtain rfl := List.mem_singleton.mp other
      exact target
  · cases stands

/-- The text of the span declares the id: it writes an endpoint of a line of the source, which has a
shape. -/
def Declares (source : String) (id : String) (span : Span) : Prop :=
  ∃ l ∈ linesOf source.toList, ∃ m ∈ mentionsIn l, m.id = id ∧ m.shape.isSome = true ∧
    m.Written (span.slice source).toList

variable {source : String} {span : Span}

theorem LineAt.valid (h : LineAt (linesOf source.toList) span) : span.Valid source := by
  obtain ⟨l, line, text, rfl⟩ := h
  exact Span.valid_of_occupies (Line.occupies_span line) (Line.trimmed_clean line text)

theorem DeclaredAt.valid {id : String} (h : DeclaredAt (linesOf source.toList) id span) :
    span.Valid source ∧ Declares source id span := by
  obtain ⟨l, line, e, stands, rfl, shaped, rfl⟩ := h
  obtain ⟨text, place, written⟩ := placesIn_written stands
  have placed := (Line.occupies_span line).trans place
  have feedless : '\n' ∉ text := fun feed =>
    Line.no_feed line ((occupies_trim l.text).mem (place.mem feed))
  refine ⟨Span.valid_of_occupies placed (written.clean shaped feedless), l, line, e.value, ?_, rfl,
    shaped, placed.extract.symm ▸ written⟩
  rw [mentionsIn_places]
  exact List.mem_map_of_mem stands

theorem Remark.valid {d : Diagnostic} (remark : Remark (linesOf source.toList) d) :
    (∀ label ∈ d.labels, label.span.Valid source) ∧
    (d.code = some .duplicateNode →
      ∃ id first span, d = (Fault.duplicateNode id first).located span ∧
        ∀ label ∈ d.labels, Declares source id label.span) := by
  cases remark with
  | header => exact ⟨List.forall_mem_nil _, fun code => nomatch code⟩
  | @line f span warns alone place =>
    have labels : (f.located span).labels = [⟨span, f.remark, true⟩] := by
      simp [Fault.located, Fault.worded, alone]
    rw [labels]
    refine ⟨List.forall_mem_singleton.mpr place.valid, fun code => ?_⟩
    cases f <;> cases code
    cases alone
  | @blocks kind first span before place =>
    refine ⟨?_, fun code => nomatch code⟩
    exact List.forall_mem_cons.mpr ⟨place.valid, List.forall_mem_singleton.mpr before.valid⟩
  | @nodes id first span before place =>
    obtain ⟨valid, declares⟩ := place.valid
    obtain ⟨firstValid, firstDeclares⟩ := before.valid
    refine ⟨?_, fun _ => ⟨id, first, span, rfl, ?_⟩⟩
    · exact List.forall_mem_cons.mpr ⟨valid, List.forall_mem_singleton.mpr firstValid⟩
    · exact List.forall_mem_cons.mpr ⟨declares, List.forall_mem_singleton.mpr firstDeclares⟩

section

variable {T G : Type}

/-- Everything that parsing says, whether or not there is a diagram. -/
def diagnosticsOf : Except ParseFailure (Parsed T G) → List Diagnostic
  | .ok parsed => parsed.warnings
  | .error failure => failure.diagnostics

variable [Scalar T] [Scalar G] [Narrow T G]

/-- Parsing makes remarks, and says besides only that there is nothing in the document. -/
theorem diagnosticsOf_remarks {d : Diagnostic}
    (said : d ∈ diagnosticsOf (parse (T := T) (G := G) source)) :
    Remark (linesOf source.toList) d ∨
      d = Fault.emptyDocument.anywhere ∨ d = Fault.noNodes.anywhere := by
  have text := saidOfText_remarks (G := G) source.toList d
  have blocks := saidOfBlocks_remarks (T := T) (G := G) source.toList d
  obtain ⟨_, result⟩ | ⟨_, _, result⟩ | ⟨_, _, result⟩ := parse_cases (T := T) (G := G) source
  all_goals rw [result] at said
  · exact .inr (.inl (List.mem_singleton.mp said))
  · simp only [diagnosticsOf, List.mem_append, List.mem_singleton] at said
    obtain (early | none) | late := said
    · exact .inl (text early)
    · exact .inr (.inr none)
    · exact .inl (blocks late)
  · exact .inl ((List.mem_append.mp said).elim text blocks)

variable (T G) in
/-- Whatever parsing says, each label points at a text in one line of the source, without white space
at its ends; and the labels of a diagnostic about a node that is declared twice point at declarations
of one id, from the id to the closing bracket. -/
theorem spans_valid (source : String) :
    ∀ d ∈ diagnosticsOf (parse (T := T) (G := G) source),
      (∀ label ∈ d.labels, label.span.Valid source) ∧
      (d.code = some .duplicateNode →
        ∃ id first span, d = (Fault.duplicateNode id first).located span ∧
          ∀ label ∈ d.labels, Declares source id label.span) := by
  intro d said
  obtain remark | rfl | rfl := diagnosticsOf_remarks said
  · exact remark.valid
  · exact ⟨List.forall_mem_nil _, fun code => nomatch code⟩
  · exact ⟨List.forall_mem_nil _, fun code => nomatch code⟩

/-- A node with a letter of two bytes in its id, declared twice in lines that end in two characters. -/
theorem spans_valid_wide :
    let source := "flowchart LR\r\n  ä[x]\r\nä([y]) --> b"
    ∃ d ∈ diagnosticsOf (parse (T := Rat) (G := Rat) source),
      d.labels.map (fun label => (label.span, label.span.slice source)) =
        [(⟨23, 30⟩, "ä([y])"), (⟨16, 21⟩, "ä[x]")] ∧
      (∀ label ∈ d.labels, label.span.Valid source) ∧
      ∃ id, ∀ label ∈ d.labels, Declares source id label.span := by
  intro source
  have found : (diagnosticsOf (parse (T := Rat) (G := Rat) source)).any (fun d =>
      d.code = some .duplicateNode ∧
      d.labels.map (fun label => (label.span, label.span.slice source)) =
        [(⟨23, 30⟩, "ä([y])"), (⟨16, 21⟩, "ä[x]")]) = true := by decide +kernel
  obtain ⟨d, said, facts⟩ := List.any_eq_true.mp found
  obtain ⟨code, labels⟩ := of_decide_eq_true facts
  obtain ⟨valid, declared⟩ := spans_valid Rat Rat source d said
  obtain ⟨id, _, _, _, declares⟩ := declared code
  exact ⟨d, said, labels, valid, id, declares⟩

end

end Document

end Storyboard
