import Storyboard.Proofs.Document.Warnings

/-!
# What comes of parsing

A text parses unless it is blank or its body mentions no node; nothing else that stands in it can
prevent that. `parse_cases` says what each of the three kinds of text gives.
-/

namespace Storyboard

open Text Diagnostic

namespace Document

variable {T G : Type} [Scalar T] [Scalar G] [Narrow T G]

/-! ### Blank texts -/

theorem trimmed_of_blank {source : List Char} (blank : source.all isBlank = true) {l : Line}
    (line : l ∈ linesOf source) : l.trimmed = [] :=
  trim_eq_nil_iff.mpr fun c inside => List.all_eq_true.mp blank c (mem_of_mem_linesOf line inside)

theorem mentionsOf_of_blank {source : String} (blank : source.toList.all isBlank = true) :
    mentionsOf source = [] := by
  refine List.flatMap_eq_nil_iff.mpr fun l meaningful => ?_
  obtain ⟨member, speaks⟩ := List.mem_filter.mp meaningful
  have empty := trimmed_of_blank blank ((sectionsOf_body (linesOf source.toList)).subset member)
  simp [Line.isMeaningful, Line.isEmpty, empty] at speaks

/-! ### Outcomes -/

theorem parse_of_text {source : String} (text : source.toList.all isBlank = false) :
    (parse source : Except ParseFailure (Parsed T G)) =
      if (read (T := T) (G := G) source.toList).2.any Diagnostic.isError then
        .error ⟨(read (T := T) (G := G) source.toList).2⟩
      else .ok ⟨(read source.toList).1, (read (T := T) (G := G) source.toList).2⟩ := by
  unfold parse
  dsimp only
  rw [if_neg (by simp [text])]

/-- A blank text gives an error of its own; a text whose body mentions nothing gives one error and
all warnings; any other text gives a diagram and all warnings. -/
theorem parse_cases (source : String) :
    (source.toList.all isBlank = true ∧
      (parse source : Except ParseFailure (Parsed T G)) = .error ⟨[Fault.emptyDocument.anywhere]⟩) ∨
    (source.toList.all isBlank = false ∧ mentionsOf source = [] ∧
      (parse source : Except ParseFailure (Parsed T G)) = .error ⟨saidOfText G source.toList ++
        [Fault.noNodes.anywhere] ++ saidOfBlocks T G source.toList⟩) ∨
    (source.toList.all isBlank = false ∧ mentionsOf source ≠ [] ∧
      (parse source : Except ParseFailure (Parsed T G)) = .ok ⟨(read source.toList).1,
        saidOfText G source.toList ++ saidOfBlocks T G source.toList⟩) := by
  have said := read_said (T := T) (G := G) source
  cases blank : source.toList.all isBlank with
  | true => exact .inl ⟨rfl, by simp [parse, blank]⟩
  | false =>
    refine .inr ?_
    by_cases silent : mentionsOf source = []
    · rw [if_pos silent] at said
      refine .inl ⟨rfl, silent, ?_⟩
      have fails : (read (T := T) (G := G) source.toList).2.any Diagnostic.isError = true := by
        rw [said]
        simp [Fault.severity]
      rw [parse_of_text blank, if_pos fails, said]
    · rw [if_neg silent, List.append_nil] at said
      refine .inr ⟨rfl, silent, ?_⟩
      have fine : ¬(read (T := T) (G := G) source.toList).2.any Diagnostic.isError = true := by
        rw [said]
        have warnings : Warnings (saidOfText G source.toList ++ saidOfBlocks T G source.toList) :=
          (saidOfText_warns _).append (saidOfBlocks_warns _)
        rw [Bool.not_eq_true, List.any_eq_false]
        exact fun d member => by simp [warnings d member]
      rw [parse_of_text blank, if_neg fine, said]

theorem kind_emptyDocument : (⟨[Fault.emptyDocument.anywhere]⟩ : ParseFailure).kind = .grammar := rfl

section

variable {before after : List Diagnostic}

theorem errors_noNodes (first : Warnings before) (rest : Warnings after) :
    (⟨before ++ [Fault.noNodes.anywhere] ++ after⟩ : ParseFailure).errors =
      [Fault.noNodes.anywhere] := by
  have none {ds : List Diagnostic} (warnings : Warnings ds) : ds.filter Diagnostic.isError = [] :=
    List.filter_eq_nil_iff.mpr fun d member => by simp [warnings d member]
  rw [ParseFailure.errors, List.filter_append, List.filter_append, none first, none rest]
  rfl

theorem warnings_noNodes (first : Warnings before) (rest : Warnings after) :
    (before ++ [Fault.noNodes.anywhere] ++ after).filter (fun d => !d.isError) = before ++ after := by
  have all {ds : List Diagnostic} (warnings : Warnings ds) :
      ds.filter (fun d => !d.isError) = ds :=
    List.filter_eq_self.mpr fun d member => by simp [warnings d member]
  rw [List.filter_append, List.filter_append, all first, all rest]
  exact congrArg (· ++ after) (List.append_nil before)

theorem kind_noNodes (first : Warnings before) (rest : Warnings after) :
    (⟨before ++ [Fault.noNodes.anywhere] ++ after⟩ : ParseFailure).kind = .meaning := by
  rw [ParseFailure.kind, errors_noNodes first rest]
  rfl

end

variable (T G) (source : String)

theorem parse_ok_iff :
    (∃ parsed, parse (T := T) (G := G) source = .ok parsed) ↔ mentionsOf source ≠ [] := by
  obtain ⟨blank, failed⟩ | ⟨_, silent, failed⟩ | ⟨_, spoken, parsed⟩ :=
    parse_cases (T := T) (G := G) source
  · simp [failed, mentionsOf_of_blank blank]
  · simp [failed, silent]
  · simp [parsed, spoken]

theorem parse_grammar_iff :
    (∃ f, parse (T := T) (G := G) source = .error f ∧ f.kind = .grammar) ↔
      source.toList.all isBlank = true := by
  obtain ⟨blank, failed⟩ | ⟨text, _, failed⟩ | ⟨text, _, parsed⟩ :=
    parse_cases (T := T) (G := G) source
  · rw [failed, blank]
    exact iff_of_true ⟨_, rfl, kind_emptyDocument⟩ rfl
  · rw [failed, text]
    refine iff_of_false ?_ Bool.false_ne_true
    rintro ⟨f, ⟨⟩, kind⟩
    rw [kind_noNodes (saidOfText_warns _) (saidOfBlocks_warns _)] at kind
    cases kind
  · rw [parsed, text]
    refine iff_of_false ?_ Bool.false_ne_true
    rintro ⟨f, ⟨⟩, _⟩

theorem parse_meaning_iff :
    (∃ f, parse (T := T) (G := G) source = .error f ∧ f.kind = .meaning) ↔
      source.toList.all isBlank = false ∧ mentionsOf source = [] := by
  obtain ⟨blank, failed⟩ | ⟨text, silent, failed⟩ | ⟨_, spoken, parsed⟩ :=
    parse_cases (T := T) (G := G) source
  · rw [failed, blank]
    refine iff_of_false ?_ (fun text => Bool.noConfusion text.1)
    rintro ⟨f, ⟨⟩, kind⟩
    cases kind
  · rw [failed]
    exact iff_of_true ⟨_, rfl, kind_noNodes (saidOfText_warns _) (saidOfBlocks_warns _)⟩
      ⟨text, silent⟩
  · rw [parsed]
    refine iff_of_false ?_ fun text => spoken text.2
    rintro ⟨f, ⟨⟩, _⟩

/-- Only a blank text breaks the grammar, and of the others only one whose body mentions nothing
means nothing; that is then the one error beside all warnings. Every other text parses, with nothing
but warnings. So what the blocks hold is never the reason for a failure: texts whose bodies mention
the same parse alike. -/
theorem parse_permissive :
    ((∃ f, parse (T := T) (G := G) source = .error f ∧ f.kind = .grammar) ↔
      source.toList.all isBlank = true) ∧
    ((∃ f, parse (T := T) (G := G) source = .error f ∧ f.kind = .meaning) ↔
      source.toList.all isBlank = false ∧ mentionsOf source = []) ∧
    (∀ f, parse (T := T) (G := G) source = .error f → f.kind = .meaning →
      f.errors = [Fault.noNodes.anywhere] ∧ f.diagnostics.filter (fun d => !d.isError) =
        saidOfText G source.toList ++ saidOfBlocks T G source.toList) ∧
    (source.toList.all isBlank = false → mentionsOf source ≠ [] →
      ∃ parsed, parse (T := T) (G := G) source = .ok parsed ∧
        ∀ d ∈ parsed.warnings, d.severity = .warning) ∧
    (∀ other, mentionsOf other = mentionsOf source →
      ((∃ parsed, parse (T := T) (G := G) other = .ok parsed) ↔
        ∃ parsed, parse (T := T) (G := G) source = .ok parsed)) := by
  refine ⟨parse_grammar_iff T G source, parse_meaning_iff T G source, ?_, ?_, ?_⟩
  · intro f failed meaning
    obtain ⟨blank, result⟩ | ⟨_, _, result⟩ | ⟨_, _, result⟩ := parse_cases (T := T) (G := G) source
    · obtain rfl := Except.error.inj (failed.symm.trans result)
      cases meaning
    · obtain rfl := Except.error.inj (failed.symm.trans result)
      exact ⟨errors_noNodes (saidOfText_warns _) (saidOfBlocks_warns _),
        warnings_noNodes (saidOfText_warns _) (saidOfBlocks_warns _)⟩
    · cases failed.symm.trans result
  · intro text spoken
    obtain ⟨blank, _⟩ | ⟨_, silent, _⟩ | ⟨_, _, result⟩ := parse_cases (T := T) (G := G) source
    · cases text.symm.trans blank
    · exact absurd silent spoken
    · refine ⟨_, result, fun d member => ?_⟩
      have warning := (saidOfText_warns _).append (saidOfBlocks_warns _) d member
      cases severity : d.severity with
      | warning => rfl
      | error => simp [Diagnostic.isError, severity] at warning
  · intro other same
    rw [parse_ok_iff, parse_ok_iff, same]

end Document

end Storyboard
