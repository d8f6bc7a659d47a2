import Storyboard.Proofs.Document.Remarks

/-!
# Warnings

What is said of a document is said of its text (`saidOfText`) or of its blocks (`saidOfBlocks`), all
of it remarks and therefore warnings; the only error among it is that there is no node (`read_said`).
-/

namespace Storyboard

open Text

/-- None of them is an error. -/
def Diagnostic.Warnings (ds : List Diagnostic) : Prop := ∀ d ∈ ds, d.isError = false

theorem Diagnostic.Warnings.append {ds es : List Diagnostic} (first : Warnings ds)
    (second : Warnings es) : Warnings (ds ++ es) := List.forall_mem_append.mpr ⟨first, second⟩

open Diagnostic

namespace Document

@[simp] theorem Fault.anywhere_isError (f : Fault) :
    f.anywhere.isError = (f.severity == .error) := rfl

theorem Remarks.warns {lines : List Line} {ds : List Diagnostic} (remarks : Remarks lines ds) :
    Warnings ds := fun d member => (remarks d member).warns

variable {T G : Type}

variable (G) in
/-- What is said of the sections of a document and of its body. -/
def saidOfText (source : List Char) : List Diagnostic :=
  let (sections, said) := sectionsOf (linesOf source)
  said ++ (flowchartOf (G := G) sections.body).2

theorem saidOfText_remarks (source : List Char) :
    Remarks (linesOf source) (saidOfText G source) :=
  (sectionsOf_remarks _).append (flowchartOf_remarks (sectionsOf_body _).subset)

theorem saidOfText_warns (source : List Char) : Warnings (saidOfText G source) :=
  (saidOfText_remarks source).warns

variable [Scalar T] [Scalar G] [Narrow T G]

variable (T G) in
/-- What is said of the blocks of a document, and of names in them that nothing has. -/
def saidOfBlocks (source : List Char) : List Diagnostic :=
  let sections := (sectionsOf (linesOf source)).1
  let (steps, saidOfSteps) := stepsOf (T := T) G (sections.lines .animation)
  let (styles, saidOfStyles) := stylesOf (G := G) T (sections.lines .style)
  saidOfSteps ++ saidOfStyles ++ (captionsOf (sections.lines .narration)).2 ++
    (optionsOf (T := T) (sections.lines .config)).2 ++
    (styleNodes (flowchartOf sections.body).1.nodes styles.entries).2 ++
    steps.flatMap (checkTargets (read (T := T) (G := G) source).1)

theorem saidOfBlocks_remarks (source : List Char) :
    Remarks (linesOf source) (saidOfBlocks T G source) := by
  obtain ⟨steps, saidOfSteps⟩ :=
    stepsOf_remarks (T := T) (G := G) (sectionsOf_lines (linesOf source) .animation)
  obtain ⟨styles, saidOfStyles⟩ :=
    stylesOf_remarks (T := T) (G := G) (sectionsOf_lines (linesOf source) .style)
  exact ((((saidOfSteps.append saidOfStyles).append (captionsOf_remarks (sectionsOf_lines _ _))).append
    (optionsOf_remarks (sectionsOf_lines _ _))).append (styleNodes_remarks styles)).append
      (.flatMap fun s member => checkTargets_remarks (steps s member))

theorem saidOfBlocks_warns (source : List Char) : Warnings (saidOfBlocks T G source) :=
  (saidOfBlocks_remarks source).warns

theorem read_said (source : String) : (read (T := T) (G := G) source.toList).2 =
    saidOfText G source.toList ++
      (if mentionsOf source = [] then [Fault.noNodes.anywhere] else []) ++
      saidOfBlocks T G source.toList := by
  have none := (flowchartOf_notes (G := G)
    (sectionsOf (linesOf source.toList)).1.body).nodes_eq_nil_iff
  have empty : ((flowchartOf (G := G) (sectionsOf (linesOf source.toList)).1.body).1.nodes.isEmpty =
      true) ↔ mentionsOf source = [] := by rw [List.isEmpty_iff, none, mentionsOf]
  have said : (if (flowchartOf (G := G) (sectionsOf (linesOf source.toList)).1.body).1.nodes.isEmpty
      then [Fault.noNodes.anywhere] else []) =
      if mentionsOf source = [] then [Fault.noNodes.anywhere] else [] := by
    by_cases silent : mentionsOf source = []
    · rw [if_pos silent, if_pos (empty.mpr silent)]
    · rw [if_neg silent, if_neg fun e => silent (empty.mp e)]
  rw [← said]
  simp only [saidOfText, saidOfBlocks, read, List.append_assoc]

end Document

end Storyboard
