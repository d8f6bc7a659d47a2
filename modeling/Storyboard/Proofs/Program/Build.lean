import Storyboard.Proofs.Document.Ids
import Storyboard.Proofs.Layout.Layered
import Storyboard.Session

/-!
# Building programs

What parses can be laid out, so a source gives no program only if it does not parse or a color of the
theme does not read.
-/

namespace Storyboard

variable {T G : Type} [Scalar T] [Scalar G] [Narrow T G]

/-- A parsed document is laid out, whatever the spacing. -/
theorem Document.layout_total_of_parse {source : String} {parsed : Document.Parsed T G}
    (ok : Document.parse source = .ok parsed) (spacing : Spacing G) :
    ∃ l, Layered.layout spacing parsed.diagram.direction parsed.diagram.nodes
        parsed.diagram.edges = .ok l ∧
      (∀ n ∈ parsed.diagram.nodes, (l.nodes.get? n.id).isSome = true) ∧
      ∀ e ∈ parsed.diagram.edges, ∃ p q, l.edges.get? e.id = some [p, q] := by
  obtain ⟨f, sound, edges, nodes⟩ := Document.parse_diagram ok
  have ends : ∀ e ∈ parsed.diagram.edges,
      e.source ∈ parsed.diagram.nodeIds ∧ e.target ∈ parsed.diagram.nodeIds := by
    rw [edges, nodes]
    exact sound.ends
  exact Layered.layout_total spacing _ ends

/-! ### Themes -/

variable (T) in
/-- Hexadecimal digits after a hash sign are read as bytes. -/
theorem Color.read_hex {text : String} {digits : List Char} {values : List Nat}
    {bytes : Components Nat} (written : Text.trim text.toList = '#' :: digits)
    (split : splitHex 8 digits = (values, [])) (whole : hexBytes? values = some bytes) :
    read T text = .ok (ofBytes bytes .function : Color G) := by
  simp only [read, StateT.run, written, takeHex, split, whole]

namespace ThemeSettings

/-- The colors of the theme, as they are written. -/
def colors (t : ThemeSettings G) : List String := [t.nodeFill, t.edgeStroke, t.highlightColor]

variable (T) in
theorem color_error_iff {key text : String} :
    (∃ e, (color T key text : Except ThemeError (Color G)) = .error e) ↔
      ∃ e, (Color.read T text : Except ColorError (Color G)) = .error e := by
  unfold color
  cases (Color.read T text : Except ColorError (Color G)) <;> simp [Except.mapError]

variable (T) in
/-- A theme cannot be used only if one of its colors does not read. -/
theorem compileOptions_error_iff (t : ThemeSettings G) :
    (∃ e, t.compileOptions T = .error e) ↔
      ∃ text ∈ t.colors, ∃ e, (Color.read T text : Except ColorError (Color G)) = .error e := by
  have refused : (∃ e, t.compileOptions T = .error e) ↔ (∃ e, t.readNodeFill T = .error e) ∨
      (∃ e, t.readEdgeStroke T = .error e) ∨ ∃ e, t.readHighlightColor T = .error e := by
    unfold compileOptions
    cases t.readNodeFill T <;> cases t.readEdgeStroke T <;> cases t.readHighlightColor T <;>
      simp [bind, Except.bind, pure, Except.pure]
  simp only [refused, readNodeFill, readEdgeStroke, readHighlightColor, color_error_iff, colors,
    List.mem_cons, List.not_mem_nil, or_false, exists_eq_or_imp, exists_eq_left]

/-- The standard theme can be used; it is what compiling falls back to. -/
theorem compileOptions_standard :
    (standard : ThemeSettings G).compileOptions T = .ok .standard := by
  have white : (Color.read T "#ffffff" : Except ColorError (Color G)) = .ok _ :=
    Color.read_hex T rfl rfl rfl
  have gray : (Color.read T "#555555" : Except ColorError (Color G)) = .ok _ :=
    Color.read_hex T rfl rfl rfl
  have gold : (Color.read T "#FFD700" : Except ColorError (Color G)) = .ok _ :=
    Color.read_hex T rfl rfl rfl
  simp only [compileOptions, readNodeFill, readEdgeStroke, readHighlightColor, color, standard,
    white, gray, gold]
  rfl

end ThemeSettings

/-! ### Programs -/

namespace Program

variable (s : Settings T G) (source : String)

theorem build_of_unparsed {failure : ParseFailure}
    (refused : (Document.parse source : Except ParseFailure (Document.Parsed T G)) =
      .error failure) : build s source = .error (.parse failure source) := by
  rw [build, Settings.parse, refused]
  rfl

theorem build_of_parsed {parsed : Document.Parsed T G}
    (ok : Document.parse source = .ok parsed) : ∃ l,
      Layered.layout s.layout parsed.diagram.direction parsed.diagram.nodes
        parsed.diagram.edges = .ok l ∧
      build s source = match s.theme.compileOptions T with
        | .ok o => .ok { diagram := parsed.diagram.placed l, layout := l
                         timeline := (parsed.diagram.placed l).compile o
                         warnings := parsed.warnings }
        | .error e => .error (.theme e) := by
  obtain ⟨l, placed, _⟩ := Document.layout_total_of_parse ok s.layout
  refine ⟨l, placed, ?_⟩
  rw [build, Settings.parse, ok]
  simp only [Except.mapError, Settings.layOut, placed, Settings.compile, bind, Except.bind]
  cases s.theme.compileOptions T <;> rfl

/-- The program of a parsed document, with the cues in the order in which they are made. -/
def draft (s : Settings T G) (o : CompileOptions G) (parsed : Document.Parsed T G) : Program T G :=
  let l := (Layered.layout s.layout parsed.diagram.direction parsed.diagram.nodes
    parsed.diagram.edges).toOption.getD ⟨{}, {}⟩
  let d := parsed.diagram.placed l
  let made := ((Diagram.groups d.steps).foldl (d.compileGroup o) { cursor := (0 : T) }).cues
  { diagram := d
    layout := l
    timeline := { d.compile o with cues := made }
    warnings := parsed.warnings }

/-- Where the cues are made in the order of their starts, the draft is what is built. -/
theorem build_eq_draft {parsed : Document.Parsed T G} {o : CompileOptions G}
    (ok : Document.parse source = .ok parsed) (themed : s.theme.compileOptions T = .ok o)
    (ordered : (draft s o parsed).timeline.cues.Pairwise fun a b => decide (a.start ≤ b.start) = true) :
    build s source = .ok (draft s o parsed) := by
  obtain ⟨l, laidOut, built⟩ := build_of_parsed s source ok
  have placed : (draft s o parsed).layout = l := by
    rw [draft, laidOut]
    rfl
  have compiled : (draft s o parsed).diagram.compile o = (draft s o parsed).timeline :=
    congrArg (fun cues => ({ (draft s o parsed).timeline with cues } : Timeline T G))
      (List.mergeSort_of_pairwise ordered)
  rw [built, themed, ← placed]
  exact congrArg (fun timeline => Except.ok { draft s o parsed with timeline }) compiled

/-- A source gives no program only if it does not parse or the theme cannot be used. -/
theorem build_error_iff : (∃ e, build s source = .error e) ↔
    (∃ failure, (Document.parse source : Except ParseFailure (Document.Parsed T G)) =
      .error failure) ∨ ∃ e, s.theme.compileOptions T = .error e := by
  cases read : (Document.parse source : Except ParseFailure (Document.Parsed T G)) with
  | error failure => simp [build_of_unparsed s source read]
  | ok parsed =>
    obtain ⟨l, _, built⟩ := build_of_parsed s source read
    rw [built]
    cases s.theme.compileOptions T <;> simp

/-- No source fails at its layout. -/
theorem build_ne_layout (e : LayoutError) : build s source ≠ .error (.layout e) := by
  intro failed
  cases read : (Document.parse source : Except ParseFailure (Document.Parsed T G)) with
  | error failure =>
    rw [build_of_unparsed s source read] at failed
    cases failed
  | ok parsed =>
    obtain ⟨l, _, built⟩ := build_of_parsed s source read
    rw [built] at failed
    cases options : s.theme.compileOptions T <;> rw [options] at failed <;> cases failed

end Program

end Storyboard
