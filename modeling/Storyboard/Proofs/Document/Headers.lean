import Storyboard.Proofs.Document.Codes
import Storyboard.Proofs.Document.Mentions
import Storyboard.Proofs.Document.Syntax

/-!
# Headers

Of all headers in a body the last one sets the direction, and every header without a known direction
is warned about at its line. A body without a header runs from left to right. That is warned about
where a node is declared with a shape, but not where edges alone bring the nodes about
(`parse_headers`).
-/

namespace Storyboard

open Text Diagnostic

namespace Document

/-- A header line of a body, and the name that it gives for a direction. -/
structure Heading where
  line : Line
  name : Option String
  deriving DecidableEq

namespace Heading

/-- The direction that a header names, if it is known. -/
def direction? (h : Heading) : Option Direction := h.name.bind Direction.ofName?

/-- What is said of a header without a known direction, with a label at its line. -/
def warning (h : Heading) : Diagnostic := (Fault.unknownDirection h.name).located h.line.span

/-- The direction that the last of some headers sets. -/
def direction (hs : List Heading) : Direction := (hs.getLast?.bind direction?).getD .leftRight

/-- What is said of some headers: one warning for each without a known direction. -/
def warnings (hs : List Heading) : List Diagnostic :=
  (hs.filter fun h => h.direction?.isNone).map warning

theorem direction_concat (hs : List Heading) (h : Heading) :
    direction (hs ++ [h]) = h.direction?.getD .leftRight := by
  rw [direction, List.getLast?_concat, Option.bind_some]

theorem warnings_flatMap {α : Type} (f : α → List Heading) (xs : List α) :
    xs.flatMap (fun x => warnings (f x)) = warnings (xs.flatMap f) := by
  simp only [warnings, List.filter_flatMap, List.map_flatMap]

end Heading

def Line.heading? (l : Line) : Option Heading := (header? l.trimmed).map (Heading.mk l)

/-- The headers in the body of a document, in the order of the text. -/
def headingsOf (source : String) : List Heading :=
  (sectionsOf (linesOf source.toList)).1.body.filterMap Line.heading?

/-! ### Lines -/

/-- A header is neither blank nor a remark. -/
theorem isMeaningful_of_heading {l : Line} (heading : l.heading?.isSome = true) :
    l.isMeaningful = true := by
  obtain ⟨name, header⟩ := Option.isSome_iff_exists.mp (Option.isSome_map ▸ heading)
  obtain ⟨word, rest, trimmed, words, _⟩ := header?_eq_some header
  rcases words with rfl | rfl <;>
    simp [Line.isMeaningful, Line.isEmpty, Line.isComment, trimmed, dropLeading?]

theorem filterMap_heading_meaningful (ls : List Line) :
    (ls.filter Line.isMeaningful).filterMap Line.heading? = ls.filterMap Line.heading? := by
  rw [List.filterMap_filter]
  refine List.filterMap_congr fun l _ => ?_
  cases heading : l.heading? with
  | none => simp
  | some h => rw [if_pos (isMeaningful_of_heading (by rw [heading]; rfl))]

/-! ### Flowcharts -/

section

variable {G : Type} {f : Flowchart G} {hs : List Heading}

/-- The flowchart has read the headers. -/
structure Flowchart.Headed (f : Flowchart G) (hs : List Heading) : Prop where
  direction : f.direction = Heading.direction hs
  seen : f.headerSeen = !hs.isEmpty

namespace Flowchart.Headed

theorem declare (h : f.Headed hs) (l : Line) (e : Placed Endpoint) :
    (f.declare l e).1.Headed hs := by
  unfold Flowchart.declare
  dsimp only
  split
  · exact h
  · split
    · exact h
    · exact ⟨h.direction, h.seen⟩
  · exact h
  · exact ⟨h.direction, h.seen⟩

theorem step (h : f.Headed hs) (l : Line) : (f.step l).1.Headed (hs ++ l.heading?.toList) := by
  unfold Flowchart.step Line.heading?
  dsimp only
  cases header? l.trimmed with
  | some name =>
    rw [Option.map_some, Option.toList_some]
    unfold setDirection
    dsimp only
    split <;> next known =>
      refine ⟨?_, by simp⟩
      rw [Heading.direction_concat, Heading.direction?, known]
      rfl
  | none =>
    rw [Option.map_none, Option.toList_none, List.append_nil]
    cases nodeLine? l.trimmed with
    | some node => exact h.declare l node
    | none =>
      cases edgeLine? l.trimmed with
      | some edge =>
        have both := (h.declare l edge.source).declare l edge.target
        exact ⟨both.direction, both.seen⟩
      | none => exact h

end Flowchart.Headed

theorem flowchartOf_headed (body : List Line) :
    (flowchartOf (G := G) body).1.Headed (body.filterMap Line.heading?) := by
  have scanned := scan_collects (P := Flowchart.Headed) (fun _ l _ headed => headed.step l)
    (body.filter Line.isMeaningful) (⟨rfl, rfl⟩ : ({} : Flowchart G).Headed [])
  rwa [List.nil_append, ← List.filterMap_eq_flatMap_toList, filterMap_heading_meaningful] at scanned

/-- Of directions a line is told nothing unless it is a header without a known one. -/
theorem Flowchart.step_withCode (f : Flowchart G) (l : Line) :
    withCode .invalidDirection (f.step l).2 = Heading.warnings l.heading?.toList := by
  have undirected (f : Flowchart G) (e : Placed Endpoint) :
      withCode .invalidDirection (f.declare l e).2 = [] :=
    (f.declare_coded l e).withCode_of_not_mem (by decide)
  unfold Flowchart.step Line.heading?
  dsimp only
  cases header? l.trimmed with
  | some name =>
    unfold setDirection
    dsimp only
    cases known : name.bind Direction.ofName? with
    | some direction => simp [Heading.warnings, Heading.direction?, known, withCode]
    | none =>
      simp only [Option.map_some, Option.toList_some, Heading.warnings, Heading.direction?, known,
        List.filter_cons, Option.isNone_none, if_true, List.filter_nil, List.map_singleton]
      rfl
  | none =>
    cases nodeLine? l.trimmed with
    | some node => exact undirected f node
    | none =>
      cases edgeLine? l.trimmed with
      | some edge =>
        show withCode _ ((f.declare l edge.source).2 ++ ((f.declare l edge.source).1.declare l
          edge.target).2) = []
        rw [withCode_append, undirected, undirected, List.append_nil]
      | none => rfl

theorem flowchartOf_withCode (body : List Line) :
    withCode .invalidDirection (flowchartOf (G := G) body).2 =
      Heading.warnings (body.filterMap Line.heading?) ++
        if body.filterMap Line.heading? = [] ∧ declaredIds (mentions body) ≠ [] then
          [Fault.missingHeader.anywhere] else [] := by
  have headed := flowchartOf_headed (G := G) body
  have noted := flowchartOf_notes (G := G) body
  have scanned : withCode .invalidDirection (scanMeaningful Flowchart.step ({} : Flowchart G) body).2 =
      Heading.warnings (body.filterMap Line.heading?) := by
    rw [scanMeaningful, scan_withCode Flowchart.step_withCode, Heading.warnings_flatMap,
      ← List.filterMap_eq_flatMap_toList, filterMap_heading_meaningful]
  have missing : (flowchartOf (G := G) body).1.missingHeader =
      if body.filterMap Line.heading? = [] ∧ declaredIds (mentions body) ≠ [] then
        [Fault.missingHeader.anywhere] else [] := by
    have bare : (flowchartOf (G := G) body).1.declared = [] ↔ declaredIds (mentions body) = [] := by
      rw [← noted.ids, List.map_eq_nil_iff]
    rw [Flowchart.missingHeader, headed.seen]
    refine if_congr ?_ rfl rfl
    simp [bare]
  show withCode _ ((scanMeaningful Flowchart.step ({} : Flowchart G) body).2 ++
    (flowchartOf (G := G) body).1.missingHeader) = _
  rw [withCode_append, scanned, missing]
  congr 1
  split <;> rfl

end

/-! ### Documents -/

section

variable {T G : Type} [Scalar T] [Scalar G] [Narrow T G] {source : String} {parsed : Parsed T G}

/-- Of directions only the body is told anything. -/
theorem parse_invalidDirections (ok : parse source = .ok parsed) :
    withCode .invalidDirection parsed.warnings =
      Heading.warnings (headingsOf source) ++
        if headingsOf source = [] ∧ declaredIds (mentionsOf source) ≠ [] then
          [Fault.missingHeader.anywhere] else [] := by
  rw [parse_warnings ok]
  simp only [saidOfText, saidOfBlocks, withCode_append]
  rw [(sectionsOf_coded _).withCode_of_not_mem (by decide),
    (stepsOf_coded _).withCode_of_not_mem (by decide),
    (stylesOf_coded _).withCode_of_not_mem (by decide),
    (captionsOf_coded _).withCode_of_not_mem (by decide),
    (optionsOf_coded _).withCode_of_not_mem (by decide),
    (styleNodes_coded _ _).withCode_of_not_mem (by decide),
    (Coded.flatMap fun s _ => checkTargets_coded _ s : Coded [.unknownTarget] _).withCode_of_not_mem
      (by decide), flowchartOf_withCode]
  simp only [List.nil_append, List.append_nil]
  rfl

theorem parse_direction (ok : parse source = .ok parsed) :
    parsed.diagram.direction = Heading.direction (headingsOf source) := by
  rw [parse_eq_ok ok]
  simp only [read]
  exact (flowchartOf_headed (G := G) _).direction

/-- Without a header the direction is from left to right, and the missing header is warned about
where a node is declared with a shape. Otherwise the last header sets the direction, from left to right
unless it names a known one, and each header without a known direction is warned about at its line. -/
theorem parse_headers (ok : parse source = .ok parsed) :
    (headingsOf source = [] → parsed.diagram.direction = .leftRight ∧
      withCode .invalidDirection parsed.warnings =
        if declaredIds (mentionsOf source) = [] then [] else [Fault.missingHeader.anywhere]) ∧
    ∀ hs last, headingsOf source = hs ++ [last] →
      parsed.diagram.direction = last.direction?.getD .leftRight ∧
      withCode .invalidDirection parsed.warnings =
        ((headingsOf source).filter fun h => h.direction?.isNone).map Heading.warning := by
  rw [parse_direction ok, parse_invalidDirections ok]
  refine ⟨fun none => ?_, fun hs last some => ?_⟩
  · rw [none]
    refine ⟨rfl, ?_⟩
    by_cases bare : declaredIds (mentionsOf source) = [] <;> simp [bare, Heading.warnings]
  · rw [some, Heading.direction_concat]
    simp [Heading.warnings]

end

/-- A first header with an unknown name, and a last one with a known name. -/
theorem parse_headers_twice : ∃ parsed : Parsed Rat Rat,
    parse "flowchart XY\nA[x]\ngraph TD" = .ok parsed ∧ parsed.diagram.direction = .topDown ∧
    withCode .invalidDirection parsed.warnings =
      [(Fault.unknownDirection (some "XY")).located ⟨0, 12⟩] := by
  obtain ⟨parsed, ok, facts⟩ := exists_parsed_of (T := Rat) (G := Rat)
    "flowchart XY\nA[x]\ngraph TD"
    (p := fun _ => headingsOf "flowchart XY\nA[x]\ngraph TD" =
      [⟨⟨"flowchart XY".toList, 0⟩, some "XY"⟩] ++ [⟨⟨"graph TD".toList, 18⟩, some "TD"⟩])
    (by decide +kernel)
  have headings := of_decide_eq_true facts
  obtain ⟨direction, warnings⟩ := (parse_headers ok).2 _ _ headings
  rw [headings] at warnings
  exact ⟨parsed, ok, direction, warnings⟩

/-- Edges alone bring the nodes about, and nothing is said of the header that is missing. -/
theorem parse_no_header_unsaid : ∃ parsed : Parsed Rat Rat,
    parse "A --> B" = .ok parsed ∧ headingsOf "A --> B" = [] ∧
    withCode .invalidDirection parsed.warnings = [] := by
  obtain ⟨parsed, ok, facts⟩ := exists_parsed_of (T := Rat) (G := Rat) "A --> B"
    (p := fun parsed => headingsOf "A --> B" = [] ∧
      withCode .invalidDirection parsed.warnings = []) (by decide +kernel)
  exact ⟨parsed, ok, of_decide_eq_true facts⟩

end Document

end Storyboard
