import Storyboard.Document.Parse
import Storyboard.Proofs.Document.Readings
import Storyboard.Proofs.OrderedMap

/-!
# Reading without places

What the readers of the body and of the blocks make of lines depends on the readings of the lines
alone, and what they say does so up to places. So texts whose sections read the same have the same
outcome (`parse_gist`).
-/

namespace Storyboard

open Text

namespace Document

/-! ### The body -/

namespace Flowchart

variable {G : Type}

def unplaced (f : Flowchart G) : Flowchart G :=
  { f with declared := f.declared.map fun d => (d.1, .nowhere) }

theorem unplaced_eq_iff {f g : Flowchart G} : f.unplaced = g.unplaced ↔
    f.direction = g.direction ∧ f.headerSeen = g.headerSeen ∧
      f.unplaced.declared = g.unplaced.declared ∧ f.undeclared = g.undeclared ∧
      f.edges = g.edges := by
  simp only [unplaced, mk.injEq]

@[simp] theorem declaration?_unplaced (f : Flowchart G) (id : String) :
    f.unplaced.declaration? id = (f.declaration? id).map fun d => (d.1, .nowhere) := by
  rw [declaration?, unplaced, List.find?_map]
  rfl

theorem declare_gist {f g : Flowchart G} (states : f.unplaced = g.unplaced) (l m : Line)
    (e : Placed Endpoint) : gist unplaced (f.declare l e) = gist unplaced (g.declare m e) := by
  have erased (f : Flowchart G) (l : Line) :
      gist unplaced (f.declare l e) = gist unplaced (f.unplaced.declare m e) := by
    simp only [declare, declaration?_unplaced]
    cases e.value.shape with
    | none =>
      cases f.declaration? e.value.id with
      | some => simp [gist, unplaced]
      | none => by_cases known : e.value.id ∈ f.undeclared <;> simp [gist, unplaced, known]
    | some => cases f.declaration? e.value.id <;> simp [gist, unplaced, Fault.unplaced]
  rw [erased f l, states, ← erased g m]

theorem addEdge_gist {f g : Flowchart G} (states : f.unplaced = g.unplaced) (l m : Line)
    (e : EdgeLine) : gist unplaced (f.addEdge l e) = gist unplaced (g.addEdge m e) := by
  obtain ⟨source, said⟩ := Prod.mk.inj (declare_gist states l m e.source)
  obtain ⟨target, later⟩ := Prod.mk.inj (declare_gist source l m e.target)
  obtain ⟨direction, header, declared, undeclared, edges⟩ := unplaced_eq_iff.mp target
  apply Prod.ext
  · simp only [gist, addEdge, edgeCount, edges, unplaced_eq_iff]
    exact ⟨direction, header, declared, undeclared, trivial⟩
  · simp only [gist, addEdge, List.map_append, said, later]

theorem setDirection_gist {f g : Flowchart G} (states : f.unplaced = g.unplaced) (l m : Line)
    (name : Option String) :
    gist unplaced (f.setDirection l name) = gist unplaced (g.setDirection m name) := by
  obtain ⟨_, _, declared, undeclared, edges⟩ := unplaced_eq_iff.mp states
  simp only [setDirection]
  cases name.bind Direction.ofName? with
  | some => exact Prod.ext (unplaced_eq_iff.mpr ⟨rfl, rfl, declared, undeclared, edges⟩) rfl
  | none =>
    refine Prod.ext (unplaced_eq_iff.mpr ⟨rfl, rfl, declared, undeclared, edges⟩) ?_
    simp [gist]

theorem step_blind : Blind unplaced (step (G := G)) := by
  intro f g l m states lines
  have text : l.trimmed = m.trimmed := congrArg Prod.fst lines
  unfold step
  dsimp only
  rw [text]
  split
  · exact setDirection_gist states l m _
  · exact declare_gist states l m _
  · exact addEdge_gist states l m _
  · simp [gist, states]

@[simp] theorem unplaced_nodes (f : Flowchart G) : f.unplaced.nodes = f.nodes := by
  simp [nodes, unplaced]

@[simp] theorem unplaced_missingHeader (f : Flowchart G) :
    f.unplaced.missingHeader = f.missingHeader := by
  simp [missingHeader, unplaced]

end Flowchart

theorem flowchartOf_gist {G : Type} {ls ms : List Line} (same : readings ls = readings ms) :
    gist Flowchart.unplaced (flowchartOf (G := G) ls) =
      gist Flowchart.unplaced (flowchartOf (G := G) ms) := by
  obtain ⟨last, said⟩ := Prod.mk.inj (scanMeaningful_gist Flowchart.step_blind ({} : Flowchart G) same)
  have headers := congrArg Flowchart.missingHeader last
  rw [Flowchart.unplaced_missingHeader, Flowchart.unplaced_missingHeader] at headers
  exact gist_append last said (congrArg _ headers)

/-! ### The animation block -/

section

variable {T G : Type} [Scalar T] [Scalar G] [Narrow T G]

def PlacedStep.unplaced (s : PlacedStep T) : PlacedStep T := { s with span := .nowhere }

def OpenStep.unplaced : OpenStep T → OpenStep T
  | nothing => nothing
  | refused => refused
  | step s => step s.unplaced

variable (G) in
theorem checkProperties_gist (step : Step T) (span other : Span) :
    (checkProperties G ⟨step, span⟩).map Diagnostic.unplaced =
      (checkProperties G ⟨step, other⟩).map Diagnostic.unplaced := by
  simp only [checkProperties, List.map_append, List.map_flatMap, Fault.ite_located_unplaced]
  cases step.properties.get? "color" with
  | none => rfl
  | some value => simp only [Fault.ite_located_unplaced]

namespace AnimationState

def unplaced (s : AnimationState T) : AnimationState T :=
  { steps := s.steps.map PlacedStep.unplaced, opened := s.opened.unplaced }

variable (G) in
theorem finish_gist {s t : AnimationState T} (states : s.unplaced = t.unplaced) :
    gist unplaced (s.finish G) = gist unplaced (t.finish G) := by
  have erased (s : AnimationState T) :
      gist unplaced (s.unplaced.finish G) = gist unplaced (s.finish G) := by
    obtain ⟨steps, opened⟩ := s
    cases opened with
    | nothing | refused => simp [finish, gist, unplaced, OpenStep.unplaced, PlacedStep.unplaced]
    | step s =>
      refine Prod.ext ?_ (checkProperties_gist G s.step _ _)
      simp [finish, gist, unplaced, OpenStep.unplaced, PlacedStep.unplaced]
  rw [← erased s, states, erased t]

omit [Scalar T] in
theorem start_blind : Blind unplaced (start (T := T)) := by
  refine .of_erased fun s l m lines => ?_
  have text : l.trimmed = m.trimmed := congrArg Prod.fst lines
  simp only [start, text]
  cases stepHeader? m.trimmed with
  | none => simp [gist, unplaced, OpenStep.unplaced, PlacedStep.unplaced]
  | some header =>
    cases known : Action.ofName? header.action <;>
      simp [known, gist, unplaced, OpenStep.unplaced, PlacedStep.unplaced]

theorem property_blind : Blind unplaced (property (T := T)) := by
  refine .of_erased fun s l m lines => ?_
  obtain ⟨text, indented⟩ := Prod.mk.inj lines
  obtain ⟨steps, opened⟩ := s
  simp only [property, text, indented]
  cases m.isIndented <;> cases splitProperty? m.trimmed <;> cases opened <;>
    simp [gist, unplaced, OpenStep.unplaced, PlacedStep.unplaced]

variable (G) in
theorem step_blind : Blind unplaced (step (T := T) G) := by
  intro s t l m states lines
  have text : l.trimmed = m.trimmed := congrArg Prod.fst lines
  unfold step
  rw [text]
  split
  · obtain ⟨finished, said⟩ := Prod.mk.inj (finish_gist G states)
    obtain ⟨started, later⟩ := Prod.mk.inj (start_blind _ _ l m finished lines)
    exact gist_append started said later
  · exact property_blind s t l m states lines

end AnimationState

variable (G) in
theorem stepsOf_gist {ls ms : List Line} (same : readings ls = readings ms) :
    gist (List.map PlacedStep.unplaced) (stepsOf (T := T) G ls) =
      gist (List.map PlacedStep.unplaced) (stepsOf (T := T) G ms) := by
  obtain ⟨last, said⟩ :=
    Prod.mk.inj (scanMeaningful_gist (AnimationState.step_blind G) ({} : AnimationState T) same)
  obtain ⟨finished, later⟩ := Prod.mk.inj (AnimationState.finish_gist G last)
  exact gist_append (congrArg AnimationState.steps finished) said later

/-! ### The style block -/

variable (T) in
theorem styleColor_gist (value : List Char) (span other : Span) (old : Option (Color G)) :
    gist id (styleColor T value span old) = gist id (styleColor T value other old) := by
  unfold styleColor
  dsimp only
  split <;> simp [gist]

variable (T) in
theorem setStyle_gist (style : NodeStyle G) (key value : List Char) (span other : Span) :
    gist id (setStyle T style key value span) = gist id (setStyle T style key value other) := by
  have color (old : Option (Color G)) :=
    Prod.mk.inj (styleColor_gist T (stripQuotes value) span other old)
  simp only [id] at color
  unfold setStyle
  dsimp only
  split
  · simp only [gist, color style.fill]
  · simp only [gist, color style.stroke]
  · simp only [gist, color style.textColor]
  all_goals rfl

/-- Styles without the places that first named them. -/
def unplacedStyles (styles : Styles G) : Styles G :=
  styles.mapValues fun v => (v.1, .nowhere)

namespace StyleState

def unplaced (s : StyleState G) : StyleState G := { s with styles := unplacedStyles s.styles }

variable (T) in
theorem setFor_gist {styles others : Styles G} (same : unplacedStyles styles = unplacedStyles others)
    (key value : List Char) (span other : Span) (id : String) :
    gist unplacedStyles (setFor T key value span styles id) =
      gist unplacedStyles (setFor T key value other others id) := by
  have found : ((styles.get? id).map fun v => (v.1, Span.nowhere)) =
      (others.get? id).map fun v => (v.1, Span.nowhere) := by
    simpa [unplacedStyles] using congrArg (·.get? id) same
  unfold setFor
  cases first : styles.get? id with
  | none =>
    rw [first, Option.map_none] at found
    rw [Option.map_eq_none_iff.mp found.symm]
    exact Prod.ext same rfl
  | some entry =>
    rw [first] at found
    obtain ⟨⟨style, place⟩, second, styled⟩ := Option.map_eq_some_iff.mp found.symm
    obtain ⟨rfl, _⟩ := Prod.mk.inj styled
    obtain ⟨set, said⟩ := Prod.mk.inj (setStyle_gist T entry.1 key value span other)
    rw [second]
    refine Prod.ext ?_ said
    simp only [gist, unplacedStyles, OrderedMap.mapValues_insert] at same ⊢
    rw [same]
    exact congrArg (fun style => OrderedMap.insert _ id (style, Span.nowhere)) set

variable (T) in
theorem setForAll_gist {styles others : Styles G}
    (same : unplacedStyles styles = unplacedStyles others) (key value : List Char)
    (span other : Span) (ids : List String) :
    gist unplacedStyles (setForAll T key value span styles ids) =
      gist unplacedStyles (setForAll T key value other others ids) := by
  induction ids generalizing styles others with
  | nil => exact Prod.ext same rfl
  | cons id ids ih =>
    obtain ⟨set, said⟩ := Prod.mk.inj (setFor_gist T same key value span other id)
    obtain ⟨all, later⟩ := Prod.mk.inj (ih set)
    exact gist_append all said later

omit [Scalar G] in
theorem select_unplaced {s t : StyleState G} (states : s.unplaced = t.unplaced) (names : List Char)
    (span other : Span) : (s.select names span).unplaced = (t.select names other).unplaced := by
  have chosen (ids : List String) (styles : Styles G) (span : Span) :
      unplacedStyles (ids.foldl (fun styles id => styles.insertNew id ({}, span)) styles) =
        ids.foldl (fun styles id => styles.insertNew id ({}, .nowhere)) (unplacedStyles styles) := by
    induction ids generalizing styles with
    | nil => rfl
    | cons id ids ih =>
      rw [List.foldl_cons, ih, unplacedStyles, OrderedMap.mapValues_insertNew]
      rfl
  have same : unplacedStyles s.styles = unplacedStyles t.styles :=
    congrArg StyleState.styles states
  simp only [unplaced, select, chosen, same]

variable (T) in
theorem step_blind : Blind unplaced (step (G := G) T) := by
  intro s t l m states lines
  obtain ⟨text, indented⟩ := Prod.mk.inj lines
  have same : unplacedStyles s.styles = unplacedStyles t.styles :=
    congrArg StyleState.styles states
  have selected : s.selected = t.selected := congrArg (·.selected) states
  unfold step selector?
  rw [text, indented]
  split
  · exact Prod.ext (select_unplaced states _ _ _) rfl
  · cases m.isIndented with
    | false => simp [gist, states]
    | true =>
      cases splitProperty? m.trimmed with
      | none => simp [gist, states]
      | some property =>
        obtain ⟨set, said⟩ := Prod.mk.inj
          (setForAll_gist T same property.1 property.2 l.span m.span s.selected)
        rw [← selected]
        exact Prod.ext (congrArg (StyleState.mk · s.selected) set) said

end StyleState

variable (T) in
theorem stylesOf_gist {ls ms : List Line} (same : readings ls = readings ms) :
    gist unplacedStyles (stylesOf (G := G) T ls) = gist unplacedStyles (stylesOf (G := G) T ms) := by
  obtain ⟨last, said⟩ :=
    Prod.mk.inj (scanMeaningful_gist (StyleState.step_blind T) ({} : StyleState G) same)
  exact Prod.ext (congrArg StyleState.styles last) said

/-! ### The other blocks -/

theorem captionsOf_gist {ls ms : List Line} (same : readings ls = readings ms) :
    gist id (captionsOf ls) = gist id (captionsOf ms) := by
  have blind : Blind id NarrationState.step := by
    rintro s t l m rfl lines
    have text : l.trimmed = m.trimmed := congrArg Prod.fst lines
    unfold NarrationState.step
    rw [text]
    split
    · cases takeStepLabel? m.trimmed <;> simp [gist]
    · cases splitProperty? m.trimmed <;> cases opened : s.opened <;> simp [gist, opened]
  obtain ⟨last, said⟩ := Prod.mk.inj (scanMeaningful_gist blind ({} : NarrationState) same)
  exact Prod.ext (congrArg (fun s : NarrationState => s.finish.captions) last) said

theorem optionsOf_gist {ls ms : List Line} (same : readings ls = readings ms) :
    gist id (optionsOf (T := T) ls) = gist id (optionsOf (T := T) ms) := by
  have blind : Blind id (setOption (T := T)) := by
    rintro o _ l m rfl lines
    have text : l.trimmed = m.trimmed := congrArg Prod.fst lines
    unfold setOption
    rw [text]
    cases splitProperty? m.trimmed with
    | none => simp [gist]
    | some property =>
      cases set : o.set (String.ofList property.1) (.ofText property.2) <;> simp [gist, set]
  exact scanMeaningful_gist blind {} same

/-! ### The document -/

omit [Scalar G] in
theorem styleNodes_gist {styles others : Styles G}
    (same : unplacedStyles styles = unplacedStyles others) (nodes : List (Node G)) :
    gist id (styleNodes nodes styles.entries) = gist id (styleNodes nodes others.entries) := by
  have erased (entries : List (String × NodeStyle G × Span)) (nodes : List (Node G)) :
      gist id (styleNodes nodes (entries.map fun e => (e.1, e.2.1, .nowhere))) =
        gist id (styleNodes nodes entries) := by
    induction entries generalizing nodes with
    | nil => rfl
    | cons e entries ih =>
      obtain ⟨id, style, span⟩ := e
      by_cases known : nodes.any (fun n => n.id == id)
      · simpa [styleNodes, known] using ih _
      · obtain ⟨styled, said⟩ := Prod.mk.inj (ih nodes)
        exact Prod.ext (by simpa [gist, styleNodes, known] using styled)
          (by simpa [gist, styleNodes, known] using said)
  rw [← erased styles.entries, ← erased others.entries]
  exact congrArg (fun styles => gist _ (styleNodes nodes (OrderedMap.entries styles))) same

omit [Scalar T] [Scalar G] [Narrow T G] in
theorem checkTargets_gist {steps others : List (PlacedStep T)}
    (same : steps.map PlacedStep.unplaced = others.map PlacedStep.unplaced) (d : Diagram T G) :
    (steps.flatMap (checkTargets d)).map Diagnostic.unplaced =
      (others.flatMap (checkTargets d)).map Diagnostic.unplaced := by
  have erased (steps : List (PlacedStep T)) :
      ((steps.map PlacedStep.unplaced).flatMap (checkTargets d)).map Diagnostic.unplaced =
        (steps.flatMap (checkTargets d)).map Diagnostic.unplaced := by
    simp [List.map_flatMap, List.flatMap_map, checkTargets, PlacedStep.unplaced, Function.comp_def]
  rw [← erased steps, same, erased others]

/-- Texts whose sections read the same describe the same, and the same is said of them. -/
theorem read_gist {source other : List Char}
    (same : gist Sections.readings (sectionsOf (linesOf source)) =
      gist Sections.readings (sectionsOf (linesOf other))) :
    gist id (read (T := T) (G := G) source) = gist id (read (T := T) (G := G) other) := by
  obtain ⟨sections, saidOfSections⟩ := Prod.mk.inj same
  obtain ⟨body, blocks⟩ := Prod.mk.inj sections
  obtain ⟨flowchart, saidOfBody⟩ := Prod.mk.inj (flowchartOf_gist (G := G) body)
  obtain ⟨direction, _, _, _, edges⟩ := Flowchart.unplaced_eq_iff.mp flowchart
  have nodes := congrArg Flowchart.nodes flowchart
  rw [Flowchart.unplaced_nodes, Flowchart.unplaced_nodes] at nodes
  obtain ⟨steps, saidOfSteps⟩ :=
    Prod.mk.inj (stepsOf_gist (T := T) G (congrFun blocks .animation))
  obtain ⟨styles, saidOfStyles⟩ :=
    Prod.mk.inj (stylesOf_gist (G := G) T (congrFun blocks .style))
  obtain ⟨captions, saidOfCaptions⟩ := Prod.mk.inj (captionsOf_gist (congrFun blocks .narration))
  obtain ⟨options, saidOfOptions⟩ :=
    Prod.mk.inj (optionsOf_gist (T := T) (congrFun blocks .config))
  obtain ⟨styled, saidOfStyled⟩ := Prod.mk.inj (styleNodes_gist styles
    (flowchartOf (G := G) (sectionsOf (linesOf other)).1.body).1.nodes)
  have plain : (stepsOf (T := T) G ((sectionsOf (linesOf source)).1.lines .animation)).1.map
        PlacedStep.step =
      (stepsOf (T := T) G ((sectionsOf (linesOf other)).1.lines .animation)).1.map
        PlacedStep.step := by
    simpa [PlacedStep.unplaced, Function.comp_def] using congrArg (List.map PlacedStep.step) steps
  have targets := checkTargets_gist (G := G) steps
  simp only [id] at captions options styled
  apply Prod.ext
  · simp only [gist, read, nodes, direction, edges, plain, captions, options, styled]
  · simp only [gist, read, List.map_append, nodes, direction, edges, plain, captions, options, styled,
      saidOfSections, saidOfBody, saidOfSteps, saidOfStyles, saidOfCaptions, saidOfOptions,
      saidOfStyled, targets]

/-- Two outcomes of parsing that are the same, but for the places in what is said. -/
inductive SameOutcome :
    Except ParseFailure (Parsed T G) → Except ParseFailure (Parsed T G) → Prop where
  | ok {p q : Parsed T G} (diagram : p.diagram = q.diagram)
      (warnings : p.warnings.map Diagnostic.unplaced = q.warnings.map Diagnostic.unplaced) :
      SameOutcome (.ok p) (.ok q)
  | error {f g : ParseFailure} (kind : f.kind = g.kind)
      (diagnostics : f.diagnostics.map Diagnostic.unplaced =
        g.diagnostics.map Diagnostic.unplaced) : SameOutcome (.error f) (.error g)

theorem kind_gist {ds es : List Diagnostic}
    (same : ds.map Diagnostic.unplaced = es.map Diagnostic.unplaced) :
    (⟨ds⟩ : ParseFailure).kind = (⟨es⟩ : ParseFailure).kind := by
  have erased (ds : List Diagnostic) :
      (⟨ds.map Diagnostic.unplaced⟩ : ParseFailure).kind = (⟨ds⟩ : ParseFailure).kind := by
    simp only [ParseFailure.kind, ParseFailure.errors, List.filter_map, List.findSome?_map]
    rfl
  rw [← erased ds, same, erased es]

theorem parse_gist {source other : String}
    (blank : source.toList.all isBlank = other.toList.all isBlank)
    (same : gist Sections.readings (sectionsOf (linesOf source.toList)) =
      gist Sections.readings (sectionsOf (linesOf other.toList))) :
    SameOutcome (parse source : Except ParseFailure (Parsed T G)) (parse other) := by
  have reads := read_gist (T := T) (G := G) same
  unfold parse
  dsimp only
  -- What has been read is long, and only its parts matter.
  generalize read (T := T) (G := G) source.toList = here at reads ⊢
  generalize read (T := T) (G := G) other.toList = there at reads ⊢
  obtain ⟨diagram, said⟩ := Prod.mk.inj reads
  have fails : here.2.any Diagnostic.isError = there.2.any Diagnostic.isError := by
    simpa [List.any_map, Function.comp_def] using congrArg (List.any · Diagnostic.isError) said
  rw [blank, fails]
  split
  · exact .error rfl rfl
  · split
    · exact .error (kind_gist said) said
    · exact .ok diagram said

end

end Document

end Storyboard
