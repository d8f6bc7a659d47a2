import Storyboard.Proofs.Document.Mentions
import Storyboard.Proofs.Document.Portions
import Storyboard.Proofs.OrderedMap

/-!
# Remarks

A remark is a warning about a document without a header, about one of its lines, about two markers of one
kind or about two declarations of one id. Each reader is shown to make nothing but remarks; a reader
that keeps a place in its state, to speak of it later, keeps the place of a line or of a declaration.
-/

namespace Storyboard

open Text

namespace Document

/-- The endpoints in a line of the body with their places, in the order of the text. -/
def placesIn (l : Line) : List (Placed Endpoint) :=
  match header? l.trimmed, nodeLine? l.trimmed, edgeLine? l.trimmed with
  | some _, _, _ => []
  | none, some node, _ => [node]
  | none, none, some edge => [edge.source, edge.target]
  | none, none, none => []

section

variable (lines : List Line)

/-- The span of one of the lines that are not blank. -/
def LineAt (span : Span) : Prop := ∃ l ∈ lines, l.isEmpty = false ∧ span = l.span

/-- The span of an endpoint in one of the lines that declares the id. -/
def DeclaredAt (id : String) (span : Span) : Prop :=
  ∃ l ∈ lines, ∃ e ∈ placesIn l, e.value.id = id ∧ e.value.shape.isSome = true ∧
    span = ⟨l.start + e.start, l.start + e.stop⟩

inductive Remark : Diagnostic → Prop where
  | header : Remark Fault.missingHeader.anywhere
  | line {f : Fault} {span : Span} (warns : f.severity = .warning) (alone : f.related = [])
      (place : LineAt lines span) : Remark (f.located span)
  | blocks {kind : BlockKind} {first span : Span} (before : LineAt lines first)
      (place : LineAt lines span) : Remark ((Fault.duplicateBlock kind first).located span)
  | nodes {id : String} {first span : Span} (before : DeclaredAt lines id first)
      (place : DeclaredAt lines id span) : Remark ((Fault.duplicateNode id first).located span)

def Remarks (ds : List Diagnostic) : Prop := ∀ d ∈ ds, Remark lines d

end

variable {lines : List Line}

theorem Remark.warns {d : Diagnostic} (remark : Remark lines d) : d.isError = false := by
  cases remark with
  | line warns => exact beq_false_of_ne (ne_of_eq_of_ne warns (by decide))
  | header | blocks | nodes => rfl

namespace Remarks

variable {ds es : List Diagnostic}

@[simp] theorem nil : Remarks lines [] := fun _ member => nomatch member

@[simp] theorem append_iff : Remarks lines (ds ++ es) ↔ Remarks lines ds ∧ Remarks lines es :=
  List.forall_mem_append

theorem append (first : Remarks lines ds) (second : Remarks lines es) : Remarks lines (ds ++ es) :=
  append_iff.mpr ⟨first, second⟩

@[simp] theorem cons_iff {d : Diagnostic} :
    Remarks lines (d :: ds) ↔ Remark lines d ∧ Remarks lines ds := List.forall_mem_cons

theorem single {d : Diagnostic} (remark : Remark lines d) : Remarks lines [d] :=
  cons_iff.mpr ⟨remark, nil⟩

theorem ite {c : Prop} [Decidable c] (yes : Remarks lines ds) : Remarks lines (if c then ds else []) := by
  split
  · exact yes
  · exact nil

theorem flatMap {α : Type} {xs : List α} {f : α → List Diagnostic}
    (each : ∀ x ∈ xs, Remarks lines (f x)) : Remarks lines (xs.flatMap f) := by
  intro d member
  obtain ⟨x, inside, said⟩ := List.mem_flatMap.mp member
  exact each x inside d said

end Remarks

/-! ### Scans -/

/-- A scan of lines that say something makes remarks if each step makes some; `P` is what the steps
know of the state. -/
theorem scan_remarks {σ : Type} {P : σ → Prop} {f : σ → Line → σ × List Diagnostic}
    (step : ∀ s l, P s → l ∈ lines → l.isEmpty = false → P (f s l).1 ∧ Remarks lines (f s l).2)
    {ls : List Line} (sub : ls ⊆ lines) {s : σ} (initial : P s) :
    P (scanMeaningful f s ls).1 ∧ Remarks lines (scanMeaningful f s ls).2 := by
  have some : ∀ l ∈ ls.filter Line.isMeaningful, l ∈ lines ∧ l.isEmpty = false := by
    intro l member
    obtain ⟨inside, speaks⟩ := List.mem_filter.mp member
    refine ⟨sub inside, ?_⟩
    simp only [Line.isMeaningful, Bool.and_eq_true, Bool.not_eq_true'] at speaks
    exact speaks.1
  unfold scanMeaningful
  generalize ls.filter Line.isMeaningful = ls at some
  clear sub
  induction ls generalizing s with
  | nil => exact ⟨initial, .nil⟩
  | cons l ls ih =>
    obtain ⟨member, text⟩ := some l List.mem_cons_self
    obtain ⟨next, said⟩ := step s l initial member text
    obtain ⟨last, later⟩ := ih next fun m inside => some m (List.mem_cons_of_mem _ inside)
    exact ⟨last, said.append later⟩

/-! ### Sections -/

/-- A line with a marker is not blank. -/
theorem marker_text {l : Line} {name : String} (marked : markerName? l = some name) :
    l.isEmpty = false := by
  unfold markerName? at marked
  split at marked
  · next trimmed => simp [Line.isEmpty, trimmed]
  · cases marked

/-- The lines of a portion that are used are lines of the document, its marker not a blank one. -/
def Portion.From (lines : List Line) : Portion → Prop
  | body l => l ∈ lines
  | stray l => LineAt lines l.span
  | block _ marker content _ => LineAt lines marker.span ∧ content ⊆ lines
  | unterminated _ marker _ => LineAt lines marker.span

theorem Divides.from {ls : List Line} {ps : List Portion} (d : Divides ls ps) (sub : ls ⊆ lines) :
    ∀ p ∈ ps, p.From lines := by
  have marker {l : Line} {name : String} (member : l ∈ lines) (marked : markerName? l = some name) :
      LineAt lines l.span := ⟨l, member, marker_text marked, rfl⟩
  induction d with
  | nil => exact fun _ member => nomatch member
  | body unmarked rest ih =>
    obtain ⟨first, later⟩ := List.cons_subset.mp sub
    exact List.forall_mem_cons.mpr ⟨first, ih later⟩
  | stray marked unknown rest ih =>
    obtain ⟨first, later⟩ := List.cons_subset.mp sub
    exact List.forall_mem_cons.mpr ⟨marker first marked, ih later⟩
  | block opens inside ends rest ih =>
    obtain ⟨first, later⟩ := List.cons_subset.mp sub
    obtain ⟨content, others⟩ := List.append_subset.mp later
    exact List.forall_mem_cons.mpr
      ⟨⟨marker first opens, content⟩, ih (List.cons_subset.mp others).2⟩
  | unterminated opens inside =>
    obtain ⟨first, _⟩ := List.cons_subset.mp sub
    exact List.forall_mem_singleton.mpr (marker first opens)

section

variable {ps before : List Portion}

theorem storedBlock?_from (all : ∀ p ∈ ps, p.From lines) {kind : BlockKind} {b : Block}
    (stored : storedBlock? kind ps = some b) : LineAt lines b.marker ∧ b.lines ⊆ lines := by
  obtain ⟨p, member, offered⟩ := List.exists_of_findSome?_eq_some stored
  have place := all p member
  cases p with
  | block own marker content ending =>
    simp only [Portion.block?, Option.ite_none_right_eq_some, Option.some.injEq] at offered
    obtain ⟨_, rfl⟩ := offered
    exact place
  | body | stray | unterminated => cases offered

theorem Portion.said_remarks {p : Portion} (all : ∀ p ∈ before, p.From lines) (place : p.From lines) :
    Remarks lines (p.said before) := by
  cases p with
  | body l => exact .nil
  | stray l =>
    cases marked : markerName? l with
    | none => simp [Portion.said, marked]
    | some name =>
      simp only [Portion.said, marked]
      refine .single (.line ?_ ?_ place) <;> split <;> rfl
  | block kind marker content ending =>
    cases stored : storedBlock? kind before with
    | none => simp [Portion.said, stored]
    | some first =>
      simp only [Portion.said, stored]
      exact .single (.blocks (storedBlock?_from all stored).1 place.1)
  | unterminated kind marker content => exact .single (.line rfl rfl place)

theorem saidOfPortions_remarks (all : ∀ p ∈ before ++ ps, p.From lines) :
    Remarks lines (saidOfPortions before ps) := by
  induction ps generalizing before with
  | nil => exact .nil
  | cons p ps ih =>
    obtain ⟨earlier, later⟩ := List.forall_mem_append.mp all
    refine (Portion.said_remarks earlier (later p List.mem_cons_self)).append (ih ?_)
    simpa using all

end

variable (lines)

theorem sectionsOf_remarks : Remarks lines (sectionsOf lines).2 := by
  obtain ⟨ps, divided⟩ := exists_divides lines
  rw [(sectionsOf_divided divided).2.2]
  exact saidOfPortions_remarks (divided.from (List.Subset.refl lines))

/-- The body of a document consists of lines of the document, in their order. -/
theorem sectionsOf_body : (sectionsOf lines).1.body.Sublist lines := by
  obtain ⟨ps, divided⟩ := exists_divides lines
  rw [(sectionsOf_divided divided).1, ← divided.lines]
  clear divided
  induction ps with
  | nil => exact .refl _
  | cons p ps ih =>
    cases p with
    | body l => exact ih.cons_cons l
    | stray | block | unterminated => exact ih.trans (List.sublist_append_right _ _)

theorem sectionsOf_lines (kind : BlockKind) : (sectionsOf lines).1.lines kind ⊆ lines := by
  obtain ⟨ps, divided⟩ := exists_divides lines
  unfold Sections.lines
  rw [(sectionsOf_divided divided).2.1]
  cases stored : storedBlock? kind ps with
  | none => exact List.nil_subset _
  | some b => exact (storedBlock?_from (divided.from (List.Subset.refl lines)) stored).2

variable {lines}

/-! ### The body -/

section

variable {G : Type}

/-- The flowchart knows where its nodes are declared. -/
def Flowchart.DeclaredIn (f : Flowchart G) (lines : List Line) : Prop :=
  ∀ d ∈ f.declared, DeclaredAt lines d.1.id d.2

namespace Flowchart.DeclaredIn

variable {f : Flowchart G} (h : f.DeclaredIn lines)
include h

theorem declare {l : Line} {e : Placed Endpoint} (member : l ∈ lines) (stands : e ∈ placesIn l) :
    (f.declare l e).1.DeclaredIn lines ∧ Remarks lines (f.declare l e).2 := by
  have place (shaped : e.value.shape.isSome = true) :
      DeclaredAt lines e.value.id ⟨l.start + e.start, l.start + e.stop⟩ :=
    ⟨l, member, e, stands, rfl, shaped, rfl⟩
  unfold Flowchart.declare
  dsimp only
  split
  · exact ⟨h, .nil⟩
  · split
    · exact ⟨h, .nil⟩
    · exact ⟨h, .nil⟩
  · next shape node first shaped found =>
    unfold declaration? at found
    have same := List.find?_some found
    have before := h _ (List.mem_of_find?_eq_some found)
    rw [eq_of_beq same] at before
    exact ⟨h, .single (.nodes before (place (by rw [shaped]; rfl)))⟩
  · next shape raw shaped absent =>
    refine ⟨List.forall_mem_append.mpr ⟨h, List.forall_mem_singleton.mpr ?_⟩, .nil⟩
    exact place (by rw [shaped]; rfl)

theorem step {l : Line} (member : l ∈ lines) (text : l.isEmpty = false) :
    (f.step l).1.DeclaredIn lines ∧ Remarks lines (f.step l).2 := by
  have place : LineAt lines l.span := ⟨l, member, text, rfl⟩
  cases headed : header? l.trimmed with
  | some name =>
    have same : f.step l = f.setDirection l name := by simp [Flowchart.step, headed]
    rw [same]
    unfold setDirection
    dsimp only
    split
    · exact ⟨h, .nil⟩
    · exact ⟨h, .single (.line rfl rfl place)⟩
  | none =>
    cases noded : nodeLine? l.trimmed with
    | some node =>
      have same : f.step l = f.declare l node := by simp [Flowchart.step, headed, noded]
      rw [same]
      exact h.declare member (by simp [placesIn, headed, noded])
    | none =>
      cases edged : edgeLine? l.trimmed with
      | some edge =>
        have same : f.step l = f.addEdge l edge := by simp [Flowchart.step, headed, noded, edged]
        have stand : placesIn l = [edge.source, edge.target] := by
          simp [placesIn, headed, noded, edged]
        obtain ⟨source, saidOfSource⟩ := h.declare member (e := edge.source) (by simp [stand])
        obtain ⟨target, saidOfTarget⟩ := source.declare member (e := edge.target) (by simp [stand])
        rw [same]
        exact ⟨target, saidOfSource.append saidOfTarget⟩
      | none =>
        have same : f.step l = (f, [Fault.unrecognizedBodyLine.located l.span]) := by
          simp [Flowchart.step, headed, noded, edged]
        rw [same]
        exact ⟨h, .single (.line rfl rfl place)⟩

end Flowchart.DeclaredIn

theorem flowchartOf_remarks {body : List Line} (sub : body ⊆ lines) :
    Remarks lines (flowchartOf (G := G) body).2 := by
  have initial : ({} : Flowchart G).DeclaredIn lines := fun _ member => nomatch member
  obtain ⟨_, said⟩ := scan_remarks (P := fun f => Flowchart.DeclaredIn f lines)
    (fun f l h => h.step) sub initial
  refine said.append ?_
  unfold Flowchart.missingHeader
  exact .ite (.single .header)

end

/-! ### Names that nothing has -/

section

variable {T G : Type}

theorem styleNodes_remarks {nodes : List (Node G)} {styles : List (String × NodeStyle G × Span)}
    (places : ∀ entry ∈ styles, LineAt lines entry.2.2) :
    Remarks lines (styleNodes nodes styles).2 := by
  induction styles generalizing nodes with
  | nil => exact .nil
  | cons entry rest ih =>
    obtain ⟨place, others⟩ := List.forall_mem_cons.mp places
    obtain ⟨id, style, span⟩ := entry
    unfold styleNodes
    split
    · exact ih others
    · exact Remarks.cons_iff.mpr ⟨.line rfl rfl place, ih others⟩

theorem checkTargets_remarks {d : Diagram T G} {s : PlacedStep T} (place : LineAt lines s.span) :
    Remarks lines (checkTargets d s) := by
  intro d member
  obtain ⟨_, _, rfl⟩ := List.mem_map.mp member
  exact .line rfl rfl place

end

/-! ### Narration and options -/

theorem captionsOf_remarks {ls : List Line} (sub : ls ⊆ lines) : Remarks lines (captionsOf ls).2 := by
  refine (scan_remarks (P := fun _ => True) (f := NarrationState.step)
    (fun s l _ member text => ⟨trivial, ?_⟩) sub trivial).2
  have place : LineAt lines l.span := ⟨l, member, text, rfl⟩
  unfold NarrationState.step
  dsimp only
  split
  · split
    · exact .nil
    · exact .single (.line rfl rfl place)
  · split
    · exact .nil
    · exact .single (.line rfl rfl place)
    · exact .single (.line rfl rfl place)

section

variable {T G : Type} [Scalar T]

theorem optionsOf_remarks {ls : List Line} (sub : ls ⊆ lines) :
    Remarks lines (optionsOf (T := T) ls).2 := by
  refine (scan_remarks (P := fun _ => True) (fun o l _ member text => ⟨trivial, ?_⟩) sub trivial).2
  have place : LineAt lines l.span := ⟨l, member, text, rfl⟩
  unfold setOption
  dsimp only
  split
  · exact .single (.line rfl rfl place)
  · split
    · exact .nil
    · exact .single (.line rfl rfl place)

/-! ### Animation -/

variable [Scalar G] [Narrow T G]

theorem checkProperties_remarks {s : PlacedStep T} (place : LineAt lines s.span) :
    Remarks lines (checkProperties G s) := by
  unfold checkProperties
  dsimp only
  refine (Remarks.flatMap fun key _ => .ite (.single (.line rfl rfl place))).append ?_
  split
  · exact .ite (.single (.line rfl rfl place))
  · exact .nil

/-- Each step, the open one included, has the place of its header. -/
structure AnimationState.PlacedIn (s : AnimationState T) (lines : List Line) : Prop where
  steps : ∀ step ∈ s.steps, LineAt lines step.span
  opened : ∀ step, s.opened = .step step → LineAt lines step.span

namespace AnimationState.PlacedIn

variable {s : AnimationState T} (h : s.PlacedIn lines)
include h

theorem finish : (s.finish G).1.PlacedIn lines ∧ Remarks lines (s.finish G).2 := by
  unfold AnimationState.finish
  split
  · next step opened =>
    have place := h.opened step opened
    refine ⟨⟨List.forall_mem_append.mpr ⟨h.steps, List.forall_mem_singleton.mpr place⟩, ?_⟩,
      checkProperties_remarks place⟩
    rintro _ ⟨⟩
  · refine ⟨⟨h.steps, ?_⟩, .nil⟩
    rintro _ ⟨⟩

omit [Scalar T] in
theorem start {l : Line} (place : LineAt lines l.span) :
    (s.start l).1.PlacedIn lines ∧ Remarks lines (s.start l).2 := by
  have refused : AnimationState.PlacedIn { s with opened := .refused } lines :=
    ⟨h.steps, fun _ opened => nomatch opened⟩
  unfold AnimationState.start
  split
  · exact ⟨refused, .single (.line rfl rfl place)⟩
  · split
    · exact ⟨refused, .single (.line rfl rfl place)⟩
    · refine ⟨⟨h.steps, ?_⟩, .nil⟩
      rintro _ ⟨⟩
      exact place

theorem property {l : Line} (place : LineAt lines l.span) :
    (s.property l).1.PlacedIn lines ∧ Remarks lines (s.property l).2 := by
  unfold AnimationState.property
  dsimp only
  split
  · next step _ _ opened =>
    refine ⟨⟨h.steps, ?_⟩, .nil⟩
    rintro _ ⟨⟩
    exact h.opened step opened
  · exact ⟨h, .nil⟩
  · exact ⟨h, .single (.line rfl rfl place)⟩
  · exact ⟨h, .single (.line rfl rfl place)⟩

theorem step {l : Line} (place : LineAt lines l.span) :
    (s.step G l).1.PlacedIn lines ∧ Remarks lines (s.step G l).2 := by
  unfold AnimationState.step
  dsimp only
  split
  · obtain ⟨finished, said⟩ := h.finish (G := G)
    obtain ⟨started, saidOfHeader⟩ := finished.start place
    exact ⟨started, said.append saidOfHeader⟩
  · exact h.property place

end AnimationState.PlacedIn

theorem stepsOf_remarks {ls : List Line} (sub : ls ⊆ lines) :
    (∀ s ∈ (stepsOf (T := T) G ls).1, LineAt lines s.span) ∧
      Remarks lines (stepsOf (T := T) G ls).2 := by
  have initial : ({} : AnimationState T).PlacedIn lines :=
    ⟨List.forall_mem_nil _, fun _ opened => nomatch opened⟩
  obtain ⟨scanned, said⟩ := scan_remarks (P := fun s => AnimationState.PlacedIn s lines)
    (f := AnimationState.step G) (fun s l h member text => h.step ⟨l, member, text, rfl⟩) sub initial
  obtain ⟨finished, saidAtEnd⟩ := scanned.finish (G := G)
  exact ⟨finished.steps, said.append saidAtEnd⟩

/-! ### Styles -/

theorem setStyle_remarks {style : NodeStyle G} {key value : List Char} {span : Span}
    (place : LineAt lines span) : Remarks lines (setStyle T style key value span).2 := by
  have color (value : List Char) (old : Option (Color G)) :
      Remarks lines (styleColor T value span old).2 := by
    unfold styleColor
    dsimp only
    split
    · exact .nil
    · exact .single (.line rfl rfl place)
  unfold setStyle
  dsimp only
  split
  · exact color _ style.fill
  · exact color _ style.stroke
  · exact color _ style.textColor
  all_goals exact .nil

/-- Each style has the place of the selector that first named its id. -/
def StylesPlaced (styles : Styles G) (lines : List Line) : Prop :=
  ∀ entry ∈ styles.entries, LineAt lines entry.2.2

variable {styles : Styles G} {key value : List Char} {span : Span}

theorem setFor_remarks (h : StylesPlaced styles lines) (place : LineAt lines span) (id : String) :
    StylesPlaced (StyleState.setFor T key value span styles id).1 lines ∧
      Remarks lines (StyleState.setFor T key value span styles id).2 := by
  unfold StyleState.setFor
  split
  · exact ⟨h, .nil⟩
  · next style first found =>
    have kept := h _ (OrderedMap.mem_of_get? found)
    exact ⟨OrderedMap.forall_insert (P := fun v : NodeStyle G × Span => LineAt lines v.2) h kept,
      setStyle_remarks place⟩

theorem setForAll_remarks (h : StylesPlaced styles lines) (place : LineAt lines span)
    (ids : List String) :
    StylesPlaced (StyleState.setForAll T key value span styles ids).1 lines ∧
      Remarks lines (StyleState.setForAll T key value span styles ids).2 := by
  induction ids generalizing styles with
  | nil => exact ⟨h, .nil⟩
  | cons id ids ih =>
    obtain ⟨next, said⟩ := setFor_remarks (T := T) h place id
    obtain ⟨last, later⟩ := ih next
    exact ⟨last, said.append later⟩

omit [Scalar G] in
theorem select_placed {s : StyleState G} (h : StylesPlaced s.styles lines) (place : LineAt lines span)
    (names : List Char) : StylesPlaced (s.select names span).styles lines := by
  unfold StyleState.select
  dsimp only
  generalize StyleState.selectedIds names = ids
  generalize s.styles = styles at h
  induction ids generalizing styles with
  | nil => exact h
  | cons id ids ih =>
    exact ih _ (OrderedMap.forall_insertNew (P := fun v : NodeStyle G × Span => LineAt lines v.2) h
      place)

theorem stylesOf_remarks {ls : List Line} (sub : ls ⊆ lines) :
    StylesPlaced (stylesOf (G := G) T ls).1 lines ∧ Remarks lines (stylesOf (G := G) T ls).2 := by
  have initial : StylesPlaced ({} : StyleState G).styles lines := fun _ member => nomatch member
  refine scan_remarks (P := fun s : StyleState G => StylesPlaced s.styles lines)
    (f := StyleState.step T) (fun s l h member text => ?_) sub initial
  have place : LineAt lines l.span := ⟨l, member, text, rfl⟩
  unfold StyleState.step
  dsimp only
  split
  · exact ⟨select_placed h place _, .nil⟩
  · split
    · exact setForAll_remarks h place _
    · exact ⟨h, .single (.line rfl rfl place)⟩

end

end Document

end Storyboard
