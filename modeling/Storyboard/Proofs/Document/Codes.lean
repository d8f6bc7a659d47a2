import Storyboard.Proofs.Document.Ids
import Storyboard.Proofs.Document.Outcome

/-!
# Codes of warnings

Every reader has codes of its own, which say what kinds of warnings it can make. So the warnings of one
code can be traced back to the readers that make them: of targets that name nothing only the check of
the targets speaks (`parse_unknownTargets`).
-/

namespace Storyboard

open Text

namespace Diagnostic

/-- Each of them has one of the codes. -/
def Coded (codes : List Code) (ds : List Diagnostic) : Prop := ∀ d ∈ ds, ∃ c ∈ codes, d.code = some c

/-- Those of a code, in their order. -/
def withCode (c : Code) (ds : List Diagnostic) : List Diagnostic :=
  ds.filter (fun d => d.code == some c)

theorem withCode_append (c : Code) (ds es : List Diagnostic) :
    withCode c (ds ++ es) = withCode c ds ++ withCode c es :=
  List.filter_append ds es

theorem mem_withCode {c : Code} {ds : List Diagnostic} {d : Diagnostic} :
    d ∈ withCode c ds ↔ d ∈ ds ∧ d.code = some c := by
  simp [withCode]

namespace Coded

variable {codes : List Code} {ds es : List Diagnostic}

theorem nil : Coded codes [] := fun _ member => nomatch member

theorem append (first : Coded codes ds) (second : Coded codes es) : Coded codes (ds ++ es) :=
  List.forall_mem_append.mpr ⟨first, second⟩

theorem single {d : Diagnostic} (allowed : d.code.any codes.contains = true) : Coded codes [d] := by
  refine List.forall_mem_singleton.mpr ?_
  cases code : d.code with
  | none => simp [code] at allowed
  | some c => exact ⟨c, by simpa [code] using allowed, rfl⟩

theorem mono {more : List Code} (coded : Coded codes ds) (sub : codes ⊆ more) : Coded more ds := by
  intro d member
  obtain ⟨c, allowed, code⟩ := coded d member
  exact ⟨c, sub allowed, code⟩

theorem flatMap {α : Type} {xs : List α} {f : α → List Diagnostic}
    (each : ∀ x ∈ xs, Coded codes (f x)) : Coded codes (xs.flatMap f) := by
  intro d member
  obtain ⟨x, inside, said⟩ := List.mem_flatMap.mp member
  exact each x inside d said

theorem ite {c : Prop} [Decidable c] (yes : Coded codes ds) :
    Coded codes (if c then ds else []) := by
  split
  · exact yes
  · exact nil

theorem withCode_of_not_mem {c : Code} (coded : Coded codes ds) (absent : c ∉ codes) :
    withCode c ds = [] := by
  refine List.filter_eq_nil_iff.mpr fun d member same => ?_
  obtain ⟨own, allowed, code⟩ := coded d member
  rw [code, beq_iff_eq, Option.some.injEq] at same
  exact absent (same ▸ allowed)

theorem withCode_self {c : Code} (coded : Coded [c] ds) : withCode c ds = ds := by
  refine List.filter_eq_self.mpr fun d member => ?_
  obtain ⟨own, allowed, code⟩ := coded d member
  rw [code, List.mem_singleton.mp allowed]
  exact beq_self_eq_true _

end Coded

end Diagnostic

open Diagnostic

namespace Document

/-! ### Scans -/

/-- What each step of a scan keeps of the state, and what it says, hold of the whole scan. -/
theorem scanMeaningful_keeps {σ : Type} {P : σ → Prop} {codes : List Code}
    {f : σ → Line → σ × List Diagnostic}
    (step : ∀ s l, P s → P (f s l).1 ∧ Coded codes (f s l).2) (ls : List Line) {s : σ}
    (initial : P s) :
    P (scanMeaningful f s ls).1 ∧ Coded codes (scanMeaningful f s ls).2 := by
  unfold scanMeaningful
  induction ls.filter Line.isMeaningful generalizing s with
  | nil => exact ⟨initial, .nil⟩
  | cons l ls ih =>
    obtain ⟨next, said⟩ := step s l initial
    obtain ⟨last, later⟩ := ih next
    exact ⟨last, said.append later⟩

theorem scanMeaningful_coded {σ : Type} {codes : List Code} {f : σ → Line → σ × List Diagnostic}
    (step : ∀ s l, Coded codes (f s l).2) (s : σ) (ls : List Line) :
    Coded codes (scanMeaningful f s ls).2 :=
  (scanMeaningful_keeps (P := fun _ => True) (fun s l _ => ⟨trivial, step s l⟩) ls trivial).2

/-- Where a line alone decides what is said of a code at it, a scan says it line by line. -/
theorem scan_withCode {σ : Type} {c : Code} {f : σ → Line → σ × List Diagnostic}
    {g : Line → List Diagnostic} (step : ∀ s l, withCode c (f s l).2 = g l) (ls : List Line) (s : σ) :
    withCode c (scan f s ls).2 = ls.flatMap g := by
  induction ls generalizing s with
  | nil => rfl
  | cons l ls ih =>
    show withCode c ((f s l).2 ++ (scan f (f s l).1 ls).2) = _
    rw [withCode_append, step, ih, List.flatMap_cons]

/-! ### Readers -/

theorem saidOfPortions_coded (before ps : List Portion) :
    Coded [.unterminatedBlock, .duplicateBlock, .unknownMarker] (saidOfPortions before ps) := by
  induction ps generalizing before with
  | nil => exact .nil
  | cons p ps ih =>
    refine Coded.append ?_ (ih _)
    cases p with
    | body l => exact .nil
    | stray l =>
      simp only [Portion.said]
      split
      · split <;> exact .single rfl
      · exact .nil
    | block kind marker content ending =>
      simp only [Portion.said]
      split
      · exact .single rfl
      · exact .nil
    | unterminated kind marker content => exact .single rfl

theorem sectionsOf_coded (lines : List Line) :
    Coded [.unterminatedBlock, .duplicateBlock, .unknownMarker] (sectionsOf lines).2 := by
  obtain ⟨ps, divided⟩ := exists_divides lines
  rw [(sectionsOf_divided divided).2.2]
  exact saidOfPortions_coded [] ps

section

variable {G : Type}

theorem Flowchart.declare_coded (f : Flowchart G) (l : Line) (e : Placed Endpoint) :
    Coded [.duplicateNode] (f.declare l e).2 := by
  unfold Flowchart.declare
  dsimp only
  split
  · exact .nil
  · split <;> exact .nil
  · exact .single rfl
  · exact .nil

theorem Flowchart.step_coded (f : Flowchart G) (l : Line) :
    Coded [.duplicateNode, .unrecognizedLine, .invalidDirection] (f.step l).2 := by
  have declared (f : Flowchart G) (e : Placed Endpoint) :
      Coded [.duplicateNode, .unrecognizedLine, .invalidDirection] (f.declare l e).2 :=
    (f.declare_coded l e).mono (by decide)
  unfold Flowchart.step
  dsimp only
  split
  · unfold setDirection
    dsimp only
    split
    · exact .nil
    · exact .single rfl
  · exact declared f _
  · exact (declared f _).append (declared _ _)
  · exact .single rfl

theorem flowchartOf_coded (body : List Line) :
    Coded [.duplicateNode, .unrecognizedLine, .invalidDirection] (flowchartOf (G := G) body).2 := by
  refine (scanMeaningful_coded Flowchart.step_coded _ _).append ?_
  exact .ite (.single rfl)

theorem styleNodes_coded (nodes : List (Node G)) (styles : List (String × NodeStyle G × Span)) :
    Coded [.unknownStyledNode] (styleNodes nodes styles).2 := by
  induction styles generalizing nodes with
  | nil => exact .nil
  | cons entry rest ih =>
    obtain ⟨id, style, span⟩ := entry
    unfold styleNodes
    split
    · exact ih _
    · exact (Coded.single rfl : Coded _ [_]).append (ih nodes)

theorem checkTargets_coded {T : Type} (d : Diagram T G) (s : PlacedStep T) :
    Coded [.unknownTarget] (checkTargets d s) := by
  intro w member
  obtain ⟨t, _, rfl⟩ := List.mem_map.mp member
  exact ⟨_, List.mem_cons_self, rfl⟩

theorem saidOfText_coded (source : List Char) :
    Coded [.unterminatedBlock, .duplicateBlock, .unknownMarker, .duplicateNode, .unrecognizedLine,
      .invalidDirection] (saidOfText G source) :=
  ((sectionsOf_coded _).mono (by decide)).append ((flowchartOf_coded _).mono (by decide))

end

theorem captionsOf_coded (lines : List Line) :
    Coded [.malformedHeader, .orphanProperty, .unrecognizedLine] (captionsOf lines).2 := by
  refine scanMeaningful_coded (f := NarrationState.step) (fun s l => ?_) _ _
  unfold NarrationState.step
  dsimp only
  split
  · split
    · exact .nil
    · exact .single rfl
  · split
    · exact .nil
    · exact .single rfl
    · exact .single rfl

section

variable {T G : Type} [Scalar T]

theorem optionsOf_coded (lines : List Line) :
    Coded [.unrecognizedLine, .invalidOption] (optionsOf (T := T) lines).2 := by
  refine scanMeaningful_coded (fun o l => ?_) _ _
  unfold setOption
  dsimp only
  split
  · exact .single rfl
  · split
    · exact .nil
    · exact .single rfl

variable [Scalar G] [Narrow T G]

theorem checkProperties_coded (s : PlacedStep T) :
    Coded [.invalidProperty, .invalidColor] (checkProperties G s) := by
  unfold checkProperties
  dsimp only
  refine Coded.append (.flatMap fun key _ => .ite (.single rfl)) ?_
  split
  · exact .ite (.single rfl)
  · exact .nil

/-- The codes of what is said of an animation block. -/
def animationCodes : List Code :=
  [.invalidProperty, .invalidColor, .malformedHeader, .unknownAction, .orphanProperty,
    .unrecognizedLine]

theorem AnimationState.finish_coded (s : AnimationState T) :
    Coded animationCodes (s.finish G).2 := by
  unfold AnimationState.finish
  split
  · exact (checkProperties_coded _).mono (by decide)
  · exact .nil

theorem AnimationState.step_coded (s : AnimationState T) (l : Line) :
    Coded animationCodes (s.step G l).2 := by
  unfold AnimationState.step
  dsimp only
  split
  · refine s.finish_coded.append ?_
    unfold AnimationState.start
    split
    · exact .single rfl
    · split
      · exact .single rfl
      · exact .nil
  · unfold AnimationState.property
    split
    · exact .nil
    · exact .nil
    · exact .single rfl
    · exact .single rfl

theorem stepsOf_coded (lines : List Line) :
    Coded animationCodes (stepsOf (T := T) G lines).2 :=
  (scanMeaningful_coded AnimationState.step_coded _ _).append (AnimationState.finish_coded _)

theorem setStyle_coded (style : NodeStyle G) (key value : List Char) (span : Span) :
    Coded [.invalidColor] (setStyle T style key value span).2 := by
  have color (value : List Char) (old : Option (Color G)) :
      Coded [.invalidColor] (styleColor T value span old).2 := by
    unfold styleColor
    dsimp only
    split
    · exact .nil
    · exact .single rfl
  unfold setStyle
  dsimp only
  split
  · exact color _ style.fill
  · exact color _ style.stroke
  · exact color _ style.textColor
  all_goals exact .nil

theorem setFor_coded (key value : List Char) (span : Span) (styles : Styles G) (id : String) :
    Coded [.invalidColor] (StyleState.setFor T key value span styles id).2 := by
  unfold StyleState.setFor
  split
  · exact .nil
  · exact setStyle_coded _ key value span

theorem setForAll_coded (key value : List Char) (span : Span) (styles : Styles G)
    (ids : List String) :
    Coded [.invalidColor] (StyleState.setForAll T key value span styles ids).2 := by
  induction ids generalizing styles with
  | nil => exact .nil
  | cons id ids ih => exact (setFor_coded key value span styles id).append (ih _)

theorem stylesOf_coded (lines : List Line) :
    Coded [.invalidColor, .unrecognizedLine] (stylesOf (G := G) T lines).2 := by
  refine scanMeaningful_coded (f := StyleState.step T) (fun s l => ?_) _ _
  unfold StyleState.step
  dsimp only
  split
  · exact .nil
  · split
    · exact (setForAll_coded _ _ _ _ _).mono (by decide)
    · exact .single rfl

/-! ### Documents -/

variable (T G) in
/-- The steps of a document with the places of their headers. -/
def placedSteps (source : String) : List (PlacedStep T) :=
  (stepsOf G ((sectionsOf (linesOf source.toList)).1.lines .animation)).1

theorem parse_warnings {source : String} {parsed : Parsed T G} (ok : parse source = .ok parsed) :
    parsed.warnings = saidOfText G source.toList ++ saidOfBlocks T G source.toList := by
  obtain ⟨_, failed⟩ | ⟨_, _, failed⟩ | ⟨_, _, result⟩ := parse_cases (T := T) (G := G) source
  · cases ok.symm.trans failed
  · cases ok.symm.trans failed
  · rw [Except.ok.inj (ok.symm.trans result)]

theorem parse_steps {source : String} {parsed : Parsed T G} (ok : parse source = .ok parsed) :
    parsed.diagram.steps = (placedSteps T G source).map PlacedStep.step := by
  rw [parse_eq_ok ok]
  simp only [placedSteps, read]

/-- The warnings of targets that name nothing are, step by step, those of the check of its targets. -/
theorem parse_unknownTargets {source : String} {parsed : Parsed T G}
    (ok : parse source = .ok parsed) : withCode .unknownTarget parsed.warnings =
      (placedSteps T G source).flatMap (checkTargets parsed.diagram) := by
  rw [parse_warnings ok, parse_eq_ok ok]
  have checked : Coded [.unknownTarget] ((placedSteps T G source).flatMap
      (checkTargets (read (T := T) (G := G) source.toList).1)) :=
    .flatMap fun s _ => checkTargets_coded _ s
  simp only [saidOfBlocks, withCode_append]
  rw [(saidOfText_coded _).withCode_of_not_mem (by decide),
    (stepsOf_coded _).withCode_of_not_mem (by decide),
    (stylesOf_coded _).withCode_of_not_mem (by decide),
    (captionsOf_coded _).withCode_of_not_mem (by decide),
    (optionsOf_coded _).withCode_of_not_mem (by decide),
    (styleNodes_coded _ _).withCode_of_not_mem (by decide)]
  simp only [List.nil_append]
  exact checked.withCode_self

end

end Document

end Storyboard
