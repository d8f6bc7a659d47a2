import Storyboard.Proofs.Document.Codes
import Storyboard.Proofs.Document.Placeless
import Storyboard.Proofs.Document.Spans

/-!
# Properties before the first entry

A property line that stands before the first entry of its block belongs to nothing: the diagram is the
same without it. In the animation and in the narration one warning points at it, in the style block
none does (`parse_orphans`).
-/

namespace Storyboard

open Text Diagnostic

namespace Document

namespace BlockKind

/-- Whether a line opens an entry in a block of the kind. -/
def opensEntry (kind : BlockKind) (l : Line) : Bool :=
  match kind with
  | animation | narration => looksLikeStep l.trimmed
  | style => (StyleState.selector? l).isSome
  | config => false

/-- What is said of a property before the first entry. -/
def orphanFault? : BlockKind → Option Fault
  | animation => some .orphanProperty
  | narration => some .orphanCaptionLine
  | style | config => none

end BlockKind

/-- The line is an indented property in a block of the kind, and no entry is opened up to it. -/
structure Orphan (kind : BlockKind) (before : List Line) (l : Line) : Prop where
  entries : kind ≠ .config
  indented : l.isIndented = true
  spoken : l.isComment = false
  property : (splitProperty? l.trimmed).isSome = true
  first : ∀ m ∈ before ++ [l], m.isMeaningful = true → kind.opensEntry m = false

namespace Orphan

variable {kind : BlockKind} {before : List Line} {l : Line} (h : Orphan kind before l)
include h

theorem isMeaningful : l.isMeaningful = true := by
  have some : l.trimmed ≠ [] := fun none => by
    have property := h.property
    rw [none] at property
    cases property
  simp [Line.isMeaningful, Line.isEmpty, some, h.spoken]

theorem plain : kind.opensEntry l = false :=
  h.first l (by simp) h.isMeaningful

end Orphan

/-! ### Readers before the first entry -/

section

variable {T G : Type} [Scalar T] [Scalar G] [Narrow T G] {l : Line}

theorem AnimationState.step_initial (plain : BlockKind.animation.opensEntry l = false) :
    step G ({} : AnimationState T) l =
      ({}, [(if l.isIndented ∧ (splitProperty? l.trimmed).isSome then Fault.orphanProperty
        else .unrecognizedLine .animation).located l.span]) := by
  have other : looksLikeStep l.trimmed = false := plain
  rw [step, other]
  cases indented : l.isIndented <;> cases split : splitProperty? l.trimmed <;>
    simp [property, indented, split]

theorem StyleState.step_initial (plain : BlockKind.style.opensEntry l = false) :
    step T ({} : StyleState G) l =
      ({}, if l.isIndented ∧ (splitProperty? l.trimmed).isSome then []
        else [(Fault.unrecognizedLine .style).located l.span]) := by
  have other : selector? l = none := Option.isSome_eq_false_iff.mp plain |> Option.isNone_iff_eq_none.mp
  rw [step, other]
  cases indented : l.isIndented <;> cases split : splitProperty? l.trimmed <;>
    simp [setForAll]

theorem NarrationState.step_initial (plain : BlockKind.narration.opensEntry l = false) :
    step {} l =
      ({}, [(if (splitProperty? l.trimmed).isSome then Fault.orphanCaptionLine
        else .unrecognizedLine .narration).located l.span]) := by
  have other : looksLikeStep l.trimmed = false := plain
  rw [step, other]
  cases split : splitProperty? l.trimmed <;> simp

end

/-- A reader that no line moves unless it opens an entry has not moved before an orphan, and an orphan
does not matter to it. -/
theorem Orphan.unmoved {σ : Type} {f : σ → Line → σ × List Diagnostic} {s : σ} {kind : BlockKind}
    {before : List Line} {l : Line} (orphan : Orphan kind before l)
    (moved : ∀ m, kind.opensEntry m = false → (f s m).1 = s) (after : List Line) :
    (scanMeaningful f s before).1 = s ∧
      (scanMeaningful f s (before ++ l :: after)).1 = (scanMeaningful f s (before ++ after)).1 := by
  have stays : (scanMeaningful f s before).1 = s := scanMeaningful_stays fun m member speaks =>
    moved m (orphan.first m (List.mem_append_left _ member) speaks)
  exact ⟨stays, scanMeaningful_skip (by rw [stays, moved l orphan.plain])⟩

/-! ### What is said at a line -/

/-- What is said of properties without an entry with a label at a place. -/
def orphansAt (span : Span) (ds : List Diagnostic) : List Diagnostic :=
  (withCode .orphanProperty ds).filter fun d => d.labels.any fun label => label.span = span

theorem orphansAt_append (span : Span) (ds es : List Diagnostic) :
    orphansAt span (ds ++ es) = orphansAt span ds ++ orphansAt span es := by
  rw [orphansAt, withCode_append, List.filter_append, ← orphansAt, ← orphansAt]

theorem orphansAt_of_coded {codes : List Code} {ds : List Diagnostic} (coded : Coded codes ds)
    (absent : Code.orphanProperty ∉ codes) (span : Span) : orphansAt span ds = [] := by
  rw [orphansAt, coded.withCode_of_not_mem absent, List.filter_nil]

/-- A step says of properties without an entry at most the fault, and with a label at its line only. -/
def SaysAt {σ : Type} (f : σ → Line → σ × List Diagnostic) (fault : Fault) : Prop :=
  fault.related = [] ∧ ∀ s l, withCode .orphanProperty (f s l).2 ⊆ [fault.located l.span]

section

variable {σ : Type} {f : σ → Line → σ × List Diagnostic} {fault : Fault} (h : SaysAt f fault)
include h

theorem SaysAt.elsewhere {ls : List Line} {span : Span} (apart : ∀ l ∈ ls, l.span ≠ span) (s : σ) :
    orphansAt span (scanMeaningful f s ls).2 = [] := by
  have some : ∀ l ∈ ls.filter Line.isMeaningful, l.span ≠ span := fun l member =>
    apart l (List.mem_filter.mp member).1
  unfold scanMeaningful
  generalize ls.filter Line.isMeaningful = ls at some ⊢
  induction ls generalizing s with
  | nil => rfl
  | cons l ls ih =>
    obtain ⟨here, later⟩ := List.forall_mem_cons.mp some
    show orphansAt span ((f s l).2 ++ (scan f (f s l).1 ls).2) = []
    rw [orphansAt_append, ih _ later, List.append_nil, orphansAt]
    refine List.filter_eq_nil_iff.mpr fun d member => ?_
    rw [List.mem_singleton.mp (h.2 s l member)]
    simpa [Fault.located, Fault.worded, h.1] using here

/-- Among the lines of a block only the line itself can be told something with a label at it. -/
theorem SaysAt.here {before after : List Line} {l : Line} (speaks : l.isMeaningful = true)
    (apart : ∀ m ∈ before ++ after, m.span ≠ l.span) {s : σ}
    (stays : (scanMeaningful f s before).1 = s) :
    orphansAt l.span (scanMeaningful f s (before ++ l :: after)).2 = orphansAt l.span (f s l).2 := by
  obtain ⟨early, late⟩ := List.forall_mem_append.mp apart
  have single : scanMeaningful f s (l :: after) =
      ((scanMeaningful f (f s l).1 after).1, (f s l).2 ++ (scanMeaningful f (f s l).1 after).2) := by
    rw [scanMeaningful, List.filter_cons_of_pos speaks]
    rfl
  rw [scanMeaningful_append, stays, single, orphansAt_append, orphansAt_append, h.elsewhere early,
    h.elsewhere late, List.nil_append, List.append_nil]

end

/-! ### Blocks -/

section

variable {T G : Type} [Scalar T] [Scalar G] [Narrow T G]

theorem AnimationState.finish_withCode (s : AnimationState T) :
    withCode .orphanProperty (s.finish G).2 = [] := by
  unfold finish
  split
  · exact (checkProperties_coded _).withCode_of_not_mem (by decide)
  · rfl

theorem AnimationState.saysAt : SaysAt (step (T := T) G) .orphanProperty := by
  refine ⟨rfl, fun s l => ?_⟩
  unfold step
  dsimp only
  split
  · rw [withCode_append, finish_withCode, List.nil_append]
    unfold start
    split
    · exact List.nil_subset _
    · split <;> exact List.nil_subset _
  · unfold property
    split
    · exact List.nil_subset _
    · exact List.nil_subset _
    · exact List.Subset.refl _
    · exact List.nil_subset _

theorem NarrationState.saysAt : SaysAt step .orphanCaptionLine := by
  refine ⟨rfl, fun s l => ?_⟩
  unfold step
  dsimp only
  split
  · split <;> exact List.nil_subset _
  · split
    · exact List.nil_subset _
    · exact List.Subset.refl _
    · exact List.nil_subset _

theorem stepsOf_orphansAt (lines : List Line) (span : Span) :
    orphansAt span (stepsOf (T := T) G lines).2 =
      orphansAt span (scanMeaningful (AnimationState.step G) ({} : AnimationState T) lines).2 := by
  show orphansAt span (_ ++ (AnimationState.finish G _).2) = _
  have finished (s : AnimationState T) : orphansAt span (s.finish G).2 = [] := by
    rw [orphansAt, AnimationState.finish_withCode, List.filter_nil]
  rw [orphansAt_append, finished, List.append_nil]
  rfl

variable {before : List Line} {l : Line}

theorem stepsOf_orphan (orphan : Orphan .animation before l) (after : List Line) :
    (stepsOf (T := T) G (before ++ l :: after)).1 = (stepsOf (T := T) G (before ++ after)).1 ∧
    ((∀ m ∈ before ++ after, m.span ≠ l.span) →
      orphansAt l.span (stepsOf (T := T) G (before ++ l :: after)).2 =
        [Fault.orphanProperty.located l.span]) := by
  obtain ⟨stays, skipped⟩ := orphan.unmoved (f := AnimationState.step (T := T) G) (s := {})
    (fun m plain => by rw [AnimationState.step_initial plain]) after
  have here := AnimationState.step_initial (T := T) (G := G) orphan.plain
  rw [if_pos ⟨orphan.indented, orphan.property⟩] at here
  refine ⟨congrArg (fun s : AnimationState T => (s.finish G).1.steps) skipped, fun apart => ?_⟩
  rw [stepsOf_orphansAt, AnimationState.saysAt.here orphan.isMeaningful apart stays, here]
  simp [orphansAt, withCode, Fault.located, Fault.worded, Fault.code]

theorem captionsOf_orphan (orphan : Orphan .narration before l) (after : List Line) :
    (captionsOf (before ++ l :: after)).1 = (captionsOf (before ++ after)).1 ∧
    ((∀ m ∈ before ++ after, m.span ≠ l.span) →
      orphansAt l.span (captionsOf (before ++ l :: after)).2 =
        [Fault.orphanCaptionLine.located l.span]) := by
  obtain ⟨stays, skipped⟩ := orphan.unmoved (f := NarrationState.step) (s := {})
    (fun m plain => by rw [NarrationState.step_initial plain]) after
  have here := NarrationState.step_initial orphan.plain
  rw [if_pos orphan.property] at here
  refine ⟨congrArg (fun s : NarrationState => s.finish.captions) skipped, fun apart => ?_⟩
  show orphansAt l.span (scanMeaningful NarrationState.step {} (before ++ l :: after)).2 = _
  rw [NarrationState.saysAt.here orphan.isMeaningful apart stays, here]
  simp [orphansAt, withCode, Fault.located, Fault.worded, Fault.code]

theorem stylesOf_orphan (orphan : Orphan .style before l) (after : List Line) :
    (stylesOf (G := G) T (before ++ l :: after)).1 = (stylesOf (G := G) T (before ++ after)).1 := by
  obtain ⟨_, skipped⟩ := orphan.unmoved (f := StyleState.step (G := G) T) (s := {})
    (fun m plain => by rw [StyleState.step_initial plain]) after
  exact congrArg StyleState.styles skipped

end

/-! ### Sections -/

/-- The sections `t` are those of `s` without one line of a block. -/
structure Sections.Without (s t : Sections) (kind : BlockKind) (before : List Line) (l : Line)
    (after : List Line) : Prop where
  body : t.body = s.body
  others : ∀ other, other ≠ kind → t.lines other = s.lines other
  full : s.lines kind = before ++ l :: after
  rest : t.lines kind = before ++ after

/-- Lines may be left out of a block. -/
theorem Divides.with_content {ls : List Line} {ps qs : List Portion} {kind : BlockKind}
    {marker ending : Line} {content others : List Line}
    (d : Divides ls (ps ++ .block kind marker content ending :: qs))
    (fewer : others ⊆ content) :
    Divides ((ps ++ .block kind marker others ending :: qs).flatMap Portion.lines)
      (ps ++ .block kind marker others ending :: qs) := by
  induction ps generalizing ls with
  | nil =>
    cases d with
    | block opens inside ends rest =>
      simp only [List.nil_append, List.flatMap_cons, Portion.lines, List.append_assoc, List.cons_append,
        rest.lines]
      exact .block opens (fun l member => inside l (fewer member)) ends rest
  | cons p ps ih =>
    rw [List.cons_append] at d
    generalize tail : ps ++ .block kind marker content ending :: qs = later at d ih
    cases d with
    | body unmarked rest => exact .body unmarked (ih rest)
    | stray marked unknown rest => exact .stray marked unknown (ih rest)
    | block opens own ends rest =>
      simp only [List.cons_append, List.flatMap_cons, Portion.lines, List.append_assoc,
        List.nil_append]
      exact .block opens own ends (ih rest)
    | unterminated => simp at tail

theorem Divides.without {ls : List Line} {ps qs : List Portion} {kind : BlockKind}
    {marker ending l : Line} {before after : List Line}
    (d : Divides ls (ps ++ .block kind marker (before ++ l :: after) ending :: qs))
    (stored : storedBlock? kind ps = none) :
    (sectionsOf ls).1.Without
      (sectionsOf ((ps ++ .block kind marker (before ++ after) ending :: qs).flatMap
        Portion.lines)).1 kind before l after := by
  have fewer : before ++ after ⊆ before ++ l :: after :=
    ((List.sublist_cons_self l after).append_left before).subset
  have e := d.with_content fewer
  obtain ⟨body, blocks, _⟩ := sectionsOf_divided d
  obtain ⟨body', blocks', _⟩ := sectionsOf_divided e
  have first (content : List Line) :
      storedBlock? kind (ps ++ .block kind marker content ending :: qs) =
        some ⟨marker.span, content⟩ := by
    rw [storedBlock?, List.findSome?_append, ← storedBlock?, stored]
    simp [Portion.block?]
  have skipped (content : List Line) {other : BlockKind} (apart : other ≠ kind) :
      storedBlock? other (ps ++ .block kind marker content ending :: qs) =
        storedBlock? other (ps ++ qs) := by
    simp [storedBlock?, List.findSome?_append, Portion.block?, apart.symm]
  refine ⟨?_, fun other apart => ?_, ?_, ?_⟩
  · rw [body, body', List.filterMap_append, List.filterMap_append]
    rfl
  · rw [Sections.lines, Sections.lines, blocks, blocks', skipped _ apart, skipped _ apart]
  · rw [Sections.lines, blocks, first]
    rfl
  · rw [Sections.lines, blocks', first]
    rfl

/-- No other line of the document stands where a line of the block stands. -/
theorem Divides.apart {source : List Char} {ps qs : List Portion} {kind : BlockKind}
    {marker ending l : Line} {before after : List Line}
    (d : Divides (linesOf source) (ps ++ .block kind marker (before ++ l :: after) ending :: qs)) :
    ∀ m ∈ (ps ++ .block kind marker (before ++ after) ending :: qs).flatMap Portion.lines,
      m.span ≠ l.span := by
  have distinct := spans_linesOf source
  have whole : linesOf source = (ps.flatMap Portion.lines ++ marker :: before) ++
      l :: (after ++ ending :: qs.flatMap Portion.lines) := by
    rw [← d.lines]
    simp [Portion.lines]
  rw [whole, List.pairwise_append, List.pairwise_cons] at distinct
  obtain ⟨_, ⟨later, _⟩, earlier⟩ := distinct
  intro m member
  have either : m ∈ ps.flatMap Portion.lines ++ marker :: before ∨
      m ∈ after ++ ending :: qs.flatMap Portion.lines := by
    simp only [List.flatMap_append, List.flatMap_cons, Portion.lines, List.mem_append, List.mem_cons,
      List.not_mem_nil, or_false] at member ⊢
    tauto
  rcases either with before | after
  · exact earlier m before l List.mem_cons_self
  · exact (later m after).symm

/-! ### Documents -/

section

variable {T G : Type} [Scalar T] [Scalar G] [Narrow T G]

theorem mentions_silent {ls ms : List Line} (same : readings ls = readings ms) :
    mentions ls = [] ↔ mentions ms = [] := by
  obtain ⟨flowchart, _⟩ := Prod.mk.inj (flowchartOf_gist (G := Unit) same)
  have nodes := congrArg Flowchart.nodes flowchart
  rw [Flowchart.unplaced_nodes, Flowchart.unplaced_nodes] at nodes
  rw [← (flowchartOf_notes (G := Unit) ls).nodes_eq_nil_iff, nodes,
    (flowchartOf_notes (G := Unit) ms).nodes_eq_nil_iff]

/-- The diagram of a text depends on the readings of its body and on what its blocks say. -/
theorem read_diagram {source other : List Char} {s t : Sections}
    (first : (sectionsOf (linesOf source)).1 = s) (second : (sectionsOf (linesOf other)).1 = t)
    (body : readings s.body = readings t.body)
    (steps : (stepsOf (T := T) G (s.lines .animation)).1.map PlacedStep.unplaced =
      (stepsOf (T := T) G (t.lines .animation)).1.map PlacedStep.unplaced)
    (styles : unplacedStyles (stylesOf (G := G) T (s.lines .style)).1 =
      unplacedStyles (stylesOf (G := G) T (t.lines .style)).1)
    (captions : (captionsOf (s.lines .narration)).1 = (captionsOf (t.lines .narration)).1)
    (options : (optionsOf (T := T) (s.lines .config)).1 = (optionsOf (t.lines .config)).1) :
    (read (T := T) (G := G) source).1 = (read (T := T) (G := G) other).1 := by
  subst first second
  obtain ⟨flowchart, _⟩ := Prod.mk.inj (flowchartOf_gist (G := G) body)
  obtain ⟨direction, _, _, _, edges⟩ := Flowchart.unplaced_eq_iff.mp flowchart
  have nodes := congrArg Flowchart.nodes flowchart
  rw [Flowchart.unplaced_nodes, Flowchart.unplaced_nodes] at nodes
  obtain ⟨styled, _⟩ := Prod.mk.inj (styleNodes_gist styles
    (flowchartOf (G := G) (sectionsOf (linesOf other)).1.body).1.nodes)
  have plain := congrArg (List.map PlacedStep.step) steps
  simp only [List.map_map, Function.comp_def, PlacedStep.unplaced] at plain
  simp only [id] at styled
  simp only [read, nodes, direction, edges, plain, captions, options, styled]

theorem parse_toOption_diagram (source : String) :
    (parse (T := T) (G := G) source).toOption.map Parsed.diagram =
      if mentionsOf source = [] then none else some (read source.toList).1 := by
  obtain ⟨blank, result⟩ | ⟨_, silent, result⟩ | ⟨_, spoken, result⟩ :=
    parse_cases (T := T) (G := G) source
  · rw [result, if_pos (mentionsOf_of_blank blank)]
    rfl
  · rw [result, if_pos silent]
    rfl
  · rw [result, if_neg spoken, Except.toOption, Option.map_some]

/-- Of properties without an entry only the animation and the narration are told anything. -/
theorem parse_orphansAt {source : String} (text : source.toList.all isBlank = false) (span : Span) :
    orphansAt span (diagnosticsOf (parse (T := T) (G := G) source)) =
      orphansAt span
        (stepsOf (T := T) G ((sectionsOf (linesOf source.toList)).1.lines .animation)).2 ++
      orphansAt span (captionsOf ((sectionsOf (linesOf source.toList)).1.lines .narration)).2 := by
  have blocks : orphansAt span (saidOfText G source.toList ++ saidOfBlocks T G source.toList) =
      orphansAt span
        (stepsOf (T := T) G ((sectionsOf (linesOf source.toList)).1.lines .animation)).2 ++
      orphansAt span (captionsOf ((sectionsOf (linesOf source.toList)).1.lines .narration)).2 := by
    simp only [saidOfBlocks, orphansAt_append]
    rw [orphansAt_of_coded (saidOfText_coded _) (by decide),
      orphansAt_of_coded (stylesOf_coded _) (by decide),
      orphansAt_of_coded (optionsOf_coded _) (by decide),
      orphansAt_of_coded (styleNodes_coded _ _) (by decide),
      orphansAt_of_coded (.flatMap fun s _ => checkTargets_coded _ s : Coded [.unknownTarget] _)
        (by decide)]
    simp only [List.nil_append, List.append_nil]
  obtain ⟨blank, _⟩ | ⟨_, _, result⟩ | ⟨_, _, result⟩ := parse_cases (T := T) (G := G) source
  · cases text.symm.trans blank
  · have none : orphansAt span [Fault.noNodes.anywhere] = [] := rfl
    rw [result, ← blocks, diagnosticsOf, orphansAt_append, orphansAt_append, none, List.append_nil,
      ← orphansAt_append]
  · rw [result, ← blocks, diagnosticsOf]

namespace Sections.Without

variable {s t : Sections} {kind : BlockKind} {before after : List Line} {l : Line}
  (h : s.Without t kind before l after) (orphan : Orphan kind before l)
include h orphan

theorem steps : (stepsOf (T := T) G (t.lines .animation)).1 =
    (stepsOf (T := T) G (s.lines .animation)).1 := by
  by_cases own : kind = .animation
  · subst own
    rw [h.rest, h.full, (stepsOf_orphan orphan after).1]
  · rw [h.others _ (Ne.symm own)]

theorem styles : (stylesOf (G := G) T (t.lines .style)).1 =
    (stylesOf (G := G) T (s.lines .style)).1 := by
  by_cases own : kind = .style
  · subst own
    rw [h.rest, h.full, stylesOf_orphan orphan after]
  · rw [h.others _ (Ne.symm own)]

theorem captions : (captionsOf (t.lines .narration)).1 = (captionsOf (s.lines .narration)).1 := by
  by_cases own : kind = .narration
  · subst own
    rw [h.rest, h.full, (captionsOf_orphan orphan after).1]
  · rw [h.others _ (Ne.symm own)]

theorem said (apart : ∀ m ∈ t.lines .animation ++ t.lines .narration, m.span ≠ l.span) :
    orphansAt l.span (stepsOf (T := T) G (s.lines .animation)).2 ++
        orphansAt l.span (captionsOf (s.lines .narration)).2 =
      kind.orphanFault?.toList.map fun fault => fault.located l.span := by
  obtain ⟨animation, narration⟩ := List.forall_mem_append.mp apart
  have unsaid (other : kind ≠ .animation) :
      orphansAt l.span (stepsOf (T := T) G (s.lines .animation)).2 = [] := by
    rw [h.others _ other.symm] at animation
    rw [stepsOf_orphansAt]
    exact AnimationState.saysAt.elsewhere animation _
  have silent (other : kind ≠ .narration) :
      orphansAt l.span (captionsOf (s.lines .narration)).2 = [] := by
    rw [h.others _ other.symm] at narration
    exact NarrationState.saysAt.elsewhere narration _
  cases kind with
  | animation =>
    rw [h.rest] at animation
    rw [silent (by decide), h.full, (stepsOf_orphan orphan after).2 animation]
    rfl
  | narration =>
    rw [h.rest] at narration
    rw [unsaid (by decide), h.full, (captionsOf_orphan orphan after).2 narration]
    rfl
  | style =>
    rw [unsaid (by decide), silent (by decide)]
    rfl
  | config => exact absurd rfl orphan.entries

end Sections.Without

variable {source : String} {ps qs : List Portion} {kind : BlockKind} {marker ending l : Line}
  {before after : List Line}

/-- A property before the first entry of a block does not matter: a text without its line gives the
same diagram. Exactly one warning points at it in the animation and in the narration, and none in the
style block. -/
theorem parse_orphans
    (divided : Divides (linesOf source.toList)
      (ps ++ .block kind marker (before ++ l :: after) ending :: qs))
    (stored : storedBlock? kind ps = none) (orphan : Orphan kind before l) :
    (∀ other : String, (linesOf other.toList).map Line.text =
        ((ps ++ .block kind marker (before ++ after) ending :: qs).flatMap Portion.lines).map
          Line.text →
      (parse (T := T) (G := G) other).toOption.map Parsed.diagram =
        (parse (T := T) (G := G) source).toOption.map Parsed.diagram) ∧
    orphansAt l.span (diagnosticsOf (parse (T := T) (G := G) source)) =
      kind.orphanFault?.toList.map fun fault => fault.located l.span := by
  have without := divided.without stored
  refine ⟨fun other texts => ?_, ?_⟩
  · obtain ⟨seen, _⟩ := Prod.mk.inj (sectionsOf_gist (readings_texts texts))
    obtain ⟨body, blocks⟩ := Prod.mk.inj seen
    rw [without.body] at body
    obtain ⟨steps, _⟩ := Prod.mk.inj (stepsOf_gist (T := T) G (congrFun blocks .animation))
    obtain ⟨styles, _⟩ := Prod.mk.inj (stylesOf_gist (G := G) T (congrFun blocks .style))
    obtain ⟨captions, _⟩ := Prod.mk.inj (captionsOf_gist (congrFun blocks .narration))
    obtain ⟨options, _⟩ := Prod.mk.inj (optionsOf_gist (T := T) (congrFun blocks .config))
    rw [without.steps orphan] at steps
    rw [without.styles orphan] at styles
    rw [without.captions orphan] at captions
    rw [without.others _ orphan.entries.symm] at options
    have same : (read (T := T) (G := G) other.toList).1 = (read source.toList).1 :=
      read_diagram rfl rfl body steps styles captions options
    have silent : mentionsOf other = [] ↔ mentionsOf source = [] := mentions_silent body
    rw [parse_toOption_diagram, parse_toOption_diagram, same]
    simp only [silent]
  · have inside : l ∈ linesOf source.toList := by
      rw [← divided.lines]
      simp [Portion.lines]
    have text : source.toList.all isBlank = false := by
      cases blank : source.toList.all isBlank with
      | false => rfl
      | true =>
        have speaks := orphan.isMeaningful
        simp [Line.isMeaningful, Line.isEmpty, trimmed_of_blank blank inside] at speaks
    rw [parse_orphansAt text]
    exact without.said orphan fun m member => divided.apart m
      (List.append_subset.mpr ⟨sectionsOf_lines _ _, sectionsOf_lines _ _⟩ member)

end

/-- A color before the first step: the diagram is the same without it, and a warning points at it. -/
theorem parse_orphans_animation : ∃ parsed again : Parsed Rat Rat,
    parse "A[x]\n@animation\n  color: red\nstep 1: show A\n@end" = .ok parsed ∧
    parse "A[x]\n@animation\nstep 1: show A\n@end" = .ok again ∧
    again.diagram = parsed.diagram ∧
    orphansAt ⟨18, 28⟩ parsed.warnings = [Fault.orphanProperty.located ⟨18, 28⟩] := by
  obtain ⟨parsed, ok, facts⟩ := exists_parsed_of (T := Rat) (G := Rat)
    "A[x]\n@animation\n  color: red\nstep 1: show A\n@end"
    (p := fun _ => linesOf "A[x]\n@animation\n  color: red\nstep 1: show A\n@end".toList =
      [⟨"A[x]".toList, 0⟩, ⟨"@animation".toList, 5⟩, ⟨"  color: red".toList, 16⟩,
        ⟨"step 1: show A".toList, 29⟩, ⟨"@end".toList, 44⟩]) (by decide +kernel)
  have lines := of_decide_eq_true facts
  have divided : Divides (linesOf "A[x]\n@animation\n  color: red\nstep 1: show A\n@end".toList)
      ([.body ⟨"A[x]".toList, 0⟩] ++ .block .animation ⟨"@animation".toList, 5⟩
        ([] ++ ⟨"  color: red".toList, 16⟩ :: [⟨"step 1: show A".toList, 29⟩])
        ⟨"@end".toList, 44⟩ :: []) := by
    rw [lines]
    refine .body ?_ (@Divides.block _ _ _ [_, _] _ _ ?_ ?_ ?_ .nil) <;> decide
  have orphan : Orphan .animation [] ⟨"  color: red".toList, 16⟩ :=
    ⟨by decide, by decide, by decide, by decide, by decide⟩
  obtain ⟨same, said⟩ := parse_orphans (T := Rat) (G := Rat) divided rfl orphan
  have without := same "A[x]\n@animation\nstep 1: show A\n@end" (by decide)
  rw [ok] at without said
  cases parses : parse (T := Rat) (G := Rat) "A[x]\n@animation\nstep 1: show A\n@end" with
  | error failure => simp [parses, Except.toOption] at without
  | ok again =>
    rw [parses] at without
    exact ⟨parsed, again, ok, rfl, Option.some.inj without, said⟩

/-- A property before the first selector of a style block, of which nothing is said. -/
theorem parse_orphan_unsaid : ∃ parsed : Parsed Rat Rat,
    parse "flowchart LR\nA[x]\n@style\n  fill: red\n@end" = .ok parsed ∧
    (sectionsOf (linesOf "flowchart LR\nA[x]\n@style\n  fill: red\n@end".toList)).1.lines .style =
      [⟨"  fill: red".toList, 25⟩] ∧
    Orphan .style [] ⟨"  fill: red".toList, 25⟩ ∧ parsed.warnings = [] := by
  obtain ⟨parsed, ok, facts⟩ := exists_parsed_of (T := Rat) (G := Rat)
    "flowchart LR\nA[x]\n@style\n  fill: red\n@end"
    (p := fun parsed =>
      (sectionsOf (linesOf "flowchart LR\nA[x]\n@style\n  fill: red\n@end".toList)).1.lines .style =
        [⟨"  fill: red".toList, 25⟩] ∧ parsed.warnings = []) (by decide +kernel)
  obtain ⟨block, silent⟩ := of_decide_eq_true facts
  exact ⟨parsed, ok, block, ⟨by decide, by decide, by decide, by decide, by decide⟩, silent⟩

end Document

end Storyboard
