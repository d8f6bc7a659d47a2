import Storyboard.Proofs.Document.Entries
import Storyboard.Proofs.Document.Mentions
import Storyboard.Proofs.Document.Spans
import Storyboard.Proofs.Document.TargetWarnings

/-!
# Targets of camera steps

A camera step names what it frames in its header, as in `camera focus A`, or in a property line
`target: A`. In a property line an id that reads as a number or as a truth value is no text, and so
names nothing. With the id of any other node both spellings make the same of every diagram
(`compile_respelled`).
-/

namespace Storyboard

open Text

namespace Document

/-! ### Ids as words -/

/-- A text that an endpoint may have as its id. -/
structure IsWord (n : String) : Prop where
  named : n.toList ≠ []
  chars : ∀ c ∈ n.toList, isIdChar c = true

namespace IsWord

variable {n : String}

theorem not_mem (word : IsWord n) {c : Char} (other : isIdChar c = false) : c ∉ n.toList :=
  fun member => by simp [word.chars c member] at other

theorem trim_eq (word : IsWord n) : trim n.toList = n.toList :=
  trim_visible fun c member => isIdChar_not_blank (word.chars c member)

theorem splitWhere_eq (word : IsWord n) : splitWhere (· = ',') n.toList = [n.toList] :=
  splitWhere_of_none fun _ member =>
    decide_eq_false fun same => word.not_mem (c := ',') rfl (same ▸ member)

theorem stripQuotes_eq (word : IsWord n) : stripQuotes n.toList = n.toList := by
  have plain : ∀ c ∈ n.toList, (decide (c = '"') || decide (c = '\'')) = false := by
    intro c member
    refine Bool.or_eq_false_iff.mpr ⟨decide_eq_false ?_, decide_eq_false ?_⟩
    · exact fun same => word.not_mem (c := '"') rfl (same ▸ member)
    · exact fun same => word.not_mem (c := '\'') rfl (same ▸ member)
  obtain ⟨c, rest, whole⟩ := List.exists_cons_of_ne_nil word.named
  unfold stripQuotes
  rw [whole] at plain ⊢
  simp only [plain c List.mem_cons_self, Bool.false_eq_true, if_false]
  split
  · next last found => rw [plain last (List.mem_of_getLast? found), if_neg Bool.false_ne_true]
  · rfl

theorem targetsOf_eq (word : IsWord n) : targetsOf n.toList = [.entity n] := by
  have plain : ¬ arrow <:+: n.toList := fun inside =>
    word.not_mem (c := '-') rfl (inside.subset List.mem_cons_self)
  have named := TargetText.entity (trim_eq_iff.mp word.trim_eq) word.named plain
  rw [Document.targetsOf_eq, word.splitWhere_eq, List.filterMap_cons, targetIn?_eq_iff.mpr named,
    String.ofList_toList]
  rfl

theorem ofText_eq {T : Type} [Scalar T] (word : IsWord n) (plain : n ∉ ["true", "false"])
    (unread : (Scalar.readFinite? n.toList : Option T) = none) :
    PropertyValue.ofText n.toList = (.text n : PropertyValue T) := by
  have others : n.toList ≠ "true".toList ∧ n.toList ≠ "false".toList := by
    rw [Ne, Ne, String.toList_inj, String.toList_inj]
    simpa using plain
  unfold PropertyValue.ofText
  dsimp only
  rw [word.trim_eq, if_neg others.1, if_neg others.2, unread, word.stripQuotes_eq,
    String.ofList_toList]

end IsWord

variable {T G : Type}

theorem isWord_of_nodeId [Scalar T] [Scalar G] [Narrow T G] {source : String} {parsed : Parsed T G}
    (ok : parse source = .ok parsed) {n : String} (node : n ∈ parsed.diagram.nodeIds) : IsWord n := by
  rw [parse_eq_ok ok, read_nodeIds] at node
  have noted := flowchartOf_notes (G := G) (sectionsOf (linesOf source.toList)).1.body
  have mentioned : n ∈ (mentionsOf source).map Endpoint.id := by
    rcases List.mem_append.mp node with declared | undeclared
    · exact declaredIds_subset (noted.ids ▸ declared)
    · exact (mem_undeclaredIds.mp (noted.undeclared ▸ undeclared)).1
  obtain ⟨m, member, rfl⟩ := List.mem_map.mp mentioned
  obtain ⟨l, _, inside⟩ := List.mem_flatMap.mp member
  rw [mentionsIn_places] at inside
  obtain ⟨e, stands, rfl⟩ := List.mem_map.mp inside
  obtain ⟨_, _, written⟩ := placesIn_written stands
  exact ⟨written.named, written.chars⟩

/-! ### Modes -/

/-- The modes that need a target. -/
def targetModes : List String := ["focus", "zoom", "pan", "fitNodes"]

theorem splitCameraMode_eq {mode : String} (known : mode ∈ targetModes) {rest : List Char}
    (stop : ∀ c ∈ rest.head?, isBlank c = true) :
    splitCameraMode (mode.toList ++ rest) = (some mode, trim rest) := by
  have facts : ∀ mode ∈ targetModes, mode ∈ ["fitAll", "fitNodes", "focus", "zoom", "pan"] ∧
      mode.toList.all (fun c => !isBlank c) = true := by decide
  obtain ⟨listed, all⟩ := facts mode known
  have visible : ∀ c ∈ mode.toList, isBlank c = false := fun c member => by
    simpa using List.all_eq_true.mp all c member
  have text := splitCameraMode_eq_iff.mpr
    (.mode ⟨rfl, visible, stop⟩ (by rwa [String.ofList_toList]) (trim_trimmed rest))
  rwa [String.ofList_toList] at text

theorem splitCameraMode_target {mode n : String} (known : mode ∈ targetModes) (word : IsWord n)
    {gap : List Char} (filled : gap ≠ []) (blank : ∀ c ∈ gap, isBlank c = true) :
    splitCameraMode (mode.toList ++ gap ++ n.toList) = (some mode, n.toList) := by
  have stop : ∀ c ∈ (gap ++ n.toList).head?, isBlank c = true := fun c head =>
    blank c (List.mem_of_mem_head? (List.head?_append_of_ne_nil _ filled ▸ head))
  rw [List.append_assoc, splitCameraMode_eq known stop, trim_blank_append blank, word.trim_eq]

theorem splitCameraMode_alone {mode : String} (known : mode ∈ targetModes) :
    splitCameraMode mode.toList = (some mode, []) := by
  have split := @splitCameraMode_eq mode known [] fun c head => nomatch head
  rwa [List.append_nil] at split

/-! ### Two spellings -/

def Entry.texts (e : Entry) : List (List Char) := e.lines.map Line.text

/-- The first entry has the target in its header, the second one in a property line. All else that
they say is the same. -/
structure Entry.Respelled (mode n : String) (e e' : Entry) : Prop where
  headers : ∃ number gap, gap ≠ [] ∧ (∀ c ∈ gap, isBlank c = true) ∧
    StepHeader.WrittenAs ⟨number, "camera", mode.toList ++ gap ++ n.toList⟩ e.header.trimmed ∧
    StepHeader.WrittenAs ⟨number, "camera", mode.toList⟩ e'.header.trimmed
  bodies : ∃ before after, e.body.filterMap Line.property? = before ++ after ∧
    e'.body.filterMap Line.property? = before ++ ("target".toList, n.toList) :: after ∧
    "target".toList ∉ (before ++ after).map Prod.fst

/-- The blocks differ in the spelling of one camera step. -/
inductive Respelled (mode n : String) : List Line → List Line → Prop where
  | mk {lines lines' lead lead' : List Line} {es es' fs fs' : List Entry} {e e' : Entry}
      (first : Divided lines lead (es ++ e :: fs)) (second : Divided lines' lead' (es' ++ e' :: fs'))
      (before : es.map Entry.texts = es'.map Entry.texts)
      (after : fs.map Entry.texts = fs'.map Entry.texts) (entry : e.Respelled mode n e') :
      Respelled mode n lines lines'

/-- The steps have the target in their list and among their properties. -/
structure StepsRespelled (n : String) (s s' : Step T) : Prop where
  number : s.number = s'.number
  action : s.action = .camera
  action' : s'.action = .camera
  targets : s.targets = [.entity n]
  targets' : s'.targets = []
  unset : s.properties.get? "target" = none
  set : s'.properties.get? "target" = some (.text n)
  others : ∀ key, key ≠ "target" → s.properties.get? key = s'.properties.get? key

section

variable [Scalar T]

theorem pairsOf_eq (body : List Line) : pairsOf T body =
    (body.filterMap Line.property?).map fun p => (String.ofList p.1, .ofText p.2) := rfl

def Entry.bareStep? (e : Entry) : Option (Step T) := e.step?.map PlacedStep.step

theorem Entry.bareStep?_texts {e e' : Entry} (same : e.texts = e'.texts) :
    e.bareStep? (T := T) = e'.bareStep? := by
  obtain ⟨header, body⟩ := List.cons_eq_cons.mp same
  have trimmed : e.header.trimmed = e'.header.trimmed := congrArg trim header
  have properties (body : List Line) : body.filterMap Line.property? =
      (body.map Line.text).filterMap fun text => Line.property? ⟨text, 0⟩ := by
    rw [List.filterMap_map]
    rfl
  have pairs : pairsOf T e.body = pairsOf T e'.body := by
    rw [pairsOf_eq, pairsOf_eq, properties, properties, body]
  unfold Entry.bareStep? Entry.step? Entry.opening?
  rw [trimmed, Option.map_map, Option.map_map]
  congr 1
  funext (h, action)
  simp [Entry.stepOf, Entry.pairs, pairs]

theorem filterMap_texts {es es' : List Entry} (same : es.map Entry.texts = es'.map Entry.texts) :
    es.filterMap (Entry.bareStep? (T := T)) = es'.filterMap Entry.bareStep? := by
  induction es generalizing es' with
  | nil => rw [List.map_eq_nil_iff.mp same.symm]
  | cons e es ih =>
    obtain ⟨e', rest, rfl, first, later⟩ := List.map_eq_cons_iff.mp same.symm
    rw [List.filterMap_cons, List.filterMap_cons, Entry.bareStep?_texts first, ih later.symm]

variable {mode n : String}

theorem Entry.bareStep?_camera {e : Entry} {number : Nat} {targets rest : List Char}
    (written : StepHeader.WrittenAs ⟨number, "camera", targets⟩ e.header.trimmed)
    (split : splitCameraMode targets = (some mode, rest)) :
    e.bareStep? = some (⟨number, .camera, targetsOf rest,
      .ofList ((Step.cameraModeKey, .text mode) :: pairsOf T e.body)⟩ : Step T) := by
  have given := Entry.step?_eq_some_iff (T := T).mpr ⟨_, .camera, written, rfl, rfl⟩
  simp [Entry.bareStep?, given, Entry.stepOf, Entry.pairs, StepHeader.modePairs, StepHeader.mode, split]

theorem Entry.Respelled.steps {e e' : Entry} (respelled : e.Respelled mode n e') (word : IsWord n)
    (known : mode ∈ targetModes) (text : PropertyValue.ofText n.toList = (.text n : PropertyValue T)) :
    ∃ s s' : Step T, e.bareStep? = some s ∧ e'.bareStep? = some s' ∧
      StepsRespelled n s s' := by
  obtain ⟨number, gap, filled, blank, written, written'⟩ := respelled.headers
  obtain ⟨before, after, body, body', untargeted⟩ := respelled.bodies
  -- Both property maps are those of one list, but for the pair of the target somewhere in it.
  have step := Entry.bareStep?_camera (T := T) written (splitCameraMode_target known word filled blank)
  have step' := Entry.bareStep?_camera (T := T) written' (splitCameraMode_alone known)
  have nothing : targetsOf [] = [] := rfl
  rw [word.targetsOf_eq, pairsOf_eq, body, List.map_append, ← List.cons_append] at step
  rw [nothing, pairsOf_eq, body', List.map_append, List.map_cons, ← List.cons_append, text,
    String.ofList_toList] at step'
  have other : ∀ p ∈ before ++ after, String.ofList p.1 ≠ "target" := fun p member same =>
    untargeted (List.mem_map.mpr ⟨p, member, by rw [← same, String.toList_ofList]⟩)
  refine ⟨_, _, step, step', rfl, rfl, rfl, rfl, rfl, ?_, OrderedMap.get?_ofList_last _ ?_,
    fun key other => (OrderedMap.get?_ofList_other _ other).symm⟩
  · refine Option.not_isSome_iff_eq_none.mp fun found => ?_
    rw [OrderedMap.isSome_get?_ofList, List.cons_append, ← List.map_append, List.map_cons,
      List.map_map] at found
    rcases List.mem_cons.mp found with mode_key | inside
    · exact absurd (show "target" = Step.cameraModeKey from mode_key) (by decide)
    · obtain ⟨p, member, same⟩ := List.mem_map.mp inside
      exact other p member same
  · rw [List.map_map]
    intro inside
    obtain ⟨p, member, same⟩ := List.mem_map.mp inside
    exact other p (List.mem_append_right _ member) same

variable (T G) in
/-- The steps of a block, without their places. -/
def stepsIn [Scalar G] [Narrow T G] (lines : List Line) : List (Step T) :=
  (stepsOf G lines).1.map PlacedStep.step

variable [Scalar G] [Narrow T G]

theorem stepsIn_divided {lines lead : List Line} {entries : List Entry}
    (divided : Divided lines lead entries) :
    stepsIn T G lines = entries.filterMap Entry.bareStep? := by
  rw [stepsIn, (stepsOf_divided divided).1, List.map_filterMap]
  rfl

theorem Respelled.steps {lines lines' : List Line} (respelled : Respelled mode n lines lines')
    (word : IsWord n) (known : mode ∈ targetModes)
    (text : PropertyValue.ofText n.toList = (.text n : PropertyValue T)) :
    ∃ as bs, ∃ s s' : Step T, stepsIn T G lines = as ++ s :: bs ∧
      stepsIn T G lines' = as ++ s' :: bs ∧ StepsRespelled n s s' := by
  obtain ⟨first, second, before, after, entry⟩ := respelled
  obtain ⟨s, s', step, step', steps⟩ := entry.steps word known text
  rw [stepsIn_divided first, stepsIn_divided second, List.filterMap_append, List.filterMap_append,
    List.filterMap_cons_some step, List.filterMap_cons_some step', filterMap_texts before,
    filterMap_texts after]
  exact ⟨_, _, s, s', rfl, rfl, steps⟩

end

end Document

/-! ### What the camera frames -/

namespace Diagram

open Document

variable {T G : Type} {d : Diagram T G} {s s' : Step T} {mode n : String}

variable (d) in
/-- The entities that a property lists. -/
def listed (p : Properties T) (key : String) : List String :=
  (((Text.splitWhere (· = ',') ((p.text? key).getD "").toList).map fun name =>
    String.ofList (Text.trim name)).filter d.contains).filter fun name => !name.isEmpty

theorem cameraTargets_eq (s : Step T) : d.cameraTargets s =
    d.entityTargets s ++ (d.listed s.properties "target" ++ d.listed s.properties "targets") := by
  simp [cameraTargets, cameraTargetKeys, listed, List.filter_append]

theorem listed_unset {p : Properties T} {key : String} (unset : p.text? key = none) :
    d.listed p key = [] := by
  rw [listed, unset]
  refine List.filter_eq_nil_iff.mpr fun name member => ?_
  obtain rfl : name = "" := List.mem_singleton.mp (List.mem_filter.mp member).1
  simp

theorem listed_word {p : Properties T} {key : String} (set : p.text? key = some n) (word : IsWord n)
    (inside : d.contains n = true) : d.listed p key = [n] := by
  have named : n.isEmpty = false := by simpa using word.named
  simp [listed, set, word.splitWhere_eq, word.trim_eq, inside, named]

theorem entityTargets_single (targets : s.targets = [.entity n]) (inside : d.contains n = true)
    (other : n ∉ targetWords) : d.entityTargets s = [n] := by
  rw [entityTargets, targets, List.flatMap_cons, expand_entity other, if_pos inside]
  rfl

/-- Both steps frame the target and what else their properties list. -/
theorem cameraTargets_respelled (respelled : StepsRespelled n s s') (word : IsWord n)
    (node : n ∈ d.nodeIds) (other : n ∉ targetWords) :
    ∃ more, d.cameraTargets s = n :: more ∧ d.cameraTargets s' = n :: more := by
  have inside : d.contains n = true := contains_iff.mpr (.inl node)
  have unset : s.properties.text? "target" = none := by rw [Properties.text?, respelled.unset]; rfl
  have set : s'.properties.text? "target" = some n := by rw [Properties.text?, respelled.set]; rfl
  have others : d.listed s.properties "targets" = d.listed s'.properties "targets" := by
    rw [listed, listed, Properties.text?, Properties.text?, respelled.others "targets" (by decide)]
  refine ⟨d.listed s'.properties "targets", ?_, ?_⟩
  · rw [cameraTargets_eq, entityTargets_single respelled.targets inside other, listed_unset unset,
      others]
    rfl
  · rw [cameraTargets_eq, entityTargets, respelled.targets', listed_word set word inside]
    rfl

variable [Scalar T] [Scalar G] [Narrow T G] {o : CompileOptions G}

theorem cameraMove?_respelled (respelled : StepsRespelled n s s') (word : IsWord n)
    (node : n ∈ d.nodeIds) (other : n ∉ targetWords) : d.cameraMove? o s = d.cameraMove? o s' := by
  obtain ⟨more, framed, framed'⟩ := cameraTargets_respelled respelled word node other
  unfold cameraMove? Properties.padding? Properties.zoom? Properties.inUnit? Properties.text?
  rw [framed, framed', respelled.others "padding" (by decide), respelled.others "zoom" (by decide),
    respelled.others Step.cameraModeKey (by decide)]

theorem alike_respelled (respelled : StepsRespelled n s s') (word : IsWord n) (node : n ∈ d.nodeIds)
    (other : n ∉ targetWords) : d.Alike o s s' where
  number := respelled.number
  action := respelled.action.trans respelled.action'.symm
  nodes reveals := absurd (respelled.action.symm.trans reveals) (by decide)
  schedule known start := by
    have move := cameraMove?_respelled (o := o) respelled word node other
    have delay : s.properties.delay = s'.properties.delay := by
      rw [Properties.delay, Properties.delay, Properties.seconds?, Properties.seconds?,
        respelled.others "delay" (by decide)]
    have duration : s.properties.duration = s'.properties.duration := by
      rw [Properties.duration, Properties.duration, Properties.seconds?, Properties.seconds?,
        respelled.others "duration" (by decide)]
    have ease : easeOf s default = easeOf s' default := by
      rw [easeOf, easeOf, Properties.text?, Properties.text?,
        respelled.others "easing" (by decide)]
    simp only [schedule, respelled.action, respelled.action', move, delay, duration, ease]

theorem cameraMove?_target {more : List String} (known : mode ∈ targetModes)
    (said : s.properties.text? Step.cameraModeKey = some mode) (framed : d.cameraTargets s = n :: more) :
    ∃ move, d.cameraMove? o s = some move ∧
      (mode = "fitNodes" ∧ move.mode = .fitNodes (n :: more) ∨
        mode ≠ "fitNodes" ∧ move.mode = .focus n) := by
  simp only [targetModes, List.mem_cons, List.not_mem_nil, or_false] at known
  unfold cameraMove?
  rw [said, framed]
  rcases known with rfl | rfl | rfl | rfl <;> simp

end Diagram

namespace Document

/-- A camera step with its target in the header compiles to what the step with the target in a property
line compiles to, in every diagram that has a node of this id and whatever else the steps say. The
id is none of the words for many entities, and it reads as text in a property line. If no line changes
the mode, the camera frames the target. -/
theorem compile_respelled {T G : Type} [Scalar T] [Scalar G] [Narrow T G] {source : String}
    {parsed : Parsed T G} (ok : parse source = .ok parsed) {mode n : String}
    (node : n ∈ parsed.diagram.nodeIds) (other : n ∉ targetWords) (plain : n ∉ ["true", "false"])
    (unread : (Scalar.readFinite? n.toList : Option T) = none) (known : mode ∈ targetModes)
    {lines lines' : List Line} (respelled : Respelled mode n lines lines') :
    ∃ as bs, ∃ s s' : Step T, stepsIn T G lines = as ++ s :: bs ∧
      stepsIn T G lines' = as ++ s' :: bs ∧ StepsRespelled n s s' ∧
      ∀ o : CompileOptions G,
        let d := parsed.diagram
        d.cameraMove? o s = d.cameraMove? o s' ∧
        (s.properties.text? Step.cameraModeKey = some mode →
          ∃ move more, d.cameraMove? o s = some move ∧
            (mode = "fitNodes" ∧ move.mode = .fitNodes (n :: more) ∨
              mode ≠ "fitNodes" ∧ move.mode = .focus n)) ∧
        (d.withSteps (stepsIn T G lines)).compile o =
          (d.withSteps (stepsIn T G lines')).compile o := by
  have word := isWord_of_nodeId ok node
  obtain ⟨as, bs, s, s', steps, steps', step⟩ :=
    respelled.steps (G := G) word known (word.ofText_eq plain unread)
  refine ⟨as, bs, s, s', steps, steps', step, fun o => ?_⟩
  refine ⟨Diagram.cameraMove?_respelled step word node other, fun said => ?_, ?_⟩
  · obtain ⟨more, framed, -⟩ := Diagram.cameraTargets_respelled step word node other
    obtain ⟨move, made⟩ := Diagram.cameraMove?_target (o := o) known said framed
    exact ⟨move, more, made⟩
  · rw [steps, steps']
    have alike (steps : List (Step T)) : List.Forall₂ (parsed.diagram.Alike o) steps steps :=
      List.forall₂_same.mpr fun s _ => .refl s
    refine Diagram.compile_alike (List.rel_append (alike as) (.cons ?_ (alike bs)))
    exact Diagram.alike_respelled step word node other

def headerEntry (n : String) : Entry :=
  ⟨⟨("step 1: camera focus " ++ n).toList, 0⟩, [⟨"  zoom: 3".toList, 23⟩]⟩

def lineEntry (n : String) : Entry :=
  ⟨⟨"step 1: camera focus".toList, 0⟩,
    [⟨("  target: " ++ n).toList, 21⟩, ⟨"  zoom: 3".toList, 33⟩]⟩

theorem entries_respelled {n : String} (member : n ∈ ["A", "1"]) :
    Respelled "focus" n (headerEntry n).lines (lineEntry n).lines := by
  have headers : ∀ n ∈ ["A", "1"],
      stepHeader? (headerEntry n).header.trimmed =
        some ⟨1, "camera", "focus".toList ++ [' '] ++ n.toList⟩ ∧
      stepHeader? (lineEntry n).header.trimmed = some ⟨1, "camera", "focus".toList⟩ := by decide
  have bodies : ∀ n ∈ ["A", "1"],
      (headerEntry n).body.filterMap Line.property? = [("zoom".toList, "3".toList)] ∧
      (lineEntry n).body.filterMap Line.property? =
        [("target".toList, n.toList), ("zoom".toList, "3".toList)] := by decide
  have divided : ∀ e ∈ [headerEntry n, lineEntry n], Divided e.lines [] ([] ++ [e]) := by
    have facts : ∀ n ∈ ["A", "1"], ∀ e ∈ [headerEntry n, lineEntry n],
        (∀ l ∈ e.lines, l.isMeaningful = true) ∧ looksLikeStep e.header.trimmed = true ∧
          ∀ l ∈ e.body, looksLikeStep l.trimmed = false := by decide
    intro e own
    obtain ⟨meaningful, opens, plain⟩ := facts n member e own
    exact ⟨by simpa using meaningful, by simp, by simpa using opens, by simpa using plain⟩
  obtain ⟨header, header'⟩ := headers n member
  obtain ⟨body, body'⟩ := bodies n member
  refine .mk (divided _ List.mem_cons_self) (divided _ (by simp)) rfl rfl ⟨?_, ?_⟩
  · exact ⟨1, [' '], by simp, by simp [isBlank], stepHeader?_eq_some_iff.mp header,
      stepHeader?_eq_some_iff.mp header'⟩
  · exact ⟨[], [("zoom".toList, "3".toList)], body, body', by decide⟩

theorem numbered_parsed : ∃ parsed : Parsed Rat Rat,
    parse "flowchart LR\nA[x]\n1[y]" = .ok parsed ∧ parsed.diagram.nodeIds = ["A", "1"] ∧
    (∀ s ∈ stepsIn Rat Rat (headerEntry "A").lines,
      s.properties.text? Step.cameraModeKey = some "focus") ∧
    (stepsIn Rat Rat (headerEntry "1").lines).map
      (fun s => (parsed.diagram.cameraMove? .standard s).map CameraMove.mode) = [some (.focus "1")] ∧
    (stepsIn Rat Rat (lineEntry "1").lines).map
      (fun s => (parsed.diagram.cameraMove? .standard s).map CameraMove.mode) = [none] := by
  obtain ⟨parsed, ok, facts⟩ := exists_parsed_of (T := Rat) (G := Rat) "flowchart LR\nA[x]\n1[y]"
    (p := fun parsed => parsed.diagram.nodeIds = ["A", "1"] ∧
      (∀ s ∈ stepsIn Rat Rat (headerEntry "A").lines,
        s.properties.text? Step.cameraModeKey = some "focus") ∧
      (stepsIn Rat Rat (headerEntry "1").lines).map
        (fun s => (parsed.diagram.cameraMove? .standard s).map CameraMove.mode) = [some (.focus "1")] ∧
      (stepsIn Rat Rat (lineEntry "1").lines).map
        (fun s => (parsed.diagram.cameraMove? .standard s).map CameraMove.mode) = [none])
    (by decide +kernel)
  exact ⟨parsed, ok, of_decide_eq_true facts⟩

theorem compile_respelled_letter : ∃ (parsed : Parsed Rat Rat) (s s' : Step Rat),
    parse "flowchart LR\nA[x]\n1[y]" = .ok parsed ∧
    s ∈ stepsIn Rat Rat (headerEntry "A").lines ∧ s' ∈ stepsIn Rat Rat (lineEntry "A").lines ∧
    ∀ o : CompileOptions Rat,
      let d := parsed.diagram
      d.cameraMove? o s = d.cameraMove? o s' ∧
      (∃ move, d.cameraMove? o s = some move ∧ move.mode = .focus "A") ∧
      (d.withSteps (stepsIn Rat Rat (headerEntry "A").lines)).compile o =
        (d.withSteps (stepsIn Rat Rat (lineEntry "A").lines)).compile o := by
  obtain ⟨parsed, ok, nodes, said, -⟩ := numbered_parsed
  obtain ⟨as, bs, s, s', steps, steps', -, moves⟩ := compile_respelled ok (by simp [nodes])
    (by decide) (by decide) (by decide) (by decide) (entries_respelled (n := "A") (by decide))
  have member : s ∈ stepsIn Rat Rat (headerEntry "A").lines := by simp [steps]
  refine ⟨parsed, s, s', ok, member, by simp [steps'], fun o => ?_⟩
  obtain ⟨same, framed, compiled⟩ := moves o
  refine ⟨same, ?_, compiled⟩
  obtain ⟨move, _, made, ⟨fit, -⟩ | ⟨-, focus⟩⟩ := framed (said s member)
  · exact absurd fit (by decide)
  · exact ⟨move, made, focus⟩

/-- An id that reads as a number is no target in a property line, and without a target there is no
move of the camera. -/
theorem compile_respelled_number : ∃ parsed : Parsed Rat Rat,
    parse "flowchart LR\nA[x]\n1[y]" = .ok parsed ∧ "1" ∈ parsed.diagram.nodeIds ∧
    "1" ∉ targetWords ∧ Respelled "focus" "1" (headerEntry "1").lines (lineEntry "1").lines ∧
    (stepsIn Rat Rat (headerEntry "1").lines).map
      (fun s => (parsed.diagram.cameraMove? .standard s).map CameraMove.mode) = [some (.focus "1")] ∧
    (stepsIn Rat Rat (lineEntry "1").lines).map
      (fun s => (parsed.diagram.cameraMove? .standard s).map CameraMove.mode) = [none] := by
  obtain ⟨parsed, ok, nodes, -, moves⟩ := numbered_parsed
  exact ⟨parsed, ok, by simp [nodes], by decide, entries_respelled (by decide), moves⟩

end Document

end Storyboard
