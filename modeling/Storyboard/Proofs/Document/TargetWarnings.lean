import Storyboard.Proofs.Diagram.EdgeIds
import Storyboard.Proofs.Document.Codes
import Storyboard.Proofs.Document.StepTexts
import Storyboard.Proofs.Timeline.Resolution

/-!
# Warnings about targets

A target that names nothing in the diagram is warned about, and no other target is: the warning tells
the step and the target apart from all others. Which of the entities that a target names a step can
work on depends on its action. So a warning means that the target stands for nothing in its step, and
where there is none the target stands for something, unless it names only entities of the wrong kind
(`parse_reports`).
-/

namespace Storyboard

open Text Diagnostic

/-- A target as it can be written: the first end of a pair holds no arrow. -/
def Target.Written : Target → Prop
  | .entity _ => True
  | .pair source _ => ¬ Document.arrow <:+: source.toList

def Step.Written {T : Type} (s : Step T) : Prop := ∀ t ∈ s.targets, t.Written

namespace Document

theorem target?_written {cs : List Char} {t : Target} (read : target? cs = some t) : t.Written := by
  unfold target? at read
  split at read
  · next source target found =>
    dsimp only at read
    split at read
    · cases read
    · obtain rfl := Option.some.inj read
      have clean := splitAtMark?_before (by decide) found
      show ¬ arrow <:+: (String.ofList (trim source)).toList
      rw [String.toList_ofList]
      exact fun inside => clean (inside.trans (trim_within source))
  · obtain rfl := Option.some.inj read
    trivial

section

variable {T : Type}

theorem open_written [Scalar T] (h : StepHeader) (action : Action) :
    (h.open action : Step T).Written := by
  have targets (cs : List Char) : ∀ t ∈ targetsOf cs, t.Written := by
    intro t member
    obtain ⟨item, _, read⟩ := List.mem_filterMap.mp member
    exact target?_written read
  unfold StepHeader.open
  split <;> exact targets _

variable [Scalar T]

/-- The complete steps and the open one have targets as they can be written. -/
structure AnimationState.Written (s : AnimationState T) : Prop where
  steps : ∀ p ∈ s.steps, p.step.Written
  opened : ∀ p, s.opened = .step p → p.step.Written

namespace AnimationState.Written

variable {G : Type} [Scalar G] [Narrow T G] {s : AnimationState T} (h : s.Written)
include h

theorem finish : (s.finish G).1.Written := by
  unfold AnimationState.finish
  split
  · next p opened =>
    refine ⟨List.forall_mem_append.mpr ⟨h.steps, ?_⟩, fun _ none => nomatch none⟩
    exact List.forall_mem_singleton.mpr (h.opened p opened)
  · exact ⟨h.steps, fun _ none => nomatch none⟩

theorem step (l : Line) : (s.step G l).1.Written := by
  unfold AnimationState.step
  dsimp only
  split
  · have finished := h.finish (G := G)
    unfold AnimationState.start
    split
    · exact ⟨finished.steps, fun _ none => nomatch none⟩
    · split
      · exact ⟨finished.steps, fun _ none => nomatch none⟩
      · refine ⟨finished.steps, ?_⟩
        rintro _ ⟨⟩
        exact open_written _ _
  · unfold AnimationState.property
    split
    · next p _ _ opened =>
      refine ⟨h.steps, ?_⟩
      rintro _ ⟨⟩
      exact h.opened p opened
    · exact h
    · exact h
    · exact h

end AnimationState.Written

theorem stepsOf_written {G : Type} [Scalar G] [Narrow T G] (lines : List Line) :
    ∀ p ∈ (stepsOf (T := T) G lines).1, p.step.Written := by
  have initial : ({} : AnimationState T).Written :=
    ⟨List.forall_mem_nil _, fun _ none => nomatch none⟩
  obtain ⟨scanned, _⟩ := scanMeaningful_keeps (P := AnimationState.Written)
    (f := AnimationState.step G)
    (fun s l h => ⟨AnimationState.Written.step h l, AnimationState.step_coded s l⟩) lines initial
  have finished := scanned.finish (G := G)
  exact finished.steps

end

/-! ### What a warning tells -/

end Document

/-- How a warning names a target. -/
def Target.quoted : Target → String
  | entity id => "`" ++ id ++ "`"
  | pair source target => "edge `" ++ source ++ "->" ++ target ++ "`"

theorem Target.quoted_injective {t u : Target} (written : t.Written) (written' : u.Written)
    (same : t.quoted = u.quoted) : t = u := by
  have texts := congrArg String.toList same
  cases t with
  | entity id =>
    cases u with
    | entity other => simpa [quoted, String.toList_inj] using texts
    | pair source target => simp [quoted] at texts
  | pair source target =>
    cases u with
    | entity other => simp [quoted] at texts
    | pair other last =>
      have split : source.toList ++ Document.arrow ++ (target.toList ++ ['`']) =
          other.toList ++ Document.arrow ++ (last.toList ++ ['`']) := by
        simpa [quoted, Document.arrow] using texts
      obtain ⟨first, second⟩ := Document.arrow_split written written' split
      simpa [String.toList_inj] using And.intro first second

namespace Document

theorem message_unknownTarget (n : Nat) (t : Target) : (Fault.unknownTarget n t).message =
    "step " ++ toString n ++ (" targets unknown " ++ t.quoted) := by
  cases t with
  | entity id =>
    have opens : " targets unknown `" = " targets unknown " ++ "`" := by decide
    show "step " ++ toString n ++ " targets unknown `" ++ id ++ "`" = _
    rw [opens]
    simp only [Target.quoted, String.append_assoc]
  | pair source target =>
    have opens : " targets unknown edge `" = " targets unknown " ++ "edge `" := by decide
    show "step " ++ toString n ++ " targets unknown edge `" ++ source ++ "->" ++ target ++ "`" = _
    rw [opens]
    simp only [Target.quoted, String.append_assoc]

theorem message_unknownTarget_injective {n m : Nat} {t u : Target} (written : t.Written)
    (written' : u.Written)
    (same : (Fault.unknownTarget n t).message = (Fault.unknownTarget m u).message) :
    n = m ∧ t = u := by
  rw [message_unknownTarget, message_unknownTarget] at same
  have texts := congrArg String.toList same
  have digits (n : Nat) (t : Target) :
      ((toString n).toList ++ (" targets unknown " ++ t.quoted).toList).takeWhile Char.isDigit =
        (toString n).toList := by
    rw [List.takeWhile_append_of_pos fun c => Edge.digit_of_mem_toString]
    simp
  simp only [String.toList_append, List.append_assoc, List.append_cancel_left_eq] at texts digits
  have numbers := congrArg (List.takeWhile Char.isDigit) texts
  rw [digits, digits] at numbers
  obtain rfl := toString_injective (String.toList_injective numbers)
  rw [List.append_cancel_left_eq, List.append_cancel_left_eq] at texts
  exact ⟨rfl, Target.quoted_injective written written' (String.toList_injective texts)⟩

end Document

/-! ### What targets name -/

namespace Diagram

variable {T G : Type} (d : Diagram T G)

/-- Whether a target names an entity of the diagram: by its id, or an edge by its ends. -/
def Names : Target → Prop
  | .entity id => id ∈ d.nodeIds ∨ id ∈ d.edgeIds
  | .pair source target => ∃ e ∈ d.edges, e.connects source target = true

variable {d}

theorem edgeBetween?_isSome {source target : String} : (d.edgeBetween? source target).isSome = true ↔
    ∃ e ∈ d.edges, e.connects source target = true := by
  simp only [Edge.connects_iff]
  generalize joined : d.edgeBetween? source target = found
  cases edgeBetween?_eq_iff.mp joined with
  | straight first => exact iff_of_true rfl ⟨_, first.mem, .inl first.holds⟩
  | turned absent first =>
    cases found with
    | some e => exact iff_of_true rfl ⟨e, first.mem, .inr first.holds⟩
    | none =>
      obtain _ | other := first
      exact iff_of_false nofun fun ⟨e, member, joins⟩ => joins.elim (absent e member) (other e member)

variable {t : Target}

theorem plain_of_other {id : String}
    (other : Target.entity id ∉ Document.targetWords.map Target.entity) :
    id ∉ Document.targetWords := fun word => other (List.mem_map_of_mem word)

theorem isKnownTarget_iff (other : t ∉ Document.targetWords.map Target.entity) :
    Document.isKnownTarget d t = true ↔ d.Names t := by
  cases t with
  | entity id =>
    simp [Document.isKnownTarget, Names, contains_iff, plain_of_other other]
  | pair source target => simp [Document.isKnownTarget, Names]

theorem expand_ne_nil (other : t ∉ Document.targetWords.map Target.entity) :
    d.expand t ≠ [] ↔ d.Names t := by
  cases t with
  | entity id =>
    rw [expand_entity (plain_of_other other), Names, ← contains_iff]
    cases d.contains id <;> simp
  | pair source target =>
    rw [Names, ← edgeBetween?_isSome, expand]
    cases d.edgeBetween? source target <;> simp

/-- What a target stands for in a step of any action is among what it names. -/
theorem resolve_subset (other : t ∉ Document.targetWords.map Target.entity) (action : Action) :
    d.resolve action t ⊆ d.expand t := by
  unfold resolve
  split
  · exact List.filter_sublist.subset
  · exact List.filter_sublist.subset
  · exact List.filter_sublist.subset
  · split
    · exact List.Subset.refl _
    · next id =>
      intro e member
      rw [Option.mem_toList, Option.map_eq_some_iff] at member
      obtain ⟨edge, found, rfl⟩ := member
      have named : edge.id = id := by simpa using List.find?_some found
      have inside : d.contains id = true := by simp [contains, found]
      rw [expand_entity (plain_of_other other), if_pos inside, named]
      exact List.mem_singleton_self id
  all_goals simp

/-- Whether an action takes one kind of entities only, and these entities are of the other kind. -/
def Mismatched (d : Diagram T G) (action : Action) (ids : List String) : Prop :=
  (action ∈ [.reveal, .highlight, .unhighlight] ∧ ∀ id ∈ ids, id ∈ d.edgeIds ∧ id ∉ d.nodeIds) ∨
    (action = .connect ∧ ∀ id ∈ ids, id ∈ d.nodeIds ∧ id ∉ d.edgeIds)

theorem mismatched_of_resolve (other : t ∉ Document.targetWords.map Target.entity)
    {action : Action} (acts : action ≠ .annotate) (names : d.expand t ≠ [])
    (nothing : d.resolve action t = []) : d.Mismatched action (d.expand t) := by
  have edges (none : (d.expand t).filter (fun id => (d.node? id).isSome) = []) :
      ∀ id ∈ d.expand t, id ∈ d.edgeIds ∧ id ∉ d.nodeIds := by
    intro id member
    have absent : id ∉ d.nodeIds := fun node =>
      List.filter_eq_nil_iff.mp none id member (d.mem_nodeIds.mp node)
    exact ⟨(d.expand_mem member).resolve_left absent, absent⟩
  cases action with
  | reveal | highlight | unhighlight => exact .inl ⟨by decide, edges nothing⟩
  | connect =>
    refine .inr ⟨rfl, fun id member => ?_⟩
    cases t with
    | pair source target => exact absurd nothing names
    | entity own =>
      have absent : id ∉ d.edgeIds := by
        rw [expand_entity (plain_of_other other)] at member
        split at member
        · obtain rfl := List.mem_singleton.mp member
          rw [mem_edgeIds]
          simpa [resolve] using nothing
        · cases member
      exact ⟨(d.expand_mem member).resolve_right absent, absent⟩
  | hide | move | transform | camera => exact absurd nothing names
  | annotate => exact absurd rfl acts

end Diagram

/-! ### Documents -/

namespace Document

variable {T G : Type}

/-- Whether there is a warning about a target of a step. -/
def Parsed.Reports (parsed : Parsed T G) (s : Step T) (t : Target) : Prop :=
  ∃ span, (Fault.unknownTarget s.number t).located span ∈ parsed.warnings

variable [Scalar T] [Scalar G] [Narrow T G] {source : String} {parsed : Parsed T G}

theorem mem_unknownTargets (ok : parse source = .ok parsed) {w : Diagnostic} :
    w ∈ parsed.warnings ∧ w.code = some .unknownTarget ↔
      ∃ p ∈ placedSteps T G source, ∃ t ∈ p.step.targets, isKnownTarget parsed.diagram t = false ∧
        w = (Fault.unknownTarget p.step.number t).located p.span := by
  rw [← mem_withCode, parse_unknownTargets ok]
  simp only [checkTargets, List.mem_flatMap, List.mem_map, List.mem_filter, Bool.not_eq_true',
    and_assoc, eq_comm (a := w)]

theorem reports_iff (ok : parse source = .ok parsed) {s : Step T} (step : s ∈ parsed.diagram.steps)
    {t : Target} (target : t ∈ s.targets) :
    parsed.Reports s t ↔ isKnownTarget parsed.diagram t = false := by
  rw [parse_steps ok] at step
  obtain ⟨p, placed, rfl⟩ := List.mem_map.mp step
  have written : ∀ p ∈ placedSteps T G source, p.step.Written := stepsOf_written _
  constructor
  · rintro ⟨span, warned⟩
    obtain ⟨q, placed', u, target', unknown, same⟩ := (mem_unknownTargets ok).mp ⟨warned, rfl⟩
    obtain ⟨_, rfl⟩ := message_unknownTarget_injective (written p placed t target)
      (written q placed' u target') (congrArg Diagnostic.message same)
    exact unknown
  · intro unknown
    exact ⟨p.span, ((mem_unknownTargets ok).mpr ⟨p, placed, t, target, unknown, rfl⟩).1⟩

/-- The warnings about unknown targets are about targets of the steps. One that is none of the words
for many entities is warned about if and only if it names nothing in the diagram. So whatever stands
for something in its step is not warned about, and what is not warned about stands for something, unless
the action takes entities of one kind only and the target names entities of the other kind. -/
theorem parse_reports (ok : parse source = .ok parsed) :
    let d := parsed.diagram
    (∀ w ∈ parsed.warnings, w.code = some .unknownTarget →
      ∃ s ∈ d.steps, ∃ t ∈ s.targets, ∃ span, w = (Fault.unknownTarget s.number t).located span) ∧
    ∀ s ∈ d.steps, s.action ≠ .annotate → ∀ t ∈ s.targets, t ∉ targetWords.map Target.entity →
      (¬ parsed.Reports s t ↔ d.Names t) ∧
      (d.resolve s.action t ≠ [] → ¬ parsed.Reports s t) ∧
      (s.action ∈ [.hide, .move, .transform, .camera] →
        (d.resolve s.action t ≠ [] ↔ ¬ parsed.Reports s t)) ∧
      (¬ parsed.Reports s t → d.resolve s.action t ≠ [] ∨ d.Mismatched s.action (d.expand t)) := by
  intro d
  refine ⟨fun w member code => ?_, fun s step acts t target other => ?_⟩
  · obtain ⟨p, placed, t, target, _, same⟩ := (mem_unknownTargets ok).mp ⟨member, code⟩
    have step : p.step ∈ d.steps := by
      rw [parse_steps ok]
      exact List.mem_map_of_mem placed
    exact ⟨p.step, step, t, target, p.span, same⟩
  · have known : ¬ parsed.Reports s t ↔ d.Names t := by
      rw [reports_iff ok step target, Bool.not_eq_false, Diagram.isKnownTarget_iff other]
    have names : ¬ parsed.Reports s t ↔ d.expand t ≠ [] :=
      known.trans (Diagram.expand_ne_nil other).symm
    refine ⟨known, fun something => names.mpr fun nothing => ?_, fun both => ?_, fun silent => ?_⟩
    · have none := Diagram.resolve_subset (d := d) other s.action
      rw [nothing] at none
      exact something (List.subset_nil.mp none)
    · have same : d.resolve s.action t = d.expand t := by
        generalize s.action = action at both
        simp only [List.mem_cons, List.not_mem_nil, or_false] at both
        rcases both with rfl | rfl | rfl | rfl <;> rfl
      rw [same]
      exact names.symm
    · by_cases nothing : d.resolve s.action t = []
      · exact .inr (Diagram.mismatched_of_resolve other acts (names.mp silent) nothing)
      · exact .inl nothing

/-- A step with a target that is there and one that is not. -/
theorem parse_reports_missing : ∃ (parsed : Parsed Rat Rat) (s : Step Rat),
    parse "flowchart LR\nA --> B\n@animation\nstep 1: hide A, Z\n@end" = .ok parsed ∧
    s ∈ parsed.diagram.steps ∧ ¬ parsed.Reports s (.entity "A") ∧ parsed.Reports s (.entity "Z") := by
  obtain ⟨parsed, ok, facts⟩ := exists_parsed_of (T := Rat) (G := Rat)
    "flowchart LR\nA --> B\n@animation\nstep 1: hide A, Z\n@end"
    (p := fun parsed => parsed.diagram.nodeIds = ["A", "B"] ∧ parsed.diagram.edgeIds = ["A_to_B"] ∧
      parsed.diagram.steps.map (fun s => (s.action, s.targets)) =
        [(.hide, [.entity "A", .entity "Z"])]) (by decide +kernel)
  obtain ⟨nodes, edges, steps⟩ := of_decide_eq_true facts
  obtain ⟨s, only, step⟩ := List.map_eq_singleton_iff.mp steps
  obtain ⟨action, targets⟩ := Prod.mk.inj step
  have member : s ∈ parsed.diagram.steps := only ▸ List.mem_cons_self
  have reports (id : String) (target : .entity id ∈ s.targets)
      (other : Target.entity id ∉ targetWords.map Target.entity) :
      ¬ parsed.Reports s (.entity id) ↔ id ∈ ["A", "B"] ∨ id ∈ ["A_to_B"] := by
    have facts := ((parse_reports ok).2 s member (by simp [action]) _ target other).1
    rwa [Diagram.Names, nodes, edges] at facts
  refine ⟨parsed, s, ok, member, (reports "A" (by simp [targets]) (by decide)).mpr (by decide), ?_⟩
  by_contra silent
  exact absurd ((reports "Z" (by simp [targets]) (by decide)).mp silent) (by decide)

/-- A step that would show an edge: the target names something, so there is no warning, but it stands
for nothing in the step. -/
theorem parse_reports_no_edge : ∃ parsed : Parsed Rat Rat,
    parse "flowchart LR\nA --> B\n@animation\nstep 1: show A_to_B\n@end" = .ok parsed ∧
    parsed.warnings = [] ∧
    parsed.diagram.steps.map (fun s => (s.action, s.targets)) = [(.reveal, [.entity "A_to_B"])] ∧
    parsed.diagram.resolve .reveal (.entity "A_to_B") = [] := by
  obtain ⟨parsed, ok, facts⟩ := exists_parsed_of (T := Rat) (G := Rat)
    "flowchart LR\nA --> B\n@animation\nstep 1: show A_to_B\n@end"
    (p := fun parsed => parsed.warnings = [] ∧
      parsed.diagram.steps.map (fun s => (s.action, s.targets)) = [(.reveal, [.entity "A_to_B"])] ∧
      parsed.diagram.resolve .reveal (.entity "A_to_B") = []) (by decide +kernel)
  exact ⟨parsed, ok, of_decide_eq_true facts⟩

end Document

end Storyboard
