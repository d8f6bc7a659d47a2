import Storyboard.Proofs.Timeline.Composition

/-!
# Resolution of targets

`Diagram.resolve` says which entities a target stands for in a step of an action. Targets that stand
for none can be left out of a diagram, and a step that shows, hides or highlights makes one cue for
each entity that its targets stand for, in the order in which they are first mentioned
(`compile_resolves`).
-/

namespace Storyboard

namespace Diagram

/-! ### What targets stand for -/

section

variable {T G : Type} (d : Diagram T G)

/-- The entities that a target stands for in a step of the action: nodes where it takes nodes, an edge
where it draws edges, and else whatever the target names. -/
def resolve (action : Action) (t : Target) : List String :=
  match action with
  | .reveal | .highlight | .unhighlight => (d.expand t).filter (fun id => (d.node? id).isSome)
  | .connect =>
    match t with
    | .pair source target => ((d.edgeBetween? source target).map Edge.id).toList
    | .entity id => ((d.edge? id).map Edge.id).toList
  | .hide | .move | .transform | .camera => d.expand t
  | .annotate => []

/-- A step without the targets that stand for nothing in it. -/
def prunedStep (s : Step T) : Step T :=
  { s with targets := s.targets.filter (fun t => !(d.resolve s.action t).isEmpty) }

/-- The diagram without the targets that stand for nothing in their steps. -/
def pruned : Diagram T G := d.withSteps (d.steps.map d.prunedStep)

variable {d} {s : Step T} {p : Target → Bool}

theorem nodeTargets_eq {action : Action}
    (nodes : action = .reveal ∨ action = .highlight ∨ action = .unhighlight) (s : Step T) :
    d.nodeTargets s = (s.targets.flatMap (d.resolve action)).eraseDups := by
  have same : d.resolve action = fun t => (d.expand t).filter (fun id => (d.node? id).isSome) := by
    rcases nodes with rfl | rfl | rfl <;> rfl
  rw [same, ← List.filter_flatMap, eraseDups_filter]
  rfl

theorem nodeTargets_filter {action : Action}
    (nodes : action = .reveal ∨ action = .highlight ∨ action = .unhighlight)
    (nothing : ∀ t ∈ s.targets, p t = false → d.resolve action t = []) :
    d.nodeTargets { s with targets := s.targets.filter p } = d.nodeTargets s := by
  rw [nodeTargets_eq nodes, nodeTargets_eq nodes, flatMap_filter nothing]

theorem entityTargets_filter (nothing : ∀ t ∈ s.targets, p t = false → d.expand t = []) :
    d.entityTargets { s with targets := s.targets.filter p } = d.entityTargets s := by
  rw [entityTargets, flatMap_filter nothing]
  rfl

theorem edgeTargets_filter (nothing : ∀ t ∈ s.targets, p t = false → d.resolve .connect t = []) :
    d.edgeTargets { s with targets := s.targets.filter p } = d.edgeTargets s := by
  have none : ∀ t ∈ s.targets, p t = false → d.edgeTargets { s with targets := [t] } = [] := by
    intro t member dropped
    have empty := nothing t member dropped
    cases t <;> simpa [resolve, edgeTargets] using empty
  have each (targets : List Target) : d.edgeTargets { s with targets } =
      targets.flatMap fun t => d.edgeTargets { s with targets := [t] } := by
    induction targets with
    | nil => rfl
    | cons t rest ih =>
      rw [List.flatMap_cons, ← ih]
      exact List.filterMap_append (l := [t])
  rw [each, flatMap_filter none, ← each]

end

/-! ### Steps that do the same -/

section

variable {T G : Type} [Scalar T] [Scalar G] [Narrow T G] (d : Diagram T G) (o : CompileOptions G)

/-- The steps have one number, show the same nodes and make the same of every start. -/
structure Alike (s s' : Step T) : Prop where
  number : s.number = s'.number
  action : s.action = s'.action
  nodes : s.action = .reveal → d.nodeTargets s = d.nodeTargets s'
  schedule : ∀ known start, d.schedule o known s start = d.schedule o known s' start

variable {d o} {steps steps' : List (Step T)}

theorem Alike.refl (s : Step T) : d.Alike o s s :=
  ⟨rfl, rfl, fun _ => rfl, fun _ _ => rfl⟩

theorem groups_alike (alike : List.Forall₂ (d.Alike o) steps steps') :
    List.Forall₂ (fun g g' => g.1 = g'.1 ∧ List.Forall₂ (d.Alike o) g.2 g'.2)
      (groups steps) (groups steps') := by
  have numbers : steps.map Step.number = steps'.map Step.number := by
    induction alike with
    | nil => rfl
    | cons first _ ih => exact congrArg₂ List.cons first.number ih
  have own (n : Nat) : List.Forall₂ (d.Alike o) (steps.filter (fun s => s.number == n))
      (steps'.filter (fun s => s.number == n)) :=
    List.rel_filter (fun _ _ same => iff_of_eq (congrArg (fun m => (m == n) = true) same.number))
      alike
  rw [groups, groups, ← numbers, List.forall₂_map_left_iff, List.forall₂_map_right_iff,
    List.forall₂_same]
  exact fun n _ => ⟨rfl, own n⟩

theorem shownNodes_alike (alike : List.Forall₂ (d.Alike o) steps steps') :
    (d.withSteps steps).shownNodes = (d.withSteps steps').shownNodes := by
  induction alike with
  | nil => rfl
  | @cons s s' steps steps' first _ ih =>
    have cons (s : Step T) (rest : List (Step T)) : (d.withSteps (s :: rest)).shownNodes =
        (if s.action = .reveal then d.nodeTargets s else []) ++ (d.withSteps rest).shownNodes := by
      by_cases reveals : s.action = .reveal <;> simp [shownNodes, withSteps, reveals] <;> rfl
    rw [cons, cons, ih, ← first.action]
    split
    · next reveals => rw [first.nodes reveals]
    · rfl

/-- A diagram compiles to the same timeline with steps that do the same. -/
theorem compile_alike (alike : List.Forall₂ (d.Alike o) steps steps') :
    (d.withSteps steps).compile o = (d.withSteps steps').compile o := by
  have step (start : T) (c : Compiled T G) (s s' : Step T) (same : d.Alike o s s') :
      d.compileStep o start c s = d.compileStep o start c s' := by
    rw [compileStep, compileStep, same.schedule]
  have group (c : Compiled T G) (g g' : Nat × List (Step T))
      (same : g.1 = g'.1 ∧ List.Forall₂ (d.Alike o) g.2 g'.2) :
      d.compileGroup o c g = d.compileGroup o c g' := by
    obtain ⟨number, own⟩ := same
    unfold compileGroup
    dsimp only
    rw [number, foldl_forall₂ (step c.cursor) own]
  have compiled : (groups steps).foldl (d.compileGroup o) { cursor := 0 } =
      (groups steps').foldl (d.compileGroup o) { cursor := 0 } :=
    foldl_forall₂ group (groups_alike alike) _
  have initial : (d.withSteps steps).initialStates o = (d.withSteps steps').initialStates o := by
    rw [initialStates, initialStates, shownNodes_alike alike]
    rfl
  rw [compile, compile, initial]
  exact congrArg (fun c => (⟨c.cues.mergeSort (fun a b => decide (a.start ≤ b.start)), c.boundaries,
    (d.withSteps steps').initialStates o, c.baseColors⟩ : Timeline T G)) compiled

/-! ### Compiling with fewer targets -/

theorem schedule_filter (known : OrderedMap String (Color G)) {s : Step T} {p : Target → Bool}
    (nothing : ∀ t ∈ s.targets, p t = false → d.resolve s.action t = []) (start : T) :
    d.schedule o known { s with targets := s.targets.filter p } start =
      d.schedule o known s start := by
  obtain ⟨number, action, targets, properties⟩ := s
  unfold schedule
  cases action with
  | reveal =>
    simp only [nodeTargets_filter (.inl rfl) nothing]
    rfl
  | highlight =>
    simp only [nodeTargets_filter (.inr (.inl rfl)) nothing]
    rfl
  | unhighlight =>
    simp only [nodeTargets_filter (.inr (.inr rfl)) nothing]
    rfl
  | connect =>
    simp only [edgeTargets_filter nothing]
    rfl
  | camera =>
    simp only [cameraMove?, cameraTargets, entityTargets_filter nothing]
    rfl
  | hide | move | transform =>
    simp only [entityTargets_filter nothing]
    rfl
  | annotate => rfl

variable (d o)

theorem compile_pruned : d.pruned.compile o = d.compile o := by
  refine compile_alike (List.forall₂_map_left_iff.mpr (List.forall₂_same.mpr fun s _ => ?_))
  have nothing : ∀ t ∈ s.targets, (!(d.resolve s.action t).isEmpty) = false →
      d.resolve s.action t = [] := fun t _ dropped => by simpa using dropped
  exact ⟨rfl, rfl, fun reveals => nodeTargets_filter (.inl reveals) (reveals ▸ nothing),
    fun known start => schedule_filter known nothing start⟩

end

end Diagram

/-! ### What each step makes -/

/-- What one group of steps compiles to: each of its steps with the cues that the step makes. -/
structure Passage (T G : Type) where
  number : Nat
  start : T
  parts : List (Step T × List (Cue T G))

section

variable {T G : Type} [Scalar T] [Scalar G] [Narrow T G]

/-- The marker of the group, then the cues of its steps. -/
def Passage.cues (p : Passage T G) : List (Cue T G) :=
  .of (.step p.number) p.start 0 .linear :: p.parts.flatMap Prod.snd

namespace Diagram

variable (d : Diagram T G) (o : CompileOptions G)

def parts (start : T) : OrderedMap String (Color G) → List (Step T) → List (Step T × List (Cue T G))
  | _, [] => []
  | known, s :: rest =>
    let r := d.schedule o known s start
    (s, r.cues) :: parts start r.baseColors rest

def passage (c : Compiled T G) (group : Nat × List (Step T)) : Passage T G :=
  ⟨group.1, c.cursor, d.parts o c.cursor c.baseColors group.2⟩

def passagesFrom : Compiled T G → List (Nat × List (Step T)) → List (Passage T G)
  | _, [] => []
  | c, group :: rest => d.passage o c group :: passagesFrom (d.compileGroup o c group) rest

/-- The diagram's groups in the order in which they are played. -/
def passages : List (Passage T G) := d.passagesFrom o { cursor := 0 } (groups d.steps)

variable {d o}

theorem parts_steps (start : T) (known : OrderedMap String (Color G)) (steps : List (Step T)) :
    (d.parts o start known steps).map Prod.fst = steps := by
  induction steps generalizing known with
  | nil => rfl
  | cons s rest ih => exact congrArg (s :: ·) (ih _)

theorem parts_cues (start : T) (steps : List (Step T)) (c : Compiled T G) :
    (steps.foldl (d.compileStep o start) c).cues =
        c.cues ++ (d.parts o start c.baseColors steps).flatMap Prod.snd ∧
      (steps.foldl (d.compileStep o start) c).boundaries = c.boundaries := by
  induction steps generalizing c with
  | nil => exact ⟨(List.append_nil _).symm, rfl⟩
  | cons s rest ih =>
    obtain ⟨cues, boundaries⟩ := ih (d.compileStep o start c s)
    refine ⟨?_, boundaries⟩
    rw [List.foldl_cons, cues, parts, List.flatMap_cons, ← List.append_assoc]
    rfl

theorem mem_parts {start : T} {known : OrderedMap String (Color G)} {steps : List (Step T)}
    {part : Step T × List (Cue T G)} (member : part ∈ d.parts o start known steps) :
    ∃ known, part.2 = d.stepCues part.1 o known start := by
  induction steps generalizing known with
  | nil => cases member
  | cons s rest ih =>
    rcases List.mem_cons.mp member with rfl | later
    · exact ⟨known, d.schedule_cues o known s start⟩
    · exact ih later

theorem compileGroup_passage (c : Compiled T G) (group : Nat × List (Step T)) :
    (d.compileGroup o c group).cues = c.cues ++ (d.passage o c group).cues ∧
      ∃ stop, (d.compileGroup o c group).boundaries =
        c.boundaries ++ [⟨group.1, c.cursor, stop⟩] := by
  obtain ⟨cues, boundaries⟩ := parts_cues (d := d) (o := o) c.cursor group.2
    { c with cues := c.cues ++ [.of (.step group.1) c.cursor 0 .linear] }
  refine ⟨?_, _, congrArg (· ++ _) boundaries⟩
  refine cues.trans ?_
  rw [List.append_assoc]
  rfl

theorem passagesFrom_groups (groups : List (Nat × List (Step T))) (c : Compiled T G) :
    (d.passagesFrom o c groups).map (fun p => (p.number, p.parts.map Prod.fst)) = groups := by
  induction groups generalizing c with
  | nil => rfl
  | cons group rest ih =>
    rw [passagesFrom, List.map_cons, ih]
    exact congrArg (fun steps => (group.1, steps) :: rest) (parts_steps _ _ _)

theorem passagesFrom_compiled (groups : List (Nat × List (Step T))) (c : Compiled T G) :
    (groups.foldl (d.compileGroup o) c).cues =
        c.cues ++ (d.passagesFrom o c groups).flatMap Passage.cues ∧
      (groups.foldl (d.compileGroup o) c).boundaries.map (fun b => (b.step, b.start)) =
        c.boundaries.map (fun b => (b.step, b.start)) ++
          (d.passagesFrom o c groups).map (fun p => (p.number, p.start)) := by
  induction groups generalizing c with
  | nil => exact ⟨(List.append_nil _).symm, (List.append_nil _).symm⟩
  | cons group rest ih =>
    obtain ⟨cues, stop, boundaries⟩ := compileGroup_passage (d := d) (o := o) c group
    obtain ⟨later, ends⟩ := ih (d.compileGroup o c group)
    rw [List.foldl_cons, later, ends, cues, boundaries, passagesFrom]
    simp [passage]

theorem mem_passagesFrom {groups : List (Nat × List (Step T))} {c : Compiled T G}
    {p : Passage T G} (member : p ∈ d.passagesFrom o c groups)
    {part : Step T × List (Cue T G)} (inside : part ∈ p.parts) :
    ∃ known, part.2 = d.stepCues part.1 o known p.start := by
  induction groups generalizing c with
  | nil => cases member
  | cons group rest ih =>
    rcases List.mem_cons.mp member with rfl | later
    · exact mem_parts inside
    · exact ih later

/-! ### One cue for each entity -/

/-- The ids are those that the targets of a step stand for, each once, in the order in which they are
first mentioned. -/
structure Lists (d : Diagram T G) (s : Step T) (ids : List String) : Prop where
  distinct : ids.Nodup
  mem : ∀ id, id ∈ ids ↔ ∃ t ∈ s.targets, id ∈ d.resolve s.action t
  ordered : ids.Pairwise fun a b =>
    (s.targets.flatMap d.expand).idxOf a < (s.targets.flatMap d.expand).idxOf b

end Diagram

/-- What a step of an action does to each of its targets, if it shows, hides or highlights them. -/
def Action.leading? : Action → Option String
  | .reveal => some "enter"
  | .hide => some "exit"
  | .highlight => some "recolor"
  | .unhighlight => some "restore"
  | _ => none

/-- Whether the cue shows, hides or highlights an entity, and does not only go with one that does. -/
def Cue.leads (c : Cue T G) : Bool :=
  match c.operation with
  | .enter .. | .leave .. | .recolor .. | .restore .. => true
  | _ => false

namespace Diagram

variable {d : Diagram T G} {o : CompileOptions G} {s : Step T} {start : T}

omit [Scalar T] [Scalar G] [Narrow T G] in
theorem entityTargets_lists (all : d.resolve s.action = d.expand) : d.Lists s (d.entityTargets s) where
  distinct := eraseDups_nodup _
  mem id := by rw [entityTargets, List.mem_eraseDups, List.mem_flatMap, all]
  ordered := eraseDups_pairwise_idxOf _

omit [Scalar T] [Scalar G] [Narrow T G] in
theorem nodeTargets_lists
    (nodes : s.action = .reveal ∨ s.action = .highlight ∨ s.action = .unhighlight) :
    d.Lists s (d.nodeTargets s) where
  distinct := (eraseDups_nodup _).filter _
  mem id := by rw [nodeTargets_eq nodes, List.mem_eraseDups, List.mem_flatMap]
  ordered := (eraseDups_pairwise_idxOf _).filter _

omit [Scalar G] [Narrow T G] in
/-- If each target makes one cue that leads, these cues start one stagger after the other. -/
theorem leading_timed {name : String} {g : String × T → List (Cue T G)} (ids : List String)
    (each : ∀ e, ((g e).filter Cue.leads).map
      (fun c => (c.operation.name, c.operation.target?, c.start)) = [(name, some e.1, e.2)]) :
    (((timed s start ids).flatMap g).filter Cue.leads).map
        (fun c => (c.operation.name, c.operation.target?, c.start)) =
      ids.mapIdx fun k id =>
        (name, some id, start + s.properties.delay + Scalar.ofNat k * s.properties.stagger) := by
  rw [List.filter_flatMap, List.map_flatMap, List.mapIdx_eq_zipIdx_map, timed, List.flatMap_map]
  simp only [each, List.map_eq_flatMap]

theorem leading_stepCues {name : String} (leading : s.action.leading? = some name)
    (known : OrderedMap String (Color G)) : ∃ ids, d.Lists s ids ∧
      ((d.stepCues s o known start).filter Cue.leads).map
          (fun c => (c.operation.name, c.operation.target?, c.start)) =
        ids.mapIdx fun k id =>
          (name, some id, start + s.properties.delay + Scalar.ofNat k * s.properties.stagger) := by
  unfold stepCues
  cases action : s.action with
  | reveal =>
    rw [action] at leading
    obtain rfl := Option.some.inj leading
    refine ⟨_, nodeTargets_lists (.inl action), leading_timed _ fun e => ?_⟩
    rfl
  | hide =>
    rw [action] at leading
    obtain rfl := Option.some.inj leading
    refine ⟨_, entityTargets_lists ?_, leading_timed _ fun e => ?_⟩
    · rw [action]
      rfl
    · rfl
  | highlight =>
    rw [action] at leading
    obtain rfl := Option.some.inj leading
    refine ⟨_, nodeTargets_lists (.inr (.inl action)), leading_timed _ fun e => ?_⟩
    -- A glow and a pulse only go with the new color.
    unfold highlightCues
    dsimp only
    split <;> split <;> rfl
  | unhighlight =>
    rw [action] at leading
    obtain rfl := Option.some.inj leading
    refine ⟨_, nodeTargets_lists (.inr (.inr action)), leading_timed _ fun e => ?_⟩
    rfl
  | connect | move | transform | camera | annotate =>
    rw [action] at leading
    cases leading

/-- A diagram compiles to the same timeline without the targets that stand for nothing. It is made up
of what its groups compile to, and of that of their steps; and a step that shows, hides or highlights
makes one such cue for each entity that its targets stand for, each one stagger after the one before
it. What a target names is told by the words for many entities, by ids and by the ends of edges. -/
theorem compile_resolves (d : Diagram T G) (o : CompileOptions G) :
    d.pruned.compile o = d.compile o ∧
    (d.passages o).map (fun p => (p.number, p.parts.map Prod.fst)) = groups d.steps ∧
    (d.passages o).map (fun p => (p.number, p.start)) =
      (d.compile o).boundaries.map (fun b => (b.step, b.start)) ∧
    (d.compile o).cues =
      ((d.passages o).flatMap Passage.cues).mergeSort (fun a b => decide (a.start ≤ b.start)) ∧
    (∀ t ids, d.expand t = ids ↔ d.Expands t ids) ∧
    ∀ p ∈ d.passages o, ∀ part ∈ p.parts, ∀ name, part.1.action.leading? = some name →
      ∃ ids, d.Lists part.1 ids ∧
        (part.2.filter Cue.leads).map (fun c => (c.operation.name, c.operation.target?, c.start)) =
          ids.mapIdx fun k id => (name, some id,
            p.start + part.1.properties.delay + Scalar.ofNat k * part.1.properties.stagger) := by
  obtain ⟨cues, boundaries⟩ :=
    passagesFrom_compiled (d := d) (o := o) (groups d.steps) { cursor := 0 }
  refine ⟨d.compile_pruned o, passagesFrom_groups _ _, boundaries.symm, ?_,
    fun t ids => expand_eq_iff, ?_⟩
  · rw [compile, cues]
    rfl
  · intro p passage part inside name leading
    obtain ⟨known, made⟩ := mem_passagesFrom passage inside
    rw [made]
    exact leading_stepCues leading known

/-- A step that names its nodes twice, with an edge and a stranger among them. -/
def crowded : Diagram Rat Rat where
  nodes := [{ id := "A", label := "A" }, { id := "B", label := "B" }]
  edges := [{ id := "A_to_B", source := "A", target := "B" }]
  steps :=
    [{ number := 7, action := .reveal
       targets := [.entity "edges", .entity "B", .entity "C", .entity "all", .pair "A" "B", .entity "B"]
       properties := ⟨[("delay", .number 1), ("stagger", .number 2)]⟩ }]

theorem crowded_resolves :
    ∃ p ∈ crowded.passages .standard, ∃ part ∈ p.parts,
      part.1.action.leading? = some "enter" ∧ part.1.targets.length = 6 ∧
      (∃ ids, crowded.Lists part.1 ids ∧
        (part.2.filter Cue.leads).map (fun c => (c.operation.name, c.operation.target?, c.start)) =
          ids.mapIdx fun k id => ("enter", some id,
            p.start + part.1.properties.delay + Scalar.ofNat k * part.1.properties.stagger)) ∧
      (part.2.filter Cue.leads).map (fun c => (c.operation.name, c.operation.target?, c.start)) =
        [("enter", some "B", 1), ("enter", some "A", 3)] := by
  obtain ⟨_, _, _, _, _, leading⟩ := compile_resolves crowded .standard
  refine ⟨_, List.mem_cons_self, _, List.mem_cons_self, rfl, rfl, ?_, by decide +kernel⟩
  exact leading _ List.mem_cons_self _ List.mem_cons_self _ rfl

end Diagram

end

end Storyboard
