import Storyboard.Proofs.Lists
import Storyboard.Proofs.Timeline.Cues
import Storyboard.Proofs.Timeline.Groups

/-!
# What cues are about

Every cue comes from a step of the diagram, and the cues of every step are made. What an operation
changes is of the kind that the operation is for (`Diagram.Allows`): only nodes are shown and
highlighted, and only edges are drawn.
-/

namespace Storyboard

theorem Edge.connects_iff {G : Type} {e : Edge G} {a b : String} : e.connects a b = true ↔
    (e.source = a ∧ e.target = b) ∨ (e.directed = false ∧ e.source = b ∧ e.target = a) := by
  simp [connects, and_assoc]

namespace Diagram

variable {T G : Type} (d : Diagram T G)

/-! ### Targets -/

/-- The edge that a pair names: the first that goes from the one entity to the other or, where none
does, the first without direction that is written the other way round. -/
inductive Between (d : Diagram T G) (source target : String) : Option (Edge G) → Prop
  | straight {e : Edge G}
      (first : FirstWith (fun e => e.source = source ∧ e.target = target) d.edges (some e)) :
      Between d source target (some e)
  | turned {found : Option (Edge G)}
      (absent : ∀ e ∈ d.edges, ¬ (e.source = source ∧ e.target = target))
      (first : FirstWith (fun e => e.directed = false ∧ e.source = target ∧ e.target = source) d.edges
        found) : Between d source target found

/-- The entities that a target names. -/
inductive Expands (d : Diagram T G) : Target → List String → Prop
  | all : Expands d (.entity "all") (d.nodes.map Node.id ++ d.edges.map Edge.id)
  | nodes : Expands d (.entity "nodes") (d.nodes.map Node.id)
  | edges : Expands d (.entity "edges") (d.edges.map Edge.id)
  | own {id : String} (plain : id ∉ ["all", "nodes", "edges"])
      (inside : id ∈ d.nodes.map Node.id ∨ id ∈ d.edges.map Edge.id) : Expands d (.entity id) [id]
  | stranger {id : String} (plain : id ∉ ["all", "nodes", "edges"])
      (outside : ¬ (id ∈ d.nodes.map Node.id ∨ id ∈ d.edges.map Edge.id)) :
      Expands d (.entity id) []
  | pair {source target : String} {found : Option (Edge G)} (between : d.Between source target found) :
      Expands d (.pair source target) (found.map Edge.id).toList

theorem mem_nodeIds {id : String} : id ∈ d.nodeIds ↔ (d.node? id).isSome = true := by
  simp [nodeIds, node?]

theorem mem_edgeIds {id : String} : id ∈ d.edgeIds ↔ (d.edge? id).isSome = true := by
  simp [edgeIds, edge?]

variable {d} in
theorem contains_iff {id : String} : d.contains id = true ↔ id ∈ d.nodeIds ∨ id ∈ d.edgeIds := by
  rw [contains, Bool.or_eq_true, mem_nodeIds, mem_edgeIds]

variable {d} in
theorem edgeBetween?_eq_iff {source target : String} {found : Option (Edge G)} :
    d.edgeBetween? source target = found ↔ d.Between source target found := by
  have straight {first : Option (Edge G)} :
      d.edges.find? (fun e => e.source == source && e.target == target) = first ↔
        FirstWith (fun e => e.source = source ∧ e.target = target) d.edges first :=
    find?_eq_iff fun e _ => by simp
  have turned (absent : ∀ e ∈ d.edges, ¬ (e.source = source ∧ e.target = target)) :
      d.edges.find? (fun e => e.connects source target) = found ↔
        FirstWith (fun e => e.directed = false ∧ e.source = target ∧ e.target = source) d.edges
          found :=
    find?_eq_iff fun e member => by simp only [Edge.connects_iff, absent e member, false_or]
  unfold edgeBetween?
  constructor
  · intro joined
    cases first : d.edges.find? (fun e => e.source == source && e.target == target) with
    | some e =>
      rw [first] at joined
      exact joined ▸ .straight (straight.mp first)
    | none =>
      rw [first] at joined
      cases straight.mp first with
      | none absent => exact .turned absent ((turned absent).mp joined)
  · rintro (first | ⟨absent, first⟩)
    · rw [straight.mpr first]
      rfl
    · rw [straight.mpr (.none absent)]
      exact (turned absent).mpr first

theorem edgeBetween?_mem {source target : String} {e : Edge G}
    (found : d.edgeBetween? source target = some e) : e ∈ d.edges := by
  cases edgeBetween?_eq_iff.mp found with
  | straight first => exact first.mem
  | turned _ first => exact first.mem

variable {d} in
theorem expand_entity {id : String} (plain : id ∉ ["all", "nodes", "edges"]) :
    d.expand (.entity id) = if d.contains id then [id] else [] := by
  have other {word : String} (same : Target.entity id = .entity word)
      (listed : word ∈ ["all", "nodes", "edges"]) : False := plain (Target.entity.inj same ▸ listed)
  unfold expand
  split
  · next same => exact (other same (by decide)).elim
  · next same => exact (other same (by decide)).elim
  · next same => exact (other same (by decide)).elim
  · next same =>
    obtain rfl := Target.entity.inj same
    rfl
  · next same => cases same

variable {d} in
theorem expand_eq_iff {t : Target} {ids : List String} : d.expand t = ids ↔ d.Expands t ids := by
  constructor
  · rintro rfl
    cases t with
    | pair source target => exact .pair (edgeBetween?_eq_iff.mp rfl)
    | entity id =>
      by_cases word : id ∈ ["all", "nodes", "edges"]
      · simp only [List.mem_cons, List.not_mem_nil, or_false] at word
        rcases word with rfl | rfl | rfl
        · exact .all
        · exact .nodes
        · exact .edges
      · rw [expand_entity word]
        split
        · next inside => exact .own word (contains_iff.mp inside)
        · next outside => exact .stranger word fun inside => outside (contains_iff.mpr inside)
  · intro expands
    cases expands with
    | all | nodes | edges => rfl
    | own plain inside => rw [expand_entity plain, if_pos (contains_iff.mpr inside)]
    | stranger plain outside =>
      rw [expand_entity plain, if_neg fun inside => outside (contains_iff.mp inside)]
    | pair between => rw [expand, edgeBetween?_eq_iff.mpr between]

theorem expand_mem {t : Target} {id : String} (member : id ∈ d.expand t) :
    id ∈ d.nodeIds ∨ id ∈ d.edgeIds := by
  generalize names : d.expand t = ids at member
  cases expand_eq_iff.mp names with
  | all => exact List.mem_append.mp member
  | nodes => exact .inl member
  | edges => exact .inr member
  | own _ inside => exact List.mem_singleton.mp member ▸ inside
  | stranger => cases member
  | pair between =>
    rw [Option.mem_toList, Option.map_eq_some_iff] at member
    obtain ⟨e, rfl, rfl⟩ := member
    exact .inr (List.mem_map_of_mem (d.edgeBetween?_mem (edgeBetween?_eq_iff.mpr between)))

theorem entityTargets_mem {s : Step T} {id : String} (member : id ∈ d.entityTargets s) :
    id ∈ d.nodeIds ∨ id ∈ d.edgeIds := by
  obtain ⟨t, _, found⟩ := List.mem_flatMap.mp (List.mem_eraseDups.mp member)
  exact d.expand_mem found

theorem nodeTargets_mem {s : Step T} {id : String} (member : id ∈ d.nodeTargets s) :
    id ∈ d.nodeIds :=
  d.mem_nodeIds.mpr (List.mem_filter.mp member).2

theorem edgeTargets_mem {s : Step T} {e : Edge G} (member : e ∈ d.edgeTargets s) : e ∈ d.edges := by
  obtain ⟨t, _, found⟩ := List.mem_filterMap.mp member
  cases t with
  | entity id => exact List.mem_of_find?_eq_some found
  | pair source target => exact d.edgeBetween?_mem found

section

variable [ExactScalar T] [Scalar G] [Narrow T G] (o : CompileOptions G)

/-! ### Cues and steps -/

theorem foldl_compileStep_cues (start : T) (steps : List (Step T)) (c : Compiled T G) :
    ∃ known : List (Step T × OrderedMap String (Color G)), known.map Prod.fst = steps ∧
      (steps.foldl (d.compileStep o start) c).cues =
        c.cues ++ known.flatMap fun e => d.stepCues e.1 o e.2 start := by
  induction steps generalizing c with
  | nil => exact ⟨[], rfl, (List.append_nil _).symm⟩
  | cons s rest ih =>
    obtain ⟨known, steps, added⟩ := ih (d.compileStep o start c s)
    refine ⟨(s, c.baseColors) :: known, ?_, ?_⟩
    · rw [List.map_cons, steps]
    · have first : (d.compileStep o start c s).cues = c.cues ++ d.stepCues s o c.baseColors start := by
        rw [← schedule_cues]
        rfl
      rw [List.foldl_cons, added, first, List.flatMap_cons, List.append_assoc]

theorem compileGroup_cues (c : Compiled T G) (group : Nat × List (Step T)) :
    ∃ known : List (Step T × OrderedMap String (Color G)), known.map Prod.fst = group.2 ∧
      (d.compileGroup o c group).cues = c.cues ++
        .of (.step group.1) c.cursor (Scalar.ofNat 0) .linear ::
          known.flatMap fun e => d.stepCues e.1 o e.2 c.cursor := by
  obtain ⟨known, steps, added⟩ := d.foldl_compileStep_cues o c.cursor group.2
    { c with cues := c.cues ++ [.of (.step group.1) c.cursor (Scalar.ofNat 0) .linear] }
  refine ⟨known, steps, ?_⟩
  rw [← List.singleton_append, ← List.append_assoc]
  exact added

theorem foldl_compileGroup_grows (groups : List (Nat × List (Step T))) {c : Compiled T G}
    {cue : Cue T G} (member : cue ∈ c.cues) : cue ∈ (groups.foldl (d.compileGroup o) c).cues := by
  induction groups generalizing c with
  | nil => exact member
  | cons group rest ih =>
    obtain ⟨known, _, added⟩ := d.compileGroup_cues o c group
    refine ih ?_
    rw [added]
    exact List.mem_append_left _ member

/-- A cue of the compiled groups was there before, marks a group or comes from a step of one, and then
all cues of the step are there. -/
theorem mem_foldl_compileGroup (groups : List (Nat × List (Step T))) {c : Compiled T G}
    {cue : Cue T G} (member : cue ∈ (groups.foldl (d.compileGroup o) c).cues) :
    cue ∈ c.cues ∨ (∃ number, cue.operation = .step number) ∨
      ∃ group ∈ groups, ∃ s ∈ group.2, ∃ known start, cue ∈ d.stepCues s o known start ∧
        ∀ other ∈ d.stepCues s o known start, other ∈ (groups.foldl (d.compileGroup o) c).cues := by
  induction groups generalizing c with
  | nil => exact .inl member
  | cons group rest ih =>
    obtain ⟨known, steps, added⟩ := d.compileGroup_cues o c group
    rcases ih member with old | marker | ⟨other, inside, s, found⟩
    · rw [added, List.mem_append, List.mem_cons, List.mem_flatMap] at old
      rcases old with old | rfl | ⟨e, entry, new⟩
      · exact .inl old
      · exact .inr (.inl ⟨group.1, rfl⟩)
      · have step : e.1 ∈ group.2 := steps ▸ List.mem_map_of_mem entry
        refine .inr (.inr ⟨group, List.mem_cons_self, e.1, step, e.2, _, new, fun other made => ?_⟩)
        refine d.foldl_compileGroup_grows o rest ?_
        rw [added]
        refine List.mem_append_right _ (List.mem_cons_of_mem _ ?_)
        exact List.mem_flatMap.mpr ⟨e, entry, made⟩
    · exact .inr (.inl marker)
    · exact .inr (.inr ⟨other, List.mem_cons_of_mem _ inside, s, found⟩)

theorem stepCues_foldl_compileGroup {groups : List (Nat × List (Step T))}
    {group : Nat × List (Step T)} (inside : group ∈ groups) {s : Step T} (step : s ∈ group.2)
    (c : Compiled T G) : ∃ known start, ∀ cue ∈ d.stepCues s o known start,
      cue ∈ (groups.foldl (d.compileGroup o) c).cues := by
  induction groups generalizing c with
  | nil => cases inside
  | cons first rest ih =>
    rcases List.mem_cons.mp inside with rfl | later
    · obtain ⟨known, steps, added⟩ := d.compileGroup_cues o c group
      rw [← steps] at step
      obtain ⟨e, entry, rfl⟩ := List.mem_map.mp step
      refine ⟨e.2, c.cursor, fun cue member => d.foldl_compileGroup_grows o rest ?_⟩
      rw [added]
      refine List.mem_append_right _ (List.mem_cons_of_mem _ ?_)
      exact List.mem_flatMap.mpr ⟨e, entry, member⟩
    · exact ih later (d.compileGroup o c first)

theorem mem_made {cue : Cue T G} (member : cue ∈ d.made o) :
    (∃ number, cue.operation = .step number) ∨
      ∃ s ∈ d.steps, ∃ known start, cue ∈ d.stepCues s o known start ∧
        ∀ other ∈ d.stepCues s o known start, other ∈ d.made o := by
  rcases d.mem_foldl_compileGroup o (groups d.steps) member with old | marker |
    ⟨group, inside, s, step, found⟩
  · cases old
  · exact .inl marker
  · obtain ⟨number, _, rfl⟩ := List.mem_map.mp inside
    exact .inr ⟨s, (List.mem_filter.mp step).1, found⟩

theorem stepCues_made {s : Step T} (step : s ∈ d.steps) :
    ∃ known start, ∀ cue ∈ d.stepCues s o known start, cue ∈ d.made o := by
  have number : s.number ∈ (d.steps.map Step.number).eraseDups :=
    List.mem_eraseDups.mpr (List.mem_map_of_mem step)
  have group : (s.number, d.steps.filter (fun other => other.number == s.number)) ∈ groups d.steps :=
    List.mem_map_of_mem number
  exact d.stepCues_foldl_compileGroup o group (List.mem_filter.mpr ⟨step, beq_self_eq_true _⟩) _

theorem mem_compile {cue : Cue T G} : cue ∈ (d.compile o).cues ↔ cue ∈ d.made o :=
  (d.compile_plays o).perm.mem_iff

/-! ### Kinds -/

theorem isSome_initial {id : String} :
    ((d.compile o).initial.get? id).isSome = true ↔ id ∈ d.nodeIds ∨ id ∈ d.edgeIds := by
  rw [show (d.compile o).initial = d.initialStates o from rfl, initialStates,
    OrderedMap.isSome_get?_ofList]
  simp

theorem initial_cases {id : String} {a : Appearance G}
    (found : (d.compile o).initial.get? id = some a) :
    (∃ visible fill, a = .ofNode visible fill) ∨ ∃ stroke, a = .ofEdge stroke := by
  rcases List.mem_append.mp (OrderedMap.mem_of_get?_ofList found) with node | edge
  · obtain ⟨_, _, same⟩ := List.mem_map.mp node
    exact .inl ⟨_, _, (Prod.mk.inj same).2.symm⟩
  · obtain ⟨_, _, same⟩ := List.mem_map.mp edge
    exact .inr ⟨_, (Prod.mk.inj same).2.symm⟩

/-- Whether an operation changes something of the kind that it is for. Only a node that some step
shows is let in. -/
def Allows : Operation G → Prop
  | .enter id _ => id ∈ d.shownNodes ∧ id ∈ d.nodeIds
  | .recolor id _ | .glow id | .pulse id | .restore id _ => id ∈ d.nodeIds
  | .draw id _ | .revealLabel id => id ∈ d.edgeIds
  | .leave id _ | .move id _ _ | .transform id _ _ => id ∈ d.nodeIds ∨ id ∈ d.edgeIds
  | .step _ | .camera _ => True

variable {d} in
omit [ExactScalar T] [Scalar G] [Narrow T G] in
theorem Makes.allowed {s : Step T} {known : OrderedMap String (Color G)} {operation : Operation G}
    (makes : d.Makes s known operation) (step : s ∈ d.steps) : d.Allows operation := by
  cases makes with
  | enter action target =>
    have shows : s ∈ d.steps.filter (fun s => s.action == .reveal) :=
      List.mem_filter.mpr ⟨step, by simp [action]⟩
    exact ⟨List.mem_flatMap.mpr ⟨s, shows, target⟩, d.nodeTargets_mem target⟩
  | recolor _ target | glow _ target | pulse _ target | restore _ target =>
    exact d.nodeTargets_mem target
  | draw _ target | revealLabel _ target => exact List.mem_map_of_mem (d.edgeTargets_mem target)
  | leave _ target | move _ target | transform _ target => exact d.entityTargets_mem target
  | camera => trivial

theorem made_allowed {cue : Cue T G} (member : cue ∈ d.made o) : d.Allows cue.operation := by
  rcases d.mem_made o member with ⟨number, marker⟩ | ⟨s, step, known, start, found, _⟩
  · exact marker ▸ trivial
  · exact (d.stepCues_makes s o found).allowed step

/-- Every node that some step shows is let in. -/
theorem exists_enter_made {id : String} (shown : id ∈ d.shownNodes) :
    ∃ cue ∈ d.made o, ∃ effect, cue.operation = .enter id effect := by
  obtain ⟨s, shows, target⟩ := List.mem_flatMap.mp shown
  obtain ⟨step, action⟩ := List.mem_filter.mp shows
  obtain ⟨known, start, made⟩ := d.stepCues_made o step
  obtain ⟨time, entry⟩ := exists_mem_timed s start target
  refine ⟨.of (.enter id s.properties.entrance) time s.properties.duration (easeOf s default),
    made _ ?_, s.properties.entrance, rfl⟩
  unfold stepCues
  rw [eq_of_beq action]
  exact List.mem_flatMap.mpr ⟨_, entry, List.mem_singleton.mpr rfl⟩

end

end Diagram

end Storyboard
