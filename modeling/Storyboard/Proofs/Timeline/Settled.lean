import Storyboard.Proofs.Timeline.Drawing

/-!
# The end of a timeline

At the end of a timeline every cue is over, and so what there is to see depends on the operations and
their order alone: not on curves and durations. Each part of an entity is as the last operation left
it that sets that part (`compile_settles`).
-/

namespace Storyboard

variable {T G : Type}

/-! ### What operations set -/

namespace Operation

/-- Whether a node is in: an entrance brings it in, an exit takes it out. -/
def entered? (id : String) : Operation G → Option Bool
  | enter target _ => if target = id then some true else none
  | leave target _ => if target = id then some false else none
  | _ => none

/-- Whether an edge is in: a drawing brings it in, an exit takes it out. -/
def drawn? (id : String) : Operation G → Option Bool
  | draw target _ => if target = id then some true else none
  | leave target _ => if target = id then some false else none
  | _ => none

def filled? (id : String) : Operation G → Option (Color G)
  | recolor target color => if target = id then some color else none
  | restore target color => if target = id then color else none
  | _ => none

def glowing? (id : String) : Operation G → Option Bool
  | glow target => if target = id then some true else none
  | restore target _ => if target = id then some false else none
  | _ => none

end Operation

/-- What the last of the operations sets that sets something. -/
def lastSet? {β : Type} (sets : Operation G → Option β) (operations : List (Operation G)) :
    Option β :=
  (operations.filterMap sets).getLast?

/-- All or nothing. -/
def whole [Scalar G] (b : Bool) : G := if b then 1 else 0

namespace Appearance

/-- The appearance of an entity with an operation over, if the operation is about the entity. -/
def settle [Scalar G] (id : String) (a : Appearance G) (o : Operation G) : Appearance G :=
  if o.target? = some id then a.apply o 1 else a

variable [ExactScalar G] {id : String} {o : Operation G} {operations : List (Operation G)}

/-! ### One operation -/

theorem settle_fill (a : Appearance G) :
    (a.settle id o).fill = ((o.filled? id).map some).getD a.fill := by
  cases o with
  | recolor target color =>
    by_cases same : target = id <;>
      simp [settle, Operation.target?, Operation.filled?, apply, blend, same, Color.mix_of_le]
  | restore target color =>
    cases color <;> by_cases same : target = id <;>
      simp [settle, Operation.target?, Operation.filled?, apply, blend, same, Color.mix_of_le]
  | _ =>
    simp only [settle, Operation.filled?, Option.map_none, Option.getD_none]
    split <;> rfl

theorem settle_glow (a : Appearance G) :
    (a.settle id o).glow = ((o.glowing? id).map whole).getD a.glow := by
  cases o with
  | glow target | restore target =>
    by_cases same : target = id <;>
      simp [settle, Operation.target?, Operation.glowing?, apply, same, tween_one, whole]
  | _ =>
    simp only [settle, Operation.glowing?, Option.map_none, Option.getD_none]
    split <;> rfl

theorem settle_node_opacity (never : ∀ flow, o ≠ .draw id flow) (a : Appearance G) :
    (a.settle id o).opacity = ((o.entered? id).map whole).getD a.opacity := by
  cases o with
  | enter target | leave target =>
    by_cases same : target = id <;>
      simp [settle, Operation.target?, Operation.entered?, apply, same, tween_one, whole]
  | draw target flow =>
    have other : target ≠ id := fun same => never flow (same ▸ rfl)
    simp [settle, Operation.target?, Operation.entered?, other]
  | _ =>
    simp only [settle, Operation.entered?, Option.map_none, Option.getD_none]
    split <;> rfl

theorem settle_edge_opacity (never : ∀ effect, o ≠ .enter id effect) (a : Appearance G) :
    (a.settle id o).opacity = ((o.drawn? id).map whole).getD a.opacity := by
  cases o with
  | draw target | leave target =>
    by_cases same : target = id <;>
      simp [settle, Operation.target?, Operation.drawn?, apply, same, tween_one, whole]
  | enter target effect =>
    have other : target ≠ id := fun same => never effect (same ▸ rfl)
    simp [settle, Operation.target?, Operation.drawn?, other]
  | _ =>
    simp only [settle, Operation.drawn?, Option.map_none, Option.getD_none]
    split <;> rfl

/-- Nothing is under way with an operation that is over. -/
theorem settle_still {a : Appearance G} (still : a.motion = none ∧ a.pulse = 0) :
    (a.settle id o).motion = none ∧ (a.settle id o).pulse = 0 := by
  unfold settle
  split
  · cases o <;> simp [apply, still]
  · exact still

/-! ### A run of operations -/

theorem foldl_settle_still {a : Appearance G} (still : a.motion = none ∧ a.pulse = 0) :
    (operations.foldl (settle id) a).motion = none ∧
      (operations.foldl (settle id) a).pulse = 0 := by
  induction operations generalizing a with
  | nil => exact still
  | cons o rest ih => exact ih (settle_still still)

/-- A part of an appearance that some operations set, and all others leave, is as the last of those
has set it. -/
theorem foldl_settle_last {β γ : Type} {read : Appearance G → γ} {value : β → γ}
    {sets : Operation G → Option β}
    (each : ∀ o ∈ operations, ∀ a, read (settle id a o) = ((sets o).map value).getD (read a))
    (a : Appearance G) :
    read (operations.foldl (settle id) a) =
      ((lastSet? sets operations).map value).getD (read a) := by
  induction operations generalizing a with
  | nil => rfl
  | cons o rest ih =>
    rw [List.foldl_cons, ih fun o later => each o (List.mem_cons_of_mem _ later),
      each o List.mem_cons_self, lastSet?, lastSet?]
    cases first : sets o with
    | none => simp [first]
    | some b =>
      rw [List.filterMap_cons_some first, List.getLast?_cons]
      cases (rest.filterMap sets).getLast? <;> rfl

end Appearance

variable [ExactScalar T] [ExactScalar G] [ExactNarrow T G]

/-- Cues that are over have settled. -/
theorem Appearance.foldl_play_settle {id : String} {cues : List (Cue T G)} {time : T}
    (ended : ∀ c ∈ cues, c.progress time = 1) (a : Appearance G) :
    cues.foldl (play id time) a = (cues.map Cue.operation).foldl (settle id) a := by
  induction cues generalizing a with
  | nil => rfl
  | cons c rest ih =>
    have first : play id time a c = settle id a c.operation := by
      rw [play, ended c List.mem_cons_self, ExactNarrow.narrow_one, settle, ExactScalar.one_eq]
    rw [List.foldl_cons, first, ih fun c later => ended c (List.mem_cons_of_mem _ later)]
    rfl

namespace Diagram

variable {d : Diagram T G} {o : CompileOptions G}

theorem progress_at_end {c : Cue T G} (member : c ∈ (d.compile o).cues) :
    c.progress (d.compile o).duration = 1 := by
  have within := d.compile_within o member
  exact Cue.progress_of_stop within.forward within.2.2

/-- The last frame shows what the operations make of the beginning when each of them is over. -/
theorem sample_end (id : String) :
    ((d.compile o).sample (d.compile o).duration).states.get? id =
      ((d.compile o).initial.get? id).map
        (((d.compile o).cues.map Cue.operation).foldl (Appearance.settle id)) := by
  have now : (d.compile o).cut (d.compile o).duration = (d.compile o).duration :=
    Timeline.cut_of_mem (Tiling.nonneg (d.compile_tiled o)) le_rfl
  have all : (d.compile o).cues.takeWhile (fun c => c.start ≤ (d.compile o).duration) =
      (d.compile o).cues := by
    refine List.takeWhile_eq_self_iff.mpr fun c member => decide_eq_true ?_
    have within := d.compile_within o member
    exact within.forward.trans within.2.2
  rw [Timeline.sample, Frame.sample_get?, now, all]
  congr 1
  funext a
  exact Appearance.foldl_play_settle (fun c => progress_at_end) a

theorem initial_still (distinct : (d.nodeIds ++ d.edgeIds).Nodup) {id : String}
    (entity : id ∈ d.nodeIds ∨ id ∈ d.edgeIds) {first : Appearance G}
    (found : (d.compile o).initial.get? id = some first) :
    (first.motion = none ∧ first.pulse = 0) ∧ first.glow = 0 := by
  rcases entity with node | edge
  · rw [d.initial_node o distinct node] at found
    obtain rfl := Option.some.inj found
    simp [Appearance.ofNode, Appearance.hidden]
  · rw [d.initial_edge o distinct edge] at found
    obtain rfl := Option.some.inj found
    simp [Appearance.ofEdge, Appearance.hidden]

theorem settled_node (distinct : (d.nodeIds ++ d.edgeIds).Nodup) {id : String}
    (node : id ∈ d.nodeIds) {first : Appearance G}
    (found : (d.compile o).initial.get? id = some first) :
    let operations := (d.compile o).cues.map Cue.operation
    (operations.foldl (Appearance.settle id) first).opacity =
      whole (lastSet? (Operation.entered? id) operations != some false) := by
  intro operations
  have never : ∀ operation ∈ operations, ∀ flow, operation ≠ .draw id flow := by
    rintro _ member flow rfl
    obtain ⟨c, cue, draws⟩ := List.mem_map.mp member
    have edge := (cue_target cue (by rw [draws]; rfl)).2.1 (by rw [draws]; rfl)
    exact (List.nodup_append.mp distinct).2.2 id node id edge rfl
  rw [Appearance.foldl_settle_last fun o member => Appearance.settle_node_opacity (never o member)]
  cases last : lastSet? (Operation.entered? id) operations with
  | some b => cases b <;> rfl
  | none =>
    -- No cue lets the node in, so no step shows it.
    have shown : id ∉ d.shownNodes := by
      intro shown
      obtain ⟨c, made, effect, enters⟩ := d.exists_enter_made o shown
      have member : Operation.enter id effect ∈ operations :=
        List.mem_map.mpr ⟨c, (d.mem_compile o).mpr made, enters⟩
      have silent := List.getLast?_eq_none_iff.mp last
      have sets := List.filterMap_eq_nil_iff.mp silent _ member
      simp [Operation.entered?] at sets
    rw [d.initial_node o distinct node] at found
    obtain rfl := Option.some.inj found
    simp [Appearance.ofNode, shown, whole]

theorem settled_edge (distinct : (d.nodeIds ++ d.edgeIds).Nodup) {id : String}
    (edge : id ∈ d.edgeIds) {first : Appearance G}
    (found : (d.compile o).initial.get? id = some first) :
    let operations := (d.compile o).cues.map Cue.operation
    let last := operations.foldl (Appearance.settle id) first
    last.opacity = whole (lastSet? (Operation.drawn? id) operations == some true) ∧
      last.drawn = whole ((d.compile o).cues.any (Cue.draws id)) ∧
      last.labelOpacity = whole ((d.compile o).cues.any (Cue.labels id)) := by
  intro operations last
  rw [d.initial_edge o distinct edge] at found
  obtain rfl := Option.some.inj found
  refine ⟨?_, ?_⟩
  · have never : ∀ operation ∈ operations, ∀ effect, operation ≠ .enter id effect := by
      rintro _ member effect rfl
      obtain ⟨c, cue, enters⟩ := List.mem_map.mp member
      exact edge_never_enters distinct edge cue effect enters
    rw [Appearance.foldl_settle_last fun o member => Appearance.settle_edge_opacity (never o member)]
    cases lastSet? (Operation.drawn? id) operations with
    | some b => cases b <;> rfl
    | none => rfl
  · have played : last = (d.compile o).cues.foldl (Appearance.play id (d.compile o).duration)
        (.ofEdge o.edgeStroke) := (Appearance.foldl_play_settle (fun c => progress_at_end) _).symm
    have ended : ∀ c ∈ (d.compile o).cues, c.concerns id = true →
        c.stop ≤ (d.compile o).duration := fun c member _ => (d.compile_within o member).2.2
    obtain ⟨drawn, label⟩ := Appearance.foldl_play_over
      (fun c member => (d.compile_within o member).forward) ended (.ofEdge o.edgeStroke)
    rw [played, drawn, label, Appearance.ofEdge_drawn, Appearance.ofEdge_labelOpacity]
    simp [whole]

/-- At the end every cue is over, and the last frame shows of each entity what the operations make of it
one after the other, whatever their curves and durations. Nothing is under way then, and each part of
the entity is as the last operation has set it that sets this part: a node is there if the last one
that lets it in or out lets it in, or if there is none; an edge if the last one that draws it or takes
it out draws it. -/
theorem compile_settles (d : Diagram T G) (o : CompileOptions G)
    (distinct : (d.nodeIds ++ d.edgeIds).Nodup) :
    let t := d.compile o
    let operations := t.cues.map Cue.operation
    (∀ c ∈ t.cues, c.progress t.duration = 1) ∧
    ∀ id, id ∈ d.nodeIds ∨ id ∈ d.edgeIds → ∃ first last, t.initial.get? id = some first ∧
      (t.sample t.duration).states.get? id = some last ∧
      last = operations.foldl (Appearance.settle id) first ∧
      last.motion = none ∧ last.pulse = 0 ∧
      last.fill = (lastSet? (Operation.filled? id) operations).or first.fill ∧
      last.glow = whole (lastSet? (Operation.glowing? id) operations == some true) ∧
      (id ∈ d.nodeIds →
        last.opacity = whole (lastSet? (Operation.entered? id) operations != some false)) ∧
      (id ∈ d.edgeIds →
        last.opacity = whole (lastSet? (Operation.drawn? id) operations == some true) ∧
        last.drawn = whole (t.cues.any (Cue.draws id)) ∧
        last.labelOpacity = whole (t.cues.any (Cue.labels id))) := by
  intro t operations
  refine ⟨fun c => progress_at_end, fun id entity => ?_⟩
  obtain ⟨first, found⟩ := Option.isSome_iff_exists.mp ((d.isSome_initial o).mpr entity)
  have last : (t.sample t.duration).states.get? id =
      some (operations.foldl (Appearance.settle id) first) := by
    rw [sample_end, found]
    rfl
  obtain ⟨calm, dark⟩ := initial_still distinct entity found
  obtain ⟨motion, pulse⟩ := Appearance.foldl_settle_still calm
  refine ⟨first, _, found, last, rfl, motion, pulse, ?_, ?_,
    fun node => settled_node distinct node found, fun edge => settled_edge distinct edge found⟩
  · rw [Appearance.foldl_settle_last fun o _ => Appearance.settle_fill]
    cases lastSet? (Operation.filled? id) operations <;> rfl
  · rw [Appearance.foldl_settle_last fun o _ => Appearance.settle_glow, dark]
    cases lastSet? (Operation.glowing? id) operations with
    | some b => cases b <;> rfl
    | none => simp [whole]

/-- A node that springs in, is highlighted, restored and hidden, and an edge that is hidden before it is
drawn. -/
def finale : Diagram Rat Rat where
  nodes := [{ id := "A", label := "A" }, { id := "B", label := "B" }]
  edges := [{ id := "A_to_B", source := "A", target := "B" }]
  steps :=
    [{ number := 1, action := .reveal, targets := [.entity "A"]
       properties := ⟨[("easing", .text "back")]⟩ },
      { number := 1, action := .highlight, targets := [.entity "nodes"]
        properties := ⟨[("glow", .bool true), ("pulse", .bool true)]⟩ },
      { number := 2, action := .hide, targets := [.entity "A", .entity "A_to_B"] },
      { number := 2, action := .unhighlight, targets := [.entity "A"] },
      { number := 2, action := .connect, targets := [.pair "A" "B"] }]

theorem finale_settles :
    let t := finale.compile .standard
    (finale.nodeIds ++ finale.edgeIds).Nodup ∧
    (∃ a, (t.sample t.duration).states.get? "A" = some a ∧ a.opacity = 0 ∧ a.glow = 0 ∧
      a.pulse = 0 ∧ a.fill = some (finale.baseColor .standard "A")) ∧
    (∃ a, (t.sample t.duration).states.get? "B" = some a ∧ a.opacity = 1 ∧ a.glow = 1) ∧
    ∃ a, (t.sample t.duration).states.get? "A_to_B" = some a ∧ a.opacity = 1 ∧ a.drawn = 1 ∧
      a.labelOpacity = 0 := by
  intro t
  have distinct : (finale.nodeIds ++ finale.edgeIds).Nodup := by decide
  obtain ⟨_, settled⟩ := compile_settles finale .standard distinct
  obtain ⟨_, a, _, last, _, _, pulse, fill, glow, node, _⟩ := settled "A" (by decide)
  obtain ⟨_, b, _, last', _, _, _, _, glow', node', _⟩ := settled "B" (by decide)
  obtain ⟨_, e, _, last'', _, _, _, _, _, _, edge⟩ := settled "A_to_B" (by decide)
  obtain ⟨opacity, drawn, label⟩ := edge (by decide)
  have made : (finale.compile .standard).cues = finale.made .standard :=
    List.mergeSort_of_pairwise (by decide +kernel)
  rw [made] at fill glow node glow' node' opacity drawn label
  have filled : lastSet? (Operation.filled? "A") ((finale.made .standard).map Cue.operation) =
      some (finale.baseColor .standard "A") := by decide +kernel
  rw [filled] at fill
  refine ⟨distinct, ⟨a, last, (node (by decide)).trans ?_, glow.trans ?_, pulse, fill⟩,
    ⟨b, last', (node' (by decide)).trans ?_, glow'.trans ?_⟩,
    e, last'', opacity.trans ?_, drawn.trans ?_, label.trans ?_⟩
  all_goals decide +kernel

end Diagram

end Storyboard
