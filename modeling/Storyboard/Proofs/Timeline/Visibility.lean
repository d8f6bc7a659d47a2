import Storyboard.Proofs.Timeline.Ease
import Storyboard.Proofs.Timeline.Frame
import Storyboard.Proofs.Timeline.Targets

/-!
# Visibility

An entity that starts hidden stays hidden until a cue lets it be seen: the entrance of a node, the
drawing of an edge. `compile_visibility` says which entities start hidden, and that no cue is about
an entity of the wrong kind.
-/

namespace Storyboard

variable {T G : Type}

namespace Operation

/-- Whether only nodes take the operation. -/
def isForNode : Operation G → Bool
  | enter .. | recolor .. | glow _ | pulse _ | restore .. => true
  | _ => false

/-- Whether only edges take the operation. -/
def isForEdge : Operation G → Bool
  | draw .. | revealLabel _ => true
  | _ => false

/-- Whether the operation lets an entity be seen. -/
def Uncovers (id : String) (o : Operation G) : Prop :=
  (∃ effect, o = enter id effect) ∨ ∃ flow, o = draw id flow

end Operation

variable [ExactScalar T] [ExactScalar G] [ExactNarrow T G]

/-- The entity cannot be seen at a time at which none of the operations has made progress. A time
before zero shows what zero shows. -/
def Timeline.HiddenUntil (t : Timeline T G) (id : String) (p : Operation G → Prop) : Prop :=
  ∀ time, ∃ a, (t.sample time).states.get? id = some a ∧
    (a.opacity ≠ 0 → ∃ c ∈ t.cues, p c.operation ∧ 0 < c.progress (t.sample time).time ∧
      (0 ≤ time → 0 < c.progress time))

/-! ### Opacity -/

namespace Appearance

omit [ExactScalar T] [ExactNarrow T G] in
/-- Only an entrance or a drawing with progress lifts the opacity from zero. -/
theorem apply_hidden {a : Appearance G} (hidden : a.opacity = 0) {o : Operation G} {id : String}
    (about : o.target? = some id) {progress : G} (nonneg : 0 ≤ progress) :
    (a.apply o progress).opacity = 0 ∨ (o.Uncovers id ∧ 0 < progress) := by
  rcases nonneg.eq_or_lt with rfl | positive
  · left
    cases o <;> simp [apply, tween, hidden]
  · cases o with
    | enter target effect =>
      obtain rfl := Option.some.inj about
      exact .inr ⟨.inl ⟨effect, rfl⟩, positive⟩
    | draw target flow =>
      obtain rfl := Option.some.inj about
      exact .inr ⟨.inr ⟨flow, rfl⟩, positive⟩
    | leave target effect => simp [apply, tween, hidden]
    | _ => exact .inl hidden

theorem play_hidden (wave : ∀ x : T, 0 ≤ x → x ≤ 1 → Scalar.cosPi x ≤ 1) (id : String) (time : T)
    (c : Cue T G) {a : Appearance G} (hidden : a.opacity = 0) :
    (play id time a c).opacity = 0 ∨ (c.operation.Uncovers id ∧ 0 < c.progress time) := by
  unfold play
  split
  · next about =>
    have nonneg := ExactNarrow.narrow_nonneg (G := G) (c.progress_nonneg wave time)
    refine (apply_hidden hidden about nonneg).imp_right ?_
    rintro ⟨uncovers, positive⟩
    exact ⟨uncovers, ExactNarrow.pos_of_narrow_pos positive⟩
  · exact .inl hidden

theorem foldl_play_hidden (wave : ∀ x : T, 0 ≤ x → x ≤ 1 → Scalar.cosPi x ≤ 1) (id : String)
    (time : T) (played : List (Cue T G)) {a : Appearance G} (hidden : a.opacity = 0) :
    (played.foldl (play id time) a).opacity = 0 ∨
      ∃ c ∈ played, c.operation.Uncovers id ∧ 0 < c.progress time := by
  induction played generalizing a with
  | nil => exact .inl hidden
  | cons c rest ih =>
    rcases play_hidden wave id time c hidden with still | seen
    · refine (ih still).imp_right ?_
      rintro ⟨c', member, seen⟩
      exact ⟨c', List.mem_cons_of_mem _ member, seen⟩
    · exact .inr ⟨c, List.mem_cons_self, seen⟩

end Appearance

namespace Diagram

variable (d : Diagram T G) (o : CompileOptions G)

/-! ### Initial states -/

theorem initial_node (distinct : (d.nodeIds ++ d.edgeIds).Nodup) {id : String}
    (node : id ∈ d.nodeIds) : (d.compile o).initial.get? id =
      some (.ofNode (!d.shownNodes.contains id) (d.baseColor o id)) := by
  refine (OrderedMap.get?_ofList ?_).mpr (List.mem_append_left _ ?_)
  · simpa [Function.comp_def] using distinct
  · exact List.mem_map.mpr ⟨id, node, rfl⟩

theorem initial_edge (distinct : (d.nodeIds ++ d.edgeIds).Nodup) {id : String}
    (edge : id ∈ d.edgeIds) : (d.compile o).initial.get? id = some (.ofEdge o.edgeStroke) := by
  refine (OrderedMap.get?_ofList ?_).mpr (List.mem_append_right _ ?_)
  · simpa [Function.comp_def] using distinct
  · exact List.mem_map.mpr ⟨id, edge, rfl⟩

/-! ### Kinds of cues -/

variable {d o} {c : Cue T G} {id : String}

theorem cue_target (member : c ∈ (d.compile o).cues) (about : c.operation.target? = some id) :
    (c.operation.isForNode = true → id ∈ d.nodeIds) ∧
      (c.operation.isForEdge = true → id ∈ d.edgeIds) ∧ (id ∈ d.nodeIds ∨ id ∈ d.edgeIds) := by
  have allowed := d.made_allowed o ((d.mem_compile o).mp member)
  cases operation : c.operation <;> rw [operation] at allowed about <;>
    simp_all [Allows, Operation.target?, Operation.isForNode, Operation.isForEdge]

theorem enter_shown {effect : Entrance} (member : c ∈ (d.compile o).cues)
    (enters : c.operation = .enter id effect) : id ∈ d.shownNodes := by
  have allowed := d.made_allowed o ((d.mem_compile o).mp member)
  rw [enters] at allowed
  exact allowed.1

/-- A node starts hidden if and only if a cue lets it in. -/
theorem initial_node_hidden (distinct : (d.nodeIds ++ d.edgeIds).Nodup) (node : id ∈ d.nodeIds) :
    ∃ a, (d.compile o).initial.get? id = some a ∧
      (a.opacity = 0 ↔ ∃ c ∈ (d.compile o).cues, ∃ effect, c.operation = .enter id effect) := by
  refine ⟨_, d.initial_node o distinct node, ?_⟩
  constructor
  · intro hidden
    have shown : id ∈ d.shownNodes := by
      by_contra never
      simp [Appearance.ofNode, never] at hidden
    obtain ⟨c, made, enters⟩ := d.exists_enter_made o shown
    exact ⟨c, (d.mem_compile o).mpr made, enters⟩
  · rintro ⟨c, member, effect, enters⟩
    simp [Appearance.ofNode, enter_shown member enters]

/-! ### Frames -/

/-- A cue with progress in the frame of a time has progress at that time, unless the time is one
before zero. -/
theorem progress_of_frame {time : T} (member : c ∈ (d.compile o).cues)
    (positive : 0 < c.progress ((d.compile o).sample time).time) (late : 0 ≤ time) :
    0 < c.progress time := by
  rw [Timeline.sample, Frame.sample_time] at positive
  rcases le_or_gt time (d.compile o).duration with within | after
  · rwa [Timeline.cut_of_mem late within] at positive
  · have within := d.compile_within o member
    rw [Cue.progress_of_stop within.forward (within.2.2.trans after.le)]
    exact one_pos

theorem hiddenUntil (wave : ∀ x : T, 0 ≤ x → x ≤ 1 → Scalar.cosPi x ≤ 1) {a : Appearance G}
    (found : (d.compile o).initial.get? id = some a) (hidden : a.opacity = 0) :
    (d.compile o).HiddenUntil id (Operation.Uncovers id) := by
  intro time
  generalize now : (d.compile o).cut time = shown
  generalize started : (d.compile o).cues.takeWhile (fun c => c.start ≤ shown) = played
  have state : ((d.compile o).sample time).states.get? id =
      some (played.foldl (Appearance.play id shown) a) := by
    rw [Timeline.sample, Frame.sample_get?, found, now, started]
    rfl
  refine ⟨_, state, fun visible => ?_⟩
  rcases Appearance.foldl_play_hidden wave id shown played hidden with
    still | ⟨c, early, uncovers, positive⟩
  · exact absurd still visible
  · have member : c ∈ (d.compile o).cues := (List.takeWhile_prefix _).subset (started ▸ early)
    have progress : 0 < c.progress ((d.compile o).sample time).time := by
      rwa [Timeline.sample, Frame.sample_time, now]
    exact ⟨c, member, uncovers, progress, progress_of_frame member progress⟩

end Diagram

theorem Timeline.HiddenUntil.imp {t : Timeline T G} {id : String} {p q : Operation G → Prop}
    (h : t.HiddenUntil id p) (weaker : ∀ c ∈ t.cues, p c.operation → q c.operation) :
    t.HiddenUntil id q := by
  intro time
  obtain ⟨a, found, seen⟩ := h time
  refine ⟨a, found, fun visible => ?_⟩
  obtain ⟨c, member, holds, progress⟩ := seen visible
  exact ⟨c, member, weaker c member holds, progress⟩

namespace Diagram

/-- Nodes start hidden if a cue lets them in, and edges always do. Cues are about entities of the
diagram, of the kind that they are for. What starts hidden stays hidden until it is let in, a node by
an entrance and an edge by its drawing. -/
theorem compile_visibility (wave : ∀ x : T, 0 ≤ x → x ≤ 1 → Scalar.cosPi x ≤ 1)
    (d : Diagram T G) (o : CompileOptions G) (distinct : (d.nodeIds ++ d.edgeIds).Nodup) :
    let t := d.compile o
    (∀ id ∈ d.nodeIds, ∃ a, t.initial.get? id = some a ∧
      (a.opacity = 0 ↔ ∃ c ∈ t.cues, ∃ effect, c.operation = .enter id effect)) ∧
    (∀ id ∈ d.edgeIds, ∃ a, t.initial.get? id = some a ∧ a.opacity = 0) ∧
    (∀ c ∈ t.cues, ∀ id, c.operation.target? = some id → id ∈ t.initial.keys ∧
      (c.operation.isForNode = true → id ∉ d.edgeIds) ∧
      (c.operation.isForEdge = true → id ∉ d.nodeIds)) ∧
    (∀ id ∈ d.edgeIds, t.HiddenUntil id fun operation => ∃ flow, operation = .draw id flow) ∧
    (∀ id ∈ d.nodeIds, (∃ a, t.initial.get? id = some a ∧ a.opacity = 0) →
      t.HiddenUntil id fun operation => ∃ effect, operation = .enter id effect) := by
  intro t
  have apart {id : String} (node : id ∈ d.nodeIds) (edge : id ∈ d.edgeIds) : False :=
    (List.nodup_append.mp distinct).2.2 id node id edge rfl
  have edges : ∀ id ∈ d.edgeIds, ∃ a, t.initial.get? id = some a ∧ a.opacity = 0 := by
    intro id edge
    exact ⟨_, d.initial_edge o distinct edge, by simp [Appearance.ofEdge, Appearance.hidden]⟩
  refine ⟨fun id node => initial_node_hidden distinct node, edges, ?_, ?_, ?_⟩
  · intro c member id about
    obtain ⟨forNode, forEdge, either⟩ := cue_target member about
    refine ⟨?_, fun kind edge => apart (forNode kind) edge, fun kind node => apart node (forEdge kind)⟩
    rw [← OrderedMap.contains_iff, ← OrderedMap.get?_isSome]
    exact (d.isSome_initial o).mpr either
  · intro id edge
    obtain ⟨a, found, hidden⟩ := edges id edge
    refine (hiddenUntil wave found hidden).imp ?_
    rintro c member (⟨effect, enters⟩ | draws)
    · have node := (cue_target member (by rw [enters]; rfl)).1 (by rw [enters]; rfl)
      exact (apart node edge).elim
    · exact draws
  · rintro id node ⟨a, found, hidden⟩
    refine (hiddenUntil wave found hidden).imp ?_
    rintro c member (enters | ⟨flow, draws⟩)
    · exact enters
    · have edge := (cue_target member (by rw [draws]; rfl)).2.1 (by rw [draws]; rfl)
      exact (apart node edge).elim

/-- Two nodes with an edge that is drawn in no time, and the second node coming in after it. -/
def instant : Diagram Rat Rat where
  nodes := [{ id := "A", label := "A" }, { id := "B", label := "B" }]
  edges := [{ id := "A_to_B", source := "A", target := "B" }]
  steps :=
    [{ number := 1, action := .connect, targets := [.pair "A" "B"]
       properties := ⟨[("speed", .number 0)]⟩ },
      { number := 2, action := .reveal, targets := [.entity "B"] }]

theorem instant_hiddenUntil :
    (∀ x : Rat, 0 ≤ x → x ≤ 1 → Scalar.cosPi x ≤ 1) ∧ (instant.nodeIds ++ instant.edgeIds).Nodup ∧
    (instant.compile .standard).HiddenUntil "A_to_B" (∃ flow, · = .draw "A_to_B" flow) ∧
    (instant.compile .standard).HiddenUntil "B" (∃ effect, · = .enter "B" effect) := by
  have wave : ∀ x : Rat, 0 ≤ x → x ≤ 1 → Scalar.cosPi x ≤ 1 := by
    intro x low _
    show 1 - 2 * x ≤ 1
    linarith
  have distinct : (instant.nodeIds ++ instant.edgeIds).Nodup := by decide
  obtain ⟨_, _, _, edges, nodes⟩ := compile_visibility wave instant .standard distinct
  refine ⟨wave, distinct, edges "A_to_B" (by decide), nodes "B" (by decide) ?_⟩
  exact ⟨_, instant.initial_node .standard distinct (by decide), by decide +kernel⟩

/-- Before zero the edge is there already, though no cue has made progress. -/
theorem instant_before_zero :
    (((instant.compile .standard).sample (-1)).states.get? "A_to_B").map Appearance.opacity = some 1 ∧
    ∀ c ∈ (instant.compile .standard).cues, c.progress (-1) = 0 := by
  have sorted : (instant.compile .standard).cues = instant.made .standard :=
    List.mergeSort_of_pairwise (by decide +kernel)
  constructor
  · rw [Timeline.sample, sorted]
    decide +kernel
  · rw [sorted]
    decide +kernel

end Diagram

end Storyboard
