import Storyboard.Proofs.Layout.Covering
import Storyboard.Proofs.Document.Outcome
import Storyboard.Proofs.Program.Build
import Storyboard.Proofs.Timeline.Camera

/-!
# Framing

A parsed document that is laid out has a place for everything that a camera step can frame, so the
camera of every frame has a viewport. At the end of a move the viewport shows what the move is about:
all of what it fits, or its target in the center.
-/

namespace Storyboard

variable {T G : Type}

/-! ### Viewports -/

section

variable [Scalar G] {move : CameraMove G} {l : Layout G} {scene box : Bounds G}

theorem CameraMove.viewport?_fitAll (mode : move.mode = .fitAll) (found : l.bounds? = some scene) :
    move.viewport? l = some (scene.pad (Insets.uniform move.padding)) := by
  simp only [viewport?, mode, found, Option.map_some]

theorem CameraMove.viewport?_fitNodes {ids : List String} (mode : move.mode = .fitNodes ids)
    (found : l.boundsOf? ids = some box) :
    move.viewport? l = some (box.pad (Insets.uniform move.padding)) := by
  simp only [viewport?, mode, found, Option.map_some]

theorem CameraMove.viewport?_focus {id : String} (mode : move.mode = .focus id)
    (found : l.bounds? = some scene) (target : l.entityBounds? id = some box) :
    let padded := scene.pad (Insets.uniform move.padding)
    move.viewport? l =
      some ((padded.translate (box.center.sub padded.center)).zoom move.zoom) := by
  have single : l.boundsOf? [id] = some box := by simp [Layout.boundsOf?, target, Bounds.mergeAll?]
  simp only [viewport?, mode, single, found]
  rfl

end

/-! ### Placed diagrams -/

namespace Diagram

section

variable (d : Diagram T G) (l : Layout G)

theorem nodeIds_placed : (d.placed l).nodeIds = d.nodeIds := by
  simp only [nodeIds, placed, List.map_map]
  refine List.map_congr_left fun n _ => ?_
  simp only [Function.comp_apply]
  split <;> rfl

theorem edgeIds_placed : (d.placed l).edgeIds = d.edgeIds := by
  simp only [edgeIds, placed, List.map_map]
  refine List.map_congr_left fun e _ => ?_
  simp only [Function.comp_apply]
  split <;> rfl

variable [Scalar G]

/-- Whether a diagram has the geometry of a layout, with a box for each node and a line for each edge.
The box around the layout is around the lines, too. -/
structure PlacedBy : Prop where
  boxes : ∀ n ∈ d.nodes, ∃ b, n.bounds = some b ∧ l.nodes.get? n.id = some b
  lines : ∀ e ∈ d.edges, ∃ p q, e.points = [p, q] ∧ l.edges.get? e.id = some [p, q]
  known : ∀ id b, l.nodes.get? id = some b → id ∈ d.nodeIds
  scene : ∃ scene, l.bounds? = some scene
  around : ∀ scene, l.bounds? = some scene → ∀ e ∈ d.edges, ∀ p ∈ e.points, scene.Holds p

/-- Whether a box is the place of an entity: the box of a node, or the one around the line of an edge. -/
def HasBox (id : String) (b : Bounds G) : Prop :=
  (∃ n ∈ d.nodes, n.id = id ∧ n.bounds = some b) ∨
    ∃ e ∈ d.edges, e.id = id ∧ b.Surrounds e.points

/-- Whether a viewport shows all of an entity. -/
def Shows (v : Bounds G) (id : String) : Prop :=
  (∀ n ∈ d.nodes, n.id = id → ∃ b, n.bounds = some b ∧ v.Covers b) ∧
    ∀ e ∈ d.edges, e.id = id → ∀ p ∈ e.points, v.Holds p

end

variable {d : Diagram T G} {l : Layout G}

/-- What a layout of all nodes and edges does to a diagram that has a node. -/
theorem placedBy_of_layout [ExactScalar G] {spacing : Spacing G}
    (laidOut : Layered.layout spacing d.direction d.nodes d.edges = .ok l) (some_node : d.nodes ≠ [])
    (boxes : ∀ n ∈ d.nodes, (l.nodes.get? n.id).isSome = true)
    (lines : ∀ e ∈ d.edges, ∃ p q, l.edges.get? e.id = some [p, q]) :
    (d.placed l).PlacedBy l where
  boxes n member := by
    obtain ⟨n, inside, rfl⟩ := List.mem_map.mp member
    obtain ⟨b, found⟩ := Option.isSome_iff_exists.mp (boxes n inside)
    rw [found]
    exact ⟨b, rfl, found⟩
  lines e member := by
    obtain ⟨e, inside, rfl⟩ := List.mem_map.mp member
    obtain ⟨p, q, found⟩ := lines e inside
    rw [found]
    exact ⟨p, q, rfl, found⟩
  known id b found := by
    rw [nodeIds_placed]
    exact Layered.mem_nodes_of_placed laidOut found
  scene := by
    obtain ⟨n, inside⟩ := List.exists_mem_of_ne_nil _ some_node
    obtain ⟨b, found⟩ := Option.isSome_iff_exists.mp (boxes n inside)
    exact Layout.exists_bounds? found
  around scene found e member := by
    obtain ⟨e, inside, rfl⟩ := List.mem_map.mp member
    obtain ⟨p, q, drawn⟩ := lines e inside
    have held := Layered.bounds?_holds_lines laidOut found drawn
    rw [drawn]
    exact held

namespace PlacedBy

section

variable [Scalar G] (h : d.PlacedBy l)

include h

theorem exists_entityBounds? {id : String} (named : id ∈ d.nodeIds ∨ id ∈ d.edgeIds) :
    ∃ b, l.entityBounds? id = some b := by
  cases clash : l.nodes.get? id with
  | some b => exact ⟨b, Layout.entityBounds?_node clash⟩
  | none =>
    rcases named with node | edge
    · obtain ⟨n, member, rfl⟩ := List.mem_map.mp node
      obtain ⟨b, _, found⟩ := h.boxes n member
      rw [clash] at found
      cases found
    · obtain ⟨e, member, rfl⟩ := List.mem_map.mp edge
      obtain ⟨p, q, _, drawn⟩ := h.lines e member
      rw [Layout.entityBounds?_edge clash drawn]
      exact ⟨_, rfl⟩

/-- A move that frames something of the diagram ends on a viewport. -/
theorem exists_viewport? {move : CameraMove G} (frames : d.Frames move.mode) :
    ∃ v, move.viewport? l = some v := by
  obtain ⟨scene, whole⟩ := h.scene
  cases mode : move.mode with
  | fitAll => exact ⟨_, CameraMove.viewport?_fitAll mode whole⟩
  | fitNodes ids =>
    rw [mode] at frames
    obtain ⟨id, named⟩ := List.exists_mem_of_ne_nil _ frames.1
    obtain ⟨b, placed⟩ := h.exists_entityBounds? (frames.2 id named)
    obtain ⟨box, found⟩ := Layout.exists_boundsOf? named placed
    exact ⟨_, CameraMove.viewport?_fitNodes mode found⟩
  | focus id =>
    rw [mode] at frames
    obtain ⟨b, placed⟩ := h.exists_entityBounds? frames
    exact ⟨_, CameraMove.viewport?_focus mode whole placed⟩

end

variable [ExactScalar G] (h : d.PlacedBy l) (distinct : (d.nodeIds ++ d.edgeIds).Nodup)

include h distinct

theorem entityBounds?_edge {e : Edge G} (member : e ∈ d.edges) :
    ∃ b, l.entityBounds? e.id = some b ∧ b.Surrounds e.points := by
  have other : l.nodes.get? e.id = none := by
    refine Option.eq_none_iff_forall_ne_some.mpr fun b found => ?_
    exact (List.nodup_append.mp distinct).2.2 e.id (h.known e.id b found) e.id
      (List.mem_map_of_mem member) rfl
  obtain ⟨p, q, own, drawn⟩ := h.lines e member
  obtain ⟨b, found, around⟩ := Layout.exists_pointsBounds? (List.cons_ne_nil p [q])
  exact ⟨b, (Layout.entityBounds?_edge other drawn).trans found, own ▸ around⟩

/-- The layout has the box that an entity has in the diagram. -/
theorem entityBounds?_of_hasBox {id : String} {b : Bounds G} (own : d.HasBox id b) :
    l.entityBounds? id = some b := by
  rcases own with ⟨n, member, rfl, own⟩ | ⟨e, member, rfl, around⟩
  · obtain ⟨b', same, found⟩ := h.boxes n member
    obtain rfl := Option.some.inj (same.symm.trans own)
    exact Layout.entityBounds?_node found
  · obtain ⟨b', found, around'⟩ := h.entityBounds?_edge distinct member
    rw [found, around'.unique around]

omit distinct in
theorem exists_hasBox {id : String} (named : id ∈ d.nodeIds ∨ id ∈ d.edgeIds) :
    ∃ b, d.HasBox id b := by
  rcases named with node | edge
  · obtain ⟨n, member, rfl⟩ := List.mem_map.mp node
    obtain ⟨b, own, _⟩ := h.boxes n member
    exact ⟨b, .inl ⟨n, member, rfl, own⟩⟩
  · obtain ⟨e, member, rfl⟩ := List.mem_map.mp edge
    obtain ⟨p, q, own, _⟩ := h.lines e member
    obtain ⟨b, _, around⟩ := Layout.exists_pointsBounds? (List.cons_ne_nil p [q])
    exact ⟨b, .inr ⟨e, member, rfl, own ▸ around⟩⟩

/-- A box that covers those of the entities shows the entities. -/
theorem shows_of_covers {id : String} {v b : Bounds G} (placed : l.entityBounds? id = some b)
    (covers : v.Covers b) : d.Shows v id := by
  constructor
  · rintro n member rfl
    obtain ⟨b', own, found⟩ := h.boxes n member
    obtain rfl := Option.some.inj ((Layout.entityBounds?_node found).symm.trans placed)
    exact ⟨_, own, covers⟩
  · rintro e member rfl p inside
    obtain ⟨b', found, around⟩ := h.entityBounds?_edge distinct member
    obtain rfl := Option.some.inj (found.symm.trans placed)
    exact covers.holds (around.1 p inside)

omit distinct in
theorem shows_of_scene {scene v : Bounds G} (whole : l.bounds? = some scene)
    (covers : v.Covers scene) (id : String) : d.Shows v id := by
  constructor
  · rintro n member rfl
    obtain ⟨b, own, found⟩ := h.boxes n member
    exact ⟨b, own, covers.trans (Layout.bounds?_covers whole found)⟩
  · rintro e member rfl p inside
    exact covers.holds (h.around scene whole e member p inside)

end PlacedBy

end Diagram

/-! ### Completed moves -/

/-- Where a viewport stands that is moved onto a box and magnified, and how large it is. -/
theorem Bounds.focused [ExactScalar G] (scene box : Bounds G) (padding : G) {zoom : G}
    (positive : 0 < zoom) :
    let padded := scene.pad (Insets.uniform padding)
    let v := (padded.translate (box.center.sub padded.center)).zoom zoom
    v.center = box.center ∧ v.width = (scene.width + 2 * padding) / zoom ∧
      v.height = (scene.height + 2 * padding) / zoom := by
  intro padded v
  have moved : (padded.translate (box.center.sub padded.center)).center = box.center := by
    rw [center_translate]
    simp [Point.add, Point.sub]
  have kept := size_translate padded (box.center.sub padded.center)
  have magnified : v = ofCenter box.center ⟨padded.width / zoom, padded.height / zoom⟩ := by
    rw [← moved, show padded.width = _ from (congrArg Size.width kept).symm,
      show padded.height = _ from (congrArg Size.height kept).symm]
    exact zoom_eq positive
  have size : v.size = ⟨padded.width / zoom, padded.height / zoom⟩ := by
    rw [magnified, size_ofCenter]
  refine ⟨by rw [magnified, center_ofCenter], ?_, ?_⟩
  · rw [← width_pad]
    exact congrArg Size.width size
  · rw [← height_pad]
    exact congrArg Size.height size

theorem CameraState.progress_of_complete [ExactScalar G] {camera : CameraState G}
    (complete : 1 ≤ camera.progress) : Scalar.clamp (@OfNat.ofNat G 0 Scalar.instOfNat)
      (@OfNat.ofNat G 1 Scalar.instOfNat) camera.progress = 1 := by
  rw [ExactScalar.zero_eq, ExactScalar.one_eq]
  unfold Scalar.clamp
  rw [if_neg (not_lt.mpr (zero_le_one.trans complete))]
  rcases complete.lt_or_eq with beyond | exactly
  · rw [if_pos beyond]
  · rw [if_neg exactly.not_lt, exactly]

theorem CameraState.viewport?_of_reached [Scalar G] {camera : CameraState G} {l : Layout G}
    {goal : Bounds G} (reached : camera.current.viewport? l = some goal) :
    camera.viewport? l = some ((((camera.previous.getD .overview).viewport? l).getD goal).lerp goal
      (Scalar.clamp 0 1 camera.progress)) := by
  rw [viewport?, reached]
  rfl

/-! ### Parsed documents -/

namespace Document

theorem nodes_of_parse [Scalar T] [Scalar G] [Narrow T G] {source : String} {parsed : Parsed T G}
    (ok : parse source = .ok parsed) : parsed.diagram.nodes ≠ [] := by
  rcases parse_cases (T := T) (G := G) source with ⟨_, failed⟩ | ⟨_, _, failed⟩ | ⟨_, spoken, _⟩
  · rw [failed] at ok
    cases ok
  · rw [failed] at ok
    cases ok
  · intro none
    have ids := read_nodeIds (T := T) (G := G) source.toList
    rw [← parse_eq_ok ok, Diagram.nodeIds, none, List.map_nil, ← Flowchart.nodes_ids, eq_comm,
      List.map_eq_nil_iff] at ids
    exact spoken ((flowchartOf_notes _).nodes_eq_nil_iff.mp ids)

variable [ExactScalar T] [ExactScalar G] [Narrow T G]

/-- A parsed document that is laid out and compiled has a viewport for the camera of every frame. At
the end of a move the viewport shows all of what the move fits, if the padding is not negative. If the
move focuses on an entity, the viewport is centered on the entity's box and has the size of the padded
scene, magnified. -/
theorem cameras_framed {source : String} {parsed : Parsed T G} (ok : parse source = .ok parsed)
    (spacing : Spacing G) (o : CompileOptions G) :
    ∃ l, Layered.layout spacing parsed.diagram.direction parsed.diagram.nodes
        parsed.diagram.edges = .ok l ∧
      let d := parsed.diagram.placed l
      ∀ time camera, ((d.compile o).sample time).camera = some camera →
        ∃ v, camera.viewport? l = some v ∧
          let move := camera.current
          ((d.nodeIds ++ d.edgeIds).Nodup → 1 ≤ camera.progress →
            (0 ≤ move.padding → move.mode = .fitAll →
              ∀ id, id ∈ d.nodeIds ∨ id ∈ d.edgeIds → d.Shows v id) ∧
            (0 ≤ move.padding → ∀ ids, move.mode = .fitNodes ids →
              ids ≠ [] ∧ ∀ id ∈ ids, (id ∈ d.nodeIds ∨ id ∈ d.edgeIds) ∧ d.Shows v id) ∧
            (0 < move.zoom → ∀ id, move.mode = .focus id →
              (∃ b, d.HasBox id b) ∧ (∀ b, d.HasBox id b → v.center = b.center) ∧
                ∃ scene, l.bounds? = some scene ∧
                  v.width = (scene.width + 2 * move.padding) / move.zoom ∧
                  v.height = (scene.height + 2 * move.padding) / move.zoom)) := by
  obtain ⟨l, laidOut, boxes, lines⟩ := layout_total_of_parse ok spacing
  refine ⟨l, laidOut, ?_⟩
  intro d time camera shown
  have placed : d.PlacedBy l :=
    Diagram.placedBy_of_layout laidOut (nodes_of_parse ok) boxes lines
  have frames : d.Frames camera.current.mode := d.sample_frames o shown
  obtain ⟨scene, whole⟩ := placed.scene
  obtain ⟨goal, reached⟩ := placed.exists_viewport? frames
  refine ⟨_, CameraState.viewport?_of_reached reached, ?_⟩
  intro move distinct complete
  rw [CameraState.progress_of_complete complete, Bounds.lerp_one]
  refine ⟨?_, ?_, ?_⟩
  · intro room fits id _
    obtain rfl := Option.some.inj ((CameraMove.viewport?_fitAll fits whole).symm.trans reached)
    exact placed.shows_of_scene whole (Bounds.pad_covers room) id
  · intro room ids fits
    rw [show camera.current.mode = .fitNodes ids from fits] at frames
    refine ⟨frames.1, fun id named => ⟨frames.2 id named, ?_⟩⟩
    obtain ⟨b, found⟩ := placed.exists_entityBounds? (frames.2 id named)
    obtain ⟨box, merged⟩ := Layout.exists_boundsOf? named found
    obtain rfl := Option.some.inj ((CameraMove.viewport?_fitNodes fits merged).symm.trans reached)
    exact placed.shows_of_covers distinct found
      ((Bounds.pad_covers room).trans (Layout.boundsOf?_covers merged named found))
  · intro positive id focuses
    rw [show camera.current.mode = .focus id from focuses] at frames
    obtain ⟨b, own⟩ := placed.exists_hasBox frames
    have found := placed.entityBounds?_of_hasBox distinct own
    obtain rfl := Option.some.inj ((CameraMove.viewport?_focus focuses whole found).symm.trans reached)
    obtain ⟨centered, wide, high⟩ := Bounds.focused scene b move.padding positive
    refine ⟨⟨b, own⟩, fun b' own' => ?_, scene, whole, wide, high⟩
    obtain rfl := Option.some.inj
      (found.symm.trans (placed.entityBounds?_of_hasBox distinct own'))
    exact centered

/-- Two nodes and their edge at the end of a move that fits everything. -/
theorem cameras_framed_all : ∃ (parsed : Parsed Rat Rat) (l : Layout Rat) (camera : CameraState Rat)
    (v : Bounds Rat),
    parse "flowchart LR\nA --> B\n@animation\nstep 1: camera fitAll\n@end" = .ok parsed ∧
    parsed.diagram.nodeIds = ["A", "B"] ∧ parsed.diagram.edgeIds = ["A_to_B"] ∧
    (((parsed.diagram.placed l).compile .standard).sample 10).camera = some camera ∧
    1 ≤ camera.progress ∧ camera.viewport? l = some v ∧
    ∀ id ∈ ["A", "B", "A_to_B"], (parsed.diagram.placed l).Shows v id := by
  let layoutOf (d : Diagram Rat Rat) := Layered.layout (G := Rat) ⟨1, 1⟩ d.direction d.nodes d.edges
  obtain ⟨parsed, ok, facts⟩ := exists_parsed_of (T := Rat) (G := Rat)
    "flowchart LR\nA --> B\n@animation\nstep 1: camera fitAll\n@end"
    (p := fun parsed =>
      let d := parsed.diagram.placed ((layoutOf parsed.diagram).toOption.getD ⟨{}, {}⟩)
      let t : Timeline Rat Rat := d.compile .standard
      parsed.diagram.nodeIds = ["A", "B"] ∧ parsed.diagram.edgeIds = ["A_to_B"] ∧
        (d.made .standard).Pairwise (fun a b => decide (a.start ≤ b.start) = true) ∧
        (Frame.sample t.initial (d.made .standard) (t.cut 10)).camera.any fun camera =>
          1 ≤ camera.progress ∧ camera.current.mode = .fitAll ∧ 0 ≤ camera.current.padding)
    (by decide +kernel)
  obtain ⟨l, laidOut, framed⟩ := cameras_framed ok ⟨1, 1⟩ .standard
  simp only [layoutOf, laidOut, Except.toOption, Option.getD_some] at facts
  obtain ⟨nodes, edges, ordered, facts⟩ := of_decide_eq_true facts
  have sorted := List.mergeSort_of_pairwise ordered
  rw [Option.any_eq_true] at facts
  obtain ⟨camera, shown, facts⟩ := facts
  obtain ⟨complete, fits, room⟩ := of_decide_eq_true facts
  have sampled : (((parsed.diagram.placed l).compile .standard).sample 10).camera = some camera := by
    rw [Timeline.sample, show ((parsed.diagram.placed l).compile .standard).cues = _ from sorted]
    exact shown
  obtain ⟨v, viewport, whole⟩ := framed 10 camera sampled
  have ids : (parsed.diagram.placed l).nodeIds = ["A", "B"] ∧
      (parsed.diagram.placed l).edgeIds = ["A_to_B"] :=
    ⟨(parsed.diagram.nodeIds_placed l).trans nodes, (parsed.diagram.edgeIds_placed l).trans edges⟩
  refine ⟨parsed, l, camera, v, ok, nodes, edges, sampled, complete, viewport, fun id named => ?_⟩
  refine (whole (by rw [ids.1, ids.2]; decide) complete).1 room fits id ?_
  rw [ids.1, ids.2]
  revert id
  decide

end Document

end Storyboard
