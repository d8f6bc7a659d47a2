import Storyboard.Proofs.Program.Framing

/-!
# Proper viewports

A viewport is proper as long as the padding of its move does not take more from a box than there is of
it. What a move frames is proper, magnifying keeps the sides in order, and between two proper boxes
there are only proper boxes. So nothing but a negative padding makes a viewport that is not proper.
-/

namespace Storyboard

variable {T G : Type}

/-! ### Boxes -/

namespace Bounds

variable [ExactScalar G] {a b : Bounds G}

theorem proper_iff : b.Proper ↔ 0 ≤ b.width ∧ 0 ≤ b.height := by
  simp only [Proper, width, height, sub_nonneg]

theorem Covers.proper (ab : a.Covers b) (proper : b.Proper) : a.Proper :=
  ⟨ab.1.trans (proper.1.trans ab.2.2.1), ab.2.1.trans (proper.2.trans ab.2.2.2)⟩

theorem Surrounds.proper {points : List (Point G)} (around : b.Surrounds points)
    (present : points ≠ []) : b.Proper := by
  obtain ⟨p, member⟩ := List.exists_mem_of_ne_nil _ present
  obtain ⟨left, top, right, bottom⟩ := around.1 p member
  exact ⟨left.trans right, top.trans bottom⟩

theorem proper_mergeAll? {boxes : List (Bounds G)} (merged : mergeAll? boxes = some b)
    (each : ∀ a ∈ boxes, a.Proper) : b.Proper := by
  cases boxes with
  | nil => cases merged
  | cons first rest =>
    exact (mergeAll?_covers merged List.mem_cons_self).proper (each first List.mem_cons_self)

theorem proper_pad_iff {padding : G} : (b.pad (Insets.uniform padding)).Proper ↔
    0 ≤ b.width + 2 * padding ∧ 0 ≤ b.height + 2 * padding := by
  rw [proper_iff, width_pad, height_pad]

/-- A box that is moved to the origin. -/
theorem translate_ofCenter (center : Point G) (size : Size G) :
    let b := ofCenter center size
    b.translate ⟨-b.minX, -b.minY⟩ = ofTopLeft Point.zero size := by
  simp only [translate, ofCenter, ofTopLeft, Point.zero, ExactScalar.zero_eq]
  congr 1 <;> ring

theorem proper_translate_iff {offset : Point G} : (b.translate offset).Proper ↔ b.Proper := by
  simp only [Proper, translate, add_le_add_iff_right]

/-- A factor that is not positive leaves the box alone, any other one shrinks or grows it. -/
theorem proper_zoom_iff {factor : G} : (b.zoom factor).Proper ↔ b.Proper := by
  rcases le_or_gt factor 0 with small | positive
  · rw [zoom, ExactScalar.zero_eq, if_pos small]
  · have size : (b.zoom factor).size = ⟨b.width / factor, b.height / factor⟩ := by
      rw [zoom_eq positive, size_ofCenter]
    rw [proper_iff, proper_iff, show (b.zoom factor).width = _ from congrArg Size.width size,
      show (b.zoom factor).height = _ from congrArg Size.height size, le_div_iff₀ positive,
      le_div_iff₀ positive, zero_mul]

theorem proper_lerp {t : G} (first : a.Proper) (second : b.Proper) (nonneg : 0 ≤ t) (most : t ≤ 1) :
    (a.lerp b t).Proper := by
  -- A side of the box between is a mean of the sides of the two.
  have between {x y z w : G} (less : x ≤ y) (less' : z ≤ w) :
      x + (z - x) * t ≤ y + (w - y) * t := by
    have own := mul_le_mul_of_nonneg_right less (sub_nonneg.mpr most)
    have other := mul_le_mul_of_nonneg_right less' nonneg
    linarith
  exact ⟨between first.1 second.1, between first.2 second.2⟩

end Bounds

/-! ### Moves -/

namespace CameraMove

section

variable [Scalar G] (move : CameraMove G) (l : Layout G)

/-- The box that a move pads. A move that focuses on an entity pads the box around the layout. -/
def padded? : Option (Bounds G) :=
  match move.mode with
  | .fitAll | .focus _ => l.bounds?
  | .fitNodes ids => l.boundsOf? ids

end

variable [ExactScalar G] (move : CameraMove G) (l : Layout G)

theorem defaultPadding_nonneg : 0 ≤ (defaultPadding : G) := Nat.cast_nonneg 50

/-- Whether the padding leaves something of the box that a move pads. -/
structure HasRoom : Prop where
  wide : ∀ b, move.padded? l = some b → 0 ≤ b.width + 2 * move.padding
  high : ∀ b, move.padded? l = some b → 0 ≤ b.height + 2 * move.padding

variable {move l}

theorem hasRoom_iff {b : Bounds G} (found : move.padded? l = some b) :
    move.HasRoom l ↔ (b.pad (Insets.uniform move.padding)).Proper := by
  rw [Bounds.proper_pad_iff]
  constructor
  · intro room
    exact ⟨room.wide b found, room.high b found⟩
  · intro room
    constructor <;> intro b' found' <;> obtain rfl := Option.some.inj (found.symm.trans found')
    · exact room.1
    · exact room.2

theorem hasRoom_of_nonneg (proper : ∀ b, move.padded? l = some b → b.Proper)
    (nonneg : 0 ≤ move.padding) : move.HasRoom l where
  wide b found := by linarith [(Bounds.proper_iff.mp (proper b found)).1]
  high b found := by linarith [(Bounds.proper_iff.mp (proper b found)).2]

/-- Neither what a move focuses on nor how much it magnifies it decides whether the viewport is
proper. -/
theorem proper_viewport?_iff {scene v : Bounds G} (whole : l.bounds? = some scene)
    (reached : move.viewport? l = some v) : v.Proper ↔ move.HasRoom l := by
  cases mode : move.mode with
  | fitAll =>
    have found : move.padded? l = some scene := by rw [padded?, mode]; exact whole
    obtain rfl := Option.some.inj ((viewport?_fitAll mode whole).symm.trans reached)
    rw [hasRoom_iff found]
  | fitNodes ids =>
    rw [viewport?, mode] at reached
    obtain ⟨box, merged, rfl⟩ := Option.map_eq_some_iff.mp reached
    have found : move.padded? l = some box := by rw [padded?, mode]; exact merged
    rw [hasRoom_iff found]
  | focus id =>
    have found : move.padded? l = some scene := by rw [padded?, mode]; exact whole
    rw [viewport?, mode] at reached
    simp only [whole, Option.bind_eq_bind, Option.bind_eq_some_iff, Option.map_some,
      Option.getD_some, Option.pure_def, Option.some.injEq] at reached
    obtain ⟨target, _, rfl⟩ := reached
    rw [hasRoom_iff found, Bounds.proper_zoom_iff, Bounds.proper_translate_iff]

end CameraMove

namespace CameraState

variable [ExactScalar G] {camera : CameraState G} {l : Layout G} {scene v : Bounds G}
  (whole : l.bounds? = some scene) (viewed : camera.viewport? l = some v)

include whole viewed

theorem proper_of_hasRoom (room : camera.current.HasRoom l)
    (before : (camera.previous.getD .overview).HasRoom l) : v.Proper := by
  obtain ⟨goal, reached, _⟩ := Option.bind_eq_some_iff.mp viewed
  rw [viewport?_of_reached reached, ExactScalar.zero_eq, ExactScalar.one_eq] at viewed
  obtain rfl := Option.some.inj viewed
  have proper : goal.Proper := (CameraMove.proper_viewport?_iff whole reached).mpr room
  obtain ⟨nonneg, most⟩ := ExactScalar.clamp_mem camera.progress (zero_le_one (α := G))
  refine Bounds.proper_lerp ?_ proper nonneg most
  cases left : (camera.previous.getD .overview).viewport? l with
  | none => exact proper
  | some start => exact (CameraMove.proper_viewport?_iff whole left).mpr before

theorem proper_iff_of_complete (complete : 1 ≤ camera.progress) :
    v.Proper ↔ camera.current.HasRoom l := by
  obtain ⟨goal, reached, _⟩ := Option.bind_eq_some_iff.mp viewed
  rw [viewport?_of_reached reached, progress_of_complete complete, Bounds.lerp_one] at viewed
  obtain rfl := Option.some.inj viewed
  exact CameraMove.proper_viewport?_iff whole reached

end CameraState

/-! ### Layouts -/

namespace Layered

variable [ExactScalar G] {spacing : Spacing G} {direction : Direction} {nodes : List (Node G)}
  {edges : List (Edge G)} {l : Layout G} (laidOut : layout spacing direction nodes edges = .ok l)

include laidOut

theorem proper_bounds? {scene : Bounds G} (found : l.bounds? = some scene) : scene.Proper := by
  have some_node : l.nodes.entries ≠ [] := by
    intro none
    rw [Layout.bounds?, OrderedMap.values, none] at found
    cases found
  obtain ⟨⟨id, b⟩, rest, same⟩ := List.exists_cons_of_ne_nil some_node
  have placed : l.nodes.get? id = some b := by rw [OrderedMap.get?, same, List.lookup_cons_self]
  exact (Layout.bounds?_covers found placed).proper (proper_of_placed laidOut placed)

theorem proper_entityBounds? {id : String} {b : Bounds G} (found : l.entityBounds? id = some b) :
    b.Proper := by
  rw [Layout.entityBounds?] at found
  split at found
  · rename_i placed
    obtain rfl := Option.some.inj found
    exact proper_of_placed laidOut placed
  · obtain ⟨points, drawn, around⟩ := Option.bind_eq_some_iff.mp found
    obtain ⟨_, _, a, b', _, _, rfl⟩ := line_of_drawn laidOut drawn
    exact (Layout.surrounds_of_pointsBounds? around).proper (List.cons_ne_nil _ _)

theorem proper_boundsOf? {ids : List String} {b : Bounds G} (found : l.boundsOf? ids = some b) :
    b.Proper := by
  refine Bounds.proper_mergeAll? found fun a member => ?_
  obtain ⟨id, _, placed⟩ := List.mem_filterMap.mp member
  exact proper_entityBounds? laidOut placed

/-- What a move pads is proper, so it has room for every padding that is not negative. -/
theorem hasRoom_of_nonneg {move : CameraMove G} (nonneg : 0 ≤ move.padding) : move.HasRoom l := by
  refine CameraMove.hasRoom_of_nonneg (fun b found => ?_) nonneg
  rw [CameraMove.padded?] at found
  split at found
  · exact proper_bounds? laidOut found
  · exact proper_bounds? laidOut found
  · exact proper_boundsOf? laidOut found

omit laidOut in
/-- A node on its own stands at the origin. -/
theorem layout_lone (spacing : Spacing G) (direction : Direction) (n : Node G) :
    layout spacing direction [n] [] =
      .ok ⟨⟨[(n.id, .ofTopLeft Point.zero (nodeSize n))]⟩, {}⟩ := by
  have ranks : Graph.ranks ⟨1, []⟩ = [[0]] := by cbv
  have own : indexOf? [n] n.id = some 0 := by simp [indexOf?]
  obtain ⟨center, found⟩ : ∃ center,
      (placeRanks direction spacing 0 [[(0, nodeSize n)]]).lookup 0 = some center := ⟨_, rfl⟩
  have placed : unshifted spacing direction [n] [] = ⟨[(n.id, .ofCenter center (nodeSize n))]⟩ := by
    simp only [unshifted, List.length_singleton, ranks, List.map_singleton, List.filterMap_cons,
      List.filterMap_nil, List.getElem?_cons_zero, Option.map_some, Option.bind_eq_bind, own,
      Option.bind_some, ExactScalar.zero_eq, found]
    rfl
  have moved : shifted (unshifted spacing direction [n] []) =
      ⟨[(n.id, .ofTopLeft Point.zero (nodeSize n))]⟩ := by
    rw [placed, ← Bounds.translate_ofCenter center]
    rfl
  rw [layout, show edgeIndices [n] [] = .ok [] from rfl]
  exact congrArg (fun boxes => Except.ok (Layout.mk boxes {})) moved

end Layered

/-! ### The moves of a frame -/

/-- Whether the move that runs and the one before it, if there is one, have a property. -/
structure CameraState.Every (P : CameraMove G → Prop) (camera : CameraState G) : Prop where
  current : P camera.current
  previous : ∀ move, camera.previous = some move → P move

namespace Frame

variable [Scalar G] {P : CameraMove G → Prop}

theorem apply_every {f : Frame T G} {o : Operation G} (progress : G)
    (moves : ∀ move, o = .camera move → P move)
    (every : ∀ camera, f.camera = some camera → camera.Every P) :
    ∀ camera, (f.apply o progress).camera = some camera → camera.Every P := by
  intro camera shown
  rcases f.apply_camera o progress with ⟨move, same, applied⟩ | ⟨_, kept⟩
  · obtain rfl := Option.some.inj (applied.symm.trans shown)
    refine ⟨moves move same, fun before ran => ?_⟩
    obtain ⟨old, was, rfl⟩ := Option.map_eq_some_iff.mp ran
    exact (every old was).current
  · exact every camera (kept.symm.trans shown)

theorem sample_every [Scalar T] [Narrow T G] {initial : OrderedMap String (Appearance G)}
    {cues : List (Cue T G)} {time : T} {camera : CameraState G}
    (moves : ∀ c ∈ cues, ∀ move, c.operation = .camera move → P move)
    (shown : (sample initial cues time).camera = some camera) : camera.Every P := by
  have fold : ∀ (played : List (Cue T G)) (f : Frame T G), played ⊆ cues →
      (∀ camera, f.camera = some camera → camera.Every P) → ∀ camera,
      (played.foldl (fun f c => f.apply c.operation (narrow (c.progress time))) f).camera =
        some camera → camera.Every P := by
    intro played
    induction played with
    | nil => exact fun f _ every => every
    | cons c rest ih =>
      intro f sub every
      obtain ⟨member, sub⟩ := List.cons_subset.mp sub
      exact ih _ sub (apply_every _ (moves c member) every)
  exact fold _ _ (List.takeWhile_prefix _).subset (fun _ none => by cases none) camera shown

end Frame

namespace Diagram

variable (d : Diagram T G)

theorem cameraMove?_padding [Scalar T] [Scalar G] [Narrow T G] {o : CompileOptions G} {s : Step T}
    {move : CameraMove G} (made : d.cameraMove? o s = some move) :
    move.padding = s.properties.padding?.getD o.cameraPadding := by
  unfold cameraMove? at made
  dsimp only at made
  split at made <;> cases made <;> rfl

/-- The moves of a compiled timeline's camera are those of camera steps. -/
theorem sample_moves [ExactScalar T] [Scalar G] [Narrow T G] (o : CompileOptions G) {time : T}
    {camera : CameraState G} (shown : ((d.compile o).sample time).camera = some camera) :
    camera.Every fun move => ∃ s ∈ d.steps, s.action = .camera ∧ d.cameraMove? o s = some move := by
  refine Frame.sample_every (fun c member move moves => ?_) shown
  rcases d.mem_made o ((d.mem_compile o).mp member) with ⟨number, marker⟩ |
    ⟨s, step, known, start, cued, _⟩
  · rw [marker] at moves
    cases moves
  · have makes := d.stepCues_makes s o cued
    rw [moves] at makes
    cases makes with
    | camera action => exact ⟨s, step, action, d.cameraMove?_of_mem_stepCues cued moves⟩

end Diagram

/-! ### Programs -/

namespace Document

variable [ExactScalar T] [ExactScalar G] [Narrow T G]

/-- Whatever parses has a program under the standard settings, and the camera of every frame has a
viewport. The viewport is proper if no camera step sets a negative padding, and more generally if the
paddings of the move that runs and of the one before it leave something of the boxes that they are
taken from. At the end of a move the latter is necessary, too. -/
theorem viewports_proper {source : String} {parsed : Parsed T G} (ok : parse source = .ok parsed) :
    ∃ p : Program T G, Program.build .standard source = .ok p ∧
      ∀ time camera, (p.timeline.sample time).camera = some camera →
        ∃ v, camera.viewport? p.layout = some v ∧
          ((∀ s ∈ parsed.diagram.steps, s.action = .camera → ∀ padding : G,
            s.properties.padding? = some padding → 0 ≤ padding) → v.Proper) ∧
          (camera.current.HasRoom p.layout → (camera.previous.getD .overview).HasRoom p.layout →
            v.Proper) ∧
          (1 ≤ camera.progress → (v.Proper ↔ camera.current.HasRoom p.layout)) := by
  let settings : Settings T G := .standard
  obtain ⟨l, laidOut, boxes, lines⟩ := layout_total_of_parse ok settings.layout
  obtain ⟨l', laidOut', built⟩ := Program.build_of_parsed settings source ok
  obtain rfl := Except.ok.inj (laidOut.symm.trans laidOut')
  rw [show settings.theme.compileOptions T = _ from ThemeSettings.compileOptions_standard] at built
  refine ⟨_, built, ?_⟩
  intro time camera shown
  set d := parsed.diagram.placed l
  have placed : d.PlacedBy l :=
    Diagram.placedBy_of_layout laidOut (nodes_of_parse ok) boxes lines
  obtain ⟨scene, whole⟩ := placed.scene
  obtain ⟨goal, reached⟩ := placed.exists_viewport? (d.sample_frames .standard shown)
  have viewed := CameraState.viewport?_of_reached reached
  refine ⟨_, viewed, fun nonneg => ?_, CameraState.proper_of_hasRoom whole viewed,
    CameraState.proper_iff_of_complete whole viewed⟩
  have roomy {move : CameraMove G} (made : ∃ s ∈ d.steps, s.action = .camera ∧
      d.cameraMove? .standard s = some move) : move.HasRoom l := by
    obtain ⟨s, step, action, made⟩ := made
    refine Layered.hasRoom_of_nonneg laidOut ?_
    rw [d.cameraMove?_padding made]
    cases set : (s.properties.padding? : Option G) with
    | none => exact CameraMove.defaultPadding_nonneg
    | some padding => exact nonneg s step action padding set
  have moves := d.sample_moves .standard shown
  refine CameraState.proper_of_hasRoom whole viewed (roomy moves.current) ?_
  cases before : camera.previous with
  | none => exact Layered.hasRoom_of_nonneg laidOut CameraMove.defaultPadding_nonneg
  | some move => exact roomy (moves.previous move before)

/-- Half way from one view of everything to a narrower one. -/
theorem viewports_proper_between : ∃ (p : Program Rat Rat) (camera : CameraState Rat)
    (v : Bounds Rat),
    Program.build .standard "flowchart LR\nA --> B\n@animation\nstep 1: camera fitAll\n  padding: 80
step 2: camera fitAll\n  padding: 0px\n@end" = .ok p ∧
    (p.timeline.sample (3 / 2)).camera = some camera ∧
    (camera.previous.map CameraMove.padding, camera.current.padding) = (some 80, 0) ∧
    camera.viewport? p.layout = some v ∧ v.Proper := by
  let settings : Settings Rat Rat := .standard
  obtain ⟨parsed, ok, facts⟩ := exists_parsed_of (T := Rat) (G := Rat)
    "flowchart LR\nA --> B\n@animation\nstep 1: camera fitAll\n  padding: 80
step 2: camera fitAll\n  padding: 0px\n@end"
    (p := fun parsed =>
      let program := Program.draft settings .standard parsed
      program.timeline.cues.Pairwise (fun a b => decide (a.start ≤ b.start) = true) ∧
        (∀ s ∈ parsed.diagram.steps, s.action = .camera →
          (s.properties.padding? : Option Rat).all (fun padding => 0 ≤ padding) = true) ∧
        (program.timeline.sample (3 / 2)).camera.any fun camera =>
          (camera.previous.map CameraMove.padding, camera.current.padding) = (some 80, 0))
    (by decide +kernel)
  obtain ⟨ordered, nonneg, facts⟩ := of_decide_eq_true facts
  obtain ⟨camera, shown, paddings⟩ := (Option.any_eq_true _ _).mp facts
  obtain ⟨p, built, framed⟩ := viewports_proper ok
  obtain rfl := Except.ok.inj ((Program.build_eq_draft settings _ ok
    ThemeSettings.compileOptions_standard ordered).symm.trans built)
  obtain ⟨v, viewed, proper, _⟩ := framed (3 / 2) camera shown
  refine ⟨_, camera, v, built, shown, of_decide_eq_true paddings, viewed, proper ?_⟩
  intro s step action padding set
  have fine := nonneg s step action
  rw [set] at fine
  exact of_decide_eq_true fine

/-- A padding of minus a thousand, taken from a box of 120 by 60. -/
theorem viewport_not_proper : ∃ (p : Program Rat Rat) (camera : CameraState Rat) (v : Bounds Rat),
    Program.build .standard
      "flowchart LR\nA[x]\n@animation\nstep 1: camera fitAll\n  padding: -1000\n@end" = .ok p ∧
    (p.timeline.sample 5).camera = some camera ∧ camera.viewport? p.layout = some v ∧ ¬v.Proper := by
  let settings : Settings Rat Rat := .standard
  obtain ⟨parsed, ok, facts⟩ := exists_parsed_of (T := Rat) (G := Rat)
    "flowchart LR\nA[x]\n@animation\nstep 1: camera fitAll\n  padding: -1000\n@end"
    (p := fun parsed =>
      let program := Program.draft settings .standard parsed
      program.timeline.cues.Pairwise (fun a b => decide (a.start ≤ b.start) = true) ∧
        parsed.diagram.nodes.map Layered.nodeSize = [⟨120, 60⟩] ∧ parsed.diagram.edges.length = 0 ∧
        (program.timeline.sample 5).camera.any fun camera =>
          1 ≤ camera.progress ∧ camera.current.mode = .fitAll ∧ camera.current.padding = -1000)
    (by decide +kernel)
  obtain ⟨ordered, sizes, edges, facts⟩ := of_decide_eq_true facts
  obtain ⟨n, nodes, size⟩ := List.map_eq_singleton_iff.mp sizes
  obtain ⟨camera, shown, facts⟩ := (Option.any_eq_true _ _).mp facts
  obtain ⟨complete, mode, padding⟩ := of_decide_eq_true facts
  have placed : (Program.draft settings .standard parsed).layout =
      ⟨⟨[(n.id, .ofTopLeft Point.zero ⟨120, 60⟩)]⟩, {}⟩ := by
    simp only [Program.draft, nodes, List.eq_nil_of_length_eq_zero edges, Layered.layout_lone, size]
    rfl
  have whole : (Program.draft settings .standard parsed).layout.bounds? =
      some (.ofTopLeft Point.zero ⟨120, 60⟩) := by
    rw [placed]
    rfl
  have viewed := CameraState.viewport?_of_reached (CameraMove.viewport?_fitAll mode whole)
  refine ⟨_, camera, _, Program.build_eq_draft settings _ ok ThemeSettings.compileOptions_standard
    ordered, shown, viewed, ?_⟩
  intro proper
  have room := ((CameraState.proper_iff_of_complete whole viewed complete).mp proper).wide _
    (by rw [CameraMove.padded?, mode]; exact whole)
  rw [padding] at room
  norm_num [Bounds.width, Bounds.ofTopLeft, Point.zero] at room

end Document

end Storyboard
