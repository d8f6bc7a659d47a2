import Storyboard.Diagram.Basic
import Storyboard.Timeline.Basic

/-!
# Compiling timelines

`Diagram.compile` turns the steps of a diagram into a timeline. Steps with the same number make a
group, and groups follow one another in the order in which their numbers first appear. Targets
that name nothing the action can work on are passed over, so compiling never fails.
-/

namespace Storyboard

/-- What stands in for values that a step does not set. -/
structure CompileOptions (G : Type) where
  nodeFill : Color G
  edgeStroke : Color G
  highlightColor : Color G
  cameraPadding : G
  focusZoom : G
  deriving Repr

namespace CompileOptions

variable {G : Type} [Scalar G]

/-- White nodes, gray edges and golden highlights. -/
def standard : CompileOptions G :=
  { nodeFill := .ofBytes ⟨0xff, 0xff, 0xff, 255⟩ .function
    edgeStroke := .ofBytes ⟨0x55, 0x55, 0x55, 255⟩ .function
    highlightColor := .ofBytes ⟨0xff, 0xd7, 0x00, 255⟩ .function
    cameraPadding := CameraMove.defaultPadding
    focusZoom := CameraMove.defaultZoom }

instance : Inhabited (CompileOptions G) := ⟨standard⟩

end CompileOptions

namespace Diagram

variable {T G : Type} [Scalar T] [Scalar G] [Narrow T G]

/-! ### Targets -/

def nodeIds (d : Diagram T G) : List String := d.nodes.map Node.id

def edgeIds (d : Diagram T G) : List String := d.edges.map Edge.id

/-- The edge of a pair: one that goes this way, or else one without direction. -/
def edgeBetween? (d : Diagram T G) (source target : String) : Option (Edge G) :=
  d.edges.find? (fun e => e.source == source && e.target == target) <|>
    d.edges.find? (fun e => e.connects source target)

/-- The entities that a target names. -/
def expand (d : Diagram T G) : Target → List String
  | .entity "all" => d.nodeIds ++ d.edgeIds
  | .entity "nodes" => d.nodeIds
  | .entity "edges" => d.edgeIds
  | .entity id => if d.contains id then [id] else []
  | .pair source target => ((d.edgeBetween? source target).map Edge.id).toList

/-- The entities that a step names, each once, in the order of first mention. -/
def entityTargets (d : Diagram T G) (s : Step T) : List String :=
  (s.targets.flatMap d.expand).eraseDups

/-- Those of them that are nodes. -/
def nodeTargets (d : Diagram T G) (s : Step T) : List String :=
  (d.entityTargets s).filter (fun id => (d.node? id).isSome)

/-- The edges that a step names, as often as it names them. -/
def edgeTargets (d : Diagram T G) (s : Step T) : List (Edge G) :=
  s.targets.filterMap fun
    | .pair source target => d.edgeBetween? source target
    | .entity id => d.edge? id

/-! ### What a step does to one target -/

/-- The fill of a node that nothing has changed. -/
def baseColor (d : Diagram T G) (o : CompileOptions G) (id : String) : Color G :=
  ((d.node? id).bind (fun n => n.style.fill)).getD o.nodeFill

/-- The offset of a move, and whether it is relative. A destination is measured from the place
of the node, if it has one. -/
def shift? (d : Diagram T G) (s : Step T) (id : String) : Option (Point G × Bool) :=
  match (s.properties.destination? : Option (Point G)) with
  | none => s.properties.offset?.map fun offset => (offset, true)
  | some destination =>
    match (d.node? id).bind Node.bounds with
    | some bounds => some (destination.sub bounds.center, false)
    | none => some (destination, false)

/-- The keys under which a camera step lists further targets. -/
def cameraTargetKeys : List String := ["target", "targets"]

/-- The entities that a camera step frames: its targets, then those its properties list. -/
def cameraTargets (d : Diagram T G) (s : Step T) : List String :=
  let listed := cameraTargetKeys.flatMap fun key =>
    let names := Text.splitWhere (· = ',') ((s.properties.text? key).getD "").toList
    (names.map fun name => String.ofList (Text.trim name)).filter d.contains
  d.entityTargets s ++ listed.filter (fun name => !name.isEmpty)

/-- The move of a camera step, if its mode has the targets that it needs. -/
def cameraMove? (d : Diagram T G) (o : CompileOptions G) (s : Step T) : Option (CameraMove G) :=
  let ids := d.cameraTargets s
  let padding := s.properties.padding?.getD o.cameraPadding
  let zoom := s.properties.zoom?.getD o.focusZoom
  match s.properties.text? Step.cameraModeKey, ids with
  | some "fitAll", _ | none, [] => some ⟨.fitAll, padding, zoom⟩
  | some "focus", id :: _ | some "zoom", id :: _ => some ⟨.focus id, padding, zoom⟩
  | some "pan", id :: _ => some ⟨.focus id, padding, 1⟩
  | some "fitNodes", _ :: _ | none, _ :: _ :: _ => some ⟨.fitNodes ids, padding, zoom⟩
  | none, [id] => some ⟨.focus id, padding, zoom⟩
  | some _, _ => none

/-! ### Scheduling a step -/

/-- The cues of a step in the order in which they are made, the time at which it is over, and
the base colors known after it. -/
structure Scheduled (T G : Type) where
  cues : List (Cue T G) := []
  stop : T
  baseColors : OrderedMap String (Color G)
  deriving Repr

namespace Scheduled

/-- Adds a cue and waits for its end. -/
def await (s : Scheduled T G) (c : Cue T G) : Scheduled T G :=
  { s with cues := s.cues ++ [c], stop := Scalar.greatest s.stop c.stop }

/-- Adds a cue without waiting for its end. -/
def accompany (s : Scheduled T G) (c : Cue T G) : Scheduled T G :=
  { s with cues := s.cues ++ [c] }

/-- Adds a cue without waiting for its end, if there is need of it. -/
def accompanyIf (s : Scheduled T G) (wanted : Bool) (c : Cue T G) : Scheduled T G :=
  if wanted then s.accompany c else s

end Scheduled

/-- Works through targets, the `k`-th starting `k` staggers after the first. -/
def staggered {α : Type} (start stagger : T) (f : Scheduled T G → α → T → Scheduled T G)
    (s : Scheduled T G) (targets : List α) : Scheduled T G :=
  (targets.zipIdx).foldl (fun s e => f s e.1 (start + Scalar.ofNat e.2 * stagger)) s

/-- The share of an edge's drawing time in which its label comes in, at the end. -/
def labelShare : T := 0.15

/-- The curve that a step asks for. -/
def easeOf (s : Step T) (otherwise : Ease) : Ease :=
  ((s.properties.text? "easing").map Ease.ofName).getD otherwise

/-- The cues of one step of a group that starts at a given time. -/
def schedule (d : Diagram T G) (o : CompileOptions G) (baseColors : OrderedMap String (Color G))
    (s : Step T) (groupStart : T) : Scheduled T G :=
  let p := s.properties
  let start := groupStart + p.delay
  let duration := p.duration
  let ease := easeOf s default
  let idle : Scheduled T G := { stop := groupStart, baseColors }
  let each {α : Type} (f : Scheduled T G → α → T → Scheduled T G) (targets : List α) :=
    staggered start p.stagger f idle targets
  match s.action with
  | .reveal =>
    each (fun r id time => r.await (.of (.enter id p.entrance) time duration ease))
      (d.nodeTargets s)
  | .hide =>
    each (fun r id time => r.await (.of (.leave id p.exit) time duration ease))
      (d.entityTargets s)
  | .highlight =>
    let color := p.color?.getD o.highlightColor
    each
      (fun r id time =>
        let r := { r with baseColors := r.baseColors.insertNew id (d.baseColor o id) }
        let r := r.await (.of (.recolor id color) time duration ease)
        let r := r.accompanyIf (p.flag "glow") (.of (.glow id) time duration ease)
        r.accompanyIf (p.flag "pulse") (.of (.pulse id) time duration .inOutSine))
      (d.nodeTargets s)
  | .unhighlight =>
    each
      (fun r id time =>
        r.await (.of (.restore id (r.baseColors.get? id)) time duration ease))
      (d.nodeTargets s)
  | .connect =>
    let drawTime := p.drawTime
    let reveal := drawTime * labelShare
    each
      (fun r e time =>
        let r := r.await (.of (.draw e.id p.flow) time drawTime (easeOf s .linear))
        r.accompanyIf e.label.isSome
          (.of (.revealLabel e.id) (time + drawTime - reveal) reveal .linear))
      (d.edgeTargets s)
  | .camera =>
    match d.cameraMove? o s with
    | some move => idle.await (.of (.camera move) start duration ease)
    | none => idle
  | .move =>
    each
      (fun r id time =>
        match d.shift? s id with
        | some (offset, relative) =>
          r.await (.of (.move id offset relative) time duration ease)
        | none => r)
      (d.entityTargets s)
  | .transform =>
    let scale : Option G := p.scale?
    let rotation : Option G := p.rotation?
    each
      (fun r id time =>
        let r :=
          if scale.isSome || rotation.isSome then
            r.await (.of (.transform id scale rotation) time duration ease)
          else r
        match d.shift? s id with
        | some (offset, relative) =>
          r.await (.of (.move id offset relative) time duration ease)
        | none => r)
      (d.entityTargets s)
  | .annotate => idle

/-! ### Groups -/

/-- The steps by their numbers, in the order in which the numbers first appear. -/
def groups (steps : List (Step T)) : List (Nat × List (Step T)) :=
  (steps.map Step.number).eraseDups.map fun n => (n, steps.filter (fun s => s.number == n))

/-- What has been compiled so far. -/
structure Compiled (T G : Type) where
  cues : List (Cue T G) := []
  boundaries : List (Boundary T) := []
  /-- Where the next group starts. -/
  cursor : T
  baseColors : OrderedMap String (Color G) := {}
  deriving Repr

/-- Adds one step of a group that starts at a given time. -/
def compileStep (d : Diagram T G) (o : CompileOptions G) (start : T) (c : Compiled T G)
    (s : Step T) : Compiled T G :=
  let r := d.schedule o c.baseColors s start
  { c with
    cues := c.cues ++ r.cues
    cursor := Scalar.greatest r.stop c.cursor
    baseColors := r.baseColors }

/-- Adds one group: its marker, then its steps, all from the same start. -/
def compileGroup (d : Diagram T G) (o : CompileOptions G) (c : Compiled T G)
    (group : Nat × List (Step T)) : Compiled T G :=
  let start := c.cursor
  let marker : Cue T G := .of (.step group.1) start 0 .linear
  let c := group.2.foldl (d.compileStep o start) { c with cues := c.cues ++ [marker] }
  { c with boundaries := c.boundaries ++ [⟨group.1, start, c.cursor⟩] }

/-- The nodes that some step shows. They start hidden. -/
def shownNodes (d : Diagram T G) : List String :=
  (d.steps.filter (fun s => s.action == .reveal)).flatMap d.nodeTargets

def initialStates (d : Diagram T G) (o : CompileOptions G) :
    OrderedMap String (Appearance G) :=
  let shown := d.shownNodes
  let nodes := d.nodeIds.map fun id =>
    (id, Appearance.ofNode (!shown.contains id) (d.baseColor o id))
  let edges := d.edgeIds.map fun id => (id, Appearance.ofEdge o.edgeStroke)
  OrderedMap.ofList (nodes ++ edges)

/-- The timeline of a diagram. Cues are sorted by their starts; those that start together stay
in the order in which they were made. -/
def compile (d : Diagram T G) (o : CompileOptions G) : Timeline T G :=
  let c := (groups d.steps).foldl (d.compileGroup o) { cursor := (0 : T) }
  { cues := c.cues.mergeSort (fun a b => decide (a.start ≤ b.start))
    boundaries := c.boundaries
    initial := d.initialStates o
    baseColors := c.baseColors }

end Diagram

end Storyboard
