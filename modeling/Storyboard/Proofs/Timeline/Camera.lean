import Storyboard.Proofs.Timeline.Targets

/-!
# Camera moves

Whatever a camera step says, the move that is compiled from it frames the whole scene or entities of the
diagram. The camera of a frame is on the move of one of the cues that have started.
-/

namespace Storyboard

variable {T G : Type}

namespace Diagram

section

variable (d : Diagram T G)

/-- Whether there is something to frame: what a mode names is in the diagram. -/
def Frames : CameraMode → Prop
  | .fitAll => True
  | .fitNodes ids => ids ≠ [] ∧ ∀ id ∈ ids, id ∈ d.nodeIds ∨ id ∈ d.edgeIds
  | .focus id => id ∈ d.nodeIds ∨ id ∈ d.edgeIds

theorem cameraTargets_mem {s : Step T} {id : String} (member : id ∈ d.cameraTargets s) :
    id ∈ d.nodeIds ∨ id ∈ d.edgeIds := by
  rcases List.mem_append.mp member with target | listed
  · exact d.entityTargets_mem target
  · obtain ⟨_, _, named⟩ := List.mem_flatMap.mp (List.mem_filter.mp listed).1
    exact contains_iff.mp (List.mem_filter.mp named).2

variable [Scalar T] [Scalar G] [Narrow T G]

/-- A step whose mode lacks the targets that it needs makes no move. -/
theorem cameraMove?_frames {o : CompileOptions G} {s : Step T} {move : CameraMove G}
    (made : d.cameraMove? o s = some move) : d.Frames move.mode := by
  have known : ∀ id ∈ d.cameraTargets s, id ∈ d.nodeIds ∨ id ∈ d.edgeIds :=
    fun _ => d.cameraTargets_mem
  unfold cameraMove? at made
  dsimp only at made
  split at made <;> cases made
  case h_1 | h_2 => trivial
  case h_6 | h_7 =>
    rename_i targets
    rw [targets] at known
    exact ⟨by simp [targets], targets ▸ known⟩
  all_goals
    rename_i targets
    rw [targets] at known
    exact known _ List.mem_cons_self

theorem cameraMove?_of_mem_stepCues {o : CompileOptions G} {s : Step T}
    {known : OrderedMap String (Color G)} {start : T} {c : Cue T G} {move : CameraMove G}
    (member : c ∈ d.stepCues s o known start) (moves : c.operation = .camera move) :
    d.cameraMove? o s = some move := by
  have makes := d.stepCues_makes s o member
  rw [moves] at makes
  cases makes with
  | camera action =>
    unfold stepCues at member
    dsimp only at member
    simp only [action, Option.mem_toList, Option.map_eq_some_iff] at member
    obtain ⟨made, found, rfl⟩ := member
    cases moves
    exact found

end

end Diagram

/-! ### Frames -/

variable [Scalar G]

namespace Frame

theorem apply_camera (f : Frame T G) (o : Operation G) (progress : G) :
    (∃ move, o = .camera move ∧
      (f.apply o progress).camera = some ⟨move, f.camera.map CameraState.current, progress⟩) ∨
    ((∀ move, o ≠ .camera move) ∧ (f.apply o progress).camera = f.camera) := by
  cases o with
  | camera move => exact .inl ⟨move, rfl, rfl⟩
  | _ => exact .inr ⟨by simp, rfl⟩

/-- A frame's camera is on the move of a cue, as far as the cue has come. -/
theorem sample_camera [Scalar T] [Narrow T G] {initial : OrderedMap String (Appearance G)}
    {cues : List (Cue T G)} {time : T} {camera : CameraState G}
    (shown : (sample initial cues time).camera = some camera) :
    ∃ c ∈ cues, c.operation = .camera camera.current ∧
      camera.progress = narrow (c.progress time) := by
  have fold : ∀ (played : List (Cue T G)) (f : Frame T G),
      (played.foldl (fun f c => f.apply c.operation (narrow (c.progress time))) f).camera =
        some camera →
      f.camera = some camera ∨ ∃ c ∈ played, c.operation = .camera camera.current ∧
        camera.progress = narrow (c.progress time) := by
    intro played
    induction played with
    | nil => exact fun f shown => .inl shown
    | cons c rest ih =>
      intro f shown
      rcases ih _ shown with here | ⟨c', later, found⟩
      · rcases f.apply_camera c.operation (narrow (c.progress time)) with
          ⟨move, moves, applied⟩ | ⟨_, kept⟩
        · rw [applied] at here
          obtain rfl := Option.some.inj here
          exact .inr ⟨c, List.mem_cons_self, moves, rfl⟩
        · exact .inl (kept.symm.trans here)
      · exact .inr ⟨c', List.mem_cons_of_mem _ later, found⟩
  rcases fold _ _ shown with initial | ⟨c, started, found⟩
  · cases initial
  · exact ⟨c, (List.takeWhile_prefix _).subset started, found⟩

end Frame

/-- What a compiled timeline frames is in the diagram. -/
theorem Diagram.sample_frames [ExactScalar T] [Narrow T G] (d : Diagram T G) (o : CompileOptions G)
    {time : T} {camera : CameraState G} (shown : ((d.compile o).sample time).camera = some camera) :
    d.Frames camera.current.mode := by
  obtain ⟨c, member, moves, _⟩ := Frame.sample_camera shown
  rcases d.mem_made o ((d.mem_compile o).mp member) with ⟨number, marker⟩ |
    ⟨s, _, known, start, cued, _⟩
  · rw [marker] at moves
    cases moves
  · exact d.cameraMove?_frames (d.cameraMove?_of_mem_stepCues cued moves)

end Storyboard
