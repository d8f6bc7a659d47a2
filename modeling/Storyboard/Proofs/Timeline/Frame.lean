import Storyboard.Timeline.Frame

/-!
# One entity's part of a frame

A cue changes the entity that its operation targets and no other. So what a frame shows of an entity
is its initial appearance with the entity's own cues applied one after the other, which is what
`Appearance.play` does.
-/

namespace Storyboard

variable {T G : Type} [Scalar G]

theorem Frame.apply_get? (f : Frame T G) (o : Operation G) (progress : G) (id : String) :
    (f.apply o progress).states.get? id =
      (f.states.get? id).map fun a => if o.target? = some id then a.apply o progress else a := by
  have single (target : String) :
      (f.states.modify target fun a => a.apply o progress).get? id =
        (f.states.get? id).map fun a => if some target = some id then a.apply o progress else a := by
    rw [OrderedMap.get?_modify]
    by_cases same : target = id
    · simp [same]
    · simp [same]
  cases o with
  | step number => simp [Frame.apply, Operation.target?]
  | camera move => simp [Frame.apply, Operation.target?]
  | _ => exact single _

variable [Scalar T] [Narrow T G]

/-- The appearance of an entity with one cue applied, if the cue is about the entity. -/
def Appearance.play (id : String) (time : T) (a : Appearance G) (c : Cue T G) : Appearance G :=
  if c.operation.target? = some id then a.apply c.operation (narrow (c.progress time)) else a

namespace Frame

theorem sample_get? (initial : OrderedMap String (Appearance G)) (cues : List (Cue T G)) (time : T)
    (id : String) :
    (sample initial cues time).states.get? id = (initial.get? id).map fun a =>
      (cues.takeWhile (fun c => c.start ≤ time)).foldl (Appearance.play id time) a := by
  have fold : ∀ (played : List (Cue T G)) (f : Frame T G),
      (played.foldl (fun f c => f.apply c.operation (narrow (c.progress time))) f).states.get? id =
        (f.states.get? id).map fun a => played.foldl (Appearance.play id time) a := by
    intro played
    induction played with
    | nil => simp
    | cons c rest ih =>
      intro f
      rw [List.foldl_cons, ih, apply_get?, Option.map_map]
      rfl
  exact fold _ _

/-- What no operation changes of a frame stays as it was before the first cue. -/
theorem sample_kept {β : Type} (read : Frame T G → β)
    (kept : ∀ (f : Frame T G) (o : Operation G) (progress : G), read (f.apply o progress) = read f)
    (initial : OrderedMap String (Appearance G)) (cues : List (Cue T G)) (time : T) :
    read (sample initial cues time) = read { time, states := initial } := by
  have fold : ∀ (played : List (Cue T G)) (f : Frame T G),
      read (played.foldl (fun f c => f.apply c.operation (narrow (c.progress time))) f) =
        read f := by
    intro played
    induction played with
    | nil => intro f; rfl
    | cons c rest ih =>
      intro f
      rw [List.foldl_cons, ih, kept]
  exact fold _ _

theorem sample_time (initial : OrderedMap String (Appearance G)) (cues : List (Cue T G)) (time : T) :
    (sample initial cues time).time = time := by
  refine sample_kept Frame.time (fun f o progress => ?_) initial cues time
  unfold Frame.apply
  split
  · rfl
  · rfl
  · split <;> rfl

theorem sample_keys (initial : OrderedMap String (Appearance G)) (cues : List (Cue T G)) (time : T) :
    (sample initial cues time).states.keys = initial.keys := by
  refine sample_kept (fun f => f.states.keys) (fun f o progress => ?_) initial cues time
  unfold Frame.apply
  split
  · rfl
  · rfl
  · split
    · exact OrderedMap.keys_modify _ _ _
    · rfl

end Frame

end Storyboard
