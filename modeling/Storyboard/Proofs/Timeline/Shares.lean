import Storyboard.Proofs.OrderedMap
import Storyboard.Proofs.Timeline.Composition
import Storyboard.Proofs.Timeline.Ease
import Storyboard.Proofs.Timeline.Frame

/-!
# Shares

A tween between two shares is a share, however far its curve overshoots. So the opacity, the glow,
the drawn share and the label of an entity are shares in every frame, and its pulse is at most a
tenth (`sample_inRange`).
-/

namespace Storyboard

variable {T G : Type}

theorem Diagram.initial_keys [Scalar T] [Scalar G] [Narrow T G] (d : Diagram T G)
    (o : CompileOptions G) : (d.compile o).initial.keys = (d.nodeIds ++ d.edgeIds).eraseDups := by
  rw [show (d.compile o).initial = d.initialStates o from rfl, initialStates,
    OrderedMap.keys_ofList]
  simp [Function.comp_def]

variable [ExactScalar G]

/-! ### Shares -/

theorem tween_mem {source target progress : G} (first : 0 ≤ source ∧ source ≤ 1)
    (last : 0 ≤ target ∧ target ≤ 1) (nonneg : 0 ≤ progress) :
    0 ≤ tween source target progress ∧ tween source target progress ≤ 1 := by
  unfold tween
  rw [ExactScalar.one_eq]
  split
  · exact last
  · next going =>
    have left : 0 ≤ 1 - progress := sub_nonneg.mpr (not_le.mp going).le
    have mixed : source + (target - source) * progress =
        (1 - progress) * source + progress * target := by ring
    have low := add_nonneg (mul_nonneg left first.1) (mul_nonneg nonneg last.1)
    have high := add_le_add (mul_le_mul_of_nonneg_left first.2 left)
      (mul_le_mul_of_nonneg_left last.2 nonneg)
    rw [mixed]
    exact ⟨low, high.trans_eq (by ring)⟩

theorem tween_one_mem {source progress : G} (first : 0 ≤ source ∧ source ≤ 1)
    (nonneg : 0 ≤ progress) :
    0 ≤ tween source 1 progress ∧ tween source 1 progress ≤ 1 :=
  tween_mem first ⟨zero_le_one, le_refl 1⟩ nonneg

theorem tween_zero_mem {source progress : G} (first : 0 ≤ source ∧ source ≤ 1)
    (nonneg : 0 ≤ progress) :
    0 ≤ tween source 0 progress ∧ tween source 0 progress ≤ 1 :=
  tween_mem first ⟨le_refl 0, zero_le_one⟩ nonneg

namespace Appearance

structure InRange (a : Appearance G) : Prop where
  opacity : 0 ≤ a.opacity ∧ a.opacity ≤ 1
  glow : 0 ≤ a.glow ∧ a.glow ≤ 1
  drawn : 0 ≤ a.drawn ∧ a.drawn ≤ 1
  label : 0 ≤ a.labelOpacity ∧ a.labelOpacity ≤ 1
  pulse : 0 ≤ a.pulse ∧ a.pulse ≤ 1 / 10

theorem ofNode_inRange (visible : Bool) (fill : Color G) : (ofNode visible fill).InRange := by
  cases visible <;> constructor <;> simp [ofNode, hidden]

theorem ofEdge_inRange (stroke : Color G) : (ofEdge stroke).InRange := by
  constructor <;> simp [ofEdge, hidden]

theorem apply_pulse (a : Appearance G) (target : String) (progress : G) :
    (a.apply (.pulse target) progress).pulse =
      if 0 < progress ∧ progress < 1 then 1 / 10 * Scalar.sinPi progress else 0 := by
  have height : (pulseHeight : G) = 1 / 10 := by
    rw [pulseHeight, ExactScalar.decimal_eq]
    norm_num
  simp [apply, height]

theorem apply_draw (a : Appearance G) (edge : String) (flow : Flow) (progress : G) :
    (a.apply (.draw edge flow) progress).opacity = if 0 < progress then 1 else a.opacity := by
  simp [apply]

/-- An operation keeps the ranges, whatever its progress. -/
theorem apply_inRange (sine : ∀ x : G, 0 < x → x < 1 → 0 ≤ Scalar.sinPi x ∧ Scalar.sinPi x ≤ 1)
    {a : Appearance G} (h : a.InRange) (o : Operation G) {progress : G} (nonneg : 0 ≤ progress) :
    (a.apply o progress).InRange := by
  have zero : @OfNat.ofNat G 0 Scalar.instOfNat = 0 := ExactScalar.zero_eq
  have one : @OfNat.ofNat G 1 Scalar.instOfNat = 1 := ExactScalar.one_eq
  cases o with
  | enter target effect => exact { h with opacity := one ▸ tween_one_mem h.opacity nonneg }
  | leave target effect => exact { h with opacity := zero ▸ tween_zero_mem h.opacity nonneg }
  | glow target => exact { h with glow := one ▸ tween_one_mem h.glow nonneg }
  | restore target color =>
    have pulse : (0 : G) ≤ 0 ∧ (0 : G) ≤ 1 / 10 := ⟨le_refl 0, by norm_num⟩
    exact { h with glow := zero ▸ tween_zero_mem h.glow nonneg, pulse := zero ▸ pulse }
  | pulse target =>
    refine { h with pulse := ?_ }
    rw [apply_pulse]
    split
    · next running =>
      obtain ⟨low, high⟩ := sine progress running.1 running.2
      constructor <;> linarith
    · norm_num
  | draw edge flow =>
    refine { h with opacity := ?_, drawn := one ▸ tween_one_mem h.drawn nonneg }
    rw [apply_draw]
    split
    · exact ⟨zero_le_one, le_refl 1⟩
    · exact h.opacity
  | revealLabel edge => exact { h with label := one ▸ tween_one_mem h.label nonneg }
  | recolor target color | move target offset relative | transform target scale rotation
  | step number | camera move => exact ⟨h.opacity, h.glow, h.drawn, h.label, h.pulse⟩

variable [ExactScalar T] [ExactNarrow T G]

theorem foldl_play_inRange
    (sine : ∀ x : G, 0 < x → x < 1 → 0 ≤ Scalar.sinPi x ∧ Scalar.sinPi x ≤ 1)
    (wave : ∀ x : T, 0 ≤ x → x ≤ 1 → Scalar.cosPi x ≤ 1) (id : String) (time : T)
    (played : List (Cue T G)) {a : Appearance G} (h : a.InRange) :
    (played.foldl (play id time) a).InRange := by
  induction played generalizing a with
  | nil => exact h
  | cons c rest ih =>
    refine ih ?_
    unfold play
    split
    · exact apply_inRange sine h _ (ExactNarrow.narrow_nonneg (c.progress_nonneg wave time))
    · exact h

end Appearance

namespace Diagram

variable [ExactScalar T] [ExactNarrow T G]

theorem initial_inRange {d : Diagram T G} {o : CompileOptions G} {id : String} {a : Appearance G}
    (found : (d.compile o).initial.get? id = some a) : a.InRange := by
  obtain ⟨_, _, rfl⟩ | ⟨_, rfl⟩ := d.initial_cases o found
  · exact Appearance.ofNode_inRange _ _
  · exact Appearance.ofEdge_inRange _

/-- A frame shows the entities of the diagram, each once, and keeps the ranges of each, whatever
cues overlap and whichever curves they have. Of the sine of a pulse it is asked that it lies between
zero and one while the pulse runs, and of the wave curve that it does not go below zero. -/
theorem sample_inRange
    (sine : ∀ x : G, 0 < x → x < 1 → 0 ≤ Scalar.sinPi x ∧ Scalar.sinPi x ≤ 1)
    (wave : ∀ x : T, 0 ≤ x → x ≤ 1 → Scalar.cosPi x ≤ 1) (d : Diagram T G) (o : CompileOptions G)
    (time : T) :
    let states := ((d.compile o).sample time).states
    states.keys = (d.nodeIds ++ d.edgeIds).eraseDups ∧ ∀ a ∈ states.values, a.InRange := by
  intro states
  have keys : states.keys = (d.nodeIds ++ d.edgeIds).eraseDups :=
    (Frame.sample_keys _ _ _).trans (d.initial_keys o)
  refine ⟨keys, fun a member => ?_⟩
  obtain ⟨⟨id, _⟩, entry, rfl⟩ := List.mem_map.mp member
  have found := OrderedMap.get?_of_mem (keys ▸ eraseDups_nodup _) entry
  rw [show states = ((d.compile o).sample time).states from rfl, Timeline.sample,
    Frame.sample_get?] at found
  obtain ⟨first, begun, rfl⟩ := Option.map_eq_some_iff.mp found
  exact Appearance.foldl_play_inRange sine wave id _ _ (initial_inRange begun)

/-- A node that springs in while it is highlighted and is hidden before it is there, and an edge
that is drawn at the same time. -/
def lively : Diagram Rat Rat where
  nodes := [{ id := "A", label := "A" }, { id := "B", label := "B" }]
  edges := [{ id := "A_to_B", source := "A", target := "B", label := some "x" }]
  steps :=
    [{ number := 1, action := .reveal, targets := [.entity "A"]
       properties := ⟨[("easing", .text "back")]⟩ },
      { number := 1, action := .highlight, targets := [.entity "nodes"]
        properties := ⟨[("glow", .bool true), ("pulse", .bool true)]⟩ },
      { number := 1, action := .hide, targets := [.entity "A"]
        properties := ⟨[("delay", .number (3 / 10))]⟩ },
      { number := 1, action := .connect, targets := [.pair "A" "B"] }]

theorem lively_inRange :
    let states := ((lively.compile .standard).sample (1 / 2)).states
    (∀ x : Rat, 0 < x → x < 1 → 0 ≤ Scalar.sinPi x ∧ Scalar.sinPi x ≤ 1) ∧
    (∀ x : Rat, 0 ≤ x → x ≤ 1 → Scalar.cosPi x ≤ 1) ∧
    states.keys = ["A", "B", "A_to_B"] ∧ ∀ a ∈ states.values, a.InRange := by
  have sine : ∀ x : Rat, 0 < x → x < 1 → 0 ≤ Scalar.sinPi x ∧ Scalar.sinPi x ≤ 1 := by
    intro x positive small
    show 0 ≤ 4 * x * (1 - x) ∧ 4 * x * (1 - x) ≤ 1
    have middle := sq_nonneg (2 * x - 1)
    constructor
    · have rest : 0 ≤ 1 - x := sub_nonneg.mpr small.le
      positivity
    · linarith
  have wave : ∀ x : Rat, 0 ≤ x → x ≤ 1 → Scalar.cosPi x ≤ 1 := by
    intro x nonneg _
    show 1 - 2 * x ≤ 1
    linarith
  obtain ⟨keys, ranges⟩ := sample_inRange sine wave lively .standard (1 / 2)
  exact ⟨sine, wave, keys.trans (by decide), ranges⟩

end Diagram
end Storyboard
