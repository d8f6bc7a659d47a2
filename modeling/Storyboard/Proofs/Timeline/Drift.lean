import Storyboard.Proofs.Timeline.Groups
import Storyboard.Proofs.Timeline.Highlight
import Storyboard.Proofs.Timeline.Visibility

/-!
# Drift

A relative move takes an entity on from wherever it is, so the moves of an entity add up: its offset
is the sum of the vectors of its moves, each as far as its move has got (`relative_moves_add`).
Neither the order of the moves nor what else happens to the entity plays a part.
-/

namespace Storyboard

variable {T G : Type}

/-! ### Vectors -/

namespace Point

variable [ExactScalar G]

instance : Add (Point G) := ⟨add⟩

instance : Zero (Point G) := ⟨zero⟩

theorem zero_eq : (0 : Point G) = ⟨0, 0⟩ := congrArg₂ mk ExactScalar.zero_eq ExactScalar.zero_eq

instance : AddCommMonoid (Point G) where
  add_assoc p q r := congrArg₂ mk (add_assoc p.x q.x r.x) (add_assoc p.y q.y r.y)
  zero_add p := by
    rw [zero_eq]
    exact congrArg₂ mk (zero_add p.x) (zero_add p.y)
  add_zero p := by
    rw [zero_eq]
    exact congrArg₂ mk (add_zero p.x) (add_zero p.y)
  add_comm p q := congrArg₂ mk (add_comm p.x q.x) (add_comm p.y q.y)
  nsmul := nsmulRec

theorem scale_one (p : Point G) : p.scale 1 = p := congrArg₂ mk (mul_one p.x) (mul_one p.y)

theorem scale_zero (p : Point G) : p.scale 0 = 0 := by
  rw [zero_eq]
  exact congrArg₂ mk (mul_zero p.x) (mul_zero p.y)

/-- A share of the way to a place that is given from here. -/
theorem lerp_add (p v : Point G) (k : G) : p.lerp (p + v) k = p + v.scale k := by
  refine congrArg₂ mk ?_ ?_
  · exact congrArg (fun d => p.x + d * k) (add_sub_cancel_left p.x v.x)
  · exact congrArg (fun d => p.y + d * k) (add_sub_cancel_left p.y v.y)

end Point

namespace Cue

/-- The vector by which a cue moves an entity, if it is a relative move of the entity. -/
def shift? (id : String) (c : Cue T G) : Option (Point G) :=
  match c.operation with
  | .move target offset true => if target = id then some offset else none
  | _ => none

theorem shift?_eq_some_iff {id : String} {c : Cue T G} {v : Point G} :
    c.shift? id = some v ↔ c.operation = .move id v true := by
  unfold shift?
  split
  · next target offset operation =>
    rw [operation]
    by_cases same : target = id <;> simp [same]
  · next other =>
    refine ⟨by simp, fun operation => absurd operation (other id v)⟩

variable [ExactScalar T] [ExactScalar G] [ExactNarrow T G]

/-- The vectors of the relative moves of an entity, each as far as its move has got at a time. -/
def drifts (id : String) (time : T) (cues : List (Cue T G)) : List (Point G) :=
  cues.filterMap fun c => (c.shift? id).map (·.scale (min (narrow (c.progress time)) 1))

theorem sum_drifts_cons (id : String) (time : T) (c : Cue T G) (rest : List (Cue T G)) :
    (drifts id time (c :: rest)).sum = (drifts id time [c]).sum + (drifts id time rest).sum := by
  rw [drifts, drifts, drifts, ← List.sum_append, ← List.filterMap_append, List.singleton_append]

theorem sum_drifts_waiting {id : String} {time : T} {cues : List (Cue T G)}
    (waiting : ∀ c ∈ cues, time < c.start) : (drifts id time cues).sum = 0 := by
  refine List.sum_eq_zero fun p member => ?_
  obtain ⟨c, place, shifts⟩ := List.mem_filterMap.mp member
  obtain ⟨v, _, rfl⟩ := Option.map_eq_some_iff.mp shifts
  rw [progress, if_pos (waiting c place), ExactScalar.zero_eq, ExactNarrow.narrow_zero,
    min_eq_left zero_le_one, Point.scale_zero]

/-- Of cues in the order of their starts, those that have not started add nothing. -/
theorem sum_drifts_started (id : String) (time : T) {cues : List (Cue T G)}
    (sorted : cues.Pairwise fun b c => b.start ≤ c.start) :
    (drifts id time (cues.takeWhile fun c => c.start ≤ time)).sum = (drifts id time cues).sum := by
  induction cues with
  | nil => rfl
  | cons c rest ih =>
    obtain ⟨least, sorted⟩ := List.pairwise_cons.mp sorted
    by_cases started : c.start ≤ time
    · rw [List.takeWhile_cons_of_pos (by simpa using started), sum_drifts_cons id time c, ih sorted,
        ← sum_drifts_cons]
    · have waiting : ∀ c' ∈ c :: rest, time < c'.start := by
        refine List.forall_mem_cons.mpr ⟨not_le.mp started, fun c' later => ?_⟩
        exact (not_le.mp started).trans_le (least c' later)
      rw [List.takeWhile_cons_of_neg (by simpa using started), sum_drifts_waiting waiting]
      rfl

theorem drifts_congr {id : String} {time time' : T} {cues : List (Cue T G)}
    (same : ∀ c ∈ cues, (c.shift? id).isSome = true → c.progress time = c.progress time') :
    drifts id time cues = drifts id time' cues := by
  refine List.filterMap_congr fun c member => ?_
  cases shift : c.shift? id with
  | none => rfl
  | some v => rw [same c member (by rw [shift]; rfl)]

theorem drifts_ended {id : String} {time : T} {cues : List (Cue T G)}
    (ended : ∀ c ∈ cues, (c.shift? id).isSome = true → c.progress time = 1) :
    drifts id time cues = cues.filterMap (shift? id) := by
  refine List.filterMap_congr fun c member => ?_
  cases shift : c.shift? id with
  | none => rfl
  | some v =>
    rw [ended c member (by rw [shift]; rfl), ExactNarrow.narrow_one, min_self, Option.map_some,
      Point.scale_one]

end Cue

variable [ExactScalar T] [ExactScalar G] [ExactNarrow T G]

namespace Appearance

theorem apply_move (a : Appearance G) (id : String) (v : Point G) (progress : G) :
    (a.apply (.move id v true) progress).offset = a.offset + v.scale (min progress 1) := by
  have one : @OfNat.ofNat G 1 Scalar.instOfNat = 1 := ExactScalar.one_eq
  show (if _ ≤ progress then a.offset + v else a.offset.lerp (a.offset + v) progress) = _
  rw [one, Point.lerp_add]
  split
  · next arrived => rw [min_eq_right arrived, Point.scale_one]
  · next going => rw [min_eq_left (not_le.mp going).le]

/-- Only moves change the offset. -/
theorem apply_offset {a : Appearance G} {o : Operation G} {id : String}
    (still : ∀ offset relative, o ≠ .move id offset relative) (about : o.target? = some id)
    (progress : G) : (a.apply o progress).offset = a.offset := by
  cases o with
  | move target offset relative =>
    obtain rfl := Option.some.inj about
    exact absurd rfl (still offset relative)
  | _ => rfl

theorem play_offset {id : String} {time : T} {c : Cue T G}
    (relative : ∀ offset, c.operation ≠ .move id offset false) (a : Appearance G) :
    (a.play id time c).offset = a.offset + (Cue.drifts id time [c]).sum := by
  unfold play Cue.drifts
  cases shift : c.shift? id with
  | some v =>
    have operation := Cue.shift?_eq_some_iff.mp shift
    have about : (Operation.move id v true).target? = some id := rfl
    rw [operation, if_pos about, apply_move]
    simp [shift]
  | none =>
    have still : ∀ offset free, c.operation ≠ .move id offset free := by
      rintro offset (_ | _) operation
      · exact relative offset operation
      · rw [Cue.shift?_eq_some_iff.mpr operation] at shift
        cases shift
    rw [List.filterMap_cons_none (by rw [shift]; rfl), List.filterMap_nil, List.sum_nil, add_zero]
    split
    · next about => exact apply_offset still about _
    · rfl

theorem foldl_play_offset {id : String} (time : T) {played : List (Cue T G)}
    (relative : ∀ c ∈ played, ∀ offset, c.operation ≠ .move id offset false) (a : Appearance G) :
    (played.foldl (play id time) a).offset = a.offset + (Cue.drifts id time played).sum := by
  induction played generalizing a with
  | nil => exact (add_zero a.offset).symm
  | cons c rest ih =>
    obtain ⟨first, later⟩ := List.forall_mem_cons.mp relative
    rw [List.foldl_cons, ih later, play_offset first, Cue.sum_drifts_cons id time c rest, add_assoc]

end Appearance

namespace Diagram

variable {d : Diagram T G} {o : CompileOptions G}

theorem initial_offset {id : String} {a : Appearance G}
    (found : (d.compile o).initial.get? id = some a) : a.offset = 0 := by
  obtain ⟨_, _, rfl⟩ | ⟨_, rfl⟩ := d.initial_cases o found <;> rfl

/-- From zero on, a cue has the same progress in the frame of a time as at that time. -/
theorem progress_cut {c : Cue T G} (member : c ∈ (d.compile o).cues) {time : T} (late : 0 ≤ time) :
    c.progress ((d.compile o).cut time) = c.progress time := by
  have within := d.compile_within o member
  rcases le_or_gt time (d.compile o).duration with inside | after
  · rw [Timeline.cut_of_mem late inside]
  · have past : c.stop ≤ time := within.2.2.trans after.le
    rw [Cue.progress_of_stop within.forward past,
      Cue.progress_of_stop within.forward (Timeline.le_cut past within.2.2)]

/-- The offset of an entity that no absolute move places is the sum of the vectors of its relative
moves, each as far as its move has got at the time that the frame shows. That is the time asked for,
but for a time before zero, where the first frame is shown. When the moves are done, their vectors
themselves add up to the offset. -/
theorem relative_moves_add (d : Diagram T G) (o : CompileOptions G) {id : String}
    (entity : id ∈ d.nodeIds ∨ id ∈ d.edgeIds)
    (relative : ∀ c ∈ (d.compile o).cues, ∀ offset, c.operation ≠ .move id offset false)
    (time : T) :
    let t := d.compile o
    ∃ a, (t.sample time).states.get? id = some a ∧
      a.offset = (Cue.drifts id (t.cut time) t.cues).sum ∧
      (0 ≤ time → a.offset = (Cue.drifts id time t.cues).sum) ∧
      ((∀ c ∈ t.cues, (c.shift? id).isSome = true → c.stop ≤ time) →
        a.offset = (t.cues.filterMap (Cue.shift? id)).sum) := by
  intro t
  obtain ⟨first, found⟩ := Option.isSome_iff_exists.mp ((d.isSome_initial o).mpr entity)
  have started : ∀ c ∈ t.cues.takeWhile (fun c => c.start ≤ t.cut time), ∀ offset,
      c.operation ≠ .move id offset false :=
    fun c played => relative c ((List.takeWhile_prefix _).subset played)
  have shown : (t.sample time).states.get? id = some
      ((t.cues.takeWhile fun c => c.start ≤ t.cut time).foldl
        (Appearance.play id (t.cut time)) first) := by
    rw [Timeline.sample, Frame.sample_get?, found]
    rfl
  have offset := Appearance.foldl_play_offset (t.cut time) started first
  rw [initial_offset found, zero_add,
    Cue.sum_drifts_started id _ (d.compile_plays o).sorted] at offset
  refine ⟨_, shown, offset, fun late => ?_, fun ended => ?_⟩
  · rw [offset, Cue.drifts_congr fun c member _ => progress_cut member late]
  · rw [offset, Cue.drifts_ended fun c member shifts => ?_]
    have within := d.compile_within o member
    exact Cue.progress_of_stop within.forward
      (Timeline.le_cut (ended c member shifts) within.2.2)

/-- A node with three moves: one that takes no time and two that are under way at the same time. -/
def adrift : Diagram Rat Rat where
  nodes := [{ id := "A", label := "A" }]
  steps :=
    [{ number := 1, action := .move, targets := [.entity "A"]
       properties := ⟨[("by", .text "10, 0"), ("duration", .number 0)]⟩ },
      { number := 1, action := .move, targets := [.entity "A"]
        properties := ⟨[("by", .text "4, -6"), ("duration", .number 2),
          ("easing", .text "linear")]⟩ },
      { number := 1, action := .move, targets := [.entity "A"]
        properties := ⟨[("by", .text "8, 8"), ("duration", .number 2), ("easing", .text "back")]⟩ }]

def adriftCues : List (Cue Rat Rat) :=
  [.of (.step 1) 0 0 .linear, .of (.move "A" ⟨10, 0⟩ true) 0 0 default,
    .of (.move "A" ⟨4, -6⟩ true) 0 2 .linear, .of (.move "A" ⟨8, 8⟩ true) 0 2 .outBack]

/-- What is to be played, how far the moves have got halfway, at the end and before they set out,
and where the first frame shows the node. -/
theorem adrift_runs :
    (adrift.compile .standard).cues = adriftCues ∧
    (Cue.drifts "A" 1 adriftCues).sum = ⟨20, 5⟩ ∧
    (∀ c ∈ adriftCues, (c.shift? "A").isSome = true → c.stop ≤ 7) ∧
    (adriftCues.filterMap (Cue.shift? "A")).sum = ⟨22, 2⟩ ∧
    (Cue.drifts "A" (-1) adriftCues).sum = 0 ∧
    ((Frame.sample (adrift.initialStates .standard) adriftCues 0).states.get? "A").map
      Appearance.offset = some ⟨10, 0⟩ := by
  have sorted : (adrift.compile .standard).cues = adrift.made .standard :=
    List.mergeSort_of_pairwise (by decide +kernel)
  rw [sorted]
  decide +kernel

theorem adrift_relative :
    ∀ c ∈ (adrift.compile .standard).cues, ∀ offset, c.operation ≠ .move "A" offset false := by
  rw [adrift_runs.1]
  simp [adriftCues, Cue.of]

theorem adrift_moves :
    "A" ∈ adrift.nodeIds ∧
    (∀ c ∈ (adrift.compile .standard).cues, ∀ offset, c.operation ≠ .move "A" offset false) ∧
    (∃ a, ((adrift.compile .standard).sample 1).states.get? "A" = some a ∧ a.offset = ⟨20, 5⟩) ∧
    ∃ a, ((adrift.compile .standard).sample 7).states.get? "A" = some a ∧ a.offset = ⟨22, 2⟩ := by
  have entity : "A" ∈ adrift.nodeIds := by decide
  obtain ⟨cues, halfway, ended, whole, _⟩ := adrift_runs
  refine ⟨entity, adrift_relative, ?_, ?_⟩
  · obtain ⟨a, shown, _, sum, _⟩ :=
      relative_moves_add adrift .standard (.inl entity) adrift_relative 1
    exact ⟨a, shown, (sum (by decide)).trans (cues ▸ halfway)⟩
  · obtain ⟨a, shown, _, _, sum⟩ :=
      relative_moves_add adrift .standard (.inl entity) adrift_relative 7
    exact ⟨a, shown, (sum (cues ▸ ended)).trans (cues ▸ whole)⟩

/-- At a time before zero no move has set out, but the frame shows the node where the move takes it
that needs no time. -/
theorem adrift_before_zero :
    let t := adrift.compile .standard
    "A" ∈ adrift.nodeIds ∧ (∀ c ∈ t.cues, ∀ offset, c.operation ≠ .move "A" offset false) ∧
    ((t.sample (-1)).states.get? "A").map Appearance.offset = some ⟨10, 0⟩ ∧
    (Cue.drifts "A" (-1) t.cues).sum = 0 := by
  obtain ⟨cues, _, _, _, none, shown⟩ := adrift_runs
  refine ⟨by decide, adrift_relative, ?_, cues ▸ none⟩
  have start : (adrift.compile .standard).cut (-1) = 0 := by
    unfold Timeline.cut Scalar.clamp
    rw [ExactScalar.zero_eq, if_pos (by norm_num)]
  rw [Timeline.sample, start, cues]
  exact shown

end Diagram

end Storyboard
