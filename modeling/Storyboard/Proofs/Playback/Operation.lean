import Storyboard.Proofs.Playback.Log
import Storyboard.Proofs.Playback.Part

/-!
# Operations, taken apart

Three operations walk over the boundaries, and each does so from a player of its own: `started`,
`resuming` and `ticking`. Every jump goes through `leave`, which takes the cursor to a time in no
boundary.
-/

namespace Storyboard

namespace Player

variable {T G σ : Type} [Narrator T σ] [Scalar T]

/-- The player with its cursor at a time, in no boundary, and without narration. -/
def leave (p : Player T G σ) (time : T) : Player T G σ :=
  { p.cancelNarration with clock := p.clock.seek time, current := none, spoken := none }

variable [Scalar G]

def starting (p : Player T G σ) : Player T G σ :=
  let p := if p.duration ≤ p.time then p.rewind else p
  if p.autoPaused then { p with autoPaused := false, pending := none } else p

/-- The player that has just started playback. -/
def started (p : Player T G σ) : Player T G σ :=
  let p := ({ p.starting with clock := p.starting.clock.play }.setState .playing).mapNarrator
    Narrator.resume
  match p.current with
  | none => p.enter? (p.timeline.boundaryAt? p.time)
  | some index => if p.spoken = some index then p else p.speak index

theorem starting_of_ended {p : Player T G σ} (ended : p.duration ≤ p.time) :
    p.starting = p.rewind := by
  rw [starting, if_pos ended]
  rfl

theorem starting_of_going {p : Player T G σ} (going : ¬p.duration ≤ p.time) :
    p.starting = if p.autoPaused then { p with autoPaused := false, pending := none } else p := by
  rw [starting, if_neg going]

/-- The player of `play` once playback is on and before a boundary is entered. -/
def awake (p : Player T G σ) : Player T G σ :=
  { p.starting with
    clock := p.starting.clock.play, state := .playing
    narrator := p.starting.narrator.map Narrator.resume
    events := p.starting.events ++ [.stateChanged .playing] }

theorem started_eq {p : Player T G σ} (resting : p.starting.state ≠ .playing) :
    p.started = match p.awake.current with
      | none => p.awake.enter? (p.awake.timeline.boundaryAt? p.awake.time)
      | some index => if p.awake.spoken = some index then p.awake else p.awake.speak index := by
  obtain ⟨still, _⟩ | ⟨_, moved⟩ :=
    { p.starting with clock := p.starting.clock.play }.setState_cases .playing
  · exact absurd still resting
  · rw [started, moved]
    rfl

theorem stop_eq (p : Player T G σ) : p.stop =
    ({ p.leave 0 with clock := (p.leave 0).clock.pause }.setState .stopped).display
      p.timeline.initialFrame := by
  have timeline : ({ p.leave 0 with
      clock := (p.leave 0).clock.pause }.setState .stopped).timeline = p.timeline :=
    setState_timeline _ _
  rw [← timeline]
  rfl

variable [Narrow T G]

theorem play_of_playing {p : Player T G σ} (playing : p.state = .playing) : p.play = p :=
  if_pos playing

theorem play_of_resting {p : Player T G σ} (resting : p.state ≠ .playing) :
    p.play = (p.started.sync p.started.time).render := by
  rw [play, if_neg resting]
  rfl

theorem seekTo_eq (p : Player T G σ) (time : T) (index : Option Nat) :
    p.seekTo time index =
      ((if p.state = .stopped then (p.leave time).setState .paused else p.leave time).enter?
        index).render := by
  let q : Player T G σ := { p.cancelNarration with clock := p.clock.seek time }
  have cleared : { (if p.state = .stopped then q.setState .paused else q) with
        current := none, spoken := none } =
      if p.state = .stopped then (p.leave time).setState .paused else p.leave time := by
    by_cases stopped : p.state = .stopped
    · rw [if_pos stopped, if_pos stopped]
      exact q.setState_clear .paused
    · rw [if_neg stopped, if_neg stopped]
      rfl
  exact congrArg (fun q => (q.enter? index).render) cleared

theorem onNarrationEnd_cases (p : Player T G σ) (token : Nat) :
    (p.pending ≠ some token ∧ p.onNarrationEnd token = p) ∨
    (p.pending = some token ∧ p.autoPaused = false ∧
      p.onNarrationEnd token = { p with pending := none }) ∨
    (p.pending = some token ∧ p.autoPaused = true ∧
      p.onNarrationEnd token = (p.resuming.sync p.resuming.time).render) := by
  unfold onNarrationEnd
  by_cases awaited : p.pending = some token
  · rw [if_neg (not_not_intro awaited)]
    cases waiting : p.autoPaused with
    | false => exact .inr (.inl ⟨awaited, rfl, rfl⟩)
    | true => exact .inr (.inr ⟨awaited, rfl, rfl⟩)
  · exact .inl ⟨awaited, if_pos awaited⟩

theorem advanceNarrator_cases (p : Player T G σ) (elapsed : T) :
    (∃ narrator, p.delivery? (.tick elapsed) = none ∧
      p.advanceNarrator elapsed = { p with narrator }) ∨
    (∃ token narrator, p.delivery? (.tick elapsed) = some token ∧
      p.advanceNarrator elapsed = { p with narrator }.onNarrationEnd token) := by
  unfold advanceNarrator delivery?
  cases p.narrator with
  | none => exact .inl ⟨p.narrator, rfl, rfl⟩
  | some narrator =>
    cases answer : Narrator.advance narrator elapsed with
    | mk token narrator' =>
      cases token with
      | none => exact .inl ⟨some narrator', by simp [answer], by simp [answer]⟩
      | some token => exact .inr ⟨token, some narrator', by simp [answer], by simp [answer]⟩

def ticking (p : Player T G σ) (elapsed : T) : Player T G σ :=
  { p.advanceNarrator elapsed with clock := (p.advanceNarrator elapsed).clock.advance elapsed }

theorem tick_of_resting {p : Player T G σ} {elapsed : T}
    (resting : (p.advanceNarrator elapsed).state ≠ .playing) :
    p.tick elapsed = p.advanceNarrator elapsed :=
  if_pos resting

theorem tick_of_playing {p : Player T G σ} {elapsed : T}
    (playing : (p.advanceNarrator elapsed).state = .playing) :
    p.tick elapsed =
      let q := (p.ticking elapsed).sync (p.ticking elapsed).time
      (q.emit (.progress q.time q.duration)).render := by
  rw [tick, if_neg (not_not_intro playing)]
  rfl

/-! ### Speed -/

theorem perform_setSpeed (p : Player T G σ) (speed : T) :
    (p.perform (.setSpeed speed)).2 = { p with clock := p.clock.setSpeed speed } := by
  rw [← withSpeed_eq, withSpeed, perform]
  cases p.setSpeed speed <;> rfl

/-! ### Navigation -/

theorem seekBoundary_of_lt {p : Player T G σ} {index : Nat}
    (present : index < p.timeline.boundaries.length) :
    ∃ b, p.boundary? index = some b ∧ p.seekBoundary index = p.seekTo b.start (some index) := by
  have found : p.boundary? index = some p.timeline.boundaries[index] :=
    List.getElem?_eq_getElem present
  exact ⟨_, found, by rw [seekBoundary, found]⟩

/-- Navigation by steps finds nothing and does nothing, or jumps to the start of a boundary. -/
theorem navigate_cases (p : Player T G σ) (c : Command T)
    (navigates : (∃ step, c = .seekStep step) ∨ c = .nextStep ∨ c = .previousStep)
    (placed : ∀ i, p.current = some i → i < p.timeline.boundaries.length) :
    (p.jumps c = false ∧ (p.perform c).2 = p) ∨
      (p.jumps c = true ∧ ∃ index b, p.boundary? index = some b ∧
        (p.perform c).2 = p.seekTo b.start (some index)) := by
  have answers : ∀ (found : Bool) (q : Player T G σ),
      p.jumps c = found → (p.perform c).2 = q →
      (found = false ∧ q = p ∨
        ∃ index < p.timeline.boundaries.length, found = true ∧ q = p.seekBoundary index) →
      (p.jumps c = false ∧ (p.perform c).2 = p) ∨
        (p.jumps c = true ∧ ∃ index b, p.boundary? index = some b ∧
          (p.perform c).2 = p.seekTo b.start (some index)) := by
    rintro found q jumped result (⟨rfl, rfl⟩ | ⟨index, present, rfl, rfl⟩)
    · exact .inl ⟨jumped, result⟩
    · obtain ⟨b, found, same⟩ := seekBoundary_of_lt present
      exact .inr ⟨jumped, index, b, found, result.trans same⟩
  obtain ⟨step, rfl⟩ | rfl | rfl := navigates
  · refine answers (p.seekStep step).1 (p.seekStep step).2 rfl rfl ?_
    unfold seekStep
    cases found : p.timeline.boundaryOfStep? step with
    | none => exact .inl ⟨rfl, rfl⟩
    | some index =>
      exact .inr ⟨index, (List.findIdx?_eq_some_iff_findIdx_eq.mp found).1, rfl, rfl⟩
  · refine answers p.nextStep.1 p.nextStep.2 rfl rfl ?_
    unfold nextStep
    split
    · exact .inl ⟨rfl, rfl⟩
    · rename_i more
      exact .inr ⟨p.nextIndex, Nat.not_le.mp more, rfl, rfl⟩
  · refine answers p.previousStep.1 p.previousStep.2 rfl rfl ?_
    unfold previousStep
    split
    · exact .inl ⟨rfl, rfl⟩
    · rename_i present
      have positive : 0 < p.timeline.boundaries.length :=
        List.length_pos_iff.mpr (by simpa using present)
      refine .inr ⟨_, ?_, rfl, rfl⟩
      split
      · rename_i i current
        exact Nat.lt_of_le_of_lt (Nat.sub_le i 1) (placed i current)
      · exact positive

end Player

end Storyboard
