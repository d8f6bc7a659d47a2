import Mathlib.Algebra.Order.BigOperators.Group.List
import Storyboard.Proofs.Playback.Gate
import Storyboard.Proofs.Playback.Silence
import Storyboard.Proofs.Timeline.Groups
import Storyboard.Playback.SimulatedNarrator

/-!
# The pace of ticks

Without narration it does not matter in how many ticks time passes. What a host can see of a player
apart from its progress is its `Outline`, and a tick takes the outline over a distance of the timeline
(`Silent.tick_becomes`). Distances add up (`Outline.later_add`).
-/

namespace Storyboard

variable {T G σ : Type}

def PlayerEvent.isProgress : PlayerEvent T → Bool
  | progress .. => true
  | _ => false

/-- What a host can see of a player, apart from its progress. -/
structure Outline (T : Type) where
  state : Transport
  time : T
  current : Option Nat
  spoken : Option Nat
  /-- What was told, except for the progress. -/
  events : List (PlayerEvent T)
  deriving DecidableEq

def Player.outline [Scalar T] (p : Player T G σ) : Outline T :=
  { state := p.state, time := p.time, current := p.current, spoken := p.spoken
    events := p.events.filter fun e => !e.isProgress }

namespace Outline

def enter (x : Outline T) (e : Boundary T × Nat) : Outline T :=
  { x with
    current := some e.2, spoken := some e.2, events := x.events ++ [.stepChanged e.1.step e.2] }

def nextIndex (x : Outline T) : Nat :=
  match x.current with
  | some index => index + 1
  | none => 0

/-- Entries that come next are entered one after the other. -/
theorem nextIndex_foldl (t : Timeline T G) {x : Outline T} {entries : List (Boundary T × Nat)}
    (next : entries <+: t.boundaries.zipIdx.drop x.nextIndex) :
    (entries.foldl enter x).nextIndex = x.nextIndex + entries.length := by
  induction entries generalizing x with
  | nil => rfl
  | cons e entries ih =>
    obtain ⟨rest, whole⟩ := next
    have head : (t.boundaries.zipIdx)[x.nextIndex]? = some e := by
      rw [← List.head?_drop, ← whole]
      rfl
    have index : e.2 = x.nextIndex := by
      rw [List.getElem?_zipIdx, Option.map_eq_some_iff] at head
      obtain ⟨b, _, rfl⟩ := head
      simp
    have entered : (x.enter e).nextIndex = x.nextIndex + 1 := congrArg (· + 1) index
    have tail : entries <+: t.boundaries.zipIdx.drop (x.enter e).nextIndex := by
      rw [entered, ← List.tail_drop, ← whole]
      exact List.prefix_append entries rest
    rw [List.foldl_cons, ih tail, entered, List.length_cons]
    omega

theorem foldl_enter_state (entries : List (Boundary T × Nat)) (x : Outline T) :
    (entries.foldl enter x).state = x.state := by
  induction entries generalizing x with
  | nil => rfl
  | cons e entries ih => exact ih (x.enter e)

theorem foldl_enter_time (entries : List (Boundary T × Nat)) (x : Outline T) (time : T) :
    entries.foldl enter { x with time } = { entries.foldl enter x with time } := by
  induction entries generalizing x with
  | nil => rfl
  | cons e entries ih => exact ih (x.enter e)

variable [ExactScalar T]

/-- The boundaries that come next and have started by now, with their indices. -/
def ahead (t : Timeline T G) (now : T) (x : Outline T) : List (Boundary T × Nat) :=
  (t.boundaries.zipIdx.drop x.nextIndex).takeWhile fun e => e.1.start ≤ now

/-- The cursor is now here, and every boundary on the way was entered. -/
def reach (t : Timeline T G) (now : T) (x : Outline T) : Outline T :=
  { (x.ahead t now).foldl enter x with time := now }

def settle (t : Timeline T G) (x : Outline T) : Outline T :=
  if t.duration ≤ x.time then
    { x with state := .paused, events := x.events ++ [.finished, .stateChanged .paused] }
  else x

/-- The outline after a distance of the timeline, along which the cursor goes at most to the end. It
does not move at all unless the player plays. -/
def later (t : Timeline T G) (distance : T) (x : Outline T) : Outline T :=
  if x.state = .playing then (x.reach t (min (x.time + distance) t.duration)).settle t else x

/-! ### Distances add up -/

theorem reach_time (t : Timeline T G) (x : Outline T) (time now : T) :
    ({ x with time } : Outline T).reach t now = x.reach t now := by
  show { (x.ahead t now).foldl enter { x with time } with time := now } = _
  rw [foldl_enter_time]
  rfl

theorem reach_here (t : Timeline T G) (x : Outline T) :
    x.reach t x.time = (x.ahead t x.time).foldl enter x :=
  (foldl_enter_time _ x x.time).symm

/-- A stop on the way makes no difference. -/
theorem reach_reach (t : Timeline T G) (x : Outline T) {early late : T} (order : early ≤ late) :
    (x.reach t early).reach t late = x.reach t late := by
  have next : (x.reach t early).nextIndex = x.nextIndex + (x.ahead t early).length :=
    nextIndex_foldl t (List.takeWhile_prefix _)
  have split : x.ahead t late = x.ahead t early ++ (x.reach t early).ahead t late := by
    unfold ahead at next ⊢
    rw [next, ← List.drop_drop]
    refine takeWhile_split (fun e started => ?_) _
    simp only [decide_eq_true_eq] at started ⊢
    exact started.trans order
  have entered : ((x.reach t early).ahead t late).foldl enter (x.reach t early) =
      { (x.ahead t late).foldl enter x with time := early } := by
    rw [split, List.foldl_append]
    exact foldl_enter_time _ _ early
  rw [reach, entered, reach]

theorem later_resting (t : Timeline T G) {x : Outline T} (resting : x.state ≠ .playing)
    (distance : T) : x.later t distance = x := if_neg resting

theorem later_playing (t : Timeline T G) {x : Outline T} (playing : x.state = .playing)
    (distance : T) :
    x.later t distance = (x.reach t (min (x.time + distance) t.duration)).settle t := if_pos playing

theorem later_add (t : Timeline T G) (x : Outline T) (a : T) {b : T} (onward : 0 ≤ b) :
    (x.later t a).later t b = x.later t (a + b) := by
  by_cases playing : x.state = .playing
  · rw [later_playing t playing a, later_playing t playing (a + b)]
    rcases le_or_gt t.duration (x.time + a) with ended | going
    · -- The end is reached on the way, and nothing comes after it.
      have early : min (x.time + a) t.duration = t.duration := min_eq_right ended
      have late : min (x.time + (a + b)) t.duration = t.duration :=
        min_eq_right (ended.trans (by linarith))
      rw [early, late, settle, if_pos (show t.duration ≤ (x.reach t t.duration).time from le_rfl)]
      exact later_resting t Transport.noConfusion b
    · have early : min (x.time + a) t.duration = x.time + a := min_eq_left going.le
      have order : x.time + a ≤ min (x.time + (a + b)) t.duration :=
        le_min (by linarith) going.le
      have stays : (x.reach t (x.time + a)).state = .playing :=
        (foldl_enter_state _ x).trans playing
      have sum : (x.reach t (x.time + a)).time + b = x.time + (a + b) := add_assoc x.time a b
      rw [early, settle, if_neg (show ¬t.duration ≤ (x.reach t (x.time + a)).time from going.not_ge),
        later_playing t stays, sum, reach_reach t x order]
  · rw [later_resting t playing, later_resting t playing, later_resting t playing]

end Outline

namespace Player

variable [ExactScalar T] {p q : Player T G σ} {x : Outline T}

/-- `q` looks like this, and its cursor goes as fast as that of `p` and over the same timeline. -/
structure Becomes (p : Player T G σ) (x : Outline T) (q : Player T G σ) : Prop where
  outline : q.outline = x
  timeline : q.timeline = p.timeline
  speed : q.clock.speed = p.clock.speed

theorem Becomes.trans {y : Outline T} {r : Player T G σ} (first : p.Becomes x q)
    (second : q.Becomes y r) : p.Becomes y r :=
  ⟨second.outline, second.timeline.trans first.timeline, second.speed.trans first.speed⟩

theorem render_becomes [Scalar G] [Narrow T G] (h : p.Becomes x q) : p.Becomes x q.render := by
  obtain ⟨_, same⟩ := q.render_frame
  rw [same]
  exact ⟨h.outline, h.timeline, h.speed⟩

theorem progress_becomes (h : p.Becomes x q) (time duration : T) :
    p.Becomes x (q.emit (.progress time duration)) := by
  refine ⟨?_, h.timeline, h.speed⟩
  rw [← h.outline]
  simp [Player.outline, emit, Player.time, PlayerEvent.isProgress]

variable [Narrator T σ]

namespace Silent

theorem enter_all_becomes (h : p.Silent) (playing : p.state = .playing)
    {entries : List (Boundary T × Nat)} (present : ∀ e ∈ entries, p.boundary? e.2 = some e.1) :
    p.Becomes (entries.foldl Outline.enter p.outline)
        (entries.foldl (fun p e => p.enter e.2) p) ∧
      (entries.foldl (fun p e => p.enter e.2) p).state = .playing := by
  induction entries generalizing p with
  | nil => exact ⟨⟨rfl, rfl, rfl⟩, playing⟩
  | cons e entries ih =>
    obtain ⟨first, rest⟩ := List.forall_mem_cons.mp present
    have entered := h.enter_eq playing first
    have outline : (p.enter e.2).outline = p.outline.enter e := by
      rw [entered]
      simp [Player.outline, Outline.enter, Player.time, PlayerEvent.isProgress]
    have timeline : (p.enter e.2).timeline = p.timeline := by rw [entered]
    have speed : (p.enter e.2).clock.speed = p.clock.speed := by rw [entered]
    obtain ⟨later, still⟩ := ih (h.enter e.2) (by rw [entered]; exact playing)
      (by rw [entered]; exact rest)
    rw [outline] at later
    exact ⟨⟨later.outline, later.timeline.trans timeline, later.speed.trans speed⟩, still⟩

variable [Scalar G]

theorem settle_becomes (h : p.Silent) (playing : p.state = .playing) :
    p.Becomes (p.outline.settle p.timeline) (p.settle p.time) := by
  unfold Player.settle
  split
  · next ended =>
    rw [finish_once p playing h.once, Outline.settle,
      if_pos (show p.timeline.duration ≤ p.outline.time from ended)]
    refine ⟨?_, rfl, rfl⟩
    simp [Player.outline, Player.time, Clock.pause, PlayerEvent.isProgress]
  · next going =>
    rw [Outline.settle, if_neg (show ¬p.timeline.duration ≤ p.outline.time from going)]
    exact ⟨rfl, rfl, rfl⟩

/-- The walk takes the outline to where the cursor is. -/
theorem sync_becomes (h : p.Silent) (playing : p.state = .playing) :
    p.Becomes ((p.outline.reach p.timeline p.time).settle p.timeline) (p.sync p.time) := by
  have present : ∀ e ∈ p.outline.ahead p.timeline p.time, p.boundary? e.2 = some e.1 := by
    intro e member
    have indexed := (List.drop_subset _ _) ((List.takeWhile_prefix _).subset member)
    obtain ⟨b, i⟩ := e
    exact List.mem_zipIdx_iff_getElem?.mp indexed
  obtain ⟨entered, still⟩ := h.enter_all_becomes playing present
  have walked := h.sync_eq p.time
  generalize reached : (p.outline.ahead p.timeline p.time).foldl (fun p e => p.enter e.2) p = q
    at entered still
  have silent : q.Silent := reached ▸ h.enter_all _
  have outline : q.outline = p.outline.reach p.timeline p.time :=
    entered.outline.trans (Outline.reach_here p.timeline p.outline).symm
  have here : q.time = p.time := congrArg Outline.time outline
  have same : p.sync p.time = q.settle q.time := by
    rw [here, ← reached]
    exact walked
  rw [same, ← outline, ← entered.timeline]
  exact entered.trans (silent.settle_becomes still)

variable [Narrow T G]

theorem tick_becomes (h : p.Silent) (aligned : p.Aligned) {elapsed : T} (forward : 0 ≤ elapsed) :
    p.Becomes (p.outline.later p.timeline (elapsed * p.clock.speed)) (p.tick elapsed) := by
  obtain ⟨narrator, heard, silent⟩ := h.advanceNarrator_eq elapsed
  by_cases playing : p.state = .playing
  · have now : (p.clock.advance elapsed).time =
        min (p.time + elapsed * p.clock.speed) p.timeline.duration := by
      -- A clock that no time passes for is not cut to its length either: it has to be within it.
      rcases forward.lt_or_eq with positive | rfl
      · rw [Clock.advance_time (aligned.going.mpr playing) positive, aligned.length]
        rfl
      · have still : p.clock.advance (0 : T) = p.clock := by
          unfold Clock.advance
          rw [ExactScalar.zero_eq, if_neg (by simp)]
        rw [still, zero_mul, add_zero]
        exact (min_eq_left aligned.inside.2).symm
    obtain ⟨time, advanced⟩ := p.clock.advance_frame elapsed
    rw [advanced] at now
    replace now : time = min (p.time + elapsed * p.clock.speed) p.timeline.duration := now
    have ticking : p.ticking elapsed = { p with narrator, clock := { p.clock with time } } := by
      rw [Player.ticking, heard, ← advanced]
    have moved : p.Becomes { p.outline with time } (p.ticking elapsed) := by
      rw [ticking]
      exact ⟨rfl, rfl, rfl⟩
    have here : (p.ticking elapsed).time = time := congrArg Outline.time moved.outline
    have going : (p.ticking elapsed).state = .playing :=
      (congrArg Outline.state moved.outline).trans playing
    have quiet : (p.ticking elapsed).Silent := by
      rw [ticking]
      exact ⟨silent.once, silent.mute, silent.idle, silent.free, silent.untold⟩
    have walked := quiet.sync_becomes going
    rw [moved.outline, moved.timeline, here, Outline.reach_time, now] at walked
    rw [tick_of_playing going, Outline.later_playing p.timeline playing]
    dsimp only
    rw [here, now]
    exact render_becomes (progress_becomes (moved.trans walked) _ _)
  · have resting : (p.advanceNarrator elapsed).state ≠ .playing := by
      rw [heard]
      exact playing
    rw [tick_of_resting resting, heard, Outline.later_resting p.timeline playing]
    exact ⟨rfl, rfl, rfl⟩

/-- Ticks take the outline as far as all of them together, if there is one. -/
theorem ticks_becomes (h : p.Silent) (aligned : p.Aligned) {ticks : List T}
    (forward : ∀ elapsed ∈ ticks, 0 ≤ elapsed) (some : ticks ≠ []) :
    p.Becomes (p.outline.later p.timeline (ticks.sum * p.clock.speed)) (p.run (ticks.map .tick)) := by
  induction ticks generalizing p with
  | nil => exact absurd rfl some
  | cons elapsed rest ih =>
    obtain ⟨first, others⟩ := List.forall_mem_cons.mp forward
    have ticked := h.tick_becomes aligned first
    cases rest with
    | nil =>
      rw [List.sum_singleton]
      exact ticked
    | cons next rest =>
      have later := ih (h.tick elapsed) (tick_aligned aligned elapsed) others (List.cons_ne_nil _ _)
      have onward : 0 ≤ (next :: rest).sum * p.clock.speed :=
        mul_nonneg (List.sum_nonneg others) aligned.forward.le
      rw [ticked.outline, ticked.timeline, ticked.speed, Outline.later_add _ _ _ onward, ← add_mul,
        ← List.sum_cons] at later
      exact ticked.trans later

end Silent

section

variable [Scalar G] [Narrow T G]

/-- Without narration, playback that does not loop does not depend on how time is cut into ticks: two
ticks do what one of the same length does, and so do any two rows of ticks of the same length, as long
as there are ticks in both or in neither. The player never pauses by itself. -/
theorem ticks_add (d : Diagram T G) (o : CompileOptions G) (captions : List Caption)
    (settings : List (Setting T G σ)) (once : (setUp captions (d.compile o) settings).looping = false)
    (mute : (setUp captions (d.compile o) settings).narrationActive = false)
    (commands : List (Command T)) :
    let p := (setUp captions (d.compile o) settings).run commands
    (∀ a b, 0 ≤ a → 0 ≤ b → ((p.tick a).tick b).outline = (p.tick (a + b)).outline) ∧
    (∀ as bs : List T, (∀ a ∈ as, 0 ≤ a) → (∀ b ∈ bs, 0 ≤ b) → (as = [] ↔ bs = []) →
      as.sum = bs.sum → (p.run (as.map .tick)).outline = (p.run (bs.map .tick)).outline) ∧
    p.autoPaused = false ∧ ∀ step, .autoPaused step ∉ p.events := by
  intro p
  have silent : p.Silent := (setUp_silent captions (d.compile o) settings once mute).run commands
  have aligned : p.Aligned := (setUp_run_aligned d o captions settings commands).2
  have rows : ∀ as bs : List T, (∀ a ∈ as, 0 ≤ a) → (∀ b ∈ bs, 0 ≤ b) → (as = [] ↔ bs = []) →
      as.sum = bs.sum → (p.run (as.map .tick)).outline = (p.run (bs.map .tick)).outline := by
    intro as bs forward onward both same
    by_cases none : as = []
    · rw [none, both.mp none]
    · rw [(silent.ticks_becomes aligned forward none).outline,
        (silent.ticks_becomes aligned onward (mt both.mpr none)).outline, same]
  refine ⟨fun a b first second => ?_, rows, silent.free, silent.untold⟩
  have pair : ∀ e ∈ [a, b], 0 ≤ e :=
    List.forall_mem_cons.mpr ⟨first, List.forall_mem_singleton.mpr second⟩
  have sum : [a, b].sum = [a + b].sum := by simp
  exact rows [a, b] [a + b] pair (List.forall_mem_singleton.mpr (add_nonneg first second))
    (by simp) sum

end

/-- A node that is shown in one step. -/
def shown : Diagram Rat Rat where
  nodes := [{ id := "A", label := "A" }]
  steps := [{ number := 1, action := .reveal, targets := [.entity "A"] }]

theorem shown_ticks_add :
    let start : Player Rat Rat (SimulatedNarrator Rat) :=
      setUp [] (shown.compile .standard) [.narrator (.ofPace 15), .narration false]
    let p := start.run [.play, .tick (1 / 4)]
    start.looping = false ∧ start.narrationActive = false ∧
    ((p.tick (1 / 2)).tick (1 / 3)).outline = (p.tick (1 / 2 + 1 / 3)).outline ∧
    (p.run ([1 / 4, 1 / 4, 1 / 2].map .tick)).outline = (p.run ([1 / 2, 1 / 2].map .tick)).outline := by
  obtain ⟨pairs, rows, _⟩ := ticks_add shown .standard []
    [.narrator (SimulatedNarrator.ofPace (15 : Rat)), .narration false] rfl rfl [.play, .tick (1 / 4)]
  refine ⟨rfl, rfl, pairs _ _ ?_ ?_, rows _ _ ?_ ?_ ?_ ?_⟩
  · decide +kernel
  · decide +kernel
  · decide +kernel
  · decide +kernel
  · decide +kernel
  · decide +kernel

/-- At the end of the timeline a player that plays finishes with the next tick, also if no time passes. -/
theorem shown_ends_in_no_time :
    let start : Player Rat Rat (SimulatedNarrator Rat) := setUp [] (shown.compile .standard) []
    let p := start.run [.play, .seek 1]
    start.looping = false ∧ start.narrationActive = false ∧
    ¬∀ as bs : List Rat, (∀ a ∈ as, 0 ≤ a) → (∀ b ∈ bs, 0 ≤ b) → as.sum = bs.sum →
      (p.run (as.map .tick)).outline = (p.run (bs.map .tick)).outline := by
  have sorted : (shown.compile .standard).cues = shown.made .standard :=
    List.mergeSort_of_pairwise (by decide +kernel)
  have timeline : shown.compile .standard =
      { shown.compile .standard with cues := shown.made .standard } := by rw [← sorted]
  refine ⟨rfl, rfl, fun independent => ?_⟩
  have same := congrArg Outline.state (independent [] [0] (by simp) (by simp) (by simp))
  rw [timeline] at same
  revert same
  decide +kernel

end Player

end Storyboard
