import Mathlib.Algebra.Order.Archimedean.Basic
import Storyboard.Proofs.Playback.Recital
import Storyboard.Proofs.Playback.Speech

/-!
# Recitals come to their end

Each tick brings a recital to its end, into another boundary, or closer to either: then less is left
to be said, or less of the timeline to be played. There are finitely many boundaries, and between
two of them the ticks that are left can be counted, so every recital is over at some time.
-/

namespace Storyboard

variable {T G : Type} [ExactScalar T]

namespace Player

variable {m : Score T G} {p q : Player T G (SimulatedNarrator T)} {elapsed : T}

/-- How long the narrator goes on speaking. -/
def speechLeft (p : Player T G (SimulatedNarrator T)) : T :=
  max 0 ((p.narrator.bind SimulatedNarrator.remaining?).getD 0)

/-- A bound on the ticks until the next boundary or the end. -/
def ticksLeft (m : Score T G) (elapsed : T) (p : Player T G (SimulatedNarrator T)) : T :=
  p.speechLeft / elapsed + (m.timeline.duration - p.time) / (elapsed * m.speed)

/-- `q` comes after `p` in a recital: it is over, or it has come to another boundary, or it is
still in the same one. -/
def Later (m : Score T G) (p q : Player T G (SimulatedNarrator T)) (still : Prop) : Prop :=
  Over m q ∨ (Performs m q ∧ (p.nextIndex < q.nextIndex ∨ (q.nextIndex = p.nextIndex ∧ still)))

/-- The narrator has spoken, and the cursor has not moved. -/
structure Hears (elapsed : T) (p q : Player T G (SimulatedNarrator T)) : Prop where
  here : q.time = p.time
  quieter : q.speechLeft ≤ p.speechLeft
  speaking : q.pending.isSome = true → q.speechLeft + elapsed ≤ p.speechLeft

/-- The cursor has moved on, the whole way if there is nothing to wait for. -/
structure Moves (way : T) (p q : Player T G (SimulatedNarrator T)) : Prop where
  narrator : q.narrator = p.narrator
  later : p.time ≤ q.time
  freely : p.pending = none → p.time + way ≤ q.time

/-! ### The measure -/

theorem ticksLeft_drops (positive : 0 < elapsed) (forward : 0 < m.speed)
    (quieter : q.speechLeft ≤ p.speechLeft) (later : p.time ≤ q.time)
    (moved : q.speechLeft + elapsed ≤ p.speechLeft ∨ p.time + elapsed * m.speed ≤ q.time) :
    q.ticksLeft m elapsed + 1 ≤ p.ticksLeft m elapsed := by
  have step : 0 < elapsed * m.speed := mul_pos positive forward
  have spoken : q.speechLeft / elapsed ≤ p.speechLeft / elapsed :=
    div_le_div_of_nonneg_right quieter positive.le
  have played : (m.timeline.duration - q.time) / (elapsed * m.speed) ≤
      (m.timeline.duration - p.time) / (elapsed * m.speed) :=
    div_le_div_of_nonneg_right (sub_le_sub_left later _) step.le
  unfold ticksLeft
  rcases moved with less | further
  · have one : (q.speechLeft + elapsed) / elapsed = q.speechLeft / elapsed + 1 := by
      rw [add_div, div_self positive.ne']
    have said := div_le_div_of_nonneg_right less positive.le
    linarith
  · have one : (m.timeline.duration - (p.time + elapsed * m.speed)) / (elapsed * m.speed) =
        (m.timeline.duration - p.time) / (elapsed * m.speed) - 1 := by
      rw [← sub_sub, sub_div, div_self step.ne']
    have gone := div_le_div_of_nonneg_right
      (sub_le_sub_left further m.timeline.duration) step.le
    linarith

theorem Performs.forward (h : Performs m p) : 0 < m.speed := by
  have speed : p.clock.speed = m.speed := congrArg Score.speed h.score
  exact speed ▸ h.aligned.forward

theorem Performs.ticksLeft_nonneg (h : Performs m p) (positive : 0 < elapsed) :
    0 ≤ p.ticksLeft m elapsed := by
  have timeline : p.timeline = m.timeline := congrArg Score.timeline h.score
  have within : p.time ≤ m.timeline.duration := timeline ▸ h.aligned.inside.2
  exact add_nonneg (div_nonneg (le_max_left _ _) positive.le)
    (div_nonneg (sub_nonneg.mpr within) (mul_pos positive h.forward).le)

theorem Performs.within (h : Performs m p) : p.nextIndex ≤ m.timeline.boundaries.length := by
  have timeline : p.timeline = m.timeline := congrArg Score.timeline h.score
  cases current : p.current with
  | none => simp [nextIndex, current]
  | some i =>
    rw [nextIndex_of_current current, ← timeline]
    exact h.aligned.toPlacement.placed i current

theorem hear_speaking (h : Performs m p) (positive : 0 < elapsed) {s : SimulatedNarrator T}
    (narrator : p.narrator = some s) (awake : s.paused = false) {token : Nat} {left : T}
    (current : s.current = some (token, left)) (more : elapsed < left)
    (pending : p.pending = some token) :
    let q := { p with narrator := some { s with current := some (token, left - elapsed) } }
    Performs m q ∧ Hears elapsed p q := by
  intro q
  have before : p.speechLeft = left := by
    unfold speechLeft
    rw [narrator, Option.bind_some, SimulatedNarrator.remaining?, current]
    exact max_eq_right (positive.trans more).le
  have after : q.speechLeft = left - elapsed := max_eq_right (sub_pos.mpr more).le
  have speech : q.speechLeft + elapsed = p.speechLeft := by
    rw [before, after, sub_add_cancel]
  refine ⟨⟨⟨⟨h.score, h.once, h.narrates, h.account⟩, ⟨_, rfl, awake, pending.symm⟩⟩, h.aligned,
    h.going⟩, rfl, ?_, fun _ => speech.le⟩
  linarith

/-! ### What is reported and shown -/

theorem Over.reported (h : Over m p) : Over m (p.emit (.progress p.time p.duration)) := by
  obtain ⟨told, rest, events, account, reports⟩ := h.told
  refine ⟨h.score, h.state, h.ended, h.silent, told,
    rest ++ [.progress p.time p.duration], ?_, account, ?_⟩
  · simp [emit, events]
  · intro e member
    rcases List.mem_append.mp member with old | new
    · exact reports e old
    · exact .inr (List.mem_singleton.mp new)

theorem Performs.reported (h : Performs m p) :
    Performs m (p.emit (.progress p.time p.duration)) where
  score := h.score
  once := h.once
  narrates := h.narrates
  voice := h.voice
  account := h.account.tell _ rfl rfl (Nat.add_comm _ _) (by simp)
  aligned := h.aligned
  going := h.going

variable [Scalar G] [Narrow T G]

theorem Over.shown (h : Over m p) : Over m p.render := by
  obtain ⟨_, same⟩ := p.render_frame
  rw [same]
  exact ⟨h.score, h.state, h.ended, h.silent, h.told⟩

theorem Performs.shown (h : Performs m p) : Performs m p.render := by
  obtain ⟨_, same⟩ := p.render_frame
  rw [same]
  exact ⟨⟨⟨h.score, h.once, h.narrates, h.account⟩, h.voice⟩, h.aligned, h.going⟩

theorem render_nextIndex (p : Player T G (SimulatedNarrator T)) :
    p.render.nextIndex = p.nextIndex := by
  obtain ⟨_, same⟩ := p.render_frame
  rw [same]
  rfl

/-! ### The narrator -/

theorem advanceNarrator_speaking {s s' : SimulatedNarrator T} (narrator : p.narrator = some s)
    (speaks : s.advance elapsed = (none, s')) :
    p.advanceNarrator elapsed = { p with narrator := some s' } := by
  have answer : Narrator.advance s elapsed = (none, s') := speaks
  rw [advanceNarrator, narrator]
  dsimp only
  rw [answer]

theorem advanceNarrator_done {s s' : SimulatedNarrator T} (narrator : p.narrator = some s)
    {token : Nat} (done : s.advance elapsed = (some token, s')) :
    p.advanceNarrator elapsed = { p with narrator := some s' }.onNarrationEnd token := by
  have answer : Narrator.advance s elapsed = (some token, s') := done
  rw [advanceNarrator, narrator]
  dsimp only
  rw [answer]

theorem advanceNarrator_idle {s : SimulatedNarrator T} (narrator : p.narrator = some s)
    (idle : s.current = none) (elapsed : T) : p.advanceNarrator elapsed = p := by
  have silent : s.advance elapsed = (none, s) := by
    unfold SimulatedNarrator.advance
    rw [idle]
    cases s.paused <;> rfl
  rw [advanceNarrator_speaking narrator silent, ← narrator]

/-- A player that waits is at the end of its boundary, so it leaves it once it need not wait. -/
theorem resuming_later (h : Accounts m p) (aligned : p.Aligned) (waiting : p.autoPaused = true)
    {s : SimulatedNarrator T} (narrator : p.narrator = some s) (awake : s.paused = false)
    (idle : s.current = none) (still : Prop) :
    Later m p (p.resuming.sync p.resuming.time).render still := by
  obtain ⟨paused, pending, ended⟩ := aligned.waiting waiting
  obtain ⟨i, current⟩ := Option.isSome_iff_exists.mp (aligned.speaking pending).1
  obtain ⟨b, found, _⟩ := aligned.started i current
  have here : p.time = b.stop := ended i b current found
  have travels := resuming_travels aligned waiting
  have recites := resuming_recites h aligned waiting narrator awake idle
  generalize on : p.resuming = q at travels recites ⊢
  rw [resuming_eq paused] at on
  have index : p.nextIndex = q.nextIndex := by
    subst on
    rfl
  rcases sync_recites recites travels with past |
      ⟨performs, further | ⟨b, waits, _⟩ | ⟨settled, going, _⟩⟩
  · exact .inl past.shown
  · refine .inr ⟨performs.shown, .inl ?_⟩
    rw [render_nextIndex, index]
    exact further
  · have speaking := (waitingAt?_eq_some_iff.mp waits).1
    subst on
    cases speaking
  · have reached : q.duration ≤ q.time := by
      subst on
      exact ended_of_settled travels.toPlacement settled rfl current found here.ge
    exact absurd going (not_lt.mpr reached)

/-- The narrator speaks on, or it is done; then a recital that waits for it goes on. -/
theorem hear_later (h : Performs m p) (positive : 0 < elapsed) :
    Later m p (p.advanceNarrator elapsed) (Hears elapsed p (p.advanceNarrator elapsed)) := by
  have aligned := advanceNarrator_aligned h.aligned elapsed
  obtain ⟨s, narrator, awake, speaks⟩ := h.voice
  obtain ⟨idle, _⟩ | ⟨token, left, current, more, advanced⟩ | ⟨token, left, current, _, advanced⟩ :=
    s.advance_cases awake elapsed
  · have silent : p.pending = none := by simpa [idle] using speaks.symm
    rw [advanceNarrator_idle narrator idle]
    exact .inr ⟨h, .inr ⟨rfl, rfl, le_refl _, by simp [silent]⟩⟩
  · rw [current] at speaks
    rw [advanceNarrator_speaking narrator advanced]
    obtain ⟨performs, hears⟩ := hear_speaking h positive narrator awake current more speaks.symm
    exact .inr ⟨performs, .inr ⟨rfl, hears⟩⟩
  · rw [current] at speaks
    rw [advanceNarrator_done narrator advanced] at aligned ⊢
    have accounts : Accounts m { p with narrator := some { s with current := none } } :=
      ⟨h.score, h.once, h.narrates, h.account⟩
    obtain ⟨other, _⟩ | ⟨_, _, done⟩ | ⟨_, waiting, done⟩ :=
      onNarrationEnd_cases { p with narrator := some { s with current := none } } token
    · exact absurd speaks.symm other
    · rw [done] at aligned ⊢
      refine .inr ⟨⟨⟨⟨h.score, h.once, h.narrates, h.account⟩, ⟨_, rfl, awake, rfl⟩⟩, aligned,
        h.going⟩, .inr ⟨rfl, rfl, ?_, nofun⟩⟩
      exact (max_self 0).trans_le (le_max_left _ _)
    · rw [done]
      exact resuming_later accounts h.aligned waiting rfl awake rfl _

/-! ### Ticks -/

theorem ticking_recites (h : Recites m (p.advanceNarrator elapsed)) :
    Recites m (p.ticking elapsed) := by
  obtain ⟨time, same⟩ := (p.advanceNarrator elapsed).clock.advance_frame elapsed
  rw [ticking, same]
  exact ⟨⟨h.score, h.once, h.narrates, h.account⟩, h.voice⟩

/-- The clock goes on, until the player has to wait or comes to another boundary. -/
theorem ticking_later (h : Performs m (p.advanceNarrator elapsed))
    (playing : (p.advanceNarrator elapsed).state = .playing) (positive : 0 < elapsed) :
    Later m (p.advanceNarrator elapsed) ((p.ticking elapsed).sync (p.ticking elapsed).time)
      (Moves (elapsed * m.speed) (p.advanceNarrator elapsed)
        ((p.ticking elapsed).sync (p.ticking elapsed).time)) := by
  have travels := ticking_travels h.aligned playing
  have speed : (p.advanceNarrator elapsed).clock.speed = m.speed := congrArg Score.speed h.score
  have length : (p.advanceNarrator elapsed).clock.duration = (p.ticking elapsed).duration :=
    h.aligned.length
  have time : (p.ticking elapsed).time =
      min ((p.advanceNarrator elapsed).time + elapsed * m.speed) (p.ticking elapsed).duration := by
    rw [← speed, ← length]
    exact Clock.advance_time (h.aligned.going.mpr playing) positive
  rcases sync_recites (ticking_recites h.toRecites) travels with past |
      ⟨performs, further | ⟨b, waits, same⟩ | ⟨_, short, same⟩⟩
  · exact .inl past
  · exact .inr ⟨performs, .inl further⟩
  · obtain ⟨pending, current, _⟩ := waitingAt?_eq_some_iff.mp waits
    obtain ⟨i, current, found⟩ := Option.bind_eq_some_iff.mp current
    have stop := seek_stop travels.toPlacement found
    have reached := h.aligned.reached i b current found
    have awaited : (p.advanceNarrator elapsed).pending ≠ none :=
      Option.isSome_iff_ne_none.mp pending
    rw [autoPause_eq _ b travels.playing] at same
    rw [same] at performs ⊢
    refine .inr ⟨performs, .inr ⟨rfl, rfl, ?_, fun silent => absurd silent awaited⟩⟩
    exact reached.trans_eq stop.symm
  · have further : (p.ticking elapsed).time =
        (p.advanceNarrator elapsed).time + elapsed * m.speed := by
      rw [time]
      refine min_eq_left (le_of_not_ge fun past => ?_)
      rw [min_eq_right past] at time
      exact short.ne time
    have way : 0 < elapsed * m.speed := mul_pos positive h.forward
    rw [same] at performs ⊢
    refine .inr ⟨performs, .inr ⟨rfl, rfl, ?_, fun _ => further.ge⟩⟩
    linarith

theorem tick_later (h : Performs m (p.advanceNarrator elapsed))
    (playing : (p.advanceNarrator elapsed).state = .playing) (positive : 0 < elapsed) :
    Later m (p.advanceNarrator elapsed) (p.tick elapsed)
      (Moves (elapsed * m.speed) (p.advanceNarrator elapsed) (p.tick elapsed)) := by
  have walked := ticking_later h playing positive
  rw [tick_of_playing playing]
  dsimp only
  generalize (p.ticking elapsed).sync (p.ticking elapsed).time = q at walked ⊢
  refine walked.imp (fun past => past.reported.shown) fun ⟨performs, moved⟩ =>
    ⟨performs.reported.shown, ?_⟩
  obtain ⟨_, same⟩ := (q.emit (.progress q.time q.duration)).render_frame
  rw [same]
  exact moved.imp_right fun ⟨index, moves⟩ => ⟨index, moves.narrator, moves.later, moves.freely⟩

theorem Over.tick (h : Over m p) (elapsed : T) : p.tick elapsed = p := by
  obtain ⟨s, narrator, idle⟩ := h.silent
  have unmoved := advanceNarrator_idle narrator idle elapsed
  have resting : (p.advanceNarrator elapsed).state ≠ .playing := by
    rw [unmoved, h.state]
    exact Transport.noConfusion
  rw [tick_of_resting resting, unmoved]

theorem Over.stays (h : Over m p) (more : List T) : p.run (more.map .tick) = p := by
  induction more with
  | nil => rfl
  | cons elapsed more ih =>
    have same : (p.perform (.tick elapsed)).2 = p := h.tick elapsed
    rw [List.map_cons, run, List.foldl_cons, same]
    exact ih

/-- A tick brings a recital closer to its end. -/
theorem tick_nears (h : Performs m p) (positive : 0 < elapsed) :
    Later m p (p.tick elapsed)
      ((p.tick elapsed).ticksLeft m elapsed + 1 ≤ p.ticksLeft m elapsed) := by
  by_cases playing : (p.advanceNarrator elapsed).state = .playing
  · rcases hear_later h positive with past | ⟨performs, heard⟩
    · rw [past.state] at playing
      cases playing
    refine (tick_later performs playing positive).imp_right fun ⟨goes, ticked⟩ => ⟨goes, ?_⟩
    rcases heard with entered | ⟨index, hears⟩
    · refine .inl (entered.trans_le ?_)
      rcases ticked with further | ⟨same, _⟩
      · exact further.le
      · exact same.ge
    · rw [← index]
      refine ticked.imp_right fun ⟨same, moves⟩ => ⟨same, ?_⟩
      have speech : (p.tick elapsed).speechLeft = (p.advanceNarrator elapsed).speechLeft := by
        rw [speechLeft, speechLeft, moves.narrator]
      have later := moves.later
      have freely := moves.freely
      rw [hears.here] at later freely
      refine ticksLeft_drops positive h.forward (speech.trans_le hears.quieter) later ?_
      rw [speech]
      cases silent : (p.advanceNarrator elapsed).pending with
      | none => exact .inr (freely silent)
      | some token => exact .inl (hears.speaking (Option.isSome_of_eq_some silent))
  -- A player that waits hears the narrator, and its cursor stays.
  · rw [tick_of_resting playing]
    refine (hear_later h positive).imp_right fun ⟨performs, heard⟩ =>
      ⟨performs, heard.imp_right fun ⟨index, hears⟩ => ⟨index, ?_⟩⟩
    have pending := (performs.aligned.waiting (performs.going.resolve_left playing)).2.1
    exact ticksLeft_drops positive h.forward hears.quieter hears.here.ge
      (.inl (hears.speaking pending))

theorem Performs.ends [Archimedean T] (h : Performs m p) (positive : 0 < elapsed) :
    ∃ n, Over m (p.run (List.replicate n (.tick elapsed))) := by
  -- The outer induction is on the boundaries that are left, the inner one on the ticks that bound
  -- the stay in the current one.
  generalize left : m.timeline.boundaries.length - p.nextIndex = count
  induction count using Nat.strong_induction_on generalizing p with
  | h count outer =>
    obtain ⟨ticks, bound⟩ := exists_nat_gt (p.ticksLeft m elapsed)
    induction ticks generalizing p with
    | zero =>
      rw [Nat.cast_zero] at bound
      exact absurd bound (not_lt.mpr (h.ticksLeft_nonneg positive))
    | succ ticks inner =>
      rcases tick_nears h positive with past | ⟨performs, further | ⟨same, closer⟩⟩
      · exact ⟨1, past⟩
      · have within := performs.within
        obtain ⟨n, past⟩ := outer _ (by omega) performs rfl
        exact ⟨n + 1, past⟩
      · rw [Nat.cast_succ] at bound
        obtain ⟨n, past⟩ := inner performs (by rw [same, left]) (by linarith)
        exact ⟨n + 1, past⟩

/-! ### The whole recital -/

theorem Ready.play (h : Ready m p) : Over m p.play ∨ Performs m p.play := by
  have state : p.starting.state = .stopped := congrArg Control.state h.starting.fresh
  have resting : p.state ≠ .playing := by
    rw [show p.state = .stopped from congrArg Control.state h.fresh]
    exact Transport.noConfusion
  have free : p.starting.autoPaused = false := congrArg Control.autoPaused h.starting.fresh
  have travels : p.started.Travels :=
    started_travels h.starting.aligned (by simp [state]) free
  rw [play_of_resting resting]
  rcases sync_recites (started_recites h.starting) travels with past | ⟨performs, _⟩
  · exact .inl past.shown
  · exact .inr performs.shown

theorem setUp_ready (d : Diagram T G) (o : CompileOptions G) (captions : List Caption)
    (settings : List (Setting T G (SimulatedNarrator T)))
    (start : p = setUp captions (d.compile o) settings) (once : p.looping = false)
    (narrates : p.narrationEnabled = true) {pace : T} (narrator : p.narrator = some (.ofPace pace)) :
    Ready p.score p := by
  obtain ⟨_, fresh, events⟩ := setUp_rests captions (d.compile o) settings
  have aligned := setUp_aligned d o captions settings
  have begins := setUp_time d o captions settings
  rw [← start] at fresh events aligned begins
  have away : p.current = none := congrArg Control.current fresh
  have free : p.autoPaused = false := congrArg Control.autoPaused fresh
  have silent : p.pending = none := congrArg Control.pending fresh
  refine ⟨⟨⟨rfl, once, narrates, ?_⟩, ⟨_, narrator, ?_, ?_⟩⟩, aligned, fresh, begins⟩
  · rw [nextIndex, away, free, events]
    exact .nil _
  · unfold SimulatedNarrator.ofPace
    split <;> rfl
  · rw [silent]
    unfold SimulatedNarrator.ofPace
    split <;> rfl

/-- Narrated playback that does not loop comes to its end, whatever its speed, the pace of the
narrator and the length of the ticks. Until then every boundary is entered once and in order, every
caption is narrated once, and every wait ends. After that no tick changes anything. -/
theorem narration_completes [Archimedean T] (d : Diagram T G) (o : CompileOptions G)
    (captions : List Caption) (settings : List (Setting T G (SimulatedNarrator T)))
    (pace elapsed : T)
    (once : (setUp captions (d.compile o) settings).looping = false)
    (enabled : (setUp captions (d.compile o) settings).narrationEnabled = true)
    (narrated : (setUp captions (d.compile o) settings).narrator = some (.ofPace pace))
    (positive : 0 < elapsed) :
    let start := setUp captions (d.compile o) settings
    let steps := (d.compile o).boundaries.map Boundary.step
    ∃ n, let p := start.run (.play :: List.replicate n (.tick elapsed))
      (∃ told rest, p.events = told ++ .finished :: rest ∧ .finished ∉ told ∧
        told.filterMap PlayerEvent.index? = List.range steps.length ∧
        told.filterMap PlayerEvent.narrated? =
          steps.filter (fun step => (start.caption? step).isSome) ∧
        told.countP PlayerEvent.isAutoPaused = told.countP PlayerEvent.isResumed ∧
        ∀ e ∈ rest, e = .stateChanged .paused ∨ e = .progress p.time p.duration) ∧
      p.time = (d.compile o).duration ∧ p.state = .paused ∧
      ∀ more : List T, p.run (more.map .tick) = p := by
  intro start steps
  have ready : Ready start.score start := setUp_ready d o captions settings rfl once enabled narrated
  obtain ⟨n, past⟩ : ∃ n,
      Over start.score (start.run (.play :: List.replicate n (.tick elapsed))) := by
    rcases ready.play with past | performs
    · exact ⟨0, past⟩
    · exact performs.ends positive
  have timeline : start.timeline = d.compile o := (setUp_rests captions (d.compile o) settings).1
  refine ⟨n, ?_⟩
  generalize start.run (.play :: List.replicate n (.tick elapsed)) = p at past ⊢
  obtain ⟨told, rest, events, account, reports⟩ := past.told
  have all : start.score.timeline.boundaries.map Boundary.step = steps :=
    congrArg (fun t => t.boundaries.map Boundary.step) timeline
  have ended : p.time = (d.compile o).duration :=
    past.ended.trans (congrArg Timeline.duration timeline)
  rw [all] at account
  exact ⟨⟨told, rest, events, account.unfinished, account.entered, account.narrated, account.waits,
    reports⟩, ended, past.state, past.stays⟩

/-- A node that is shown and then highlighted, with something to be said of the highlight. -/
def recited : Diagram Rat Rat where
  nodes := [{ id := "A", label := "A" }]
  steps :=
    [{ number := 1, action := .reveal, targets := [.entity "A"] },
      { number := 2, action := .highlight, targets := [.entity "A"] }]
  captions := [⟨2, "", "This is A."⟩]

theorem recited_completes :
    let start : Player Rat Rat (SimulatedNarrator Rat) :=
      setUp recited.captions (recited.compile .standard) [.speed 2, .narrator (.ofPace 15)]
    start.looping = false ∧ start.narrationEnabled = true ∧ start.narrator = some (.ofPace 15) ∧
    (0 : Rat) < 1 / 4 ∧
    ∃ n, let p := start.run (.play :: List.replicate n (.tick (1 / 4)))
      (∃ told rest, p.events = told ++ .finished :: rest ∧
        told.filterMap PlayerEvent.index? = [0, 1] ∧ told.filterMap PlayerEvent.narrated? = [2]) ∧
      p.time = (recited.compile .standard).duration ∧
      ∀ more : List Rat, p.run (more.map .tick) = p := by
  have steps : (recited.compile .standard).boundaries.map Boundary.step = [1, 2] := by
    decide +kernel
  refine ⟨rfl, rfl, rfl, by decide +kernel, ?_⟩
  obtain ⟨n, ⟨told, rest, events, _, entered, narrated, _⟩, ended, _, stays⟩ :=
    narration_completes recited .standard recited.captions [.speed 2, .narrator (.ofPace 15)]
      15 (1 / 4) rfl rfl rfl (by decide +kernel)
  rw [steps] at entered narrated
  refine ⟨n, ⟨told, rest, events, entered, narrated.trans ?_⟩, ended, stays⟩
  decide +kernel

end Player

end Storyboard
