import Storyboard.Proofs.Playback.Completion
import Storyboard.Proofs.Playback.Display
import Storyboard.Proofs.Playback.Recital
import Storyboard.Proofs.Timeline.Composition

/-!
# Navigation by steps

Boundaries may share a start, so no time tells them apart. Navigation goes by their indices: the
table of steps and the current index alone decide where a call leads (`Command.leadsTo?`). There
the player stands at the start of the boundary, whatever it was about before.
-/

namespace Storyboard

variable {T G σ : Type}

def Timeline.steps (t : Timeline T G) : List Nat := t.boundaries.map Boundary.step

namespace Command

/-- The calls that go by steps. -/
def navigates : Command T → Bool
  | .seekStep _ | .nextStep | .previousStep => true
  | .play | .pause | .stop | .seek _ | .setSpeed _ | .tick _ | .narrationEnd _ => false

/-- The index in the table of steps that a call leads to. -/
def leadsTo? (steps : List Nat) (current : Option Nat) : Command T → Option Nat
  | .seekStep step => steps.idxOf? step
  | .nextStep => Option.guard (· < steps.length) (current.elim 0 (· + 1))
  | .previousStep => Option.guard (· < steps.length) (current.elim 0 (· - 1))
  | _ => none

theorem leadsTo?_lt {steps : List Nat} {current : Option Nat} {c : Command T} {i : Nat}
    (leads : c.leadsTo? steps current = some i) : i < steps.length := by
  cases c with
  | seekStep step => exact (List.findIdx?_eq_some_iff_findIdx_eq.mp leads).1
  | nextStep | previousStep =>
    unfold leadsTo? at leads
    obtain ⟨rfl, within⟩ := Option.guard_eq_some_iff.mp leads
    exact of_decide_eq_true within
  | _ => cases leads

end Command

theorem Timeline.boundaryOfStep?_eq (t : Timeline T G) (step : Nat) :
    t.boundaryOfStep? step = t.steps.idxOf? step := by
  unfold boundaryOfStep? steps List.idxOf?
  rw [List.findIdx?_map]
  rfl

/-- The state after a jump, which takes a player out of the stopped state. -/
def Transport.jumped : Transport → Transport
  | .stopped => .paused
  | state => state

theorem Transport.jumped_moves (state : Transport) : state.jumped ≠ .stopped := by
  cases state <;> exact Transport.noConfusion

theorem Transport.jumped_of_moving {state : Transport} (moving : state ≠ .stopped) :
    state.jumped = state := by
  cases state <;> first | rfl | exact absurd rfl moving

theorem Transport.playing_of_jumped {state : Transport} (playing : state.jumped = .playing) :
    state = .playing := by
  cases state <;> first | rfl | cases playing

namespace Player

/-- The player stands at the start of a boundary. -/
structure Stands [Scalar T] (q : Player T G σ) (i : Nat) (b : Boundary T) : Prop where
  current : q.current = some i
  time : q.time = b.start
  free : q.autoPaused = false
  moving : q.state ≠ .stopped

/-- `q` has come from `p` to the start of a boundary. What it waits for is a new utterance. -/
structure Lands [Scalar T] (p : Player T G σ) (i : Nat) (b : Boundary T) (q : Player T G σ) : Prop
    extends Stands q i b where
  timeline : q.timeline = p.timeline
  state : q.state = p.state.jumped
  fresh : ∀ token, q.pending = some token → p.state = .playing ∧ token = p.lastToken + 1
  told : ∃ es, q.events = p.events ++ es ∧ es.filterMap PlayerEvent.index? = [i]

theorem guard_steps {p : Player T G σ} {b : Boundary T} {j : Nat} (present : p.boundary? j = some b) :
    Option.guard (· < p.timeline.steps.length) j = some j := by
  have within : j < p.timeline.steps.length := by
    rw [Timeline.steps, List.length_map]
    exact boundary?_lt present
  exact Option.guard_eq_some_iff.mpr ⟨rfl, decide_eq_true within⟩

theorem nextIndex_eq (p : Player T G σ) : p.current.elim 0 (· + 1) = p.nextIndex := by
  unfold nextIndex
  cases p.current <;> rfl

/-- A stopped player is in no boundary. -/
def Parked (p : Player T G σ) : Prop := p.state = .stopped → p.current = none

theorem parked_of_moving {q : Player T G σ} (moving : q.state ≠ .stopped) : q.Parked :=
  fun stopped => absurd stopped moving

theorem render_moves [Scalar T] [Scalar G] [Narrow T G] {q : Player T G σ}
    (moving : q.state ≠ .stopped) : q.render.Parked := by
  obtain ⟨_, same⟩ := q.render_frame
  rw [same]
  exact parked_of_moving moving

variable [Narrator T σ]

/-- Entering a boundary tells of it, and what is waited for then is a new utterance. -/
theorem enter_tells {p : Player T G σ} {i : Nat} {b : Boundary T}
    (present : p.boundary? i = some b) (silent : p.pending = none) :
    (∃ es, (p.enter i).events = p.events ++ es ∧ es.filterMap PlayerEvent.index? = [i]) ∧
      ∀ token, (p.enter i).pending = some token → p.state = .playing ∧ token = p.lastToken + 1 := by
  have entered : ([.stepChanged b.step i] : List (PlayerEvent T)).filterMap PlayerEvent.index? = [i] :=
    rfl
  rw [enter_of_some present]
  dsimp only
  split
  · rename_i playing
    obtain ⟨_, same⟩ | ⟨_, _, _, _, _, _, _, same⟩ | ⟨step, _, _, _, _, _, same⟩ := speak_cases
      { p with current := some i, events := p.events ++ [.stepChanged b.step i] } i
    · rw [same]
      exact ⟨⟨_, rfl, entered⟩, fun _ waits => nomatch waits⟩
    · rw [same]
      exact ⟨⟨_, rfl, entered⟩, fun _ waits => nomatch waits⟩
    · rw [same]
      refine ⟨⟨_, List.append_assoc _ _ _, by rw [List.filterMap_append, entered]; rfl⟩, ?_⟩
      rintro _ ⟨⟩
      exact ⟨playing, rfl⟩
  · refine ⟨⟨_, rfl, entered⟩, fun token waits => ?_⟩
    rw [show p.pending = some token from waits] at silent
    cases silent

/-- The player of a jump before it enters a boundary. -/
theorem seekTo_arrives [Scalar T] [Scalar G] [Narrow T G] (p : Player T G σ) (time : T) :
    ∃ es : List (PlayerEvent T), es.filterMap PlayerEvent.index? = [] ∧ ∀ index,
      p.seekTo time index = ({ p.leave time with
        state := p.state.jumped, events := p.events ++ es }.enter? index).render := by
  by_cases stopped : p.state = .stopped
  · have moves : (p.leave time).state ≠ .paused := by
      rw [show (p.leave time).state = .stopped from stopped]
      decide
    refine ⟨[.stateChanged .paused], rfl, fun index => ?_⟩
    rw [seekTo_eq, if_pos stopped, setState, if_neg moves, stopped]
    rfl
  · refine ⟨[], rfl, fun index => ?_⟩
    rw [seekTo_eq, if_neg stopped, Transport.jumped_of_moving stopped, List.append_nil]
    rfl

variable [ExactScalar T] [Scalar G] [Narrow T G] {p q : Player T G σ} {i : Nat} {b : Boundary T}

theorem seekTo_lands (h : p.Aligned) (present : p.boundary? i = some b) :
    Lands p i b (p.seekTo b.start (some i)) := by
  have bounds := Tiling.bounds h.tiled present
  have time : (p.clock.seek b.start).time = b.start :=
    Clock.seek_time bounds.1 ((bounds.2.1.trans bounds.2.2).trans_eq h.length.symm)
  obtain ⟨es, untold, arrives⟩ := p.seekTo_arrives b.start
  let r : Player T G σ := { p.leave b.start with
    state := p.state.jumped, events := p.events ++ es }
  have here : r.boundary? i = some b := present
  obtain ⟨⟨fs, events, told⟩, fresh⟩ := enter_tells here rfl
  obtain ⟨_, pending, lastToken, _, _, entered⟩ := enter_frame here
  obtain ⟨_, rendered⟩ := (r.enter i).render_frame
  have result : p.seekTo b.start (some i) = (r.enter i).render := arrives (some i)
  rw [result, rendered]
  rw [entered] at events fresh ⊢
  exact
    { current := rfl, time, free := rfl, moving := p.state.jumped_moves, timeline := rfl, state := rfl
      fresh := fun token waits => (fresh token waits).imp_left Transport.playing_of_jumped
      told := ⟨es ++ fs, by rw [events, List.append_assoc],
        by rw [List.filterMap_append, untold, told, List.nil_append]⟩ }

/-- A call that finds a boundary leads to it. -/
structure Goes (p : Player T G σ) (c : Command T) (i : Nat) (b : Boundary T) : Prop where
  answer : (p.perform c).1 = .moved true
  lands : Lands p i b (p.perform c).2

def Refuses (p : Player T G σ) (c : Command T) : Prop := p.perform c = (.moved false, p)

/-- A call goes by the table alone. -/
theorem perform_navigation (placed : ∀ i, p.current = some i → i < p.timeline.boundaries.length)
    {c : Command T} (navigates : c.navigates = true) :
    p.perform c = match c.leadsTo? p.timeline.steps p.current with
      | some i => (.moved true, p.seekBoundary i)
      | none => (.moved false, p) := by
  have length : p.timeline.steps.length = p.timeline.boundaries.length := List.length_map _
  cases c with
  | seekStep step =>
    simp only [perform, seekStep, Timeline.boundaryOfStep?_eq, Command.leadsTo?]
    cases p.timeline.steps.idxOf? step <;> rfl
  | nextStep =>
    simp only [perform, nextStep, Command.leadsTo?, Option.guard, length, nextIndex_eq]
    by_cases last : p.timeline.boundaries.length ≤ p.nextIndex
    · simp [last, Nat.not_lt.mpr last]
    · simp [last, Nat.not_le.mp last]
  | previousStep =>
    have index : (match p.current with | some i => i - 1 | none => 0) =
        p.current.elim 0 (· - 1) := by
      cases p.current <;> rfl
    simp only [perform, previousStep, Command.leadsTo?, Option.guard, length]
    by_cases empty : p.timeline.boundaries = []
    · simp [empty]
    · have within : p.current.elim 0 (· - 1) < p.timeline.boundaries.length := by
        cases current : p.current with
        | none => exact List.length_pos_iff.mpr empty
        | some i => exact Nat.lt_of_le_of_lt (Nat.sub_le i 1) (placed i current)
      simp only [List.isEmpty_iff, empty, if_false, within, decide_true, if_true]
      exact congrArg (fun i => (Reply.moved true, p.seekBoundary i)) index
  | _ => cases navigates

theorem goes_of_leads (h : p.Aligned) {c : Command T} (navigates : c.navigates = true)
    (leads : c.leadsTo? p.timeline.steps p.current = some i) (present : p.boundary? i = some b) :
    p.Goes c i b := by
  have moved : p.perform c = (.moved true, p.seekTo b.start (some i)) := by
    rw [perform_navigation h.toPlacement.placed navigates, leads]
    dsimp only
    rw [seekBoundary, present]
  exact ⟨by rw [moved], by rw [moved]; exact seekTo_lands h present⟩

theorem refuses_of_leads (h : p.Aligned) {c : Command T} (navigates : c.navigates = true)
    (leads : c.leadsTo? p.timeline.steps p.current = none) : p.Refuses c := by
  rw [Refuses, perform_navigation h.toPlacement.placed navigates, leads]

/-- A call finds a boundary or changes nothing. -/
theorem navigate (h : p.Aligned) {c : Command T} (navigates : c.navigates = true) :
    (c.leadsTo? p.timeline.steps p.current = none ∧ p.Refuses c) ∨
      ∃ i b, c.leadsTo? p.timeline.steps p.current = some i ∧ p.boundary? i = some b ∧
        p.Goes c i b := by
  cases leads : c.leadsTo? p.timeline.steps p.current with
  | none => exact .inl ⟨rfl, refuses_of_leads h navigates leads⟩
  | some i =>
    have within : i < p.timeline.boundaries.length :=
      (Command.leadsTo?_lt leads).trans_eq (List.length_map _)
    have present : p.boundary? i = some p.timeline.boundaries[i] := List.getElem?_eq_getElem within
    exact .inr ⟨i, _, rfl, present, goes_of_leads h navigates leads present⟩

/-! ### Single calls -/

theorem seekStep_goes (h : p.Aligned) (distinct : p.timeline.steps.Nodup)
    (present : p.boundary? i = some b) : p.Goes (.seekStep b.step) i b := by
  refine goes_of_leads h rfl ?_ present
  have found : p.timeline.steps[i]? = some b.step := by
    rw [Timeline.steps, List.getElem?_map]
    exact congrArg (Option.map Boundary.step) present
  obtain ⟨within, same⟩ := List.getElem?_eq_some_iff.mp found
  refine List.idxOf?_eq_some_iff.mpr ⟨within, same, fun j before again => ?_⟩
  have equal : j = i := distinct.getElem_inj_iff.mp (again.trans same.symm)
  omega

theorem seekStep_refuses (h : p.Aligned) {step : Nat}
    (absent : ∀ b ∈ p.timeline.boundaries, b.step ≠ step) : p.Refuses (.seekStep step) := by
  refine refuses_of_leads h rfl (List.idxOf?_eq_none_iff.mpr fun member => ?_)
  obtain ⟨b, present, same⟩ := List.mem_map.mp member
  exact absent b present same

theorem nextStep_goes (h : p.Aligned) (present : p.boundary? p.nextIndex = some b) :
    p.Goes .nextStep p.nextIndex b := by
  refine goes_of_leads h rfl ?_ present
  rw [Command.leadsTo?, nextIndex_eq]
  exact guard_steps present

theorem nextStep_refuses (h : p.Aligned) (last : p.nextIndex = p.timeline.boundaries.length) :
    p.Refuses .nextStep := by
  refine refuses_of_leads h rfl ?_
  rw [Command.leadsTo?, nextIndex_eq, last, Timeline.steps, List.length_map]
  simp [Option.guard]

theorem previousStep_goes (h : p.Aligned) {j : Nat} (place : p.current.elim 0 (· - 1) = j)
    (present : p.boundary? j = some b) : p.Goes .previousStep j b := by
  refine goes_of_leads h rfl ?_ present
  rw [Command.leadsTo?, place]
  exact guard_steps present

theorem refuses_of_empty (h : p.Aligned) (empty : p.timeline.boundaries = []) {c : Command T}
    (navigates : c.navigates = true) : p.Refuses c := by
  obtain ⟨_, refuses⟩ | ⟨i, b, _, present, _⟩ := navigate h navigates
  · exact refuses
  · have within := boundary?_lt present
    rw [empty] at within
    cases within

/-- A step forward is undone by a step back. -/
theorem back_and_forth (h : p.Aligned) (current : p.current = some i)
    (present : p.boundary? i = some b) (start : p.time = b.start)
    (found : (p.perform .nextStep).1 = .moved true) :
    ((p.perform .nextStep).2.perform .previousStep).2.current = some i ∧
      ((p.perform .nextStep).2.perform .previousStep).2.time = p.time := by
  obtain ⟨_, refuses⟩ | ⟨j, c, leads, _, goes⟩ := navigate h (c := .nextStep) rfl
  · rw [show p.perform .nextStep = _ from refuses] at found
    cases found
  · rw [Command.leadsTo?] at leads
    obtain ⟨rfl, _⟩ := Option.guard_eq_some_iff.mp leads
    have aligned : (p.perform .nextStep).2.Aligned := perform_aligned h .nextStep
    have there : (p.perform .nextStep).2.current.elim 0 (· - 1) = i := by
      rw [goes.lands.current, current]
      rfl
    have still : (p.perform .nextStep).2.boundary? i = some b := by
      rw [boundary?, goes.lands.timeline]
      exact present
    have returned := (previousStep_goes aligned there still).lands
    exact ⟨returned.current, returned.time.trans start.symm⟩

/-! ### Stopped players -/

theorem seekTo_parked (p : Player T G σ) (time : T) (index : Option Nat) :
    (p.seekTo time index).Parked := by
  obtain ⟨_, _, arrives⟩ := p.seekTo_arrives time
  rw [arrives]
  refine render_moves ?_
  rw [enter?_state]
  exact p.state.jumped_moves

theorem onNarrationEnd_parked (h : p.Parked) (token : Nat) : (p.onNarrationEnd token).Parked := by
  obtain ⟨_, same⟩ | ⟨_, _, same⟩ | ⟨_, _, same⟩ := p.onNarrationEnd_cases token
  · rwa [same]
  · rw [same]
    exact h
  · have playing : p.resuming.state = .playing := setState_state _ _
    rw [same]
    exact render_moves (sync_moves playing _)

theorem navigate_parked (placed : ∀ i, p.current = some i → i < p.timeline.boundaries.length)
    (h : p.Parked) {c : Command T} (navigates : c.navigates = true) : (p.perform c).2.Parked := by
  rw [perform_navigation placed navigates]
  split
  · show (p.seekBoundary _).Parked
    unfold seekBoundary
    split
    · exact p.seekTo_parked _ _
    · exact h
  · exact h

theorem perform_parked (placed : ∀ i, p.current = some i → i < p.timeline.boundaries.length)
    (h : p.Parked) (c : Command T) : (p.perform c).2.Parked := by
  cases c with
  | play =>
    show p.play.Parked
    by_cases playing : p.state = .playing
    · rwa [play_of_playing playing]
    · have resting : p.starting.state ≠ .playing := by rwa [(p.starting_runs playing).1]
      rw [play_of_resting playing]
      exact render_moves (sync_moves (started_follows resting).1 _)
  | pause =>
    show p.pause.Parked
    unfold pause
    dsimp only
    split
    · exact h
    · refine parked_of_moving ?_
      rw [setState_state]
      exact Transport.noConfusion
  | stop =>
    show p.stop.Parked
    rw [stop_eq]
    exact fun _ => setState_current _ _
  | seek time => exact p.seekTo_parked _ _
  | seekStep | nextStep | previousStep => exact navigate_parked placed h rfl
  | setSpeed speed =>
    rw [perform_setSpeed]
    exact h
  | tick elapsed =>
    show (p.tick elapsed).Parked
    have heard : (p.advanceNarrator elapsed).Parked := by
      obtain ⟨narrator, _, same⟩ | ⟨token, narrator, _, same⟩ := p.advanceNarrator_cases elapsed
      · rw [same]
        exact h
      · rw [same]
        exact onNarrationEnd_parked (p := { p with narrator }) h token
    by_cases playing : (p.advanceNarrator elapsed).state = .playing
    · have ticking : (p.ticking elapsed).state = .playing := playing
      rw [tick_of_playing playing]
      exact render_moves (sync_moves ticking _)
    · rwa [tick_of_resting playing]
  | narrationEnd token => exact onNarrationEnd_parked h token

theorem run_parked (aligned : p.Aligned) (h : p.Parked) (commands : List (Command T)) :
    (p.run commands).Parked := by
  induction commands using List.reverseRecOn with
  | nil => exact h
  | append_singleton commands c ih =>
    rw [run_snoc]
    exact perform_parked (run_aligned aligned commands).toPlacement.placed ih c

/-! ### Sequences of calls -/

/-- From no boundary, one call after the other goes through the boundaries in their order. -/
theorem run_nextStep (h : p.Aligned) (away : p.current = none) {n : Nat}
    (within : n ≤ p.timeline.boundaries.length) :
    (p.run (List.replicate n .nextStep)).timeline = p.timeline ∧
      (p.run (List.replicate n .nextStep)).nextIndex = n ∧
      ∃ es, (p.run (List.replicate n .nextStep)).events = p.events ++ es ∧
        es.filterMap PlayerEvent.index? = List.range n := by
  induction n with
  | zero => exact ⟨rfl, by rw [List.replicate_zero, run_nil, nextIndex, away], [], by simp [run_nil]⟩
  | succ n ih =>
    obtain ⟨timeline, index, es, events, told⟩ := ih (Nat.le_of_succ_le within)
    have aligned := run_aligned h (List.replicate n .nextStep)
    rw [List.replicate_succ', run_snoc]
    generalize p.run (List.replicate n .nextStep) = q at timeline index events aligned ⊢
    obtain ⟨b, found⟩ : ∃ b, p.timeline.boundaries[n]? = some b :=
      ⟨_, List.getElem?_eq_getElem within⟩
    have present : q.boundary? q.nextIndex = some b := by
      rw [index, boundary?, timeline]
      exact found
    have lands := (nextStep_goes aligned present).lands
    obtain ⟨fs, later, entered⟩ := lands.told
    refine ⟨lands.timeline.trans timeline, by rw [nextIndex_of_current lands.current, index], es ++ fs, ?_, ?_⟩
    · rw [later, events, List.append_assoc]
    · rw [List.filterMap_append, told, entered, index, List.range_succ]

/-- Any sequence of calls goes by the table, and leaves the player at the start of a boundary if it
does anything at all. -/
theorem run_navigates (h : p.Aligned) {calls : List (Command T)}
    (navigate : ∀ c ∈ calls, c.navigates = true) :
    (p.run calls).timeline = p.timeline ∧
      (p.run calls).current =
        calls.foldl (fun current c => (c.leadsTo? p.timeline.steps current).or current) p.current ∧
      (p.run calls = p ∨ ∃ i b, p.boundary? i = some b ∧ (p.run calls).Stands i b) := by
  induction calls using List.reverseRecOn with
  | nil => exact ⟨rfl, rfl, .inl rfl⟩
  | append_singleton calls c ih =>
    obtain ⟨timeline, current, place⟩ := ih fun c member =>
      navigate c (List.mem_append_left _ member)
    have last : c.navigates = true := navigate c (List.mem_append_right _ List.mem_cons_self)
    have aligned := run_aligned h calls
    rw [List.foldl_append, List.foldl_cons, List.foldl_nil, ← current, ← timeline, run_snoc]
    obtain ⟨nowhere, refuses⟩ | ⟨i, b, leads, present, goes⟩ := Player.navigate aligned last
    · rw [nowhere, show (p.run calls).perform c = _ from refuses]
      exact ⟨rfl, rfl, place⟩
    · rw [leads]
      rw [boundary?, timeline] at present
      exact ⟨goes.lands.timeline, goes.lands.current, .inr ⟨i, b, present, goes.lands.toStands⟩⟩

/-- Step navigation walks the table of boundaries by index. A call that finds a boundary leads to
its start, whatever other boundaries start there too, and any other call changes nothing. -/
theorem navigation_by_index (d : Diagram T G) (o : CompileOptions G) (captions : List Caption)
    (settings : List (Setting T G σ)) (commands : List (Command T)) :
    let t := d.compile o
    let p := (setUp captions t settings).run commands
    (∀ i b, t.boundaries[i]? = some b → p.Goes (.seekStep b.step) i b) ∧
    (∀ step, (∀ b ∈ t.boundaries, b.step ≠ step) → p.Refuses (.seekStep step)) ∧
    (∀ i, p.current = some i →
      (∀ b, t.boundaries[i + 1]? = some b → p.Goes .nextStep (i + 1) b) ∧
      (i + 1 = t.boundaries.length → p.Refuses .nextStep) ∧
      ∃ b, t.boundaries[i - 1]? = some b ∧ p.Goes .previousStep (i - 1) b) ∧
    (p.current = none →
      (∀ b, t.boundaries[0]? = some b → p.Goes .nextStep 0 b ∧ p.Goes .previousStep 0 b) ∧
      (t.boundaries = [] → p.Refuses .nextStep ∧ p.Refuses .previousStep)) ∧
    (p.state = .stopped → ∀ n ≤ t.boundaries.length,
      let q := p.run (List.replicate n .nextStep)
      (∀ b, t.boundaries[n]? = some b → q.Goes .nextStep n b) ∧
      (n = t.boundaries.length → q.Refuses .nextStep) ∧
      ∃ es, q.events = p.events ++ es ∧ es.filterMap PlayerEvent.index? = List.range n) ∧
    (∀ i b, p.current = some i → t.boundaries[i]? = some b → p.time = b.start →
      (p.perform .nextStep).1 = .moved true →
      let back := ((p.perform .nextStep).2.perform .previousStep).2
      back.current = some i ∧ back.time = p.time) ∧
    (∀ c i b token, p.Goes c i b → p.pending = some token →
      (p.perform c).2.pending ≠ some token) ∧
    (∀ calls : List (Command T), (∀ c ∈ calls, c.navigates = true) →
      (p.run calls).current =
        calls.foldl (fun current c => (c.leadsTo? t.steps current).or current) p.current ∧
      (p.run calls = p ∨ ∃ i b, t.boundaries[i]? = some b ∧ (p.run calls).Stands i b)) := by
  intro t p
  obtain ⟨timeline, h⟩ : p.timeline = t ∧ p.Aligned :=
    setUp_run_aligned d o captions settings commands
  have distinct : t.steps.Nodup := by
    rw [Timeline.steps, d.compile_steps o]
    exact eraseDups_nodup _
  have parked : p.Parked := by
    obtain ⟨_, control, _⟩ := setUp_rests captions t settings
    exact run_parked (setUp_aligned d o captions settings)
      (fun _ => congrArg Control.current control) commands
  have steady : p.Steady := setUp_steady captions t settings commands
  rw [← timeline] at distinct ⊢
  refine ⟨fun i b => seekStep_goes h distinct, fun step => seekStep_refuses h, ?_, ?_, ?_, ?_, ?_, ?_⟩
  · intro i current
    have index := nextIndex_of_current current
    have before : i - 1 < p.timeline.boundaries.length :=
      Nat.lt_of_le_of_lt (Nat.sub_le i 1) (h.toPlacement.placed i current)
    refine ⟨?_, ?_, _, List.getElem?_eq_getElem before, ?_⟩
    · rw [← index]
      exact fun b => nextStep_goes h
    · rw [← index]
      exact nextStep_refuses h
    · exact previousStep_goes h (by rw [current]; rfl) (List.getElem?_eq_getElem before)
  · intro away
    have index : p.nextIndex = 0 := by rw [nextIndex, away]
    refine ⟨fun b present => ⟨?_, previousStep_goes h (by rw [away]; rfl) present⟩, fun empty => ?_⟩
    · rw [← index] at present ⊢
      exact nextStep_goes h present
    · exact ⟨refuses_of_empty h empty rfl, refuses_of_empty h empty rfl⟩
  · intro stopped n within q
    obtain ⟨same, index, told⟩ := run_nextStep h (parked stopped) within
    have aligned : q.Aligned := run_aligned h _
    refine ⟨fun b present => ?_, fun last => ?_, told⟩
    · have next : q.boundary? q.nextIndex = some b := by
        rw [boundary?, show q.timeline = p.timeline from same, show q.nextIndex = n from index]
        exact present
      have goes := nextStep_goes aligned next
      rwa [show q.nextIndex = n from index] at goes
    · exact nextStep_refuses aligned (by rw [index, same, last])
  · intro i b
    exact back_and_forth h
  · intro c i b token goes pending later
    have new := (goes.lands.fresh token later).2
    have old := steady.newest token pending
    omega
  · intro calls navigate
    exact (run_navigates h navigate).2

/-- Three boundaries that all start at once are gone through one after the other. -/
example :
    let t : Timeline Rat Rat :=
      { boundaries := [⟨4, 0, 0⟩, ⟨2, 0, 0⟩, ⟨9, 0, 1⟩], cues := [], initial := {}, baseColors := {} }
    let start : Player Rat Rat (SimulatedNarrator Rat) := setUp [] t []
    [1, 2, 3].map (fun n => (start.run (List.replicate n .nextStep)).current) =
      [some 0, some 1, some 2] := by
  decide +kernel

end Player

end Storyboard
