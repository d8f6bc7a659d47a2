import Storyboard.Playback.Player

/-!
# The parts of operations

What each part of an operation does to a player, case by case. `sync_rounds` takes the walk over
the boundaries apart: it is a number of rounds, each of which enters one boundary, and one
conclusion. There are no more rounds than boundaries.
-/

namespace Storyboard

namespace Player

variable {T G σ : Type}

theorem setState_cases (p : Player T G σ) (state : Transport) :
    (p.state = state ∧ p.setState state = p) ∨
      (p.state ≠ state ∧ p.setState state =
        { p with state, events := p.events ++ [.stateChanged state] }) := by
  unfold setState
  split
  · exact .inl ⟨‹_›, rfl⟩
  · exact .inr ⟨‹_›, rfl⟩

theorem setState_frame (p : Player T G σ) (state : Transport) :
    ∃ events, p.setState state = { p with state, events } := by
  obtain ⟨rfl, same⟩ | ⟨_, same⟩ := p.setState_cases state
  · exact ⟨p.events, same⟩
  · exact ⟨_, same⟩

@[simp] theorem setState_state (p : Player T G σ) (state : Transport) :
    (p.setState state).state = state := by
  obtain ⟨_, same⟩ := p.setState_frame state
  rw [same]

@[simp] theorem setState_current (p : Player T G σ) (state : Transport) :
    (p.setState state).current = p.current := by
  obtain ⟨_, same⟩ := p.setState_frame state
  rw [same]

@[simp] theorem setState_spoken (p : Player T G σ) (state : Transport) :
    (p.setState state).spoken = p.spoken := by
  obtain ⟨_, same⟩ := p.setState_frame state
  rw [same]

@[simp] theorem setState_timeline (p : Player T G σ) (state : Transport) :
    (p.setState state).timeline = p.timeline := by
  obtain ⟨_, same⟩ := p.setState_frame state
  rw [same]

theorem setState_clear (p : Player T G σ) (state : Transport) :
    { p.setState state with current := none, spoken := none } =
      { p with current := none, spoken := none }.setState state := by
  unfold setState
  by_cases same : p.state = state
  · rw [if_pos same]
    exact (if_pos same).symm
  · rw [if_neg same]
    exact (if_neg same).symm

theorem render_frame [Scalar T] [Scalar G] [Narrow T G] (p : Player T G σ) :
    ∃ screen, p.render = { p with screen } := by
  unfold render
  split
  · exact ⟨_, rfl⟩
  · exact ⟨p.screen, rfl⟩

theorem boundary?_lt {p : Player T G σ} {index : Nat} {b : Boundary T}
    (present : p.boundary? index = some b) : index < p.timeline.boundaries.length :=
  (List.getElem?_eq_some_iff.mp present).1

theorem nextIndex_of_current {p : Player T G σ} {j : Nat} (current : p.current = some j) :
    p.nextIndex = j + 1 := by
  rw [nextIndex, current]

section

variable [Scalar T]

theorem setSpeed_frame (clock : Clock T G) (speed : T) :
    ∃ speed', clock.setSpeed speed = { clock with speed := speed' } := by
  unfold Clock.setSpeed
  split
  · exact ⟨_, rfl⟩
  · exact ⟨clock.speed, rfl⟩

theorem withSpeed_eq (p : Player T G σ) (speed : T) :
    p.withSpeed speed = { p with clock := p.clock.setSpeed speed } := by
  unfold withSpeed setSpeed Clock.setSpeed
  by_cases able : Clock.isSpeed speed = true
  · rw [if_pos able, if_pos able]
  · rw [if_neg able, if_neg able]

theorem autoPause_eq (p : Player T G σ) (b : Boundary T) (playing : p.state = .playing) :
    p.autoPause b = { p with
      clock := (p.clock.seek b.stop).pause, autoPaused := true, state := .paused
      events := p.events ++ [.stateChanged .paused, .autoPaused b.step] } := by
  unfold autoPause setState emit
  simp [playing]

theorem waitingAt?_eq_some_iff {p : Player T G σ} {now : T} {b : Boundary T} :
    p.waitingAt? now = some b ↔
      p.pending.isSome = true ∧ p.currentBoundary? = some b ∧ b.stop ≤ now := by
  unfold waitingAt?
  cases p.pending.isSome with
  | false => simp
  | true => simp [Option.filter_eq_some_iff]

end

/-- The player that resumes playback because the utterance it waits for is complete. -/
def resuming (p : Player T G σ) : Player T G σ :=
  ({ p with pending := none, autoPaused := false, clock := p.clock.play }.setState .playing).emit
    .resumed

/-- What is to be said on entering a boundary: the step, the text, and who is to say it. -/
def utterance? (p : Player T G σ) (index : Nat) : Option (Nat × String × σ) :=
  if p.narrationEnabled then
    match p.boundary? index with
    | none => none
    | some boundary =>
      match p.captions.get? boundary.step, p.narrator with
      | some text, some narrator => some (boundary.step, text, narrator)
      | _, _ => none
  else none

variable [Narrator T σ]

theorem speak_cases (p : Player T G σ) (index : Nat) :
    (p.utterance? index = none ∧
      p.speak index = { p with spoken := some index, pending := none }) ∨
    (∃ step text narrator e narrator', p.utterance? index = some (step, text, narrator) ∧
      Narrator.speak narrator (p.lastToken + 1) text = (.error e, narrator') ∧
      p.speak index = { p with
        spoken := some index, pending := none, lastToken := p.lastToken + 1
        narrator := some narrator' }) ∨
    (∃ step text narrator narrator', p.utterance? index = some (step, text, narrator) ∧
      Narrator.speak narrator (p.lastToken + 1) text = (.ok (), narrator') ∧
      p.speak index = { p with
        spoken := some index, pending := some (p.lastToken + 1), lastToken := p.lastToken + 1
        narrator := some narrator'
        events := p.events ++ [.narrationStarted step (p.lastToken + 1)] }) := by
  unfold utterance? speak boundary?
  dsimp only
  cases enabled : p.narrationEnabled with
  | false => exact .inl ⟨rfl, rfl⟩
  | true =>
    simp only [Bool.not_true, Bool.false_eq_true, if_false, if_true]
    cases p.timeline.boundaries[index]? with
    | none => exact .inl ⟨rfl, rfl⟩
    | some b =>
      dsimp only
      cases p.captions.get? b.step with
      | none => exact .inl ⟨rfl, rfl⟩
      | some text =>
        cases p.narrator with
        | none => exact .inl ⟨rfl, rfl⟩
        | some narrator =>
          dsimp only
          cases answer : Narrator.speak narrator (p.lastToken + 1) text with
          | mk verdict narrator' =>
            cases verdict with
            | error e => exact .inr (.inl ⟨_, _, _, e, narrator', rfl, answer, rfl⟩)
            | ok => exact .inr (.inr ⟨_, _, _, narrator', rfl, answer, rfl⟩)

theorem enter_of_none {p : Player T G σ} {index : Nat} (absent : p.boundary? index = none) :
    p.enter index = p := by
  rw [enter, absent]

theorem enter_of_some {p : Player T G σ} {index : Nat} {b : Boundary T}
    (present : p.boundary? index = some b) :
    p.enter index =
      let q := { p with
        current := some index, events := p.events ++ [.stepChanged b.step index] }
      if p.state = .playing then q.speak index else q := by
  rw [enter, present]
  rfl

theorem speak_frame (p : Player T G σ) (index : Nat) :
    ∃ pending lastToken narrator events, p.speak index =
      { p with spoken := some index, pending, lastToken, narrator, events } := by
  obtain ⟨_, same⟩ | ⟨_, _, _, _, _, _, _, same⟩ | ⟨_, _, _, _, _, _, same⟩ := p.speak_cases index
    <;> exact ⟨_, _, _, _, same⟩

theorem enter_frame {p : Player T G σ} {index : Nat} {b : Boundary T}
    (present : p.boundary? index = some b) :
    ∃ spoken pending lastToken narrator events, p.enter index =
      { p with current := some index, spoken, pending, lastToken, narrator, events } := by
  rw [enter_of_some present]
  dsimp only
  split
  · obtain ⟨_, _, _, _, same⟩ := speak_frame { p with
      current := some index, events := p.events ++ [.stepChanged b.step index] } index
    exact ⟨_, _, _, _, _, same⟩
  · exact ⟨_, _, _, _, _, rfl⟩

theorem enter_timeline (p : Player T G σ) (index : Nat) :
    (p.enter index).timeline = p.timeline := by
  cases found : p.boundary? index with
  | none => rw [enter_of_none found]
  | some b =>
    obtain ⟨_, _, _, _, _, same⟩ := enter_frame found
    rw [same]

theorem enter_state (p : Player T G σ) (index : Nat) : (p.enter index).state = p.state := by
  cases found : p.boundary? index with
  | none => rw [enter_of_none found]
  | some b =>
    obtain ⟨_, _, _, _, _, same⟩ := enter_frame found
    rw [same]

theorem enter?_state (p : Player T G σ) (index : Option Nat) : (p.enter? index).state = p.state := by
  cases index with
  | none => rfl
  | some index => exact p.enter_state index

theorem enter_nextIndex {p : Player T G σ} {index : Nat} {b : Boundary T}
    (present : p.boundary? index = some b) : (p.enter index).nextIndex = index + 1 := by
  obtain ⟨_, _, _, _, _, same⟩ := enter_frame present
  rw [same, nextIndex]

/-! ### The walk over the boundaries -/

variable [Scalar T]

/-- One round of the walk: the boundary that comes next is entered if it has started. -/
def round? (now : T) (p : Player T G σ) : Option (Player T G σ) :=
  if (p.waitingAt? now).isSome then none
  else match p.boundary? p.nextIndex with
    | some next => if next.start ≤ now then some (p.enter p.nextIndex) else none
    | none => none

inductive Rounds (now : T) : Nat → Player T G σ → Player T G σ → Prop where
  | zero (p : Player T G σ) : Rounds now 0 p p
  | succ {n : Nat} {p q r : Player T G σ} :
      round? now p = some q → Rounds now n q r → Rounds now (n + 1) p r

theorem round?_eq_some_iff {now : T} {p q : Player T G σ} :
    round? now p = some q ↔ p.waitingAt? now = none ∧
      ∃ next, p.boundary? p.nextIndex = some next ∧ next.start ≤ now ∧ q = p.enter p.nextIndex := by
  unfold round?
  cases p.waitingAt? now with
  | some b => simp
  | none =>
    cases p.boundary? p.nextIndex with
    | none => simp
    | some next =>
      by_cases started : next.start ≤ now
      · simp [started, eq_comm]
      · simp [started]

/-- Where the walk is over and the player need not wait, the next boundary has not started. -/
theorem not_started_of_settled {now : T} {p : Player T G σ} {next : Boundary T}
    (settled : round? now p = none) (moving : p.waitingAt? now = none)
    (present : p.boundary? p.nextIndex = some next) : ¬next.start ≤ now := by
  intro started
  have entered : round? now p = some (p.enter p.nextIndex) :=
    round?_eq_some_iff.mpr ⟨moving, next, present, started, rfl⟩
  rw [settled] at entered
  cases entered

variable [Scalar G]

theorem finish_once (p : Player T G σ) (playing : p.state = .playing)
    (once : p.looping = false) :
    p.finish = { p with
      clock := p.clock.pause, state := .paused
      events := p.events ++ [.finished, .stateChanged .paused] } := by
  unfold finish setState emit
  simp [playing, once]

theorem finish_again (p : Player T G σ) (loops : p.looping = true) :
    p.finish = { (p.emit .finished).rewind with
      clock := (p.emit .finished).rewind.clock.play }.enter? (p.timeline.boundaryAt? 0) := by
  unfold finish
  simp only [emit, loops, if_true]
  rfl

/-- What comes after the last round. -/
def conclude (now : T) (p : Player T G σ) : Player T G σ :=
  match p.waitingAt? now with
  | some b => p.autoPause b
  | none => p.settle now

theorem walk_rounds (now : T) (rest : List (Boundary T × Nat)) (p : Player T G σ)
    (follow : rest = p.timeline.boundaries.zipIdx.drop p.nextIndex) :
    ∃ n q, n ≤ rest.length ∧ Rounds now n p q ∧ round? now q = none ∧
      walk now rest p = q.conclude now := by
  -- What the walk has left is what follows the current boundary, in every round.
  induction rest generalizing p with
  | nil =>
    have last : p.boundary? p.nextIndex = none := by
      have short := congrArg List.length follow
      simp only [List.length_nil, List.length_drop, List.length_zipIdx] at short
      exact List.getElem?_eq_none (by omega)
    refine ⟨0, p, Nat.le_refl 0, .zero p, ?_, rfl⟩
    cases ended : round? now p with
    | none => rfl
    | some q =>
      obtain ⟨_, next, present, _⟩ := round?_eq_some_iff.mp ended
      rw [last] at present
      cases present
  | cons entry rest ih =>
    obtain ⟨next, index⟩ := entry
    have head : (p.timeline.boundaries.zipIdx)[p.nextIndex]? = some (next, index) := by
      rw [← List.head?_drop, ← follow]
      rfl
    obtain ⟨next, present, rfl, rfl⟩ : ∃ b, p.boundary? p.nextIndex = some b ∧ b = next ∧
        p.nextIndex = index := by
      simpa [List.getElem?_zipIdx, boundary?] using head
    have tail : rest = p.timeline.boundaries.zipIdx.drop (p.nextIndex + 1) := by
      rw [← List.tail_drop, ← follow]
      rfl
    rw [walk]
    cases waits : p.waitingAt? now with
    | some b =>
      refine ⟨0, p, Nat.zero_le _, .zero p, ?_, ?_⟩
      · simp [round?, waits]
      · simp [conclude, waits]
    | none =>
      dsimp only
      by_cases started : next.start ≤ now
      · rw [if_pos started]
        have enters : round? now p = some (p.enter p.nextIndex) :=
          round?_eq_some_iff.mpr ⟨waits, next, present, started, rfl⟩
        obtain ⟨n, q, bound, rounds, ended, result⟩ := ih (p.enter p.nextIndex)
          (by rw [enter_timeline, enter_nextIndex present, tail])
        exact ⟨n + 1, q, Nat.succ_le_succ bound, .succ enters rounds, ended, result⟩
      · rw [if_neg started]
        refine ⟨0, p, Nat.zero_le _, .zero p, ?_, ?_⟩
        · simp [round?, waits, present, started]
        · simp [conclude, waits]

/-- The walk ends: it is at most one round for each boundary that is left, and a conclusion. -/
theorem sync_rounds (p : Player T G σ) (now : T) :
    ∃ n q, n ≤ p.timeline.boundaries.length - p.nextIndex ∧ Rounds now n p q ∧
      round? now q = none ∧ p.sync now = q.conclude now := by
  obtain ⟨n, q, bound, rounds, ended, result⟩ := walk_rounds now _ p rfl
  rw [List.length_drop, List.length_zipIdx] at bound
  exact ⟨n, q, bound, rounds, ended, result⟩

end Player

end Storyboard
