import Mathlib.Order.Basic
import Storyboard.Playback.SimulatedNarrator
import Storyboard.Proofs.Playback.Order

/-!
# Recitals

A recital is playback with a simulated narrator that starts at the first boundary and never jumps.
Its account says what it has told: each boundary was entered in its turn, the steps with a caption
were narrated, and every wait but one that still lasts was ended. The walk over the boundaries
keeps the account; where it finishes the timeline, the account is closed.
-/

namespace Storyboard

variable {T G σ : Type}

namespace PlayerEvent

def index? : PlayerEvent T → Option Nat
  | .stepChanged _ index => some index
  | _ => none

def narrated? : PlayerEvent T → Option Nat
  | .narrationStarted step _ => some step
  | _ => none

def isAutoPaused : PlayerEvent T → Bool
  | .autoPaused _ => true
  | _ => false

def isResumed : PlayerEvent T → Bool
  | .resumed => true
  | _ => false

end PlayerEvent

/-- The events of a recital that has come through the steps. -/
structure Account (steps : List Nat) (captioned : Nat → Bool) (waiting : Bool)
    (es : List (PlayerEvent T)) : Prop where
  entered : es.filterMap PlayerEvent.index? = List.range steps.length
  narrated : es.filterMap PlayerEvent.narrated? = steps.filter captioned
  waits : es.countP PlayerEvent.isAutoPaused = es.countP PlayerEvent.isResumed + waiting.toNat
  unfinished : .finished ∉ es

namespace Account

variable {steps : List Nat} {captioned : Nat → Bool} {waiting : Bool} {es : List (PlayerEvent T)}

theorem nil (captioned : Nat → Bool) :
    Account [] captioned false ([] : List (PlayerEvent T)) :=
  ⟨rfl, rfl, rfl, List.not_mem_nil⟩

theorem append (h : Account steps captioned waiting es) (more : List Nat) (waits : Bool)
    {fs : List (PlayerEvent T)}
    (entered : fs.filterMap PlayerEvent.index? = List.range' steps.length more.length)
    (narrated : fs.filterMap PlayerEvent.narrated? = more.filter captioned)
    (balanced : waiting.toNat + fs.countP PlayerEvent.isAutoPaused =
      fs.countP PlayerEvent.isResumed + waits.toNat)
    (unfinished : .finished ∉ fs) : Account (steps ++ more) captioned waits (es ++ fs) where
  entered := by
    rw [List.filterMap_append, h.entered, entered, List.length_append, List.range_eq_range',
      List.range_eq_range', ← List.range'_append_1, Nat.zero_add]
  narrated := by rw [List.filterMap_append, h.narrated, narrated, List.filter_append]
  waits := by
    have before := h.waits
    rw [List.countP_append, List.countP_append]
    omega
  unfinished := by simp [h.unfinished, unfinished]

/-- Events that tell of no boundary, as a change of state is. -/
theorem tell (h : Account steps captioned waiting es) (waits : Bool) {fs : List (PlayerEvent T)}
    (entered : fs.filterMap PlayerEvent.index? = [])
    (narrated : fs.filterMap PlayerEvent.narrated? = [])
    (balanced : waiting.toNat + fs.countP PlayerEvent.isAutoPaused =
      fs.countP PlayerEvent.isResumed + waits.toNat)
    (unfinished : .finished ∉ fs) : Account steps captioned waits (es ++ fs) := by
  have told := h.append [] waits entered narrated balanced unfinished
  rwa [List.append_nil] at told

theorem mute (h : Account steps captioned waiting es) {step : Nat}
    (silent : captioned step = false) :
    Account (steps ++ [step]) captioned waiting (es ++ [.stepChanged step steps.length]) :=
  h.append [step] waiting rfl (by simp [PlayerEvent.narrated?, silent])
    (Nat.add_comm _ _) (by simp)

theorem speak (h : Account steps captioned waiting es) {step : Nat}
    (spoken : captioned step = true) (token : Nat) :
    Account (steps ++ [step]) captioned waiting
      (es ++ [.stepChanged step steps.length, .narrationStarted step token]) :=
  h.append [step] waiting rfl (by simp [List.filterMap_cons, PlayerEvent.narrated?, spoken])
    (Nat.add_comm _ _) (by simp)

end Account

/-- What a recital performs, and how fast. -/
structure Score (T G : Type) where
  timeline : Timeline T G
  captions : OrderedMap Nat String
  speed : T

namespace Score

/-- The steps of the first boundaries. -/
def steps (m : Score T G) (count : Nat) : List Nat :=
  (m.timeline.boundaries.take count).map Boundary.step

def captioned (m : Score T G) (step : Nat) : Bool := (m.captions.get? step).isSome

theorem steps_length (m : Score T G) {index : Nat} (within : index ≤ m.timeline.boundaries.length) :
    (m.steps index).length = index := by
  rw [steps, List.length_map, List.length_take]
  omega

theorem steps_succ (m : Score T G) {index : Nat} {b : Boundary T}
    (present : m.timeline.boundaries[index]? = some b) :
    m.steps (index + 1) = m.steps index ++ [b.step] := by
  rw [steps, List.take_add_one, present, List.map_append]
  rfl

end Score

namespace Player

def score (p : Player T G σ) : Score T G := ⟨p.timeline, p.captions, p.clock.speed⟩

variable [ExactScalar T] {m : Score T G} {p q : Player T G (SimulatedNarrator T)}

/-- A recital has come to the next boundary, and has told of all boundaries before it. -/
structure Accounts (m : Score T G) (p : Player T G (SimulatedNarrator T)) : Prop where
  score : p.score = m
  once : p.looping = false
  narrates : p.narrationEnabled = true
  account : Account (m.steps p.nextIndex) m.captioned p.autoPaused p.events

/-- The narrator of a recital speaks exactly what is pending. -/
structure Recites (m : Score T G) (p : Player T G (SimulatedNarrator T)) : Prop extends
    Accounts m p where
  voice : ∃ s, p.narrator = some s ∧ s.paused = false ∧ s.current.map Prod.fst = p.pending

/-- A recital between two commands: it goes on by itself, or when the narrator is done. -/
structure Performs (m : Score T G) (p : Player T G (SimulatedNarrator T)) : Prop extends
    Recites m p where
  aligned : p.Aligned
  going : p.state = .playing ∨ p.autoPaused = true

/-- A recital that has not begun. -/
structure Ready (m : Score T G) (p : Player T G (SimulatedNarrator T)) : Prop extends
    Recites m p where
  aligned : p.Aligned
  fresh : p.control = {}
  begins : p.time = 0

/-- A recital that is over. Nothing is spoken any more, so nothing can happen by itself. -/
structure Over (m : Score T G) (p : Player T G (SimulatedNarrator T)) : Prop where
  score : p.score = m
  state : p.state = .paused
  ended : p.time = m.timeline.duration
  silent : ∃ s, p.narrator = some s ∧ s.current = none
  told : ∃ told rest, p.events = told ++ .finished :: rest ∧
    Account (m.timeline.boundaries.map Boundary.step) m.captioned false told ∧
    ∀ e ∈ rest, e = .stateChanged .paused ∨ e = .progress p.time p.duration

/-! ### Entering boundaries -/

/-- Where the player need not wait although the current boundary is over, nothing is pending. -/
theorem pending_of_passed (h : p.Placed) {now : T} (moving : p.waitingAt? now = none)
    (passed : ∀ i b, p.current = some i → p.boundary? i = some b → b.stop ≤ now) :
    p.pending = none := by
  rw [← Option.not_isSome_iff_eq_none]
  intro pending
  obtain ⟨i, current⟩ := Option.isSome_iff_exists.mp (h.speaking pending).1
  obtain ⟨b, found, _⟩ := h.started i current
  have holds : p.currentBoundary? = some b := by
    rw [currentBoundary?, show p.current = some i from current]
    exact found
  have waits : p.waitingAt? now = some b :=
    waitingAt?_eq_some_iff.mpr ⟨pending, holds, passed i b current found⟩
  rw [moving] at waits
  cases waits

theorem pending_of_round (h : p.Placed) {now : T} {next : Boundary T}
    (moving : p.waitingAt? now = none) (present : p.boundary? p.nextIndex = some next)
    (started : next.start ≤ now) : p.pending = none := by
  refine pending_of_passed h moving fun i b current found => ?_
  rw [nextIndex_of_current current] at present
  rw [← Tiling.next_start h.tiled found present]
  exact started

/-- A simulated narrator never refuses to speak. -/
theorem speak_simulated {s : SimulatedNarrator T} (narrates : p.narrationEnabled = true)
    (narrator : p.narrator = some s) {index : Nat} {b : Boundary T}
    (present : p.boundary? index = some b) :
    (p.captions.get? b.step = none ∧
      p.speak index = { p with spoken := some index, pending := none }) ∨
    (∃ text, p.captions.get? b.step = some text ∧ p.speak index = { p with
      spoken := some index, pending := some (p.lastToken + 1), lastToken := p.lastToken + 1
      narrator := some (s.speak (p.lastToken + 1) text)
      events := p.events ++ [.narrationStarted b.step (p.lastToken + 1)] }) := by
  have due : p.utterance? index = (p.captions.get? b.step).map fun text => (b.step, text, s) := by
    simp only [utterance?, narrates, present, narrator, if_true]
    cases p.captions.get? b.step <;> rfl
  obtain ⟨mute, same⟩ | ⟨_, _, _, _, _, _, answer, _⟩ | ⟨step, text, _, _, speaks, answer, same⟩ :=
    p.speak_cases index
  · exact .inl ⟨Option.map_eq_none_iff.mp (due.symm.trans mute), same⟩
  · cases answer
  · obtain ⟨text, caption, utterance⟩ := Option.map_eq_some_iff.mp (due.symm.trans speaks)
    cases utterance
    cases answer
    exact .inr ⟨text, caption, same⟩

theorem Recites.enter (h : Recites m p) (playing : p.state = .playing) (silent : p.pending = none)
    {b : Boundary T} (present : p.boundary? p.nextIndex = some b) :
    Recites m (p.enter p.nextIndex) := by
  obtain ⟨⟨rfl, once, narrates, account⟩, ⟨s, narrator, awake, idle⟩⟩ := h
  have idle : s.current = none := by simpa [silent] using idle
  have length : (p.score.steps p.nextIndex).length = p.nextIndex :=
    p.score.steps_length (boundary?_lt present).le
  have steps : p.score.steps (p.nextIndex + 1) = p.score.steps p.nextIndex ++ [b.step] :=
    p.score.steps_succ present
  rw [enter_of_some present]
  dsimp only
  rw [if_pos playing]
  obtain ⟨absent, same⟩ | ⟨text, caption, same⟩ := speak_simulated
    (p := { p with
      current := some p.nextIndex, events := p.events ++ [.stepChanged b.step p.nextIndex] })
    narrates narrator present
  · have silent : p.score.captioned b.step = false := congrArg Option.isSome absent
    have told := account.mute silent
    rw [length, ← steps] at told
    rw [same]
    exact ⟨⟨rfl, once, narrates, told⟩, ⟨s, narrator, awake, by simp [idle]⟩⟩
  · have spoken : p.score.captioned b.step = true := congrArg Option.isSome caption
    have told := account.speak spoken (p.lastToken + 1)
    rw [length, ← steps, List.append_cons] at told
    rw [same]
    exact ⟨⟨rfl, once, narrates, told⟩, ⟨_, rfl, rfl, rfl⟩⟩

/-! ### The walk -/

theorem Rounds.nextIndex {σ : Type} [Narrator T σ] {now : T} {n : Nat} {p q : Player T G σ}
    (h : Rounds now n p q) : q.nextIndex = p.nextIndex + n := by
  induction h with
  | zero => rfl
  | succ round _ ih =>
    obtain ⟨_, next, present, _, rfl⟩ := round?_eq_some_iff.mp round
    rw [ih, enter_nextIndex present]
    omega

theorem Rounds.recites {now : T} {n : Nat} (rounds : Rounds now n p q) (h : Recites m p)
    (travels : p.Travels) (here : p.time = now) : Recites m q := by
  induction rounds with
  | zero => exact h
  | succ round _ ih =>
    obtain ⟨moving, next, present, started, rfl⟩ := round?_eq_some_iff.mp round
    have silent := pending_of_round travels.toPlacement moving present started
    obtain ⟨entered, same⟩ := enter_travels travels present (here ▸ started)
    exact ih (h.enter travels.playing silent present) entered (same.trans here)

theorem Recites.autoPause (h : Recites m p) (travels : p.Travels) (b : Boundary T) :
    Recites m (p.autoPause b) := by
  obtain ⟨⟨rfl, once, narrates, account⟩, voice⟩ := h
  have free : p.autoPaused = false := travels.free
  rw [free] at account
  rw [autoPause_eq p b travels.playing]
  exact ⟨⟨rfl, once, narrates, account.tell true rfl rfl rfl (by simp)⟩, voice⟩

/-- A walk that need not wait does not rest at the end of a boundary. -/
theorem ended_of_settled (h : p.Placed) (settled : round? p.time p = none)
    (silent : p.pending = none) {i : Nat} {b : Boundary T} (current : p.current = some i)
    (found : p.boundary? i = some b) (reached : b.stop ≤ p.time) : p.duration ≤ p.time := by
  cases next : p.boundary? (i + 1) with
  | none =>
    have last : b.stop = p.duration := Tiling.last_stop h.tiled found next
    rwa [← last]
  | some c =>
    have start : c.start = b.stop := Tiling.next_start h.tiled found next
    have moving : p.waitingAt? p.time = none := by simp [waitingAt?, silent]
    rw [← nextIndex_of_current current] at next
    exact absurd (start.trans_le reached) (not_started_of_settled settled moving next)

theorem resuming_recites (h : Accounts m p) (aligned : p.Aligned) (waiting : p.autoPaused = true)
    {s : SimulatedNarrator T} (narrator : p.narrator = some s) (awake : s.paused = false)
    (idle : s.current = none) : Recites m p.resuming := by
  have told : Account (m.steps p.nextIndex) m.captioned false
      (p.events ++ [.stateChanged .playing, .resumed]) :=
    h.account.tell false rfl rfl (by rw [waiting]; rfl) (by simp)
  rw [List.append_cons] at told
  rw [resuming_eq (aligned.waiting waiting).1]
  exact ⟨⟨h.score, h.once, h.narrates, told⟩, ⟨s, narrator, awake, by rw [idle]; rfl⟩⟩

variable [Scalar G]

theorem Recites.finish (h : Recites m p) (travels : p.Travels) (settled : round? p.time p = none)
    (moving : p.waitingAt? p.time = none) (ended : p.duration ≤ p.time) : Over m p.finish := by
  obtain ⟨⟨rfl, once, narrates, account⟩, ⟨s, narrator, awake, idle⟩⟩ := h
  have silent : p.pending = none := pending_of_passed travels.toPlacement moving
    fun i b _ found => (Tiling.bounds travels.tiled found).2.2.trans ended
  have free : p.autoPaused = false := travels.free
  have all : p.score.steps p.nextIndex = p.timeline.boundaries.map Boundary.step := by
    have short : p.timeline.boundaries.length ≤ p.nextIndex := by
      by_cases present : p.timeline.boundaries = []
      · simp [present]
      · rw [nextIndex_of_current
          (last_of_settled travels.toPlacement settled moving ended present)]
        omega
    exact congrArg (List.map Boundary.step) (List.take_of_length_le short)
  rw [all, free] at account
  rw [finish_once p travels.playing once]
  refine ⟨rfl, rfl, le_antisymm travels.inside.2 ended, ⟨s, narrator, ?_⟩, p.events, _, rfl,
    account, ?_⟩
  · simpa [silent] using idle
  · simp

/-- Where a walk comes to: the end, another boundary, a wait, or nowhere. -/
theorem sync_recites (h : Recites m p) (travels : p.Travels) :
    Over m (p.sync p.time) ∨ (Performs m (p.sync p.time) ∧
      (p.nextIndex < (p.sync p.time).nextIndex ∨
        (∃ b, p.waitingAt? p.time = some b ∧ p.sync p.time = p.autoPause b) ∨
        (round? p.time p = none ∧ p.time < p.duration ∧ p.sync p.time = p))) := by
  have aligned := sync_aligned travels
  obtain ⟨n, q, _, rounds, settled, result⟩ := p.sync_rounds p.time
  obtain ⟨walking, here⟩ := rounds.travels travels rfl
  have recites := rounds.recites h travels rfl
  -- A walk of at least one round has come to another boundary.
  have grown : p.nextIndex < q.nextIndex ∨ q = p := by
    have index := rounds.nextIndex
    cases rounds with
    | zero => exact .inr rfl
    | succ => exact .inl (by omega)
  rw [result] at aligned ⊢
  rw [← here] at settled aligned ⊢
  cases waits : q.waitingAt? q.time with
  | some b =>
    have concluded : conclude q.time q = q.autoPause b := by rw [conclude, waits]
    have waiting := autoPause_eq q b walking.playing
    rw [concluded] at aligned ⊢
    refine .inr ⟨⟨recites.autoPause walking b, aligned, .inr (by rw [waiting])⟩, ?_⟩
    refine grown.imp (fun more => ?_) ?_
    · rw [waiting]
      exact more
    · rintro rfl
      exact .inl ⟨b, waits, rfl⟩
  | none =>
    by_cases ended : q.duration ≤ q.time
    · have concluded : conclude q.time q = q.finish := by
        rw [conclude, waits]
        exact if_pos ended
      rw [concluded]
      exact .inl (recites.finish walking settled waits ended)
    · have concluded : conclude q.time q = q := by
        rw [conclude, waits]
        exact if_neg ended
      rw [concluded] at aligned ⊢
      refine .inr ⟨⟨recites, aligned, .inl walking.playing⟩, grown.imp_right ?_⟩
      rintro rfl
      exact .inr ⟨settled, not_le.mp ended, rfl⟩

/-! ### The beginning -/

theorem Ready.starting (h : Ready m p) : Ready m p.starting := by
  have aligned := starting_aligned h.aligned
  have free : p.autoPaused = false := congrArg Control.autoPaused h.fresh
  by_cases ended : p.duration ≤ p.time
  · obtain ⟨s, narrator, _, _⟩ := h.voice
    have account := h.account
    rw [nextIndex, show p.current = none from congrArg Control.current h.fresh, free] at account
    have voice : p.rewind.narrator = some s.cancel := congrArg (Option.map Narrator.cancel) narrator
    have fresh : p.control.away = {} := by
      rw [h.fresh]
      rfl
    rw [starting_of_ended ended] at aligned ⊢
    exact
      { score := h.score, once := h.once, narrates := h.narrates, account, aligned, fresh
        voice := ⟨s.cancel, voice, rfl, rfl⟩
        begins := Clock.seek_zero ((Tiling.nonneg h.aligned.tiled).trans_eq h.aligned.length.symm) }
  · rw [starting_of_going ended, free]
    exact h

/-- Playback begins in the first boundary. -/
theorem started_recites (h : Ready m p.starting) : Recites m p.started := by
  have state : p.starting.state = .stopped := congrArg Control.state h.fresh
  have away : p.awake.current = none := congrArg Control.current h.fresh
  have silent : p.awake.pending = none := congrArg Control.pending h.fresh
  have here : p.awake.time = 0 := h.begins
  have recites : Recites m p.awake := by
    obtain ⟨s, narrator, _, speaks⟩ := h.voice
    have voice : p.awake.narrator = some s.resume := congrArg (Option.map Narrator.resume) narrator
    exact
      { score := h.score, once := h.once, narrates := h.narrates
        account := h.account.tell _ rfl rfl (Nat.add_comm _ _) (by simp)
        voice := ⟨s.resume, voice, rfl, speaks⟩ }
  rw [started_eq (by simp [state]), away]
  dsimp only
  rw [here]
  by_cases present : p.awake.timeline.boundaries = []
  · have nowhere : p.awake.timeline.boundaryAt? 0 = none := by
      simp [Timeline.boundaryAt?, present]
    rw [nowhere]
    exact recites
  · have first : p.awake.nextIndex = 0 := by rw [nextIndex, away]
    obtain ⟨b, found⟩ : ∃ b, p.awake.boundary? p.awake.nextIndex = some b := by
      rw [first]
      exact ⟨_, List.getElem?_eq_getElem (List.length_pos_iff.mpr present)⟩
    have entered := recites.enter rfl silent found
    have tiled : p.awake.timeline.Tiled := h.aligned.tiled
    rw [Timeline.boundaryAt?_zero tiled present]
    rw [first] at entered
    exact entered

end Player

end Storyboard
