import Storyboard.Proofs.Playback.Clock
import Storyboard.Proofs.Playback.Performance

/-!
# The place of the cursor

On exact times the cursor, the current boundary and the utterance that is waited for agree. While
the walk goes on the cursor may be beyond the current boundary (`Travel`); the conclusion of the
walk sets that right.
-/

namespace Storyboard

variable {T G σ : Type} [ExactScalar T]

/-- The cursor is on the timeline and not before the current boundary, and the utterance that is
pending is the one of the current boundary. -/
structure Placement (t : Timeline T G) (clock : Clock T G) (x : Control) : Prop where
  tiled : t.Tiled
  length : clock.duration = t.duration
  forward : 0 < clock.speed
  inside : 0 ≤ clock.time ∧ clock.time ≤ t.duration
  started : ∀ i, x.current = some i → ∃ b, t.boundaries[i]? = some b ∧ b.start ≤ clock.time
  speaking : x.pending.isSome = true → x.current.isSome = true ∧ x.spoken = x.current

/-- Between commands the cursor is in the current boundary, and at its end if the player waits. -/
structure Alignment (t : Timeline T G) (clock : Clock T G) (x : Control) : Prop extends
    Placement t clock x where
  going : clock.playing = true ↔ x.state = .playing
  reached : ∀ i b, x.current = some i → t.boundaries[i]? = some b → clock.time ≤ b.stop
  waiting : x.autoPaused = true → x.state = .paused ∧ x.pending.isSome = true ∧
    ∀ i b, x.current = some i → t.boundaries[i]? = some b → clock.time = b.stop

/-- While the walk goes on the player is playing. -/
structure Travel (t : Timeline T G) (clock : Clock T G) (x : Control) : Prop extends
    Placement t clock x where
  playing : x.state = .playing
  going : clock.playing = true
  free : x.autoPaused = false

variable {t : Timeline T G} {clock : Clock T G} {x : Control}

namespace Placement

theorem placed (h : Placement t clock x) (i : Nat) (current : x.current = some i) :
    i < t.boundaries.length := by
  obtain ⟨b, found, _⟩ := h.started i current
  exact (List.getElem?_eq_some_iff.mp found).1

/-- A cursor that is moved forward stays where the current boundary has started. -/
theorem later {time : T} (h : Placement t clock x) (later : clock.time ≤ time)
    (within : time ≤ t.duration) : Placement t { clock with time } x where
  tiled := h.tiled
  length := h.length
  forward := h.forward
  inside := ⟨h.inside.1.trans later, within⟩
  started i current := by
    obtain ⟨b, found, started⟩ := h.started i current
    exact ⟨b, found, started.trans later⟩
  speaking := h.speaking

theorem hold (h : Placement t clock x) (playing : Bool) :
    Placement t { clock with playing } x :=
  ⟨h.tiled, h.length, h.forward, h.inside, h.started, h.speaking⟩

theorem away (h : Placement t clock x) (time : T) : Placement t (clock.seek time) x.away where
  tiled := h.tiled
  length := h.length
  forward := h.forward
  inside := by
    have mem := clock.seek_mem time
    rw [h.length] at mem
    exact mem (Tiling.nonneg h.tiled)
  started i current := by cases current
  speaking pending := by cases pending

end Placement

theorem Alignment.free (h : Alignment t clock x) (playing : x.state = .playing) :
    x.autoPaused = false := by
  rw [Bool.eq_false_iff]
  intro waits
  have paused := (h.waiting waits).1
  rw [playing] at paused
  cases paused

/-! ### Players -/

namespace Player

def Placed (p : Player T G σ) : Prop := Placement p.timeline p.clock p.control

def Aligned (p : Player T G σ) : Prop := Alignment p.timeline p.clock p.control

def Travels (p : Player T G σ) : Prop := Travel p.timeline p.clock p.control

variable {p q : Player T G σ}

/-- The boundary that is looked up for the place of the cursor holds it. -/
theorem boundaryAt?_here (h : p.Placed) {i : Nat}
    (found : p.timeline.boundaryAt? p.time = some i) :
    ∃ b, p.boundary? i = some b ∧ b.start ≤ p.time ∧ p.time ≤ b.stop := by
  obtain ⟨b, present, started, going⟩ := Timeline.boundaryAt?_holds h.tiled found
  have here : p.timeline.cut p.time = p.time := Timeline.cut_of_mem h.inside.1 h.inside.2
  rw [here] at started going
  exact ⟨b, present, started, going⟩

theorem render_aligned [Scalar G] [Narrow T G] (h : p.Aligned) : p.render.Aligned := by
  obtain ⟨_, same⟩ := p.render_frame
  rw [same]
  exact h

/-- A player comes to rest where the cursor is not beyond the current boundary. -/
theorem setState_aligned (h : p.Placed) (reached : ∀ i b, p.current = some i →
      p.boundary? i = some b → p.time ≤ b.stop)
    {state : Transport} (resting : state ≠ .playing) (still : p.clock.playing = false)
    (free : p.autoPaused = false) : (p.setState state).Aligned := by
  obtain ⟨_, same⟩ := p.setState_frame state
  rw [same]
  refine ⟨⟨h.tiled, h.length, h.forward, h.inside, h.started, h.speaking⟩, ⟨?_, ?_⟩, reached, ?_⟩
  · intro going
    cases still.symm.trans going
  · intro playing
    exact absurd playing resting
  · intro waits
    cases free.symm.trans waits

/-- The end of a boundary is on the timeline. -/
theorem seek_stop (h : p.Placed) {i : Nat} {b : Boundary T} (found : p.boundary? i = some b) :
    (p.clock.seek b.stop).time = b.stop := by
  have bounds := Tiling.bounds h.tiled found
  exact Clock.seek_time (bounds.1.trans bounds.2.1) (bounds.2.2.trans_eq h.length.symm)

theorem autoPause_aligned (h : p.Travels) {b : Boundary T}
    (waits : p.waitingAt? p.time = some b) : (p.autoPause b).Aligned := by
  obtain ⟨pending, current, ended⟩ := waitingAt?_eq_some_iff.mp waits
  obtain ⟨i, current, found⟩ := Option.bind_eq_some_iff.mp current
  have bounds := Tiling.bounds h.tiled found
  have time := seek_stop h.toPlacement found
  have only : ∀ j c, p.current = some j → p.boundary? j = some c → b = c := by
    intro j c same present
    obtain rfl : i = j := Option.some.inj (current.symm.trans same)
    exact Option.some.inj (found.symm.trans present)
  rw [autoPause_eq p b h.playing]
  refine ⟨⟨h.tiled, h.length, h.forward, ?_, ?_, h.speaking⟩, ⟨?_, ?_⟩, ?_, ?_⟩
  · show 0 ≤ (p.clock.seek b.stop).time ∧ (p.clock.seek b.stop).time ≤ p.timeline.duration
    rw [time]
    exact ⟨bounds.1.trans bounds.2.1, bounds.2.2⟩
  · intro j same
    obtain rfl : i = j := Option.some.inj (current.symm.trans same)
    exact ⟨b, found, time.symm ▸ bounds.2.1⟩
  · intro going
    cases going
  · intro playing
    cases playing
  · intro j c same present
    exact time.trans_le (congrArg Boundary.stop (only j c same present)).le
  · intro _
    refine ⟨rfl, pending, fun j c same present => ?_⟩
    exact time.trans (congrArg Boundary.stop (only j c same present))

theorem resuming_travels (h : p.Aligned) (waiting : p.autoPaused = true) : p.resuming.Travels := by
  rw [resuming_eq (h.waiting waiting).1]
  refine ⟨⟨h.tiled, h.length, h.forward, h.inside, h.started, ?_⟩, rfl, rfl, rfl⟩
  intro pending
  cases pending

theorem setSpeed_aligned (h : p.Aligned) (speed : T) :
    { p with clock := p.clock.setSpeed speed }.Aligned := by
  unfold Clock.setSpeed
  split
  · rename_i able
    have forward : 0 < speed := by simpa [Clock.isSpeed] using able
    exact { h with forward := forward }
  · exact h

section

variable [Narrator T σ]

theorem speak_placed (h : p.Placed) {index : Nat} (current : p.current = some index) :
    (p.speak index).Placed := by
  obtain ⟨pending, lastToken, narrator, events, same⟩ := p.speak_frame index
  rw [same]
  exact ⟨h.tiled, h.length, h.forward, h.inside, h.started, fun _ =>
    ⟨Option.isSome_of_eq_some current, current.symm⟩⟩

theorem enter_placed (h : p.Placed) {index : Nat} {b : Boundary T}
    (present : p.boundary? index = some b) (started : b.start ≤ p.time)
    (silent : p.state = .playing ∨ p.pending = none) : (p.enter index).Placed := by
  have entered : ∀ i, some index = some i →
      ∃ b, p.timeline.boundaries[i]? = some b ∧ b.start ≤ p.clock.time := by
    rintro _ ⟨⟩
    exact ⟨b, present, started⟩
  rw [enter_of_some present]
  dsimp only
  split
  · obtain ⟨pending, lastToken, narrator, events, same⟩ := speak_frame { p with
      current := some index, events := p.events ++ [.stepChanged b.step index] } index
    rw [same]
    exact ⟨h.tiled, h.length, h.forward, h.inside, entered, fun _ => ⟨rfl, rfl⟩⟩
  · rename_i resting
    have none := silent.resolve_left resting
    refine ⟨h.tiled, h.length, h.forward, h.inside, entered, fun pending => ?_⟩
    have some : p.pending.isSome = true := pending
    rw [none] at some
    cases some

theorem enter_travels (h : p.Travels) {index : Nat} {b : Boundary T}
    (present : p.boundary? index = some b) (started : b.start ≤ p.time) :
    (p.enter index).Travels ∧ (p.enter index).time = p.time := by
  have placed := enter_placed h.toPlacement present started (.inl h.playing)
  obtain ⟨_, _, _, _, _, same⟩ := enter_frame present
  rw [same] at placed ⊢
  exact ⟨⟨placed, h.playing, h.going, h.free⟩, rfl⟩

theorem Rounds.travels {now : T} {n : Nat} (rounds : Rounds now n p q) (h : p.Travels)
    (here : p.time = now) : q.Travels ∧ q.time = now := by
  induction rounds with
  | zero => exact ⟨h, here⟩
  | succ round _ ih =>
    obtain ⟨_, next, present, started, rfl⟩ := round?_eq_some_iff.mp round
    obtain ⟨travels, same⟩ := enter_travels h present (here ▸ started)
    exact ih travels (same.trans here)

/-- If the walk is over and the player need not wait, then the cursor is in the current boundary:
the next one has not started, or the timeline is over. -/
theorem reached_of_settled (h : p.Placed) (settled : round? p.time p = none)
    (moving : p.waitingAt? p.time = none) {i : Nat} {b : Boundary T} (current : p.current = some i)
    (found : p.boundary? i = some b) : p.time ≤ b.stop := by
  cases next : p.boundary? (i + 1) with
  | none =>
    have last : b.stop = p.timeline.duration := Tiling.last_stop h.tiled found next
    rw [last]
    exact h.inside.2
  | some c =>
    have start : c.start = b.stop := Tiling.next_start h.tiled found next
    rw [← nextIndex_of_current current] at next
    rw [← start]
    exact (not_le.mp (not_started_of_settled settled moving next)).le

/-! ### Jumps -/

theorem leave_aligned (h : p.Aligned) (time : T) : (p.leave time).Aligned :=
  { h.away time with
    going := h.going
    reached := fun _ _ current => nomatch current
    waiting := fun waits => nomatch waits }

theorem enter?_aligned {index : Option Nat} (h : p.Aligned) (free : p.autoPaused = false)
    (silent : p.pending = none) (holds : ∀ i, index = some i →
      ∃ b, p.boundary? i = some b ∧ b.start ≤ p.time ∧ p.time ≤ b.stop) :
    (p.enter? index).Aligned := by
  cases index with
  | none => exact h
  | some i =>
    obtain ⟨b, present, started, going⟩ := holds i rfl
    have placed := enter_placed h.toPlacement present started (.inr silent)
    show (p.enter i).Aligned
    obtain ⟨_, _, _, _, _, same⟩ := enter_frame present
    rw [same] at placed ⊢
    refine ⟨placed, h.going, ?_, fun waits => nomatch free.symm.trans waits⟩
    rintro _ c ⟨⟩ found
    obtain rfl : b = c := Option.some.inj (present.symm.trans found)
    exact going

theorem pause_aligned (h : p.Aligned) : p.pause.Aligned := by
  rw [pause]
  split
  · refine { h with waiting := ?_ }
    intro waits
    cases waits
  · have held : (({ p with autoPaused := false, clock := p.clock.pause } :
        Player T G σ).mapNarrator Narrator.pause).Placed :=
      ⟨h.tiled, h.length, h.forward, h.inside, h.started, h.speaking⟩
    exact setState_aligned held h.reached (by decide) rfl rfl

variable [Scalar G]

theorem rewind_aligned (h : p.Aligned) : p.rewind.Aligned := leave_aligned h _

theorem finish_aligned (h : p.Travels) (reached : ∀ i b, p.current = some i →
    p.boundary? i = some b → p.time ≤ b.stop) : p.finish.Aligned := by
  cases loops : p.looping with
  | false =>
    rw [finish_once p h.playing loops]
    refine ⟨⟨h.tiled, h.length, h.forward, h.inside, h.started, h.speaking⟩, ⟨?_, ?_⟩, reached, ?_⟩
    · intro going
      cases going
    · intro playing
      cases playing
    · intro waits
      cases h.free.symm.trans waits
  | true =>
    rw [finish_again p loops]
    generalize back : ({ (p.emit .finished).rewind with
      clock := (p.emit .finished).rewind.clock.play } : Player T G σ) = q
    have aligned : q.Aligned := by
      subst back
      exact
        { (h.away _).hold true with
          going := ⟨fun _ => h.playing, fun _ => rfl⟩
          reached := fun _ _ current => nomatch current
          waiting := fun waits => nomatch waits }
    have timeline : q.timeline = p.timeline := by subst back; rfl
    have time : q.time = @OfNat.ofNat T 0 Scalar.instOfNat := by
      subst back
      have long : @OfNat.ofNat T 0 Scalar.instOfNat ≤ p.clock.duration := by
        rw [ExactScalar.zero_eq, h.length]
        exact Tiling.nonneg h.tiled
      exact Clock.seek_time ExactScalar.zero_eq.ge long
    refine enter?_aligned aligned (by subst back; rfl) (by subst back; rfl) fun i found => ?_
    rw [← timeline, ← time] at found
    exact boundaryAt?_here aligned.toPlacement found

theorem conclude_aligned (h : p.Travels) (settled : round? p.time p = none) :
    (p.conclude p.time).Aligned := by
  unfold conclude settle
  split
  · rename_i b waits
    exact autoPause_aligned h waits
  · rename_i moving
    have reached := fun i b => reached_of_settled h.toPlacement settled moving (i := i) (b := b)
    split
    · exact finish_aligned h reached
    · exact ⟨h.toPlacement, ⟨fun _ => h.playing, fun _ => h.going⟩, reached,
        fun waits => nomatch h.free.symm.trans waits⟩

theorem sync_aligned (h : p.Travels) : (p.sync p.time).Aligned := by
  obtain ⟨_, q, _, rounds, settled, same⟩ := p.sync_rounds p.time
  obtain ⟨travels, here⟩ := rounds.travels h rfl
  rw [same, ← here]
  exact conclude_aligned travels (here ▸ settled)

end

end Player

end Storyboard
