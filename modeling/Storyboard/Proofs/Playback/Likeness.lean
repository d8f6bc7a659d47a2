import Storyboard.Proofs.Playback.Course
import Storyboard.Proofs.Playback.Operation

/-!
# Players with different narrators

Two players that differ in nothing but their narrators are `Alike` if the narrators are related, and
they stay so whatever they are asked to do, as long as the narrators are in `Agreement`: related
narrators give the same answers and stay related.
-/

namespace Storyboard

variable {T G ρ σ : Type}

/-- What a narrator is waited for after its answer. -/
def waitedFor (token : Nat) : Except NarrationError Unit → Option Nat
  | .ok () => some token
  | .error _ => none

theorem eq_of_waitedFor {token k : Nat} {verdict : Except NarrationError Unit}
    (waits : waitedFor token verdict = some k) : token = k := by
  cases verdict with
  | ok => exact Option.some.inj waits
  | error => cases waits

/-- Narrators that are related give the same answers and stay related. The relation may depend on the
token that is waited for and on the last token given out. -/
class Agreement [Narrator T ρ] [Narrator T σ] (R : Option Nat → Nat → ρ → σ → Prop) : Prop where
  waive {pending : Option Nat} {last : Nat} {r : ρ} {s : σ} : R pending last r s → R none last r s
  speak {last : Nat} {r : ρ} {s : σ} (text : String) : R none last r s →
    ∃ verdict r' s', Narrator.speak r (last + 1) text = (verdict, r') ∧
      Narrator.speak s (last + 1) text = (verdict, s') ∧
      R (waitedFor (last + 1) verdict) (last + 1) r' s'
  pause {pending : Option Nat} {last : Nat} {r : ρ} {s : σ} : R pending last r s →
    R pending last (Narrator.pause r) (Narrator.pause s)
  resume {pending : Option Nat} {last : Nat} {r : ρ} {s : σ} : R pending last r s →
    R pending last (Narrator.resume r) (Narrator.resume s)
  cancel {pending : Option Nat} {last : Nat} {r : ρ} {s : σ} : R pending last r s →
    R pending last (Narrator.cancel r) (Narrator.cancel s)
  advance {pending : Option Nat} {last : Nat} {r : ρ} {s : σ} (elapsed : T) : R pending last r s →
    ∃ token r' s', Narrator.advance r elapsed = (token, r') ∧
      Narrator.advance s elapsed = (token, s') ∧ R pending last r' s'

namespace Player

/-- `p` is `q` with another narrator, related to that of `q`. -/
inductive Alike (R : Option Nat → Nat → ρ → σ → Prop) (q : Player T G ρ) : Player T G σ → Prop where
  | intro (narrator : Option σ)
      (voices : Option.Rel (R q.pending q.lastToken) q.narrator narrator) :
      Alike R q { q with narrator }

namespace Alike

theorem voices_cases {R : ρ → σ → Prop} {a : Option ρ} {b : Option σ} (voices : Option.Rel R a b) :
    (a = none ∧ b = none) ∨ ∃ r s, a = some r ∧ b = some s ∧ R r s := by
  cases voices with
  | some related => exact .inr ⟨_, _, rfl, rfl, related⟩
  | none => exact .inl ⟨rfl, rfl⟩

theorem voices_imp {R S : ρ → σ → Prop} {a : Option ρ} {b : Option σ} (voices : Option.Rel R a b)
    (weaker : ∀ r s, R r s → S r s) : Option.Rel S a b := by
  cases voices with
  | some related => exact .some (weaker _ _ related)
  | none => exact .none

theorem voices_map {R : ρ → σ → Prop} {a : Option ρ} {b : Option σ} {f : ρ → ρ} {g : σ → σ}
    (voices : Option.Rel R a b) (kept : ∀ r s, R r s → R (f r) (g s)) :
    Option.Rel R (a.map f) (b.map g) := by
  cases voices with
  | some related => exact .some (kept _ _ related)
  | none => exact .none

variable {R : Option Nat → Nat → ρ → σ → Prop} {q : Player T G ρ} {p : Player T G σ}

theorem ite {c : Prop} [Decidable c] {q' : Player T G ρ} {p' : Player T G σ} (yes : Alike R q p)
    (no : Alike R q' p') : Alike R (if c then q else q') (if c then p else p') := by
  split
  · exact yes
  · exact no

/-- Where the narrator of `q` holds the one of `p`, taking it out of `q` gives `p`. -/
theorem through {f : ρ → σ} (h : Alike R q p)
    (same : ∀ {pending last r s}, R pending last r s → f r = s) :
    { q with narrator := q.narrator.map f } = p := by
  obtain ⟨_, voices⟩ := h
  obtain ⟨attached, rfl⟩ | ⟨r, s, attached, rfl, related⟩ := voices_cases voices
  · rw [attached]
    rfl
  · rw [attached, Option.map_some, same related]

theorem voice {r : ρ} (h : Alike R q p) (attached : q.narrator = some r) :
    ∃ s, R q.pending q.lastToken r s := by
  obtain ⟨_, voices⟩ := h
  rw [attached] at voices
  cases voices with
  | some related => exact ⟨_, related⟩

theorem imp {S : Option Nat → Nat → ρ → σ → Prop} (h : Alike R q p)
    (weaker : ∀ r s, R q.pending q.lastToken r s → S q.pending q.lastToken r s) : Alike S q p := by
  obtain ⟨_, voices⟩ := h
  exact .intro _ (voices_imp voices weaker)

theorem pending (h : Alike R q p) : q.pending = p.pending := by
  obtain ⟨_, _⟩ := h
  rfl

theorem time (h : Alike R q p) : q.time = p.time := by
  obtain ⟨_, _⟩ := h
  rfl

theorem setState (h : Alike R q p) (state : Transport) :
    Alike R (q.setState state) (p.setState state) := by
  obtain ⟨_, voices⟩ := h
  exact ite (.intro _ voices) (.intro _ voices)

theorem emit (h : Alike R q p) (e : PlayerEvent T) : Alike R (q.emit e) (p.emit e) := by
  obtain ⟨_, voices⟩ := h
  exact .intro _ voices

theorem clock (h : Alike R q p) (f : Clock T G → Clock T G) :
    Alike R { q with clock := f q.clock } { p with clock := f p.clock } := by
  obtain ⟨_, voices⟩ := h
  exact .intro _ voices

theorem mapNarrator (h : Alike R q p) {f : ρ → ρ} {g : σ → σ}
    (kept : ∀ pending last r s, R pending last r s → R pending last (f r) (g s)) :
    Alike R (q.mapNarrator f) (p.mapNarrator g) := by
  obtain ⟨_, voices⟩ := h
  exact .intro _ (voices_map voices (kept _ _))

theorem autoPause [Scalar T] (h : Alike R q p) (b : Boundary T) :
    Alike R (q.autoPause b) (p.autoPause b) := by
  obtain ⟨_, voices⟩ := h
  have held : Alike R { q with clock := (q.clock.seek b.stop).pause, autoPaused := true } _ :=
    .intro _ voices
  exact (held.setState .paused).emit (.autoPaused b.step)

theorem display [Scalar G] (h : Alike R q p) (f : Frame T G) : Alike R (q.display f) (p.display f) := by
  obtain ⟨_, voices⟩ := h
  exact .intro _ voices

theorem render [Scalar T] [Scalar G] [Narrow T G] (h : Alike R q p) : Alike R q.render p.render := by
  obtain ⟨_, voices⟩ := h
  unfold Player.render
  dsimp only
  split
  · exact .intro _ voices
  · exact .intro _ voices

theorem progress [Scalar T] [Scalar G] (h : Alike R q p) : Alike R (q.emit (.progress q.time q.duration))
    (p.emit (.progress p.time p.duration)) := by
  obtain ⟨_, voices⟩ := h
  exact .intro _ voices

theorem waitingAt? [Scalar T] (h : Alike R q p) (now : T) : q.waitingAt? now = p.waitingAt? now := by
  obtain ⟨_, _⟩ := h
  rfl

theorem drainEvents (h : Alike R q p) : Alike R q.drainEvents.2 p.drainEvents.2 := by
  obtain ⟨_, voices⟩ := h
  exact .intro _ voices

variable [Narrator T ρ] [Narrator T σ] [Agreement R]

/-- What was waited for is waited for no longer. -/
theorem silent (h : Alike R q p) : Option.Rel (R none q.lastToken) q.narrator p.narrator := by
  obtain ⟨_, voices⟩ := h
  exact voices_imp voices fun _ _ => Agreement.waive (T := T)

theorem resuming (h : Alike R q p) : Alike R q.resuming p.resuming := by
  have silent := h.silent
  obtain ⟨_, _⟩ := h
  have going : Alike R { q with pending := none, autoPaused := false, clock := q.clock.play } _ :=
    .intro _ silent
  exact (going.setState .playing).emit .resumed

theorem speak (h : Alike R q p) (index : Nat) : Alike R (q.speak index) (p.speak index) := by
  have silent := h.silent
  obtain ⟨_, _⟩ := h
  unfold Player.speak
  refine ite (.intro _ silent) ?_
  simp only [boundary?]
  cases q.timeline.boundaries[index]? with
  | none => exact .intro _ silent
  | some b =>
    dsimp only
    cases q.captions.get? b.step with
    | none => exact .intro _ silent
    | some text =>
      obtain ⟨attached, rfl⟩ | ⟨r, s, attached, rfl, related⟩ := voices_cases silent
      · rw [attached] at silent ⊢
        exact .intro _ silent
      · obtain ⟨verdict, r', s', said, repeated, kept⟩ := Agreement.speak (T := T) text related
        simp only [attached, said, repeated]
        cases verdict with
        | ok => exact .intro _ (.some kept)
        | error => exact .intro _ (.some kept)

theorem enter (h : Alike R q p) (index : Nat) : Alike R (q.enter index) (p.enter index) := by
  obtain ⟨_, voices⟩ := h
  unfold Player.enter
  simp only [boundary?]
  cases q.timeline.boundaries[index]? with
  | none => exact .intro _ voices
  | some b =>
    have entered : Alike R ({ q with current := some index }.emit (.stepChanged b.step index)) _ :=
      .intro _ voices
    exact (entered.speak index).ite entered

theorem enter? (h : Alike R q p) (index : Option Nat) : Alike R (q.enter? index) (p.enter? index) := by
  cases index with
  | none => exact h
  | some index => exact h.enter index

theorem pause (h : Alike R q p) : Alike R q.pause p.pause := by
  obtain ⟨_, voices⟩ := h
  have freed : Alike R { q with autoPaused := false } _ := .intro _ voices
  have held : Alike R { q with autoPaused := false, clock := q.clock.pause } _ := .intro _ voices
  exact freed.ite ((held.mapNarrator fun _ _ _ _ => Agreement.pause).setState .paused)

theorem delivery? (h : Alike R q p) (c : Command T) : q.delivery? c = p.delivery? c := by
  cases c with
  | tick elapsed =>
    obtain ⟨_, voices⟩ := h
    unfold Player.delivery?
    obtain ⟨attached, rfl⟩ | ⟨r, s, attached, rfl, related⟩ := voices_cases voices
    · rw [attached]
      rfl
    · obtain ⟨token, r', s', heard, repeated, _⟩ := Agreement.advance elapsed related
      simp [attached, heard, repeated]
  | _ => rfl

variable [Scalar T]

theorem wake (h : Alike R q p) :
    Alike R
      (match q.current with
        | none => q.enter? (q.timeline.boundaryAt? q.time)
        | some index => if q.spoken = some index then q else q.speak index)
      (match p.current with
        | none => p.enter? (p.timeline.boundaryAt? p.time)
        | some index => if p.spoken = some index then p else p.speak index) := by
  have entered := h.enter? (q.timeline.boundaryAt? q.time)
  obtain ⟨_, voices⟩ := h
  have unchanged : Alike R q _ := .intro _ voices
  dsimp only
  split
  · exact entered
  · exact unchanged.ite (unchanged.speak _)

theorem leave (h : Alike R q p) (time : T) : Alike R (q.leave time) (p.leave time) := by
  have silent := h.silent
  obtain ⟨_, _⟩ := h
  exact .intro _ (voices_map silent fun _ _ => Agreement.cancel)

variable [Scalar G]

theorem rewind (h : Alike R q p) : Alike R q.rewind p.rewind := by
  have left := h.leave 0
  obtain ⟨_, _⟩ := h
  exact left.display q.timeline.initialFrame

theorem stop (h : Alike R q p) : Alike R q.stop p.stop := by
  have stopped := ((h.leave 0).clock Clock.pause).setState .stopped
  rw [stop_eq, stop_eq]
  obtain ⟨_, _⟩ := h
  exact stopped.display q.timeline.initialFrame

theorem finish (h : Alike R q p) : Alike R q.finish p.finish := by
  have told := h.emit .finished
  obtain ⟨_, _⟩ := h
  exact ite ((told.rewind.clock Clock.play).enter? (q.timeline.boundaryAt? 0))
    ((told.clock Clock.pause).setState .paused)

theorem settle (h : Alike R q p) (now : T) : Alike R (q.settle now) (p.settle now) := by
  obtain ⟨_, voices⟩ := h
  have unchanged : Alike R q _ := .intro _ voices
  exact unchanged.finish.ite unchanged

theorem walk (h : Alike R q p) (now : T) (rest : List (Boundary T × Nat)) :
    Alike R (Player.walk now rest q) (Player.walk now rest p) := by
  induction rest generalizing q p with
  | nil =>
    rw [Player.walk, Player.walk, h.waitingAt? now]
    cases p.waitingAt? now with
    | some b => exact h.autoPause b
    | none => exact h.settle now
  | cons entry rest ih =>
    obtain ⟨next, index⟩ := entry
    rw [Player.walk, Player.walk, h.waitingAt? now]
    cases p.waitingAt? now with
    | some b => exact h.autoPause b
    | none => exact (ih (h.enter index)).ite (h.settle now)

theorem sync (h : Alike R q p) (now : T) : Alike R (q.sync now) (p.sync now) := by
  have walked := h.walk now (q.timeline.boundaries.zipIdx.drop q.nextIndex)
  obtain ⟨_, _⟩ := h
  exact walked

theorem starting (h : Alike R q p) : Alike R q.starting p.starting := by
  have placed : Alike R (if q.duration ≤ q.time then q.rewind else q)
      (if p.duration ≤ p.time then p.rewind else p) := by
    have rewound := h.rewind
    obtain ⟨_, voices⟩ := h
    exact rewound.ite (.intro _ voices)
  unfold Player.starting
  -- What follows only needs that the two are alike, wherever they start from.
  generalize (if q.duration ≤ q.time then q.rewind else q) = q at placed ⊢
  generalize (if p.duration ≤ p.time then p.rewind else p) = p at placed ⊢
  have silent := placed.silent
  obtain ⟨_, voices⟩ := placed
  exact ite (.intro _ silent) (.intro _ voices)

theorem started (h : Alike R q p) : Alike R q.started p.started :=
  (((h.starting.clock Clock.play).setState .playing).mapNarrator fun _ _ _ _ =>
    Agreement.resume).wake

variable [Narrow T G]

/-! ### Commands -/

theorem play (h : Alike R q p) : Alike R q.play p.play := by
  have begun : Alike R (q.started.sync q.started.time).render
      (p.started.sync p.started.time).render := by
    rw [h.started.time]
    exact (h.started.sync p.started.time).render
  obtain ⟨_, voices⟩ := h
  exact ite (.intro _ voices) begun

theorem seekTo (h : Alike R q p) (time : T) (index : Option Nat) :
    Alike R (q.seekTo time index) (p.seekTo time index) := by
  have left := h.leave time
  rw [seekTo_eq, seekTo_eq]
  obtain ⟨_, _⟩ := h
  exact (((left.setState .paused).ite left).enter? index).render

theorem seek (h : Alike R q p) (time : T) : Alike R (q.seek time) (p.seek time) := by
  have sought := fun time => h.seekTo time (q.timeline.boundaryAt? time)
  obtain ⟨_, _⟩ := h
  exact sought _

theorem seekBoundary (h : Alike R q p) (index : Nat) :
    Alike R (q.seekBoundary index) (p.seekBoundary index) := by
  have sought := fun time => h.seekTo time (some index)
  obtain ⟨_, voices⟩ := h
  unfold Player.seekBoundary
  simp only [boundary?]
  cases q.timeline.boundaries[index]? with
  | none => exact .intro _ voices
  | some b => exact sought b.start

theorem onNarrationEnd (h : Alike R q p) (token : Nat) :
    Alike R (q.onNarrationEnd token) (p.onNarrationEnd token) := by
  have resumed : Alike R (q.resuming.sync q.resuming.time).render
      (p.resuming.sync p.resuming.time).render := by
    rw [h.resuming.time]
    exact (h.resuming.sync p.resuming.time).render
  have silent := h.silent
  obtain ⟨_, voices⟩ := h
  exact ite (.intro _ voices) (ite (.intro _ silent) resumed)

theorem advanceNarrator (h : Alike R q p) (elapsed : T) :
    Alike R (q.advanceNarrator elapsed) (p.advanceNarrator elapsed) := by
  obtain ⟨_, voices⟩ := h
  unfold Player.advanceNarrator
  obtain ⟨attached, rfl⟩ | ⟨r, s, attached, rfl, related⟩ := voices_cases voices
  · simp only [attached]
    exact .intro _ voices
  · obtain ⟨token, r', s', heard, repeated, kept⟩ := Agreement.advance elapsed related
    have advanced : Alike R { q with narrator := some r' } { q with narrator := some s' } :=
      .intro _ (.some kept)
    simp only [attached, heard, repeated]
    cases token with
    | none => exact advanced
    | some token => exact advanced.onNarrationEnd token

theorem tick (h : Alike R q p) (elapsed : T) : Alike R (q.tick elapsed) (p.tick elapsed) := by
  have heard := h.advanceNarrator elapsed
  unfold Player.tick
  generalize q.advanceNarrator elapsed = q at heard ⊢
  generalize p.advanceNarrator elapsed = p at heard ⊢
  have walked := (heard.clock fun clock => clock.advance elapsed).sync (q.clock.advance elapsed).time
  obtain ⟨_, voices⟩ := heard
  exact ite (.intro _ voices) walked.progress.render

theorem seekStep (h : Alike R q p) (step : Nat) : Alike R (q.seekStep step).2 (p.seekStep step).2 := by
  have sought := h.seekBoundary
  obtain ⟨_, voices⟩ := h
  unfold Player.seekStep
  dsimp only
  split
  · exact sought _
  · exact .intro _ voices

theorem nextStep (h : Alike R q p) : Alike R q.nextStep.2 p.nextStep.2 := by
  have sought := h.seekBoundary q.nextIndex
  obtain ⟨_, voices⟩ := h
  unfold Player.nextStep
  rw [apply_ite Prod.snd, apply_ite Prod.snd]
  exact ite (.intro _ voices) sought

theorem previousStep (h : Alike R q p) : Alike R q.previousStep.2 p.previousStep.2 := by
  have sought := h.seekBoundary
  obtain ⟨_, voices⟩ := h
  unfold Player.previousStep
  rw [apply_ite Prod.snd, apply_ite Prod.snd]
  exact ite (.intro _ voices) (sought _)

theorem perform (h : Alike R q p) (c : Command T) : Alike R (q.perform c).2 (p.perform c).2 := by
  cases c with
  | play => exact h.play
  | pause => exact h.pause
  | stop => exact h.stop
  | seek time => exact h.seek time
  | seekStep step => exact h.seekStep step
  | nextStep => exact h.nextStep
  | previousStep => exact h.previousStep
  | setSpeed speed =>
    rw [perform_setSpeed, perform_setSpeed]
    exact h.clock fun clock => clock.setSpeed speed
  | tick elapsed => exact h.tick elapsed
  | narrationEnd token => exact h.onNarrationEnd token

theorem run (h : Alike R q p) (commands : List (Command T)) :
    Alike R (q.run commands) (p.run commands) := by
  induction commands generalizing q p with
  | nil => exact h
  | cons c rest ih => exact ih (h.perform c)

/-! ### Logs -/

omit [Agreement R] in
theorem jumps (h : Alike R q p) (c : Command T) : q.jumps c = p.jumps c := by
  obtain ⟨_, _⟩ := h
  unfold Player.jumps
  cases c with
  | seekStep step =>
    dsimp only
    unfold Player.seekStep
    dsimp only
    split <;> rfl
  | nextStep =>
    dsimp only
    unfold Player.nextStep
    rw [apply_ite Prod.fst, apply_ite Prod.fst]
    rfl
  | previousStep =>
    dsimp only
    unfold Player.previousStep
    rw [apply_ite Prod.fst, apply_ite Prod.fst]
  | _ => rfl

theorem marks (h : Alike R q p) (c : Command T) : q.marks c = p.marks c := by
  have events {q : Player T G ρ} {p : Player T G σ} (h : Alike R q p) : q.events = p.events := by
    obtain ⟨_, _⟩ := h
    rfl
  unfold Player.marks opening emitted
  rw [h.delivery?, h.jumps, events h, events (h.perform c)]
  obtain ⟨_, _⟩ := h
  rfl

/-- Players that are alike put the same into their logs. -/
theorem log (h : Alike R q p) (commands : List (Command T)) : q.log commands = p.log commands := by
  induction commands generalizing q p with
  | nil => rfl
  | cons c rest ih => rw [Player.log, Player.log, h.marks, ih (h.perform c)]

end Alike

end Player

end Storyboard
