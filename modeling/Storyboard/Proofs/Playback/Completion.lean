import Storyboard.Proofs.Playback.History
import Storyboard.Proofs.Playback.Performance
import Storyboard.Proofs.Playback.Recorder

/-!
# Completions

A completion counts once at most, and only while its utterance is the newest one and nothing has
broken it off. Any other completion changes nothing.
-/

namespace Storyboard

open History

variable {T G ρ σ : Type}

/-- Whether an entry breaks the utterance of a token off, or completes it. -/
def Mark.ends (token : Nat) : Mark T → Bool
  | jumped | overridden => true
  | delivered other => other == token
  | called _ | told _ => false

/-- The utterance of a token has started, and nothing has ended it since. -/
def Speaking (token : Nat) (log : List (Mark T)) : Prop :=
  Since (fun m => ∃ step, m = .told (.narrationStarted step token)) (fun m => m.ends token = false)
    log

theorem Mark.ofEvents_ends (token : Nat) {es : List (PlayerEvent T)} {course : Course}
    {x y : Control} (h : Stride course x es y) (speaking : y.pending.isSome = true) :
    ∀ m ∈ Mark.ofEvents course.looping es, m.ends token = false := by
  cases h with
  | again => cases speaking
  | finish playing once => simp [ofEvents, ofEvent, ends, once]
  | _ => simp [ofEvents, ofEvent, ends]

namespace Acts

variable {course : Course} {log : List (Mark T)} {x y : Control} {token : Nat}

theorem pending_newest (h : Acts course x log y)
    (initial : x.pending = some token → token = x.lastToken) :
    y.pending = some token → token = y.lastToken := by
  induction h with
  | nil => exact initial
  | snoc _ last ih =>
    intro pending
    cases last with
    | stride stride =>
      cases stride with
      | mute | again => cases pending
      | refuse _ silent =>
        rw [silent] at pending
        cases pending
      | speak => exact (Option.some.inj pending).symm
      | _ => exact ih pending
    | override | leave | jump | complete | resume => cases pending
    | _ => exact ih pending

theorem pending_speaking (h : Acts course {} log y) :
    y.pending = some token → Speaking token log := by
  induction h with
  | nil => intro pending; cases pending
  | @snoc x z log _ _ last ih =>
    intro pending
    cases last with
    | stride stride =>
      have kept := Mark.ofEvents_ends token stride (by rw [pending]; rfl)
      cases stride with
      | mute | again => cases pending
      | refuse _ silent =>
        rw [silent] at pending
        cases pending
      | speak step =>
        have opened : Speaking token (log ++ [.told (.narrationStarted step (x.lastToken + 1))]) :=
          .opened log ⟨step, by rw [Option.some.inj pending]⟩
        exact opened
      | _ => exact (ih pending).append kept
    | override | leave | jump | complete | resume => cases pending
    | ignore other stale =>
      have different : other ≠ token := fun same => stale (same ▸ pending)
      exact (ih pending).append (by simp [Mark.ends, different])
    | _ => exact (ih pending).append (by simp [Mark.ends])

theorem lastToken_le (h : Acts course x log y) : x.lastToken ≤ y.lastToken := by
  induction h with
  | nil => exact Nat.le_refl _
  | snoc _ last ih =>
    cases last with
    | stride stride =>
      cases stride with
      | refuse | speak => exact Nat.le_succ_of_le ih
      | _ => exact ih
    | _ => exact ih

/-- What is pending was pending all along and not delivered, or it is new. -/
theorem pending_fresh (h : Acts course x log y) :
    y.pending = some token →
      (x.pending = some token ∧ ∀ m ∈ log, m.ends token = false) ∨ x.lastToken < token := by
  induction h with
  | nil => exact fun pending => .inl ⟨pending, by simp⟩
  | @snoc y z log marks first last ih =>
    have extend : y.pending = some token → (∀ m ∈ marks, m.ends token = false) →
        (x.pending = some token ∧ ∀ m ∈ log ++ marks, m.ends token = false) ∨
          x.lastToken < token := by
      intro pending kept
      refine (ih pending).imp_left fun older => ⟨older.1, ?_⟩
      intro m member
      exact (List.mem_append.mp member).elim (older.2 m) (kept m)
    intro pending
    cases last with
    | stride stride =>
      have kept := Mark.ofEvents_ends token stride (by rw [pending]; rfl)
      cases stride with
      | mute | again => cases pending
      | refuse _ silent =>
        rw [silent] at pending
        cases pending
      | speak =>
        have older := first.lastToken_le
        have new := Option.some.inj pending
        exact .inr (by omega)
      | _ => exact extend pending kept
    | override | leave | jump | complete | resume => cases pending
    | ignore other stale =>
      have different : other ≠ token := fun same => stale (same ▸ pending)
      exact extend pending (by simp [Mark.ends, different])
    | _ => exact extend pending (by simp [Mark.ends])

end Acts

namespace Player

/-- What is pending is the newest token, beside what is sound of every player. -/
structure Steady (p : Player T G σ) : Prop where
  sound : p.Sound
  newest : ∀ token, p.pending = some token → token = p.lastToken

theorem Alike.steady {R : Option Nat → Nat → ρ → σ → Prop} {q : Player T G ρ} {p : Player T G σ}
    (h : Alike R q p) (steady : p.Steady) : q.Steady := by
  obtain ⟨_, _⟩ := h
  exact ⟨⟨steady.sound.rests, steady.sound.placed⟩, steady.newest⟩

theorem Steady.runs {p q : Player T G σ} {log : List (Mark T)} (h : p.Steady) (run : Runs p log q) :
    q.Steady where
  sound := run.sound h.sound
  newest token := run.acts.pending_newest (h.newest token)

variable [Scalar T] [Scalar G] [Narrow T G] [Narrator T σ] {p : Player T G σ}

theorem completions_stale {queue : List Nat} (stale : ∀ token ∈ queue, p.pending ≠ some token) :
    queue.foldl onNarrationEnd p = p := by
  induction queue with
  | nil => rfl
  | cons token rest ih =>
    obtain ⟨first, others⟩ := List.forall_mem_cons.mp stale
    rw [List.foldl_cons, onNarrationEnd, if_pos first]
    exact ih others

namespace Steady

theorem perform (h : p.Steady) (c : Command T) : (p.perform c).2.Steady := by
  obtain ⟨_, performed, _⟩ := perform_answers h.sound c
  exact h.runs performed

/-- A completion that was taken in is not waited for afterwards. -/
theorem onNarrationEnd_pending (h : p.Steady) (token : Nat) :
    (p.onNarrationEnd token).pending ≠ some token := by
  intro still
  obtain ⟨es, taken, _⟩ := p.onNarrationEnd_answers token h.sound.rests
  rcases Acts.pending_fresh taken.acts still with ⟨_, kept⟩ | newer
  · have delivered := kept (.delivered token) (by simp)
    simp [Mark.ends] at delivered
  · by_cases pending : p.pending = some token
    -- A token that was given out since is newer than any that was pending.
    · have bound := h.newest token pending
      have last : p.control.lastToken = p.lastToken := rfl
      omega
    · rw [onNarrationEnd, if_pos pending] at still
      exact pending still

theorem completions_runs (h : p.Steady) (queue : List Nat) :
    ∃ log, Runs p log (queue.foldl onNarrationEnd p) := by
  induction queue generalizing p with
  | nil => exact ⟨[], .refl p⟩
  | cons token rest ih =>
    obtain ⟨_, taken, _⟩ := p.onNarrationEnd_answers token h.sound.rests
    obtain ⟨_, others⟩ := ih (h.runs taken)
    exact ⟨_, taken.trans others⟩

/-- A player that waits goes on with the completion that it waits for. -/
theorem onNarrationEnd_resumes (h : p.Steady) {token : Nat} (awaited : p.pending = some token)
    (waiting : p.autoPaused = true) :
    p.events ++ [.stateChanged .playing, .resumed] <+: (p.onNarrationEnd token).events := by
  obtain ⟨stale, _⟩ | ⟨_, free, _⟩ | ⟨_, _, same⟩ := p.onNarrationEnd_cases token
  · exact absurd awaited stale
  · rw [waiting] at free
    cases free
  · obtain ⟨playing, resumed⟩ := p.resuming_runs token awaited waiting (h.sound.rests waiting)
    obtain ⟨es, walked⟩ := p.resuming.sync_follows p.resuming.time playing
    obtain ⟨_, shown⟩ := (p.resuming.sync p.resuming.time).render_frame
    have events : p.resuming.events = p.events ++ [.stateChanged .playing, .resumed] :=
      resumed.events
    rw [same, shown]
    show _ <+: (p.resuming.sync p.resuming.time).events
    rw [walked.events, events]
    exact List.prefix_append _ es

/-- If what a player waits for is complete, it stops waiting as the completions are taken in, and goes
on with playback if it had stopped for it. -/
theorem completions_effective (h : p.Steady) {token : Nat} (awaited : p.pending = some token)
    {queue : List Nat} (queued : token ∈ queue) :
    (queue.foldl onNarrationEnd p).pending ≠ some token ∧
    (p.autoPaused = false → queue.foldl onNarrationEnd p = { p with pending := none }) ∧
    (p.autoPaused = true → p.events ++ [.stateChanged .playing, .resumed] <+:
      (queue.foldl onNarrationEnd p).events) := by
  obtain ⟨before, after, rfl, first⟩ := List.eq_append_cons_of_mem queued
  have inert : before.foldl onNarrationEnd p = p := by
    refine completions_stale fun other member same => first ?_
    rwa [Option.some.inj (awaited.symm.trans same)]
  rw [List.foldl_append, inert, List.foldl_cons]
  obtain ⟨_, taken, _⟩ := p.onNarrationEnd_answers token h.sound.rests
  obtain ⟨_, others⟩ := (h.runs taken).completions_runs after
  refine ⟨fun still => ?_, fun free => ?_, fun waiting => ?_⟩
  · rcases Acts.pending_fresh others.acts still with ⟨pending, _⟩ | newer
    · exact h.onNarrationEnd_pending token pending
    · have later : p.lastToken ≤ (p.onNarrationEnd token).lastToken := taken.acts.lastToken_le
      have newest := h.newest token awaited
      have last : (p.onNarrationEnd token).control.lastToken = (p.onNarrationEnd token).lastToken :=
        rfl
      omega
  · have cleared : p.onNarrationEnd token = { p with pending := none } := by
      rw [onNarrationEnd, if_neg (not_not_intro awaited), free]
      rfl
    rw [cleared]
    exact completions_stale (by simp)
  · rw [others.events]
    exact (h.onNarrationEnd_resumes awaited waiting).trans (List.prefix_append _ _)

end Steady

/-! ### Runs -/

variable (captions : List Caption) (timeline : Timeline T G) (settings : List (Setting T G σ))
  (commands : List (Command T))

theorem setUp_steady : ((setUp captions timeline settings).run commands).Steady where
  sound := setUp_sound captions timeline settings commands
  newest _ := (setUp_acts captions timeline settings commands).pending_newest (by simp)

theorem onNarrationEnd_stale (token : Nat) (narrator : Option σ) :
    let p := (setUp captions timeline settings).run commands
    { p with narrator }.onNarrationEnd token = { p with narrator } ∨
      (token = p.lastToken ∧ Speaking token ((setUp captions timeline settings).log commands)) := by
  intro p
  have acts := setUp_acts captions timeline settings commands
  by_cases pending : p.pending = some token
  · exact .inr ⟨acts.pending_newest (by simp) pending, acts.pending_speaking pending⟩
  · exact .inl (if_pos pending)

/-- The tokens that a narrator hears increase. What is pending is the newest token, and a
completion changes nothing unless its utterance is the newest one, has started, and was neither
completed nor broken off since. -/
theorem stale_completions_inert :
    let start := setUp captions timeline settings
    let p := start.run commands
    let recorded := (setUp captions timeline (settings.map Setting.recorded)).run commands
    (recorded.forget = p ∧
      ∀ r, recorded.narrator = some r → r.tokens.Pairwise (· < ·)) ∧
    (∀ token, p.pending = some token → token = p.lastToken) ∧
    (∀ token (narrator : Option σ), { p with narrator }.onNarrationEnd token = { p with narrator } ∨
      (token = p.lastToken ∧ Speaking token (start.log commands))) ∧
    (∀ token, (p.onNarrationEnd token).onNarrationEnd token = p.onNarrationEnd token) := by
  intro start p recorded
  have steady : p.Steady := setUp_steady captions timeline settings commands
  refine ⟨⟨?_, ?_⟩, steady.newest, ?_, ?_⟩
  · exact (run_records captions timeline settings commands).same
  · intro r found
    rw [(run_records captions timeline settings commands).tokens r found]
    exact List.pairwise_lt_range'
  · exact onNarrationEnd_stale captions timeline settings commands
  · intro token
    exact if_pos (steady.onNarrationEnd_pending token)

end Player

end Storyboard
