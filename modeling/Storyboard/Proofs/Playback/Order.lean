import Storyboard.Proofs.Playback.Gate
import Storyboard.Proofs.Playback.History

/-!
# The order of the steps

Between two jumps the boundaries are entered one after the other, and the timeline is finished only
from its last boundary and at its end.
-/

namespace Storyboard

open History

variable {T G σ : Type}

/-- The boundary entered last, if one was entered since the last jump. -/
def lastIndex (log : List (Mark T)) : Option Nat :=
  log.foldl
    (fun index m => match m with
      | .jumped => none
      | .told (.stepChanged _ i) => some i
      | _ => index)
    none

def Succeeds (before : List (Mark T)) (m : Mark T) : Prop :=
  ∀ step i j, m = .told (.stepChanged step i) → lastIndex before = some j → i = j + 1

namespace Acts

variable {course : Course} {log : List (Mark T)} {y : Control}

theorem current_eq (h : Acts course {} log y) : y.current = lastIndex log := by
  induction h with
  | nil => rfl
  | snoc _ last ih =>
    rw [lastIndex, List.foldl_append, ← lastIndex, ← ih]
    cases last with
    | stride stride =>
      cases stride with
      | finish _ once => simp [Mark.ofEvents, Mark.ofEvent, once]
      | again _ loops => simp [Mark.ofEvents, Mark.ofEvent, loops, Control.away]
      | _ => rfl
    | _ => rfl

theorem succeeds (h : Acts course {} log y) : Throughout Succeeds [] log := by
  induction h with
  | nil => trivial
  | @snoc x z log _ first last ih =>
    refine throughout_append.mpr ⟨ih, ?_⟩
    cases last with
    | stride stride =>
      cases stride with
      | enter step index next =>
        refine ⟨?_, trivial⟩
        rintro _ i j ⟨⟩ entered
        exact next j (first.current_eq.trans entered)
      | finish _ once => simp [Mark.ofEvents, Mark.ofEvent, once, Throughout, Succeeds]
      | again _ loops => simp [Mark.ofEvents, Mark.ofEvent, loops, Throughout, Succeeds]
      | _ => simp [Mark.ofEvents, Mark.ofEvent, Throughout, Succeeds]
    | _ => simp [Throughout, Succeeds]

end Acts

/-! ### Where the timeline is finished -/

namespace Player

variable [ExactScalar T] [Narrator T σ] {p q r : Player T G σ}

theorem last_of_settled (h : p.Placed) (settled : round? p.time p = none)
    (moving : p.waitingAt? p.time = none) (ended : p.duration ≤ p.time)
    (present : p.timeline.boundaries ≠ []) :
    p.current = some (p.timeline.boundaries.length - 1) := by
  have short : p.timeline.boundaries.length ≤ p.nextIndex := by
    by_contra more
    obtain ⟨b, found⟩ : ∃ b, p.boundary? p.nextIndex = some b :=
      ⟨_, List.getElem?_eq_getElem (Nat.not_le.mp more)⟩
    have bounds := Tiling.bounds h.tiled found
    exact not_started_of_settled settled moving found ((bounds.2.1.trans bounds.2.2).trans ended)
  have positive := List.length_pos_iff.mpr present
  cases current : p.current with
  | none =>
    rw [nextIndex, current] at short
    dsimp only at short
    omega
  | some i =>
    obtain ⟨b, found, _⟩ := h.started i current
    have inside := (List.getElem?_eq_some_iff.mp found).1
    rw [nextIndex_of_current current] at short
    congr 1
    omega

variable [Scalar G]

/-- A walk from `q` finishes at `r`, at the end of the timeline and in its last boundary. -/
structure FinishesAt (q r : Player T G σ) : Prop where
  rounds : ∃ n, Rounds q.time n q r
  result : q.sync q.time = r.finish
  ended : r.time = r.duration
  last : r.timeline.boundaries ≠ [] → r.current = some (r.timeline.boundaries.length - 1)

/-- The players from which a command walks over the boundaries. -/
inductive Walks [Narrow T G] (p : Player T G σ) : Command T → Player T G σ → Prop where
  | play (resting : p.state ≠ .playing) : Walks p .play p.started
  | resume (token : Nat) (awaited : p.pending = some token) (waiting : p.autoPaused = true) :
      Walks p (.narrationEnd token) p.resuming
  | hear (elapsed : T) (token : Nat) (narrator : Option σ)
      (delivered : p.delivery? (.tick elapsed) = some token) (awaited : p.pending = some token)
      (waiting : p.autoPaused = true) : Walks p (.tick elapsed) { p with narrator }.resuming
  | tick (elapsed : T) (playing : (p.advanceNarrator elapsed).state = .playing) :
      Walks p (.tick elapsed) (p.ticking elapsed)

/-- `q` comes out of `p` with the events, and wherever they tell that the timeline is finished, a
walk has just finished it. -/
structure Tells (walks : Player T G σ → Prop) (p : Player T G σ) (es : List (PlayerEvent T))
    (q : Player T G σ) : Prop where
  timeline : q.timeline = p.timeline
  events : q.events = p.events ++ es
  ends : ∀ before after, es = before ++ .finished :: after →
    ∃ q r, walks q ∧ q.FinishesAt r ∧ r.timeline = p.timeline ∧ r.events = p.events ++ before

namespace Tells

variable {walks : Player T G σ → Prop} {es fs : List (PlayerEvent T)}

theorem of_quiet (timeline : q.timeline = p.timeline) (events : q.events = p.events ++ es)
    (quiet : .finished ∉ es) : Tells walks p es q := by
  refine ⟨timeline, events, ?_⟩
  rintro before after rfl
  exact absurd (List.mem_append_right _ List.mem_cons_self) quiet

theorem of_answers [Narrow T G] {c : Command T} (answered : Answers p (p.opening c) es q)
    (quiet : Quiet es) : Tells walks p es q := by
  have told := Runs.events answered
  rw [opening_events] at told
  exact .of_quiet (Runs.timeline answered) told quiet.2

theorem trans (first : Tells walks p es q) (second : Tells walks q fs r) :
    Tells walks p (es ++ fs) r := by
  refine ⟨second.timeline.trans first.timeline, ?_, ?_⟩
  · rw [second.events, first.events, List.append_assoc]
  · intro before after split
    obtain ⟨mid, rfl, rfl⟩ | ⟨mid, rfl, rest⟩ := List.append_eq_append_iff.mp split
    · obtain ⟨q', r', walk, finishes, timeline, told⟩ := second.ends mid after rfl
      refine ⟨q', r', walk, finishes, timeline.trans first.timeline, ?_⟩
      rw [told, first.events, List.append_assoc]
    · cases mid with
      | nil =>
        obtain ⟨q', r', walk, finishes, timeline, told⟩ := second.ends [] after rest.symm
        refine ⟨q', r', walk, finishes, timeline.trans first.timeline, ?_⟩
        rw [told, first.events, List.append_nil, List.append_nil]
      | cons e mid =>
        obtain ⟨rfl, _⟩ := List.cons.inj rest
        exact first.ends before mid rfl

theorem render [Narrow T G] (h : Tells walks p es q) : Tells walks p es q.render := by
  obtain ⟨_, same⟩ := q.render_frame
  rw [same]
  exact ⟨h.timeline, h.events, h.ends⟩

end Tells

theorem sync_tells (walks : Player T G σ → Prop) (h : q.Travels) (walk : walks q) :
    ∃ es, Tells walks q es (q.sync q.time) := by
  obtain ⟨n, r, _, rounds, settled, same⟩ := q.sync_rounds q.time
  obtain ⟨travels, here⟩ := rounds.travels h rfl
  obtain ⟨_, es, walked, quiet⟩ := rounds.follows h.playing
  obtain ⟨fs, concluded, finishes⟩ := r.conclude_follows q.time travels.playing
  rw [← here] at settled finishes
  rw [same]
  refine ⟨es ++ fs, (walked.trans concluded).timeline, (walked.trans concluded).events, ?_⟩
  intro before after split
  have member : .finished ∈ es ++ fs := split ▸ List.mem_append_right _ List.mem_cons_self
  obtain ⟨finish, moving, ended, gs, rfl, once⟩ :=
    finishes ((List.mem_append.mp member).resolve_left quiet.2)
  -- The walk finishes once, so this is the end that is meant.
  obtain ⟨rfl, _, _⟩ := (List.append_cons_inj_of_notMem quiet.2 once).mp split
  rw [here] at finish
  refine ⟨q, r, walk, ⟨⟨n, rounds⟩, same.trans finish, ?_, ?_⟩, walked.timeline, walked.events⟩
  · exact le_antisymm travels.inside.2 ended
  · exact last_of_settled travels.toPlacement settled moving ended

variable [Narrow T G]

theorem onNarrationEnd_tells (walks : Player T G σ → Prop) (h : p.Aligned) (token : Nat)
    (walk : p.pending = some token → p.autoPaused = true → walks p.resuming) :
    ∃ es, Tells walks p es (p.onNarrationEnd token) := by
  obtain ⟨_, same⟩ | ⟨_, _, same⟩ | ⟨awaited, waiting, same⟩ := p.onNarrationEnd_cases token
  · rw [same]
    exact ⟨[], .of_quiet rfl (List.append_nil _).symm (by simp)⟩
  · rw [same]
    exact ⟨[], .of_quiet rfl (List.append_nil _).symm (by simp)⟩
  · have resumed : Tells walks p [.stateChanged .playing, .resumed] p.resuming := by
      rw [resuming_eq (h.waiting waiting).1]
      exact .of_quiet rfl (List.append_assoc _ _ _) (by simp)
    obtain ⟨es, walked⟩ := sync_tells walks (resuming_travels h waiting) (walk awaited waiting)
    rw [same]
    exact ⟨_, (resumed.trans walked).render⟩

theorem tick_tells (h : p.Aligned) (elapsed : T) :
    ∃ es, Tells (p.Walks (.tick elapsed)) p es (p.tick elapsed) := by
  obtain ⟨es, heard⟩ : ∃ es, Tells (p.Walks (.tick elapsed)) p es (p.advanceNarrator elapsed) := by
    obtain ⟨narrator, _, same⟩ | ⟨token, narrator, delivered, same⟩ :=
      p.advanceNarrator_cases elapsed
    · rw [same]
      exact ⟨[], .of_quiet rfl (List.append_nil _).symm (by simp)⟩
    · obtain ⟨es, taken⟩ := onNarrationEnd_tells (p := { p with narrator })
        (p.Walks (.tick elapsed)) h token (.hear elapsed token narrator delivered)
      rw [same]
      exact ⟨es, taken.timeline, taken.events, taken.ends⟩
  by_cases playing : (p.advanceNarrator elapsed).state = .playing
  · have ticking : Tells (p.Walks (.tick elapsed)) p es (p.ticking elapsed) :=
      ⟨heard.timeline, heard.events, heard.ends⟩
    obtain ⟨fs, walked⟩ := sync_tells (p.Walks (.tick elapsed))
      (ticking_travels (advanceNarrator_aligned h elapsed) playing) (.tick elapsed playing)
    rw [tick_of_playing playing]
    generalize (p.ticking elapsed).sync (p.ticking elapsed).time = q at walked
    have told : Tells (p.Walks (.tick elapsed)) q [.progress q.time q.duration]
        (q.emit (.progress q.time q.duration)) := .of_quiet rfl rfl (by simp)
    exact ⟨_, ((ticking.trans walked).trans told).render⟩
  · rw [tick_of_resting playing]
    exact ⟨es, heard⟩

theorem play_tells (h : p.Aligned) : ∃ es, Tells (p.Walks .play) p es p.play := by
  by_cases playing : p.state = .playing
  · rw [play_of_playing playing]
    exact ⟨[], .of_quiet rfl (List.append_nil _).symm (by simp)⟩
  · obtain ⟨state, free, called⟩ := p.starting_runs playing
    have resting : p.starting.state ≠ .playing := by rwa [state]
    obtain ⟨_, es, entered, quiet⟩ := started_follows resting
    have begun : Tells (p.Walks .play) p [] p.starting := .of_answers called.answers .nil
    have awake : Tells (p.Walks .play) p.starting [.stateChanged .playing] p.awake :=
      .of_quiet rfl rfl (by simp)
    have started : Tells (p.Walks .play) p.awake es p.started :=
      .of_quiet entered.timeline entered.events quiet.2
    obtain ⟨fs, walked⟩ := sync_tells (p.Walks .play)
      (started_travels (starting_aligned h) resting free) (.play playing)
    rw [play_of_resting playing]
    exact ⟨_, (((begun.trans awake).trans started).trans walked).render⟩

theorem perform_tells (h : p.Aligned) (c : Command T) :
    ∃ es, Tells (p.Walks c) p es (p.perform c).2 := by
  by_cases walks : c.walks = true
  · cases c with
    | play => exact play_tells h
    | tick elapsed => exact tick_tells h elapsed
    | narrationEnd token =>
      exact onNarrationEnd_tells (p.Walks (.narrationEnd token)) h token (.resume token)
    | _ => cases walks
  · obtain ⟨es, answered, quiet⟩ :=
      still_answers (Bool.eq_false_iff.mpr walks) h.toPlacement.placed
    exact ⟨es, .of_answers answered quiet⟩

/-! ### Runs -/

/-- Between two jumps the boundaries are entered in order, the last one entered is current and holds
the cursor, and the timeline is finished only at its end and in its last boundary. A walk is over
after at most as many rounds as boundaries are left. -/
theorem steps_in_order (d : Diagram T G) (o : CompileOptions G) (captions : List Caption)
    (settings : List (Setting T G σ)) (commands : List (Command T)) :
    let start := setUp captions (d.compile o) settings
    let p := start.run commands
    let boundaries := (d.compile o).boundaries
    (∀ before step i after, start.log commands = before ++ .told (.stepChanged step i) :: after →
      ∀ j, lastIndex before = some j → i = j + 1) ∧
    p.current = lastIndex (start.log commands) ∧
    (∀ i, p.current = some i → ∃ b, boundaries[i]? = some b ∧ b.start ≤ p.time ∧
      p.time ≤ b.stop) ∧
    (∀ c before after, p.emitted c = before ++ .finished :: after →
      ∃ q r n, p.Walks c q ∧ Rounds q.time n q r ∧ q.sync q.time = r.finish ∧
        r.events = p.events ++ before ∧ r.time = (d.compile o).duration ∧
        (boundaries ≠ [] → r.current = some (boundaries.length - 1))) ∧
    (∀ (q : Player T G σ) now, ∃ n r, n ≤ q.timeline.boundaries.length - q.nextIndex ∧
      Rounds now n q r ∧ round? now r = none ∧ q.sync now = r.conclude now) := by
  intro start p boundaries
  obtain ⟨timeline, aligned⟩ : p.timeline = d.compile o ∧ p.Aligned :=
    setUp_run_aligned d o captions settings commands
  have acts := setUp_acts captions (d.compile o) settings commands
  refine ⟨?_, acts.current_eq, ?_, ?_, fun q now => q.sync_rounds now⟩
  · intro before step i after split j entered
    have orderly := acts.succeeds
    rw [split] at orderly
    exact orderly.apply step i j rfl entered
  · intro i current
    obtain ⟨b, found, started⟩ := aligned.started i current
    have reached : p.time ≤ b.stop := aligned.reached i b current found
    rw [timeline] at found
    exact ⟨b, found, started, reached⟩
  · intro c before after split
    obtain ⟨es, told⟩ := perform_tells aligned c
    have emitted : p.emitted c = es := by rw [Player.emitted, told.events, List.drop_left]
    obtain ⟨q, r, walk, finishes, unchanged, events⟩ := told.ends before after (emitted ▸ split)
    obtain ⟨⟨n, rounds⟩, result, ended, last⟩ := finishes
    rw [duration, unchanged.trans timeline] at ended
    rw [unchanged.trans timeline] at last
    exact ⟨q, r, n, walk, rounds, result, events, ended, last⟩

end Player

end Storyboard
