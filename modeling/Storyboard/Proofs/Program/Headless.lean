import Mathlib.Algebra.Order.Archimedean.Basic
import Mathlib.Logic.Function.Iterate
import Storyboard.CommandLine.Run
import Storyboard.Number.Float
import Storyboard.Proofs.Number.Exact
import Storyboard.Proofs.Playback.Operation
import Storyboard.Proofs.Program.Build

/-!
# How playback without a screen ends

Rounds of playback go on until a round takes in the end of the timeline or the time is up. The first
round in which one of the two comes about is the last one, and if there is none, no number of rounds is
enough (`playProgram_cases`). In exact numbers every tick takes time, so the time is up at last. Where
a tick takes no time, a player in its last step stays there forever.
-/

namespace Storyboard.CommandLine

namespace Headless

variable {T G σ : Type} [Scalar T] [Scalar G] [Narrow T G] [Narrator T σ]

/-! ### Rounds -/

/-- The player of the round after this one. -/
def next (tick : T) (p : Player T G σ) : Player T G σ := p.drainEvents.2.tick tick

/-- The time of the round after this one. -/
def later (tick elapsed : T) : T := elapsed + tick

/-- The lines of a round. -/
def lines (p : Player T G σ) : List String := p.events.filterMap (line? p.drainEvents.2)

/-- The ending of a round, if it is the last one. -/
def ending? (limit : T) (p : Player T G σ) (elapsed : T) : Option Ending :=
  if p.events.any isFinished then some .finished
  else if limit ≤ elapsed then some .outOfTime
  else none

/-- The lines of all rounds up to one. -/
def story (tick : T) : Nat → Player T G σ → List String
  | 0, p => lines p
  | n + 1, p => lines p ++ story tick n (next tick p)

variable {tick limit : T} {p : Player T G σ} {elapsed : T} {written : List String}

omit [Scalar T] in
theorem any_isFinished (es : List (PlayerEvent T)) : es.any isFinished = true ↔ .finished ∈ es := by
  rw [List.any_eq_true]
  constructor
  · rintro ⟨e, member, ends⟩
    cases e <;> simp [isFinished] at ends
    exact member
  · exact fun member => ⟨_, member, rfl⟩

section

omit [Scalar G] [Narrow T G] [Narrator T σ]

theorem ending?_finished : ending? limit p elapsed = some .finished ↔ .finished ∈ p.events := by
  rw [← any_isFinished, ending?]
  split
  · simp [*]
  · split <;> simp [*]

theorem ending?_outOfTime : ending? limit p elapsed = some .outOfTime ↔
    .finished ∉ p.events ∧ limit ≤ elapsed := by
  rw [← any_isFinished, ending?]
  split
  · simp [*]
  · split <;> simp [*]

theorem ending?_none : ending? limit p elapsed = none ↔
    .finished ∉ p.events ∧ ¬limit ≤ elapsed := by
  rw [← any_isFinished, ending?]
  split
  · simp [*]
  · split <;> simp [*]

end

theorem rounds_succ (n : Nat) : rounds tick limit (n + 1) p elapsed written =
    match ending? limit p elapsed with
    | some ending => some (written ++ lines p, ending)
    | none => rounds tick limit n (next tick p) (later tick elapsed) (written ++ lines p) := by
  rw [rounds, ending?]
  show (if p.events.any isFinished then _ else _) = _
  split
  · rfl
  · split <;> rfl

/-- The first round that has an ending is the last one. -/
theorem rounds_of_ending {last n : Nat} {ending : Ending} (written : List String)
    (before : ∀ m < last, ending? limit ((next tick)^[m] p) ((later tick)^[m] elapsed) = none)
    (ends : ending? limit ((next tick)^[last] p) ((later tick)^[last] elapsed) = some ending)
    (enough : last < n) :
    rounds tick limit n p elapsed written = some (written ++ story tick last p, ending) := by
  induction n generalizing last p elapsed written with
  | zero => exact absurd enough (Nat.not_lt_zero last)
  | succ n ih =>
    rw [rounds_succ]
    cases last with
    | zero =>
      rw [show ending? limit p elapsed = some ending from ends]
      rfl
    | succ last =>
      rw [show ending? limit p elapsed = none from before 0 (Nat.succ_pos last)]
      rw [story, ← List.append_assoc]
      exact ih _ (fun m early => before (m + 1) (Nat.succ_lt_succ early)) ends
        (Nat.lt_of_succ_lt_succ enough)

/-- As long as no round has an ending, there is no answer. -/
theorem rounds_of_going {n : Nat} (written : List String)
    (going : ∀ m < n, ending? limit ((next tick)^[m] p) ((later tick)^[m] elapsed) = none) :
    rounds tick limit n p elapsed written = none := by
  induction n generalizing p elapsed written with
  | zero => rfl
  | succ n ih =>
    rw [rounds_succ, show ending? limit p elapsed = none from going 0 (Nat.succ_pos n)]
    exact ih _ fun m early => going (m + 1) (Nat.succ_lt_succ early)

/-! ### The time of a round -/

section

variable {T : Type} [ExactScalar T]

theorem later_iterate (tick elapsed : T) (n : Nat) : (later tick)^[n] elapsed = elapsed + n * tick := by
  induction n with
  | zero => simp
  | succ n ih =>
    rw [Function.iterate_succ_apply', ih, later, Nat.cast_succ]
    ring

theorem tickLength_pos (rate : T) : 0 < tickLength rate := by
  unfold tickLength
  rw [ExactScalar.zero_eq, ExactScalar.one_eq]
  split
  · exact one_div_pos.mpr ‹_›
  · exact one_div_pos.mpr (Nat.cast_pos.mpr (Nat.succ_pos 29))

end

end Headless

/-! ### Programs -/

open Document (exists_ok_of)
open Headless

section

variable {T G : Type} [Scalar T] [Scalar G] [Narrow T G]

omit [Narrow T G] in
theorem headlessPlayer_error {s : Settings T G} {p : Program T G} {o : PlayOptions T} {e : Failure T}
    (refused : headlessPlayer s p o = .error e) :
    ∃ speed, o.speed = some speed ∧ Clock.isSpeed speed = false ∧ e = .player (.invalidSpeed speed) := by
  unfold headlessPlayer Player.setSpeed at refused
  dsimp only at refused
  split at refused
  · cases refused
  · rename_i speed given
    split at refused
    · cases refused
    · rename_i unfit
      cases refused
      exact ⟨speed, given, Bool.eq_false_iff.mpr unfit, rfl⟩

variable {s : Settings T G} {p : Program T G} {o : PlayOptions T}

theorem playProgram_error {e : Failure T} (refused : headlessPlayer s p o = .error e) (n : Nat) :
    playProgram s p o n = some { failure := some e } := by
  rw [playProgram, refused]

theorem playProgram_ok {player : Player T G (SimulatedNarrator T)}
    (ready : headlessPlayer s p o = .ok player) (n : Nat) :
    let tick := tickLength (s.playback.mergedWith p.diagram.options).tickRate
    playProgram s p o n = (rounds tick o.maxSeconds n player.play 0 []).map fun answer =>
      answer.2.outcome o.maxSeconds answer.1 := by
  intro tick
  rw [playProgram, ready]
  show Option.bind (rounds tick o.maxSeconds n player.play 0 []) _ = _
  cases rounds tick o.maxSeconds n player.play 0 [] <;> rfl

/-- A round is the last one of playback, which comes to an outcome. -/
structure EndsAt (tick limit : T) (player : Player T G (SimulatedNarrator T)) (last : Nat)
    (outcome : Outcome T) : Prop where
  /-- No round before has an ending. -/
  first : ∀ m < last, .finished ∉ ((next tick)^[m] player).events ∧ ¬limit ≤ (later tick)^[m] 0
  output : outcome.output = unlines (story tick last player)
  /-- There is a failure unless the end of the timeline was taken in. -/
  ending : (.finished ∈ ((next tick)^[last] player).events ∧ outcome.failure = none) ∨
    (.finished ∉ ((next tick)^[last] player).events ∧ limit ≤ (later tick)^[last] 0 ∧
      outcome.failure = some (.unfinished limit))

/-- Playback is refused a speed, or it is over with the first round that has an ending, or no round has
an ending and it never is. -/
theorem playProgram_cases (s : Settings T G) (p : Program T G) (o : PlayOptions T) :
    (∃ speed, o.speed = some speed ∧ Clock.isSpeed speed = false ∧
      ∀ n, playProgram s p o n = some { failure := some (.player (.invalidSpeed speed)) }) ∨
    ∃ player, headlessPlayer s p o = .ok player ∧
      let tick := tickLength (s.playback.mergedWith p.diagram.options).tickRate
      (∃ last outcome, EndsAt tick o.maxSeconds player.play last outcome ∧
        (∀ n ≤ last, playProgram s p o n = none) ∧
        ∀ n, last < n → playProgram s p o n = some outcome) ∨
      ∀ n, .finished ∉ ((next tick)^[n] player.play).events ∧
        ¬o.maxSeconds ≤ (later tick)^[n] 0 ∧ playProgram s p o n = none := by
  cases ready : headlessPlayer s p o with
  | error e =>
    obtain ⟨speed, given, unfit, rfl⟩ := headlessPlayer_error ready
    exact .inl ⟨speed, given, unfit, playProgram_error ready⟩
  | ok player =>
    refine .inr ⟨player, rfl, ?_⟩
    intro tick
    have none_of_going {n : Nat} (going : ∀ m < n, ending? o.maxSeconds
        ((next tick)^[m] player.play) ((later tick)^[m] 0) = none) : playProgram s p o n = none := by
      rw [playProgram_ok ready, rounds_of_going [] going]
      rfl
    by_cases ends : ∃ n, ending? o.maxSeconds ((next tick)^[n] player.play) ((later tick)^[n] 0) ≠ none
    · have before (m : Nat) (early : m < Nat.find ends) := not_not.mp (Nat.find_min ends early)
      obtain ⟨ending, last⟩ := Option.ne_none_iff_exists'.mp (Nat.find_spec ends)
      refine .inl ⟨Nat.find ends, ending.outcome o.maxSeconds (story tick (Nat.find ends) player.play),
        ⟨fun m early => ending?_none.mp (before m early), ?_, ?_⟩, fun n few => ?_, fun n enough => ?_⟩
      · cases ending <;> rfl
      · cases ending with
        | finished => exact .inl ⟨ending?_finished.mp last, rfl⟩
        | outOfTime =>
          obtain ⟨unfinished, late⟩ := ending?_outOfTime.mp last
          exact .inr ⟨unfinished, late, rfl⟩
      · exact none_of_going fun m early => before m (early.trans_le few)
      · rw [playProgram_ok ready, rounds_of_ending [] before last enough]
        rfl
    · have going (n : Nat) := not_not.mp (not_exists.mp ends n)
      refine .inr fun n => ?_
      obtain ⟨unfinished, early⟩ := ending?_none.mp (going n)
      exact ⟨unfinished, early, none_of_going fun m _ => going m⟩

end

/-- In exact numbers playback always ends. It is refused a speed, or it comes to its last round: one that
takes in the end of the timeline, or else one at which the time is up. There is no failure exactly if
the end of the timeline was taken in. -/
theorem playProgram_ends {T G : Type} [ExactScalar T] [Archimedean T] [Scalar G] [Narrow T G]
    (s : Settings T G) (p : Program T G) (o : PlayOptions T) :
    (∃ speed, o.speed = some speed ∧ speed ≤ 0 ∧
      ∀ n, playProgram s p o n = some { failure := some (.player (.invalidSpeed speed)) }) ∨
    ∃ player last outcome, headlessPlayer s p o = .ok player ∧
      (∀ n, last < n → playProgram s p o n = some outcome) ∧
      let tick := tickLength (s.playback.mergedWith p.diagram.options).tickRate
      let round m := (next tick)^[m] player.play
      (∀ m < last, .finished ∉ (round m).events ∧ m * tick < o.maxSeconds) ∧
      outcome.output = unlines (story tick last player.play) ∧
      ((.finished ∈ (round last).events ∧ outcome.failure = none) ∨
        (.finished ∉ (round last).events ∧ o.maxSeconds ≤ last * tick ∧
          outcome.failure = some (.unfinished o.maxSeconds))) := by
  have time (tick : T) (m : Nat) : (later tick)^[m] (@OfNat.ofNat T 0 Scalar.instOfNat) = m * tick := by
    rw [later_iterate, ExactScalar.zero_eq, zero_add]
  rcases playProgram_cases s p o with ⟨speed, given, unfit, refused⟩ |
    ⟨player, ready, ⟨last, outcome, ends, _, comes⟩ | going⟩
  · exact .inl ⟨speed, given, by simpa [Clock.isSpeed] using unfit, refused⟩
  · have first := ends.first
    have ending := ends.ending
    simp only [time, not_le] at first ending
    exact .inr ⟨player, last, outcome, ready, comes, first, ends.output, ending⟩
  · -- Every tick takes time, so the time is up at last.
    obtain ⟨n, late⟩ := Archimedean.arch o.maxSeconds
      (tickLength_pos (s.playback.mergedWith p.diagram.options).tickRate)
    rw [nsmul_eq_mul, ← time] at late
    exact absurd late (going n).2.1

/-- A document of one second is played at one tick a second. -/
theorem playProgram_ends_in_time : ∃ (program : Program Rat Rat) (outcome : Outcome Rat),
    Program.build .standard "flowchart LR\nA[x]\n@config\nfps: 1\n@end
@animation\nstep 1: camera fitAll\n@end" = .ok program ∧
    (∀ n, 1 < n → playProgram .standard program { maxSeconds := 600 } n = some outcome) ∧
    outcome.output = "       0s  step 1\n       1s  finished\n" ∧ outcome.failure = none := by
  let settings : Settings Rat Rat := .standard
  obtain ⟨options, themed, facts⟩ := exists_ok_of (x := settings.theme.compileOptions Rat)
    (p := fun o => (Document.parse "flowchart LR\nA[x]\n@config\nfps: 1\n@end
@animation\nstep 1: camera fitAll\n@end").toOption.any fun parsed =>
      let program := Program.draft settings o parsed
      let tick := tickLength (settings.playback.mergedWith program.diagram.options).tickRate
      program.timeline.cues.Pairwise (fun a b => decide (a.start ≤ b.start) = true) ∧
        (headlessPlayer settings program { maxSeconds := 600 }).toOption.any fun player =>
          player.play.events.any isFinished = false ∧
            (next tick player.play).events.any isFinished = true ∧
            unlines (story tick 1 player.play) = "       0s  step 1\n       1s  finished\n")
    (by decide +kernel)
  obtain ⟨parsed, ok, facts⟩ := exists_ok_of facts
  obtain ⟨ordered, facts⟩ := of_decide_eq_true facts
  obtain ⟨player, ready, facts⟩ := exists_ok_of facts
  obtain ⟨going, ends, told⟩ := of_decide_eq_true facts
  rcases playProgram_ends settings (Program.draft settings options parsed) { maxSeconds := 600 } with
    ⟨_, given, _⟩ | ⟨player', last, outcome, ready', comes, first, output, ending⟩
  · cases given
  · obtain rfl := Except.ok.inj (ready.symm.trans ready')
    have unfinished : .finished ∉ player.play.events := fun finished => by
      simp [(any_isFinished _).mpr finished] at going
    have finished := (any_isFinished _).mp ends
    -- The end is taken in by the round after the first.
    obtain rfl : last = 1 := by
      rcases last with _ | _ | n
      · rcases ending with ⟨early, _⟩ | ⟨_, late, _⟩
        · exact absurd early unfinished
        · norm_num at late
      · rfl
      · exact absurd finished (first 1 (by omega)).1
    rcases ending with ⟨_, fine⟩ | ⟨missed, _⟩
    · exact ⟨_, outcome, Program.build_eq_draft settings _ ok themed ordered, comes,
        output.trans told, fine⟩
    · exact absurd finished missed

/-! ### Ticks that take no time -/

section

variable {T G : Type} [Scalar T]

/-- The player is in the last step, before its end, and nothing is or will be said. -/
structure Stalled (p : Player T G (SimulatedNarrator T)) : Prop where
  playing : p.state = .playing
  idle : p.pending = none
  last : p.timeline.boundaries.length ≤ p.nextIndex
  going : ¬p.duration ≤ p.time
  silent : (p.narrator.bind SimulatedNarrator.current).isNone = true

instance (p : Player T G (SimulatedNarrator T)) : Decidable (Stalled p) :=
  decidable_of_iff (p.state = .playing ∧ p.pending = none ∧
      p.timeline.boundaries.length ≤ p.nextIndex ∧ ¬p.duration ≤ p.time ∧
      (p.narrator.bind SimulatedNarrator.current).isNone = true)
    ⟨fun ⟨playing, idle, last, going, silent⟩ => ⟨playing, idle, last, going, silent⟩,
      fun h => ⟨h.playing, h.idle, h.last, h.going, h.silent⟩⟩

variable [Scalar G] [Narrow T G] {p : Player T G (SimulatedNarrator T)} {tick : T}

theorem Stalled.tick_eq (h : Stalled p) (still : ¬0 < tick) : ∃ screen,
    p.tick tick = { p with screen, events := p.events ++ [.progress p.time p.duration] } := by
  have heard : p.advanceNarrator tick = p := by
    unfold Player.advanceNarrator
    cases attached : p.narrator with
    | none => rfl
    | some s =>
      have idle : s.current = none := by simpa [attached] using h.silent
      have mute : Narrator.advance s tick = (none, s) := by
        simp [Narrator.advance, SimulatedNarrator.advance, idle]
      simp only [mute]
      rw [← attached]
  have clock : p.ticking tick = p := by
    unfold Player.ticking Clock.advance
    rw [heard, if_neg fun moves => still moves.2]
  have settled : p.sync p.time = p := by
    have rest : p.timeline.boundaries.zipIdx.drop p.nextIndex = [] :=
      List.drop_eq_nil_of_le (by simpa using h.last)
    have moving : p.waitingAt? p.time = none := by simp [Player.waitingAt?, h.idle]
    rw [Player.sync, rest, Player.walk, moving]
    exact if_neg h.going
  obtain ⟨screen, shown⟩ := (p.emit (.progress p.time p.duration)).render_frame
  rw [Player.tick_of_playing (heard.symm ▸ h.playing), clock]
  dsimp only
  rw [settled]
  exact ⟨screen, shown⟩

theorem Stalled.next (h : Stalled p) (still : ¬0 < tick) :
    Stalled (next tick p) ∧ .finished ∉ (next tick p).events := by
  have drained : Stalled p.drainEvents.2 := ⟨h.playing, h.idle, h.last, h.going, h.silent⟩
  obtain ⟨screen, same⟩ := drained.tick_eq still
  rw [Headless.next, same]
  exact ⟨⟨h.playing, h.idle, h.last, h.going, h.silent⟩, by simp [Player.drainEvents]⟩

/-- A stalled player stays where it is for all rounds, if ticks take no time. -/
theorem Stalled.iterate (h : Stalled p) (unfinished : .finished ∉ p.events) (still : ¬0 < tick)
    (n : Nat) : Stalled ((Headless.next tick)^[n] p) ∧
      .finished ∉ ((Headless.next tick)^[n] p).events := by
  induction n with
  | zero => exact ⟨h, unfinished⟩
  | succ n ih =>
    rw [Function.iterate_succ_apply']
    exact ih.1.next still

/-- A stalled player is played forever, if ticks take no time and the time is not up from the first. -/
theorem playProgram_of_stalled {s : Settings T G} {program : Program T G} {o : PlayOptions T}
    (ready : headlessPlayer s program o = .ok p) (stalled : Stalled p.play)
    (unfinished : .finished ∉ p.play.events) (early : ¬o.maxSeconds ≤ 0) :
    let tick := tickLength (s.playback.mergedWith program.diagram.options).tickRate
    ¬0 < tick → later tick 0 = 0 → ∀ n, playProgram s program o n = none := by
  intro tick still stays n
  rw [playProgram_ok ready, Option.map_eq_none_iff]
  refine rounds_of_going [] fun m _ => ending?_none.mpr ⟨(stalled.iterate unfinished still m).2, ?_⟩
  rwa [Function.iterate_fixed stays]

end

/-- With endlessly many ticks in a second, playback neither comes to its end nor runs out of time. -/
theorem playProgram_endless : ∃ (settings : Settings Float Float32) (program : Program Float Float32),
    readSettings (.ofFiles [("config.toml", "[playback]\ntick_rate = inf\n")]) "config.toml" =
      (.ok settings : Except (Failure Float) _) ∧
    Program.build settings "flowchart LR\nA[x]\n@animation\nstep 1: camera fitAll\n@end" =
      .ok program ∧
    ∀ n, playProgram settings program { maxSeconds := 600 } n = none := by
  obtain ⟨settings, read, facts⟩ := exists_ok_of (α := Settings Float Float32)
    (x := readSettings (T := Float)
      (.ofFiles [("config.toml", "[playback]\ntick_rate = inf\n")]) "config.toml")
    (p := fun s =>
      (s.theme.compileOptions Float).toOption.any fun o =>
      (Document.parse
        "flowchart LR\nA[x]\n@animation\nstep 1: camera fitAll\n@end").toOption.any fun parsed =>
      let program := Program.draft s o parsed
      let tick := tickLength (s.playback.mergedWith program.diagram.options).tickRate
      program.timeline.cues.Pairwise (fun a b => decide (a.start ≤ b.start) = true) ∧
        ¬0 < tick ∧ later tick (Scalar.ofNat 0) = Scalar.ofNat 0 ∧
        (headlessPlayer s program { maxSeconds := 600 }).toOption.any fun player =>
          Stalled player.play ∧ player.play.events.any isFinished = false)
    (by decide +kernel)
  obtain ⟨options, themed, facts⟩ := exists_ok_of facts
  obtain ⟨parsed, ok, facts⟩ := exists_ok_of facts
  obtain ⟨ordered, still, stays, facts⟩ := of_decide_eq_true facts
  obtain ⟨player, ready, facts⟩ := exists_ok_of facts
  obtain ⟨stalled, unfinished⟩ := of_decide_eq_true facts
  exact ⟨settings, _, read, Program.build_eq_draft settings _ ok themed ordered,
    playProgram_of_stalled ready stalled
      (fun finished => by simp [(any_isFinished _).mpr finished] at unfinished) (by decide +kernel)
      still stays⟩

end Storyboard.CommandLine
