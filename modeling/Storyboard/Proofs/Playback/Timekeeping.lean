import Mathlib.Data.List.DropRight
import Storyboard.Proofs.Playback.Clock

/-!
# Clocks in use

Whatever is asked of a new clock, its cursor stays between zero and its length, which is the end of
the last cue that it holds, and its speed stays positive. Only a clock that plays moves its cursor
when time passes, and it does not matter in how many pieces the time passes (`clock_laws`).
-/

namespace Storyboard

namespace Clock

variable {T G : Type}

inductive Call (T G : Type) where
  | schedule (operation : Operation G) (start duration : T) (ease : Ease)
  | clear
  | play
  | pause
  | seek (time : T)
  | setSpeed (speed : T)
  | advance (elapsed : T)

namespace Call

def isClear : Call T G → Bool
  | clear => true
  | _ => false

/-- Whether the call leaves the cursor alone. -/
def isCalm : Call T G → Bool
  | schedule .. | play | pause | setSpeed _ => true
  | _ => false

end Call

section

variable [Scalar T]

def perform (c : Clock T G) : Call T G → Clock T G
  | .schedule operation start duration ease => c.schedule operation start duration ease
  | .clear => c.clear
  | .play => c.play
  | .pause => c.pause
  | .seek time => c.seek time
  | .setSpeed speed => c.setSpeed speed
  | .advance elapsed => c.advance elapsed

def run (c : Clock T G) (calls : List (Call T G)) : Clock T G := calls.foldl perform c

end

variable [ExactScalar T]

/-- The cue that a call schedules. A negative duration counts as zero. -/
def Call.cue? : Call T G → Option (Cue T G)
  | schedule operation start duration ease => some ⟨operation, start, max duration 0, ease⟩
  | _ => none

/-- What has been scheduled since the last time the clock was cleared. -/
def scheduled (calls : List (Call T G)) : List (Cue T G) :=
  (calls.rtakeWhile fun call => !call.isClear).filterMap Call.cue?

theorem scheduled_snoc (calls : List (Call T G)) (call : Call T G) :
    scheduled (calls ++ [call]) =
      if call.isClear then [] else scheduled calls ++ call.cue?.toList := by
  unfold scheduled
  rw [List.rtakeWhile_concat]
  cases call <;> simp [Call.isClear, Call.cue?]

/-- The clock holds the cues, and its cursor is somewhere along them. -/
structure Keeps (c : Clock T G) (cues : List (Cue T G)) : Prop where
  holds : c.cues = cues
  begun : 0 ≤ c.time
  within : c.time ≤ c.duration
  forward : 0 < c.speed
  length : IsGreatest {t | t = 0 ∨ ∃ cue ∈ cues, t = cue.stop} c.duration

/-- Of the calls to play and to pause, the last is one to play. -/
def Started (calls : List (Call T G)) : Prop :=
  ∃ before after, calls = before ++ .play :: after ∧ .pause ∉ after

omit [ExactScalar T] in
theorem started_snoc {calls : List (Call T G)} {call : Call T G} :
    Started (calls ++ [call]) ↔ call = .play ∨ call ≠ .pause ∧ Started calls := by
  constructor
  · rintro ⟨before, after, same, going⟩
    rcases List.eq_nil_or_concat after with rfl | ⟨rest, last, rfl⟩
    · exact .inl (List.singleton_inj.mp (List.append_inj_right' same rfl))
    · rw [List.concat_eq_append, ← List.cons_append, ← List.append_assoc] at same
      obtain ⟨rfl, single⟩ := List.append_inj' same rfl
      obtain rfl := List.singleton_inj.mp single
      rw [List.concat_eq_append, List.mem_append, not_or, List.mem_singleton] at going
      exact .inr ⟨Ne.symm going.2, before, rest, rfl, going.1⟩
  · rintro (rfl | ⟨other, before, after, rfl, going⟩)
    · exact ⟨calls, [], rfl, List.not_mem_nil⟩
    · refine ⟨before, after ++ [call], by simp, ?_⟩
      rw [List.mem_append, not_or, List.mem_singleton]
      exact ⟨going, Ne.symm other⟩

theorem perform_playing (c : Clock T G) (call : Call T G) :
    (c.perform call).playing = true ↔ call = .play ∨ call ≠ .pause ∧ c.playing = true := by
  cases call with
  | setSpeed speed =>
    have same : (c.setSpeed speed).playing = c.playing := by
      unfold setSpeed
      split <;> rfl
    simp [perform, same]
  | advance elapsed =>
    obtain ⟨time, same⟩ := c.advance_frame elapsed
    simp [perform, same]
  | _ => simp [perform, schedule, clear, play, pause, seek]

theorem idle_run_playing (calls : List (Call T G)) :
    (idle.run calls).playing = true ↔ Started calls := by
  induction calls using List.reverseRecOn with
  | nil => simp [run, idle, Started]
  | append_singleton calls call ih =>
    rw [run, List.foldl_concat, perform_playing, started_snoc]
    exact or_congr_right (and_congr_right fun _ => ih)

/-! ### Time that passes -/

theorem advance_of_playing {c : Clock T G} (going : c.playing = true) {elapsed : T}
    (positive : 0 < elapsed) :
    c.advance elapsed = { c with time := min (c.time + elapsed * c.speed) c.duration } := by
  obtain ⟨time, same⟩ := c.advance_frame elapsed
  have moved := advance_time going positive
  rw [same] at moved ⊢
  rw [← moved]

theorem advance_of_resting {c : Clock T G} {elapsed : T}
    (resting : c.playing = false ∨ elapsed ≤ 0) : c.advance elapsed = c := by
  unfold advance
  rw [ExactScalar.zero_eq, if_neg]
  rintro ⟨going, positive⟩
  rcases resting with still | none
  · exact absurd going (by simp [still])
  · exact absurd positive (not_lt.mpr none)

/-- It does not matter whether the end is reached in the first piece or in the second. -/
theorem min_add_min {time end' a b : T} (onward : 0 ≤ b) :
    min (min (time + a) end' + b) end' = min (time + (a + b)) end' := by
  rcases le_total (time + a) end' with before | after
  · rw [min_eq_left before, add_assoc]
  · rw [min_eq_right after, min_eq_right (le_add_of_nonneg_right onward), min_eq_right]
    linarith

theorem advance_add {c : Clock T G} (forward : 0 < c.speed) {a b : T} (first : 0 ≤ a)
    (second : 0 ≤ b) : (c.advance a).advance b = c.advance (a + b) := by
  cases going : c.playing with
  | false =>
    rw [advance_of_resting (.inl going), advance_of_resting (.inl going),
      advance_of_resting (.inl going)]
  | true =>
    rcases first.eq_or_lt with rfl | some
    · rw [advance_of_resting (.inr (le_refl 0)), zero_add]
    · rcases second.eq_or_lt with rfl | more
      · rw [advance_of_resting (.inr (le_refl 0)), add_zero]
      · have moved := advance_of_playing going some
        have onward : (c.advance a).playing = true := by rw [moved, going]
        rw [advance_of_playing onward more, moved, advance_of_playing going (add_pos some more),
          add_mul]
        exact congrArg (fun time => { c with time }) (min_add_min (mul_pos more forward).le)

/-! ### What a call keeps -/

namespace Keeps

variable {c : Clock T G} {cues : List (Cue T G)}

theorem idle : (idle : Clock T G).Keeps [] := by
  have speed : (Clock.idle : Clock T G).speed = 1 := ExactScalar.one_eq
  refine ⟨rfl, ExactScalar.zero_eq.ge, le_refl _, speed ▸ one_pos, .inl ExactScalar.zero_eq, ?_⟩
  rintro t (rfl | ⟨_, none, _⟩)
  · exact ExactScalar.zero_eq.ge
  · cases none

theorem schedule (h : c.Keeps cues) (operation : Operation G) (start duration : T) (ease : Ease) :
    (c.schedule operation start duration ease).Keeps
      (cues ++ [⟨operation, start, max duration 0, ease⟩]) := by
  have cue : Cue.of operation start duration ease = ⟨operation, start, max duration 0, ease⟩ := by
    simp [Cue.of]
  have length := c.schedule_duration operation start duration ease
  refine ⟨?_, h.begun, ?_, h.forward, ?_⟩
  · rw [← cue, ← h.holds]
    rfl
  · rw [length]
    exact h.within.trans (le_max_left _ _)
  · obtain ⟨attained, bounded⟩ := h.length
    rw [length]
    constructor
    · rcases max_choice c.duration (start + max duration 0) with old | new
      · rw [old]
        refine attained.imp_right ?_
        rintro ⟨cue, member, same⟩
        exact ⟨cue, List.mem_append_left _ member, same⟩
      · rw [new]
        exact .inr ⟨_, List.mem_append_right _ List.mem_cons_self, rfl⟩
    · rintro t (rfl | ⟨cue, member, rfl⟩)
      · exact (bounded (.inl rfl)).trans (le_max_left _ _)
      · rcases List.mem_append.mp member with old | new
        · exact (bounded (.inr ⟨cue, old, rfl⟩)).trans (le_max_left _ _)
        · obtain rfl := List.mem_singleton.mp new
          exact le_max_right _ _

theorem clear (h : c.Keeps cues) : c.clear.Keeps [] := by
  have start : (Clock.idle : Clock T G).Keeps [] := .idle
  exact ⟨rfl, start.begun, start.within, h.forward, start.length⟩

theorem seek (h : c.Keeps cues) (time : T) : (c.seek time).Keeps cues := by
  obtain ⟨begun, within⟩ := c.seek_mem time (h.begun.trans h.within)
  exact ⟨h.holds, begun, within, h.forward, h.length⟩

theorem setSpeed (h : c.Keeps cues) (speed : T) : (c.setSpeed speed).Keeps cues := by
  unfold Clock.setSpeed
  split
  · next valid =>
    have forward : 0 < speed := by simpa [isSpeed] using valid
    exact { h with forward }
  · exact h

theorem advance (h : c.Keeps cues) (elapsed : T) : (c.advance elapsed).Keeps cues := by
  obtain ⟨later, within⟩ := c.advance_mem elapsed h.forward h.within
  obtain ⟨time, same⟩ := c.advance_frame elapsed
  rw [same] at later within ⊢
  exact ⟨h.holds, h.begun.trans later, within, h.forward, h.length⟩

theorem perform (h : c.Keeps cues) (call : Call T G) :
    (c.perform call).Keeps (if call.isClear then [] else cues ++ call.cue?.toList) := by
  cases call with
  | schedule operation start duration ease => exact h.schedule operation start duration ease
  | clear => exact h.clear
  | play | pause =>
    exact (List.append_nil cues).symm ▸ ⟨h.holds, h.begun, h.within, h.forward, h.length⟩
  | seek time => exact (List.append_nil cues).symm ▸ h.seek time
  | setSpeed speed => exact (List.append_nil cues).symm ▸ h.setSpeed speed
  | advance elapsed => exact (List.append_nil cues).symm ▸ h.advance elapsed

end Keeps

theorem idle_run_keeps (calls : List (Call T G)) : (idle.run calls).Keeps (scheduled calls) := by
  induction calls using List.reverseRecOn with
  | nil => exact .idle
  | append_singleton calls call ih =>
    rw [scheduled_snoc, run, List.foldl_concat]
    exact ih.perform call

/-- What holds of a clock after any calls: the bounds of its cursor, its cues and its length, whether it
plays, and what a call, or time that passes, does to it next. -/
theorem clock_laws (calls : List (Call T G)) :
    let c := idle.run calls
    0 ≤ c.time ∧ c.time ≤ c.duration ∧ 0 < c.speed ∧ c.cues = scheduled calls ∧
    IsGreatest {t | t = 0 ∨ ∃ cue ∈ scheduled calls, t = cue.stop} c.duration ∧
    (∀ call : Call T G, call.isCalm = true → (c.perform call).time = c.time) ∧
    (c.playing = true ↔ Started calls) ∧
    (∀ elapsed, c.time ≤ (c.advance elapsed).time ∧ (c.playing = false → c.advance elapsed = c) ∧
      (c.playing = true → 0 < elapsed →
        (c.advance elapsed).time = min (c.time + elapsed * c.speed) c.duration)) ∧
    ∀ a b, 0 ≤ a → 0 ≤ b → (c.advance a).advance b = c.advance (a + b) := by
  intro c
  have keeps : c.Keeps (scheduled calls) := idle_run_keeps calls
  refine ⟨keeps.begun, keeps.within, keeps.forward, keeps.holds, keeps.length, ?_,
    idle_run_playing calls, ?_, ?_⟩
  · intro call calm
    cases call with
    | schedule operation start duration ease => rfl
    | play | pause => rfl
    | setSpeed speed =>
      show (c.setSpeed speed).time = c.time
      unfold setSpeed
      split <;> rfl
    | clear | seek | advance => cases calm
  · intro elapsed
    exact ⟨(c.advance_mem elapsed keeps.forward keeps.within).1,
      fun still => advance_of_resting (.inl still),
      fun going positive => advance_time going positive⟩
  · intro a b first second
    exact advance_add keeps.forward first second

end Clock
end Storyboard
