import Mathlib.Algebra.BigOperators.Intervals
import Storyboard.Playback.SimulatedNarrator
import Storyboard.Proofs.Number.Exact

/-!
# Simulated speech

Which advance of a simulated narrator completes which utterance is settled by the calls alone: it is
the first one made while the narrator is not held at which the time heard since the utterance was
begun makes up its length, unless another utterance or a cancellation comes first
(`speech_completes`). `Lasts` says this of an utterance that is not yet complete; it goes on from
call to call just as the narrator's current utterance does.
-/

namespace Storyboard

namespace SimulatedNarrator

variable {T : Type}

inductive Call (T : Type) where
  | speak (token : Nat) (text : String)
  | pause
  | resume
  | cancel
  | advance (elapsed : T)

namespace Call

/-- Whether the call ends an utterance that is not complete. -/
def interrupts : Call T → Bool
  | speak .. | cancel => true
  | _ => false

def isPause : Call T → Bool
  | pause => true
  | _ => false

def isAdvance : Call T → Bool
  | advance _ => true
  | _ => false

end Call

variable {calls : List (Call T)} {i j k token : Nat} {text : String} {c : Call T}

/-- Whether the narrator is held at call `k`: of the calls before it that are not advances, the last
is a pause. -/
def held (calls : List (Call T)) (k : Nat) : Bool :=
  ((calls.take k).filter fun c => !c.isAdvance).getLast?.any Call.isPause

/-- Call `k` is an advance at which the narrator is not held. -/
def Counts (calls : List (Call T)) (k : Nat) : Prop :=
  held calls k = false ∧ ∃ elapsed, calls[k]? = some (.advance elapsed)

theorem held_succ (here : calls[k]? = some c) :
    held calls (k + 1) = if c.isAdvance then held calls k else c.isPause := by
  rw [held, List.take_add_one, here, Option.toList_some, List.filter_append]
  cases c <;> simp [Call.isAdvance, Call.isPause, held]

variable [ExactScalar T] {s : SimulatedNarrator T}

/-- The time that the narrator hears of at call `k`. -/
def heardAt (calls : List (Call T)) (k : Nat) : T :=
  match calls[k]? with
  | some (.advance elapsed) => if held calls k then 0 else elapsed
  | _ => 0

/-- The time that it hears of between the calls `i` and `j`. -/
def heard (calls : List (Call T)) (i j : Nat) : T :=
  ∑ k ∈ Finset.Ioo i j, heardAt calls k

/-- The utterance that call `i` begins is neither complete nor interrupted before call `j`. -/
structure Lasts (s : SimulatedNarrator T) (calls : List (Call T)) (i j token : Nat)
    (text : String) : Prop where
  begun : calls[i]? = some (.speak token text)
  later : i < j
  uninterrupted : ∀ k c, i < k → k < j → calls[k]? = some c → c.interrupts = false
  short : ∀ k, i < k → k < j → Counts calls k → heard calls i (k + 1) < s.estimate text

/-- Call `j` is the first advance at which enough was heard of the utterance that call `i` begins. -/
structure Completes (s : SimulatedNarrator T) (calls : List (Call T)) (i j token : Nat)
    (text : String) : Prop extends Lasts s calls i j token text where
  counts : Counts calls j
  enough : s.estimate text ≤ heard calls i (j + 1)

/-! ### Time -/

theorem heard_succ (later : i < j) : heard calls i (j + 1) = heard calls i j + heardAt calls j := by
  have more : Finset.Ioo i (j + 1) = insert j (Finset.Ioo i j) := by
    ext k
    simp only [Finset.mem_insert, Finset.mem_Ioo]
    omega
  rw [heard, more, Finset.sum_insert (by simp), add_comm]
  rfl

theorem heard_begin : heard calls i (i + 1) = 0 := by
  have none : Finset.Ioo i (i + 1) = ∅ := Finset.eq_empty_of_forall_notMem fun k inside => by
    have bounds := Finset.mem_Ioo.mp inside
    omega
  rw [heard, none, Finset.sum_empty]

theorem heard_advance (later : i < j) (free : held calls j = false) {elapsed : T}
    (here : calls[j]? = some (.advance elapsed)) :
    heard calls i (j + 1) = heard calls i j + elapsed := by
  have all : heardAt calls j = elapsed := by
    rw [heardAt, here]
    exact if_neg (by simp [free])
  rw [heard_succ later, all]

theorem heard_of_not_counts (later : i < j) (idle : ¬Counts calls j) :
    heard calls i (j + 1) = heard calls i j := by
  rw [heard_succ later, heardAt]
  split
  · next elapsed here =>
    have holds : held calls j = true := by
      by_contra free
      exact idle ⟨by simpa using free, elapsed, here⟩
    rw [if_pos holds, add_zero]
  · exact add_zero _

/-! ### What one call does -/

theorem advance_cases (awake : s.paused = false) (elapsed : T) :
    (s.current = none ∧ s.advance elapsed = (none, s)) ∨
    (∃ token left, s.current = some (token, left) ∧ elapsed < left ∧
      s.advance elapsed = (none, { s with current := some (token, left - elapsed) })) ∨
    (∃ token left, s.current = some (token, left) ∧ left ≤ elapsed ∧
      s.advance elapsed = (some token, { s with current := none })) := by
  unfold advance
  rw [awake]
  cases s.current with
  | none => exact .inl ⟨rfl, rfl⟩
  | some utterance =>
    obtain ⟨token, left⟩ := utterance
    dsimp only
    rw [ExactScalar.zero_eq]
    split
    · rename_i more
      exact .inr (.inl ⟨token, left, rfl, sub_pos.mp more, rfl⟩)
    · rename_i spent
      exact .inr (.inr ⟨token, left, rfl, sub_nonpos.mp (not_lt.mp spent), rfl⟩)

theorem advance_current (awake : s.paused = false) {elapsed left : T} :
    (s.advance elapsed).2.current = some (token, left) ↔
      s.current = some (token, left + elapsed) ∧ 0 < left := by
  obtain ⟨silent, same⟩ | ⟨token', left', current, more, same⟩ | ⟨token', left', current, spent, same⟩ :=
    s.advance_cases awake elapsed
  · simp [same, silent]
  · simp only [same, current, Option.some.injEq, Prod.mk.injEq, sub_eq_iff_eq_add]
    constructor
    · rintro ⟨rfl, rfl⟩
      exact ⟨⟨rfl, rfl⟩, by linarith⟩
    · exact fun h => h.1
  · simp only [same, current, Option.some.injEq, Prod.mk.injEq, reduceCtorEq, false_iff, not_and,
      not_lt, and_imp]
    rintro _ rfl
    linarith

theorem advance_told (awake : s.paused = false) {elapsed : T} :
    (s.advance elapsed).1 = some token ↔
      ∃ left, s.current = some (token, left) ∧ left ≤ elapsed := by
  obtain ⟨silent, same⟩ | ⟨token', left', current, more, same⟩ | ⟨token', left', current, spent, same⟩ :=
    s.advance_cases awake elapsed
  · simp [same, silent]
  · simp [same, current, more]
  · simp [same, current, spent]

theorem advance_of_paused (holds : s.paused = true) (elapsed : T) :
    s.advance elapsed = (none, s) := by
  rw [advance, holds]

theorem advance_frame (s : SimulatedNarrator T) (elapsed : T) :
    ∃ current, (s.advance elapsed).2 = { s with current } := by
  unfold advance
  split
  · dsimp only
    split <;> exact ⟨_, rfl⟩
  · exact ⟨s.current, rfl⟩

def perform (s : SimulatedNarrator T) : Call T → Option Nat × SimulatedNarrator T
  | .speak token text => (none, s.speak token text)
  | .pause => (none, s.pause)
  | .resume => (none, s.resume)
  | .cancel => (none, s.cancel)
  | .advance elapsed => s.advance elapsed

def run (s : SimulatedNarrator T) (calls : List (Call T)) : SimulatedNarrator T :=
  calls.foldl (fun s c => (s.perform c).2) s

/-- The narrator before call `k`. -/
def before (s : SimulatedNarrator T) (calls : List (Call T)) (k : Nat) : SimulatedNarrator T :=
  s.run (calls.take k)

/-- The token that call `k` tells. -/
def told? (s : SimulatedNarrator T) (calls : List (Call T)) (k : Nat) : Option Nat :=
  (calls[k]?).bind fun c => ((s.before calls k).perform c).1

theorem before_succ (s : SimulatedNarrator T) (here : calls[k]? = some c) :
    s.before calls (k + 1) = ((s.before calls k).perform c).2 := by
  rw [before, List.take_add_one, here, Option.toList_some, run, List.foldl_concat]
  rfl

theorem before_succ_of_none (s : SimulatedNarrator T) (ended : calls[k]? = none) :
    s.before calls (k + 1) = s.before calls k := by
  rw [before, List.take_add_one, ended, Option.toList_none, List.append_nil]
  rfl

/-- Before each call the narrator is held as the calls before it say, and its pace is what it was. -/
theorem before_paused (calls : List (Call T)) (free : s.paused = false) (k : Nat) :
    (s.before calls k).paused = held calls k ∧
      (s.before calls k).charsPerSecond = s.charsPerSecond := by
  induction k with
  | zero => exact ⟨free, rfl⟩
  | succ k ih =>
    cases here : calls[k]? with
    | none =>
      rw [before_succ_of_none s here, held, List.take_add_one, here, Option.toList_none,
        List.append_nil]
      exact ih
    | some c =>
      rw [before_succ s here, held_succ here]
      cases c with
      | advance elapsed =>
        obtain ⟨_, same⟩ := (s.before calls k).advance_frame elapsed
        rw [perform, same]
        exact ih
      | speak | pause | resume | cancel => exact ⟨rfl, ih.2⟩

/-! ### The current utterance -/

theorem Lasts.unique {i' token' : Nat} {text' : String} (h : Lasts s calls i j token text)
    (h' : Lasts s calls i' j token' text') : i = i' := by
  rcases lt_trichotomy i i' with earlier | same | later
  · cases h.uninterrupted i' _ earlier h'.later h'.begun
  · exact same
  · cases h'.uninterrupted i _ later h.later h.begun

theorem lasts_succ : Lasts s calls i (j + 1) token text ↔
    (i = j ∧ calls[j]? = some (.speak token text)) ∨
    (Lasts s calls i j token text ∧ (∀ c, calls[j]? = some c → c.interrupts = false) ∧
      (Counts calls j → heard calls i (j + 1) < s.estimate text)) := by
  constructor
  · intro h
    rcases Nat.lt_succ_iff_lt_or_eq.mp h.later with later | rfl
    · refine .inr ⟨⟨h.begun, later, fun k c after earlier => ?_, fun k after earlier => ?_⟩, ?_, ?_⟩
      · exact h.uninterrupted k c after (Nat.lt_succ_of_lt earlier)
      · exact h.short k after (Nat.lt_succ_of_lt earlier)
      · exact fun c => h.uninterrupted j c later (Nat.lt_succ_self j)
      · exact h.short j later (Nat.lt_succ_self j)
    · exact .inl ⟨rfl, h.begun⟩
  · rintro (⟨rfl, begun⟩ | ⟨h, calm, short⟩)
    · exact ⟨begun, Nat.lt_succ_self i, fun k _ after earlier => absurd earlier (by omega),
        fun k after earlier => absurd earlier (by omega)⟩
    · refine ⟨h.begun, Nat.lt_succ_of_lt h.later, fun k c after earlier => ?_,
        fun k after earlier => ?_⟩
      · rcases Nat.lt_succ_iff_lt_or_eq.mp earlier with sooner | rfl
        · exact h.uninterrupted k c after sooner
        · exact calm c
      · rcases Nat.lt_succ_iff_lt_or_eq.mp earlier with sooner | rfl
        · exact h.short k after sooner
        · exact short

/-- There is an utterance with the token that lasts until call `j`, with some time left of it. -/
def Remains (s : SimulatedNarrator T) (calls : List (Call T)) (j token : Nat) (left : T) : Prop :=
  ∃ i text, Lasts s calls i j token text ∧ left = s.estimate text - heard calls i j

theorem remains_speak {token' : Nat} {text' : String} {left : T}
    (here : calls[j]? = some (.speak token' text')) :
    Remains s calls (j + 1) token left ↔ token' = token ∧ s.estimate text' = left := by
  constructor
  · rintro ⟨i, text, h, rfl⟩
    obtain ⟨rfl, begun⟩ | ⟨_, calm, _⟩ := lasts_succ.mp h
    · cases here.symm.trans begun
      rw [heard_begin, sub_zero]
      exact ⟨rfl, rfl⟩
    · cases calm _ here
  · rintro ⟨rfl, rfl⟩
    exact ⟨j, text', lasts_succ.mpr (.inl ⟨rfl, here⟩), by rw [heard_begin, sub_zero]⟩

theorem remains_cancel {left : T} (here : calls[j]? = some .cancel) :
    ¬Remains s calls (j + 1) token left := by
  rintro ⟨i, text, h, _⟩
  obtain ⟨rfl, begun⟩ | ⟨_, calm, _⟩ := lasts_succ.mp h
  · cases here.symm.trans begun
  · cases calm _ here

/-- Neither a call that is no advance nor an advance of a narrator that is held changes anything about
an utterance that it does not interrupt. -/
theorem remains_idle {left : T} (idle : ¬Counts calls j)
    (calm : ∀ c, calls[j]? = some c → c.interrupts = false) :
    Remains s calls (j + 1) token left ↔ Remains s calls j token left := by
  refine exists_congr fun i => exists_congr fun text => ?_
  constructor
  · rintro ⟨h, rfl⟩
    obtain ⟨_, begun⟩ | ⟨earlier, _⟩ := lasts_succ.mp h
    · cases calm _ begun
    · exact ⟨earlier, by rw [heard_of_not_counts earlier.later idle]⟩
  · rintro ⟨h, rfl⟩
    exact ⟨lasts_succ.mpr (.inr ⟨h, calm, fun counts => absurd counts idle⟩),
      by rw [heard_of_not_counts h.later idle]⟩

theorem remains_advance {elapsed left : T} (free : held calls j = false)
    (here : calls[j]? = some (.advance elapsed)) :
    Remains s calls (j + 1) token left ↔ Remains s calls j token (left + elapsed) ∧ 0 < left := by
  constructor
  · rintro ⟨i, text, h, rfl⟩
    obtain ⟨rfl, begun⟩ | ⟨earlier, _, short⟩ := lasts_succ.mp h
    · cases here.symm.trans begun
    · have less := short ⟨free, elapsed, here⟩
      have more := heard_advance earlier.later free here
      exact ⟨⟨i, text, earlier, by rw [more]; ring⟩, sub_pos.mpr less⟩
  · rintro ⟨⟨i, text, h, same⟩, positive⟩
    have more := heard_advance h.later free here
    have calm : ∀ c, calls[j]? = some c → c.interrupts = false := by simp [here, Call.interrupts]
    exact ⟨i, text, lasts_succ.mpr (.inr ⟨h, calm, fun _ => by linarith⟩), by linarith⟩

/-- The current utterance of a new narrator is the one that lasts, with the time that is left of it. -/
theorem current_iff (silent : s.current = none) (free : s.paused = false) {left : T} :
    (s.before calls j).current = some (token, left) ↔ Remains s calls j token left := by
  induction j generalizing token left with
  | zero =>
    constructor
    · intro current
      cases silent.symm.trans current
    · rintro ⟨i, text, h, _⟩
      exact absurd h.later (Nat.not_lt_zero i)
  | succ j ih =>
    obtain ⟨holds, pace⟩ := before_paused calls free j
    cases here : calls[j]? with
    | none =>
      rw [before_succ_of_none s here, ih, remains_idle (by simp [Counts, here]) (by simp [here])]
    | some c =>
      rw [before_succ s here]
      cases c with
      | speak token' text' =>
        have long : (s.before calls j).estimate text' = s.estimate text' := by
          rw [estimate, pace, estimate]
        rw [remains_speak here, ← long]
        exact Option.some_inj.trans Prod.mk_inj
      | cancel => exact iff_of_false nofun (remains_cancel here)
      | pause | resume =>
        rw [remains_idle (by simp [Counts, here]) (by simp [here, Call.interrupts]), ← ih]
        rfl
      | advance elapsed =>
        cases stays : held calls j with
        | true =>
          rw [perform, advance_of_paused (holds.trans stays), ih,
            remains_idle (by simp [Counts, stays]) (by simp [here, Call.interrupts])]
        | false =>
          rw [perform, advance_current (holds.trans stays), ih, remains_advance stays here]

/-! ### Completions -/

theorem told?_eq_some_iff (silent : s.current = none) (free : s.paused = false) :
    s.told? calls j = some token ↔ ∃ i text, Completes s calls i j token text := by
  have holds := (before_paused calls free j).1
  rw [told?, Option.bind_eq_some_iff]
  constructor
  · rintro ⟨c, here, told⟩
    cases c with
    | advance elapsed =>
      cases stays : held calls j with
      | true =>
        rw [perform, advance_of_paused (holds.trans stays)] at told
        cases told
      | false =>
        obtain ⟨left, current, spent⟩ := (advance_told (holds.trans stays)).mp told
        obtain ⟨i, text, lasts, rfl⟩ := (current_iff silent free).mp current
        refine ⟨i, text, lasts, ⟨stays, elapsed, here⟩, ?_⟩
        rw [heard_advance lasts.later stays here]
        linarith
    | speak | pause | resume | cancel => cases told
  · rintro ⟨i, text, completes⟩
    obtain ⟨stays, elapsed, here⟩ := completes.counts
    refine ⟨_, here, (advance_told (holds.trans stays)).mpr ⟨_, (current_iff silent free).mpr
      ⟨i, text, completes.toLasts, rfl⟩, ?_⟩⟩
    have enough := completes.enough
    rw [heard_advance completes.later stays here] at enough
    linarith

/-- The utterance of one call is complete at one call only. -/
theorem Completes.once {j' token' : Nat} {text' : String} (h : Completes s calls i j token text)
    (h' : Completes s calls i j' token' text') : j = j' := by
  obtain ⟨rfl, rfl⟩ : token = token' ∧ text = text' := by
    simpa using h.begun.symm.trans h'.begun
  rcases lt_trichotomy j j' with sooner | same | later
  · exact absurd h.enough (not_le.mpr (h'.short j h.later sooner h.counts))
  · exact same
  · exact absurd h'.enough (not_le.mpr (h.short j' h'.later later h'.counts))

/-- For any calls of a new narrator, by the calls alone: which call completes which utterance. That is
one call at most for an utterance, none after another utterance is begun or it is cancelled, and an
advance while the narrator is held changes nothing. -/
theorem speech_completes (pace : T) (calls : List (Call T)) :
    let s := ofPace pace
    (∀ j token, s.told? calls j = some token ↔ ∃ i text, Completes s calls i j token text) ∧
    (∀ i j j' token token' text text', Completes s calls i j token text →
      Completes s calls i j' token' text' → j = j') ∧
    (∀ i i' j token token' text text', Completes s calls i j token text →
      Completes s calls i' j token' text' → i = i') ∧
    (∀ i k j c token text, calls[k]? = some c → c.interrupts = true → i < k → k < j →
      ¬Completes s calls i j token text) ∧
    ∀ k, (s.before calls k).paused = held calls k ∧
      (held calls k = true → ∀ elapsed,
        (s.before calls k).advance elapsed = (none, s.before calls k)) := by
  intro s
  have fresh : s.current = none ∧ s.paused = false := by
    show (ofPace pace).current = none ∧ (ofPace pace).paused = false
    unfold ofPace
    split <;> exact ⟨rfl, rfl⟩
  refine ⟨fun j token => told?_eq_some_iff fresh.1 fresh.2, ?_, ?_, ?_, fun k => ?_⟩
  · intro i j j' token token' text text' h h'
    exact h.once h'
  · intro i i' j token token' text text' h h'
    exact h.toLasts.unique h'.toLasts
  · intro i k j c token text here interrupts after earlier h
    have calm := h.uninterrupted k c after earlier here
    rw [interrupts] at calm
    cases calm
  · have holds := (before_paused calls fresh.2 k).1
    exact ⟨holds, fun stays elapsed => advance_of_paused (holds.trans stays) elapsed⟩

example :
    (List.range 8).map ((ofPace (2 : Rat)).told? [.speak 1 "abcd", .advance 1, .speak 2 " ab ", .pause,
      .advance 5, .resume, .advance 1, .advance 1]) =
      [none, none, none, none, none, none, some 2, none] := by
  decide +kernel

end SimulatedNarrator

end Storyboard
