import Storyboard.Playback.Shared
import Storyboard.Playback.SimulatedNarrator
import Storyboard.Proofs.Number.Exact
import Storyboard.Proofs.Playback.Completion

/-!
# Sharing a player

Hosts call a shared player one at a time, and completions are delivered to it at any time, also while
a call lasts. However this interleaves (`SharedPlayer.Interleaves`), the player goes through the states
of a bare player that is told of each completion right before the first call after its delivery
(`weave`). The narrator may report a completion while it is still being asked to speak, before the
player waits for it; `Calling.Keeps` says that such a completion is not missed.
-/

namespace Storyboard

variable {T G ρ σ : Type}

/-! ### Narrators that call back -/

/-- A narrator that calls completions back while it is asked to speak. -/
structure Calling (σ : Type) where
  inner : σ
  /-- What is called back from inside `speak`. -/
  calls : σ → Nat → String → List Nat
  /-- What was called back and is not yet taken. -/
  reports : List Nat := []
  /-- The tokens given to it, each with what was called back from inside. -/
  said : List (Nat × List Nat) := []

namespace Calling

def lift (f : σ → σ) (r : Calling σ) : Calling σ := { r with inner := f r.inner }

instance [Narrator T σ] : Narrator T (Calling σ) where
  speak r token text :=
    let (verdict, inner) := Narrator.speak r.inner token text
    let calls := r.calls r.inner token text
    (verdict, { r with inner, reports := r.reports ++ calls, said := r.said ++ [(token, calls)] })
  pause := lift Narrator.pause
  resume := lift Narrator.resume
  cancel := lift Narrator.cancel
  advance r elapsed :=
    let (token, inner) := Narrator.advance r.inner elapsed
    (token, { r with inner })
  takeReports r := (r.reports, { r with reports := [] })

def called (r : Calling σ) : List Nat := r.said.flatMap Prod.snd

/-- The completion of a token was called back while the narrator was asked to speak it. -/
def Prompt (token : Nat) (r : Calling σ) : Prop :=
  ∃ calls, (token, calls) ∈ r.said ∧ token ∈ calls

/-- The narrator with its calls, some of which were taken. A prompt completion of the utterance that is
waited for is reported or in the queue. -/
structure Keeps (queue taken : List Nat) (pending : Option Nat) (last : Nat) (r : Calling σ)
    (s : σ) : Prop where
  inner : r.inner = s
  called : r.called = taken ++ r.reports
  given : ∀ e ∈ r.said, e.1 ≤ last
  waits : ∀ token, pending = some token → r.Prompt token → token ∈ r.reports ∨ token ∈ queue

instance [Narrator T σ] (queue taken : List Nat) :
    Agreement (Keeps queue taken : Option Nat → Nat → Calling σ → σ → Prop) where
  waive h := { h with waits := by simp }
  speak {last r s} text h := by
    obtain ⟨rfl, called, given, _⟩ := h
    refine ⟨_, _, _, rfl, rfl, rfl, ?_, ?_, ?_⟩
    · show (r.said ++ [_]).flatMap Prod.snd = taken ++ (r.reports ++ _)
      rw [List.flatMap_append, ← List.append_assoc, ← called]
      simp [Calling.called]
    · intro e member
      rcases List.mem_append.mp member with old | new
      · exact Nat.le_succ_of_le (given e old)
      · exact Nat.le_of_eq (congrArg Prod.fst (List.mem_singleton.mp new))
    · rintro token pending ⟨calls, member, prompt⟩
      rcases List.mem_append.mp member with old | new
      -- A token that was given before is not the one that is waited for.
      · have bound : token ≤ last := given _ old
        have fresh : last + 1 = token := eq_of_waitedFor pending
        omega
      · obtain ⟨rfl, rfl⟩ := Prod.mk.inj (List.mem_singleton.mp new)
        exact .inl (List.mem_append_right _ prompt)
  pause := by
    rintro _ _ _ _ ⟨rfl, called, given, waits⟩
    exact ⟨rfl, called, given, waits⟩
  resume := by
    rintro _ _ _ _ ⟨rfl, called, given, waits⟩
    exact ⟨rfl, called, given, waits⟩
  cancel := by
    rintro _ _ _ _ ⟨rfl, called, given, waits⟩
    exact ⟨rfl, called, given, waits⟩
  advance elapsed := by
    rintro ⟨rfl, called, given, waits⟩
    exact ⟨_, _, _, rfl, rfl, rfl, called, given, waits⟩

end Calling

namespace Player

/-- The player without what its narrator called back. -/
def uncalled (q : Player T G (Calling σ)) : Player T G σ :=
  { q with narrator := q.narrator.map Calling.inner }

/-- The player with a narrator that calls completions back from now on. -/
def calling (calls : σ → Nat → String → List Nat) (p : Player T G σ) : Player T G (Calling σ) :=
  { p with narrator := p.narrator.map fun inner => { inner, calls } }

end Player

namespace SharedPlayer

variable [Narrator T σ]

theorem ofPlayer_mute {p : Player T G σ} (attached : p.narrator = none) :
    ofPlayer p = { player := p } := by
  rw [ofPlayer, attached]

theorem ofPlayer_calling {q : Player T G (Calling σ)} {r : Calling σ}
    (attached : q.narrator = some r) : ofPlayer q =
      { player := { q with narrator := some { r with reports := [] } }, completed := r.reports } := by
  rw [ofPlayer, attached]
  rfl

end SharedPlayer

namespace Player.Alike

theorem calling (calls : σ → Nat → String → List Nat) (p : Player T G σ) :
    Alike (Calling.Keeps [] []) (p.calling calls) p := by
  have voices : Option.Rel (Calling.Keeps [] [] p.pending p.lastToken) (p.calling calls).narrator
      p.narrator := by
    unfold Player.calling
    cases p.narrator with
    | none => exact .none
    | some inner => exact .some ⟨rfl, rfl, by simp, by simp [Calling.Prompt]⟩
  exact Alike.intro (q := p.calling calls) p.narrator voices

theorem requeue {q : Player T G (Calling σ)} {p : Player T G σ} {queue queue' taken : List Nat}
    (h : Alike (Calling.Keeps queue taken) q p)
    (kept : ∀ token, p.pending = some token → token ∈ queue → token ∈ queue') :
    Alike (Calling.Keeps queue' taken) q p := by
  refine h.imp fun r s keeps => { keeps with waits := fun token pending prompt => ?_ }
  exact (keeps.waits token pending prompt).imp_right (kept token (h.pending ▸ pending))

theorem ofPlayer {q : Player T G (Calling σ)} {p : Player T G σ} {taken : List Nat}
    [Narrator T σ] (h : Alike (Calling.Keeps [] taken) q p) :
    Alike (Calling.Keeps (SharedPlayer.ofPlayer q).completed
        (taken ++ (SharedPlayer.ofPlayer q).completed)) (SharedPlayer.ofPlayer q).player p ∧
      ∀ r, (SharedPlayer.ofPlayer q).player.narrator = some r → r.reports = [] := by
  obtain ⟨_, voices⟩ := h
  obtain ⟨attached, rfl⟩ | ⟨r, s, attached, rfl, keeps⟩ := voices_cases voices
  · rw [SharedPlayer.ofPlayer_mute attached]
    exact ⟨.intro none (attached ▸ .none), by simp [attached]⟩
  · rw [SharedPlayer.ofPlayer_calling attached]
    refine ⟨.intro _ (.some ⟨keeps.inner, ?_, keeps.given, ?_⟩), ?_⟩
    · exact keeps.called.trans (List.append_nil _).symm
    · intro token pending prompt
      exact .inr ((keeps.waits token pending prompt).resolve_right List.not_mem_nil)
    · intro _ found
      rw [← Option.some.inj found]

end Player.Alike

/-! ### Interleavings -/

inductive Request (T : Type) where
  | command (c : Command T)
  | drainEvents

/-- What comes to a bare player. -/
inductive Input (T : Type) where
  | completion (token : Nat)
  | request (r : Request T)

def Input.completion? : Input T → Option Nat
  | completion token => some token
  | request _ => none

inductive Turn (T : Type) where
  /-- A completion is delivered between two calls. -/
  | delivery (token : Nat)
  /-- A call, with the completions that are delivered while it lasts. -/
  | call (requests : List (Request T)) (arrivals : List Nat)

def Turn.delivered : Turn T → List Nat
  | delivery token => [token]
  | call _ arrivals => arrivals

/-- The inputs of a bare player. Each completion comes right before the first call after its
delivery. -/
def weave : List Nat → List (Turn T) → List (Input T)
  | _, [] => []
  | queue, .delivery token :: rest => weave (queue ++ [token]) rest
  | queue, .call requests arrivals :: rest =>
    queue.map .completion ++ requests.map .request ++ weave arrivals rest

namespace Player

variable [Scalar T] [Scalar G] [Narrow T G] [Narrator T σ]

def ask (p : Player T G σ) : Request T → Player T G σ
  | .command c => (p.perform c).2
  | .drainEvents => p.drainEvents.2

def take (p : Player T G σ) : Input T → Player T G σ
  | .completion token => p.onNarrationEnd token
  | .request r => p.ask r

end Player

namespace SharedPlayer

variable [Scalar T] [Scalar G] [Narrow T G] [Narrator T σ]

def ask (s : SharedPlayer T G σ) (requests : List (Request T)) : SharedPlayer T G σ :=
  (s.call fun p => ((), requests.foldl Player.ask p)).2

inductive Step : SharedPlayer T G σ → Turn T → SharedPlayer T G σ → Prop where
  | delivery (s : SharedPlayer T G σ) (token : Nat) : Step s (.delivery token) (s.deliver token)
  /-- What the narrator calls back is delivered in order. Other completions may come in between. -/
  | call (s : SharedPlayer T G σ) (requests : List (Request T)) {arrivals : List Nat}
      (reported : (s.ask requests).completed.Sublist arrivals) :
      Step s (.call requests arrivals) { player := (s.ask requests).player, completed := arrivals }

inductive Interleaves : SharedPlayer T G σ → List (Turn T) → SharedPlayer T G σ → Prop where
  | nil (s : SharedPlayer T G σ) : Interleaves s [] s
  | cons {s t u : SharedPlayer T G σ} {turn : Turn T} {turns : List (Turn T)} :
      Step s turn t → Interleaves t turns u → Interleaves s (turn :: turns) u

end SharedPlayer

/-! ### Taking completions in -/

namespace Player

variable [Scalar T] [Scalar G] [Narrow T G] [Narrator T σ] {p : Player T G σ}

namespace Steady

theorem take (h : p.Steady) (input : Input T) : (p.take input).Steady := by
  cases input with
  | completion token => exact h.perform (.narrationEnd token)
  | request r =>
    cases r with
    | command c => exact h.perform c
    | drainEvents => exact ⟨⟨h.sound.rests, h.sound.placed⟩, h.newest⟩

theorem take_all (h : p.Steady) (inputs : List (Input T)) : (inputs.foldl Player.take p).Steady := by
  induction inputs generalizing p with
  | nil => exact h
  | cons input rest ih => exact ih (h.take input)

end Steady

/-! ### Players with narrators that call back -/

namespace Alike

variable {q : Player T G (Calling σ)} {queue taken : List Nat}

theorem ask_all {ρ : Type} [Narrator T ρ] {R : Option Nat → Nat → ρ → σ → Prop} [Agreement R]
    {q : Player T G ρ} (h : Alike R q p) (requests : List (Request T)) :
    Alike R (requests.foldl Player.ask q) (requests.foldl Player.ask p) := by
  induction requests generalizing q p with
  | nil => exact h
  | cons r rest ih =>
    cases r with
    | command c => exact ih (h.perform c)
    | drainEvents => exact ih h.drainEvents

/-- Once the queue is taken in, what is waited for is reported if it was prompt. -/
theorem settled (h : Alike (Calling.Keeps queue taken) q p) (steady : p.Steady) :
    Alike (Calling.Keeps [] taken) (queue.foldl Player.onNarrationEnd q)
      (queue.foldl Player.onNarrationEnd p) := by
  induction queue generalizing q p with
  | nil => exact h
  | cons token rest ih =>
    refine ih ((h.onNarrationEnd token).requeue ?_) (steady.perform (.narrationEnd token))
    -- The head of the queue may be what was waited for, but it is not any more.
    intro other pending member
    rcases List.mem_cons.mp member with rfl | later
    · exact absurd pending (steady.onNarrationEnd_pending other)
    · exact later

end Alike

end Player

namespace SharedPlayer

variable [Scalar T] [Scalar G] [Narrow T G] [Narrator T σ]

/-- The shared player is `p`, apart from completions that are not yet taken in. What its narrator has
called back is `called`, and all of that was delivered. -/
structure Mirrors (s : SharedPlayer T G (Calling σ)) (p : Player T G σ) (called : List Nat) :
    Prop where
  alike : Player.Alike (Calling.Keeps s.completed called) s.player p
  delivered : ∀ r, s.player.narrator = some r → r.reports = []
  steady : p.Steady

theorem Step.weave_cons {s t : SharedPlayer T G σ} {turn : Turn T} (h : Step s turn t)
    (rest : List (Turn T)) :
    weave s.completed (turn :: rest) = weave s.completed [turn] ++ weave t.completed rest := by
  cases h with
  | delivery token => rfl
  | call requests reported => simp [weave]

/-- What was taken in and what is still there is what was there and what came. -/
theorem Step.completions {s t : SharedPlayer T G σ} {turn : Turn T} (h : Step s turn t) :
    (weave s.completed [turn]).filterMap Input.completion? ++ t.completed =
      s.completed ++ turn.delivered := by
  cases h with
  | delivery token => rfl
  | call requests reported =>
    have completions : (s.completed.map (Input.completion (T := T))).filterMap Input.completion? =
        s.completed := by
      rw [List.filterMap_map]
      exact List.filterMap_some
    have requests : (requests.map Input.request).filterMap Input.completion? = [] :=
      List.filterMap_eq_nil_iff.mpr (by simp [Input.completion?])
    simp [weave, completions, requests, Turn.delivered]

theorem Step.mirrors {s t : SharedPlayer T G (Calling σ)} {turn : Turn T} {p : Player T G σ}
    {called : List Nat} (h : Step s turn t) (m : Mirrors s p called) :
    ∃ fresh, Mirrors t ((weave s.completed [turn]).foldl Player.take p) (called ++ fresh) ∧
      fresh.Sublist turn.delivered := by
  cases h with
  | delivery token =>
    refine ⟨[], ?_, List.nil_sublist _⟩
    rw [List.append_nil]
    exact ⟨m.alike.requeue fun _ _ => List.mem_append_left _, m.delivered, m.steady⟩
  | @call requests arrivals reported =>
    refine ⟨(s.ask requests).completed, ?_, reported⟩
    have steady := m.steady.take_all (weave s.completed [.call requests arrivals])
    have woven : (weave s.completed [.call requests arrivals]).foldl Player.take p =
        requests.foldl Player.ask (s.completed.foldl Player.onNarrationEnd p) := by
      simp [weave, List.foldl_map, Player.take]
    rw [woven] at steady ⊢
    -- The queue is empty when the requests come, and what they make the narrator report fills it anew.
    obtain ⟨alike, delivered⟩ := ((m.alike.settled m.steady).ask_all requests).ofPlayer
    refine ⟨?_, delivered, steady⟩
    exact alike.requeue fun _ _ member => reported.subset member

theorem Interleaves.mirrors {s t : SharedPlayer T G (Calling σ)} {turns : List (Turn T)}
    {p : Player T G σ} {called : List Nat} (h : Interleaves s turns t) (m : Mirrors s p called) :
    ∃ fresh, Mirrors t ((weave s.completed turns).foldl Player.take p) (called ++ fresh) ∧
      fresh.Sublist (turns.flatMap Turn.delivered) := by
  induction h generalizing p called with
  | nil s => exact ⟨[], by rwa [List.append_nil], List.nil_sublist _⟩
  | cons step _ ih =>
    obtain ⟨first, stepped, among⟩ := step.mirrors m
    obtain ⟨later, mirrored, rest⟩ := ih stepped
    refine ⟨first ++ later, ?_, among.append rest⟩
    rwa [step.weave_cons, List.foldl_append, ← List.append_assoc]

theorem Interleaves.completions {s t : SharedPlayer T G σ} {turns : List (Turn T)}
    (h : Interleaves s turns t) :
    (weave s.completed turns).filterMap Input.completion? ++ t.completed =
      s.completed ++ turns.flatMap Turn.delivered := by
  induction h with
  | nil s => exact (List.append_nil _).symm
  | cons step _ ih =>
    rw [step.weave_cons, List.filterMap_append, List.append_assoc, ih, ← List.append_assoc,
      step.completions, List.append_assoc]
    rfl

/-- However calls and deliveries interleave, a shared player goes through the states of the bare
player that is told of each completion once, in the order of delivery, right before the first call
after it. What the narrator calls back from inside `speak` is delivered. A prompt completion of the
pending utterance is in the queue, and what is in the queue takes effect before the next call does
anything: the utterance is pending no longer, and a player that had paused for it has resumed. -/
theorem completions_serialized (captions : List Caption) (timeline : Timeline T G)
    (settings : List (Setting T G σ)) (commands : List (Command T))
    (calls : σ → Nat → String → List Nat) {turns : List (Turn T)}
    {s : SharedPlayer T G (Calling σ)} :
    let p := (Player.setUp captions timeline settings).run commands
    Interleaves { player := p.calling calls } turns s →
      s.player.uncalled = (weave [] turns).foldl Player.take p ∧
      (weave [] turns).filterMap Input.completion? ++ s.completed = turns.flatMap Turn.delivered ∧
      (∀ r, s.player.narrator = some r → r.called.Sublist (turns.flatMap Turn.delivered)) ∧
      ∀ token, s.player.pending = some token →
        (∀ r, s.player.narrator = some r → r.Prompt token → token ∈ s.completed) ∧
        (token ∈ s.completed → s.settled.pending ≠ some token ∧
          (s.player.autoPaused = false → s.settled = { s.player with pending := none }) ∧
          (s.player.autoPaused = true →
            s.player.events ++ [.stateChanged .playing, .resumed] <+: s.settled.events)) := by
  intro p run
  have start : Mirrors { player := p.calling calls } p [] := by
    refine ⟨.calling calls p, fun r found => ?_, ?_⟩
    · obtain ⟨_, _, rfl⟩ := Option.map_eq_some_iff.mp found
      rfl
    · exact Player.setUp_steady captions timeline settings commands
  obtain ⟨fresh, mirrors, delivered⟩ := run.mirrors start
  refine ⟨mirrors.alike.through Calling.Keeps.inner, run.completions, ?_, ?_⟩
  · intro r found
    obtain ⟨_, kept⟩ := mirrors.alike.voice found
    rw [kept.called, mirrors.delivered r found, List.append_nil]
    exact delivered
  · intro token pending
    refine ⟨fun r found prompt => ?_, fun queued => ?_⟩
    · obtain ⟨_, kept⟩ := mirrors.alike.voice found
      have reported := kept.waits token pending prompt
      rw [mirrors.delivered r found] at reported
      exact reported.resolve_left List.not_mem_nil
    · exact (mirrors.alike.steady mirrors.steady).completions_effective pending queued

/-- Two steps, of a second each. -/
def halves : Timeline Rat Rat where
  cues := [.of (.step 1) 0 2 .linear]
  boundaries := [⟨1, 0, 1⟩, ⟨2, 1, 2⟩]
  initial := {}
  baseColors := {}

/-- The completion of the first step is called back at once, long before the player waits for it. -/
theorem halves_serialized :
    let p : Player Rat Rat (SimulatedNarrator Rat) :=
      (Player.setUp [⟨1, "", "One."⟩] halves [.narrator (.ofPace 1)]).run []
    ∃ s, Interleaves { player := p.calling fun _ token _ => [token] }
        [.delivery 7, .call [.command .play, .command (.tick 3)] [8, 1]] s ∧
      s.player.uncalled = (p.onNarrationEnd 7).play.tick 3 ∧
      s.player.pending = some 1 ∧ s.player.autoPaused = true ∧ s.settled.pending ≠ some 1 ∧
      s.player.events ++ [.stateChanged .playing, .resumed] <+: s.settled.events := by
  intro p
  have run : Interleaves { player := p.calling fun _ token _ => [token] }
      [.delivery 7, .call [.command .play, .command (.tick 3)] [8, 1]] _ :=
    .cons (.delivery _ _) (.cons (.call _ _ (by decide +kernel)) (.nil _))
  obtain ⟨states, _, _, effective⟩ := completions_serialized [⟨1, "", "One."⟩] halves
    [.narrator (SimulatedNarrator.ofPace (1 : Rat))] [] (fun _ token _ => [token]) run
  obtain ⟨_, taken⟩ := effective 1 (by decide +kernel)
  obtain ⟨cleared, _, resumed⟩ := taken (by decide)
  refine ⟨_, run, states, by decide +kernel, by decide +kernel, cleared, resumed ?_⟩
  decide +kernel

end SharedPlayer

end Storyboard
