import Storyboard.Proofs.Playback.Likeness

/-!
# Recorded narrators

A recorder keeps the tokens of everything that its narrator is asked to say. A player with a
recorder does what it does without, so what is recorded is what a narrator hears: the tokens
count up from one, without gaps.
-/

namespace Storyboard

/-- A narrator with the tokens that it was given, the oldest first. -/
structure Recorder (σ : Type) where
  inner : σ
  tokens : List Nat := []

variable {T G σ : Type}

def Setting.recorded : Setting T G σ → Setting T G (Recorder σ)
  | .speed s => .speed s
  | .narration enabled => .narration enabled
  | .looping loops => .looping loops
  | .screen s => .screen s
  | .narrator n => .narrator { inner := n }

namespace Recorder

def lift (f : σ → σ) (r : Recorder σ) : Recorder σ := { r with inner := f r.inner }

instance [Narrator T σ] : Narrator T (Recorder σ) where
  speak r token text :=
    let (verdict, inner) := Narrator.speak r.inner token text
    (verdict, { inner, tokens := r.tokens ++ [token] })
  pause := lift Narrator.pause
  resume := lift Narrator.resume
  cancel := lift Narrator.cancel
  advance r elapsed :=
    let (token, inner) := Narrator.advance r.inner elapsed
    (token, { r with inner })
  takeReports r :=
    let (tokens, inner) := Narrator.takeReports r.inner
    (tokens, { r with inner })

/-- The recorder of a narrator, which has recorded every token given out. -/
def Keeps (_pending : Option Nat) (last : Nat) (r : Recorder σ) (s : σ) : Prop :=
  r.inner = s ∧ r.tokens = List.range' 1 last

instance [Narrator T σ] : Agreement (Keeps : Option Nat → Nat → Recorder σ → σ → Prop) where
  waive := id
  speak text := by
    rintro ⟨rfl, tokens⟩
    refine ⟨_, _, _, rfl, rfl, rfl, ?_⟩
    show _ ++ [_] = _
    rw [tokens, List.range'_concat, Nat.one_mul, Nat.add_comm]
  pause := by
    rintro _ _ _ _ ⟨rfl, tokens⟩
    exact ⟨rfl, tokens⟩
  resume := by
    rintro _ _ _ _ ⟨rfl, tokens⟩
    exact ⟨rfl, tokens⟩
  cancel := by
    rintro _ _ _ _ ⟨rfl, tokens⟩
    exact ⟨rfl, tokens⟩
  advance elapsed := by
    rintro ⟨rfl, tokens⟩
    exact ⟨_, _, _, rfl, rfl, rfl, tokens⟩

end Recorder

namespace Player

def forget (q : Player T G (Recorder σ)) : Player T G σ :=
  { q with narrator := q.narrator.map Recorder.inner }

/-- `q` is `p` with a recorder, which has recorded every token given out. -/
structure Records (q : Player T G (Recorder σ)) (p : Player T G σ) : Prop where
  same : q.forget = p
  tokens : ∀ r, q.narrator = some r → r.tokens = List.range' 1 q.lastToken

theorem Alike.records {q : Player T G (Recorder σ)} {p : Player T G σ}
    (h : Alike Recorder.Keeps q p) : Records q p := by
  refine ⟨h.through fun related => related.1, fun r found => ?_⟩
  obtain ⟨_, _, tokens⟩ := h.voice found
  exact tokens

variable [Scalar T] [Scalar G]

theorem Alike.configure {q : Player T G (Recorder σ)} {p : Player T G σ}
    (h : Alike Recorder.Keeps q p) (fresh : q.lastToken = 0) (s : Setting T G σ) :
    Alike Recorder.Keeps (q.configure s.recorded) (p.configure s) := by
  cases s with
  | speed speed =>
    rw [Setting.recorded, Player.configure, Player.configure, withSpeed_eq, withSpeed_eq]
    exact h.clock fun clock => clock.setSpeed speed
  | narrator narrator =>
    obtain ⟨_, _⟩ := h
    refine .intro _ (.some ⟨rfl, ?_⟩)
    rw [show (q.configure (.narrator narrator : Setting T G σ).recorded).lastToken = 0 from fresh]
    rfl
  | _ =>
    obtain ⟨_, voices⟩ := h
    exact .intro _ voices

variable [Narrator T σ] [Narrow T G]

/-- A run with a recorder is the run without it, and what a narrator has heard is every token from
one up to the last. -/
theorem run_records (captions : List Caption) (timeline : Timeline T G)
    (settings : List (Setting T G σ)) (commands : List (Command T)) :
    Records ((setUp captions timeline (settings.map Setting.recorded)).run commands)
      ((setUp captions timeline settings).run commands) := by
  refine (Alike.run ?_ commands).records
  induction settings using List.reverseRecOn with
  | nil => exact .intro none .none
  | append_singleton settings s ih =>
    have fresh := (setUp_rests captions timeline (settings.map Setting.recorded)).2.1
    rw [List.map_append, setUp, setUp, List.foldl_append, List.foldl_append]
    exact ih.configure (congrArg Control.lastToken fresh) s

end Player

end Storyboard
