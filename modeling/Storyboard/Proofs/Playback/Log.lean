import Storyboard.Playback.Command

/-!
# Runs and their logs

A player is set up in any way and then performs commands. The log of a run holds, in their order,
the calls of the host, the completions taken in, the jumps of the cursor and everything that the
player tells. What is said of every run is said of its log.
-/

namespace Storyboard

inductive Setting (T G σ : Type) where
  | speed (speed : T)
  | narration (enabled : Bool)
  | looping (looping : Bool)
  | screen (screen : Screen T G)
  | narrator (narrator : σ)

inductive Mark (T : Type) where
  | called (c : Command T)
  /-- The completion of an utterance reaches the player. -/
  | delivered (token : Nat)
  /-- The host starts playback while the player waits for the narrator. -/
  | overridden
  /-- The cursor goes to another place than the one that comes next. -/
  | jumped
  | told (e : PlayerEvent T)

namespace Mark

variable {T : Type}

def event? : Mark T → Option (PlayerEvent T)
  | told e => some e
  | _ => none

/-- What an event puts into the log. The end of the timeline is a jump where playback loops. -/
def ofEvent (looping : Bool) : PlayerEvent T → List (Mark T)
  | .finished => if looping then [told .finished, jumped] else [told .finished]
  | e => [told e]

def ofEvents (looping : Bool) (es : List (PlayerEvent T)) : List (Mark T) :=
  es.flatMap (ofEvent looping)

@[simp] theorem ofEvents_nil (looping : Bool) : ofEvents looping ([] : List (PlayerEvent T)) = [] :=
  rfl

theorem ofEvents_append (looping : Bool) (es fs : List (PlayerEvent T)) :
    ofEvents looping (es ++ fs) = ofEvents looping es ++ ofEvents looping fs :=
  List.flatMap_append

theorem filterMap_ofEvents (looping : Bool) (es : List (PlayerEvent T)) :
    (ofEvents looping es).filterMap event? = es := by
  induction es with
  | nil => rfl
  | cons e es ih =>
    rw [ofEvents, List.flatMap_cons, List.filterMap_append, ← ofEvents, ih]
    cases e <;> cases looping <;> rfl

end Mark

namespace Player

variable {T G σ : Type} [Scalar T] [Scalar G] [Narrow T G]

def configure (p : Player T G σ) : Setting T G σ → Player T G σ
  | .speed speed => p.withSpeed speed
  | .narration enabled => p.withNarration enabled
  | .looping looping => p.withLooping looping
  | .screen screen => p.withScreen screen
  | .narrator narrator => p.withNarrator narrator

/-- A stopped player for a timeline, set up in any way. -/
def setUp (captions : List Caption) (timeline : Timeline T G) (settings : List (Setting T G σ)) :
    Player T G σ :=
  settings.foldl configure (ofTimeline captions timeline)

variable [Narrator T σ]

def delivery? (p : Player T G σ) : Command T → Option Nat
  | .narrationEnd token => some token
  | .tick elapsed => p.narrator.bind fun narrator => (Narrator.advance narrator elapsed).1
  | _ => none

/-- Whether a command starts playback in spite of an utterance that the player waits for. -/
def overrides (p : Player T G σ) : Command T → Bool
  | .play => p.state ≠ .playing && p.autoPaused
  | _ => false

/-- Whether a command takes the cursor to another place before anything else. -/
def jumps (p : Player T G σ) : Command T → Bool
  | .play => p.state ≠ .playing && decide (p.duration ≤ p.time)
  | .stop | .seek _ => true
  | .seekStep step => (p.seekStep step).1
  | .nextStep => p.nextStep.1
  | .previousStep => p.previousStep.1
  | .pause | .setSpeed _ | .tick _ | .narrationEnd _ => false

def emitted (p : Player T G σ) (c : Command T) : List (PlayerEvent T) :=
  (p.perform c).2.events.drop p.events.length

def opening (p : Player T G σ) (c : Command T) : List (Mark T) :=
  [.called c] ++ (p.delivery? c).toList.map .delivered ++
    (if p.overrides c then [.overridden] else []) ++ (if p.jumps c then [.jumped] else [])

def marks (p : Player T G σ) (c : Command T) : List (Mark T) :=
  p.opening c ++ Mark.ofEvents p.looping (p.emitted c)

theorem opening_events (p : Player T G σ) (c : Command T) (es : List (PlayerEvent T)) :
    (p.opening c ++ Mark.ofEvents p.looping es).filterMap Mark.event? = es := by
  have quiet : (p.opening c).filterMap Mark.event? = [] := by
    simp only [opening, List.filterMap_append, List.filterMap_map, List.append_eq_nil_iff]
    refine ⟨⟨⟨rfl, ?_⟩, ?_⟩, ?_⟩
    · exact List.filterMap_eq_nil_iff.mpr fun _ _ => rfl
    · split <;> rfl
    · split <;> rfl
  rw [List.filterMap_append, quiet, Mark.filterMap_ofEvents, List.nil_append]

def log (p : Player T G σ) : List (Command T) → List (Mark T)
  | [] => []
  | c :: rest => p.marks c ++ (p.perform c).2.log rest

theorem run_nil (p : Player T G σ) : p.run [] = p := rfl

theorem run_append (p : Player T G σ) (before after : List (Command T)) :
    p.run (before ++ after) = (p.run before).run after :=
  List.foldl_append

theorem run_snoc (p : Player T G σ) (commands : List (Command T)) (c : Command T) :
    p.run (commands ++ [c]) = ((p.run commands).perform c).2 := by
  rw [run_append]
  rfl

theorem log_snoc (p : Player T G σ) (commands : List (Command T)) (c : Command T) :
    p.log (commands ++ [c]) = p.log commands ++ (p.run commands).marks c := by
  induction commands generalizing p with
  | nil => simp [log, run_nil]
  | cons first rest ih =>
    rw [List.cons_append, log, log, ih, List.append_assoc]
    rfl

end Player

end Storyboard
