import Storyboard.Proofs.Lists
import Storyboard.Proofs.Playback.History
import Storyboard.Proofs.Playback.Likeness
import Storyboard.Proofs.Text.Trimmed

/-!
# Visits and transcripts

A visit of a boundary lasts from the event that enters it to the next one or to a jump of the cursor.
What is to be said in a visit is the caption of its step, if the player plays at some moment of it. A
transcriber keeps the texts that its narrator is asked to say, so that the two can be compared.
-/

namespace Storyboard

variable {T G σ : Type}

/-! ### Visits -/

structure Visit where
  step : Nat
  index : Nat
  /-- Whether the player plays at some moment of the visit. -/
  played : Bool

/-- The text of a visit, given the captions. -/
def Visit.text? (captions : Nat → Option String) (w : Visit) : Option String :=
  if w.played then captions w.step else none

/-- The visits of a log: those that are over, and the one that lasts. -/
structure Visits where
  playing : Bool := false
  past : List Visit := []
  here : Option Visit := none

namespace Visits

def all (v : Visits) : List Visit := v.past ++ v.here.toList

/-- What is said in the visits, each of which counts once. -/
def texts (captions : Nat → Option String) (v : Visits) : List String :=
  v.all.filterMap (Visit.text? captions)

def hear (v : Visits) : Mark T → Visits
  | .told (.stepChanged step index) =>
    { v with past := v.all, here := some ⟨step, index, v.playing⟩ }
  | .told (.stateChanged state) =>
    let playing := decide (state = .playing)
    { v with playing, here := v.here.map fun w => { w with played := w.played || playing } }
  | .jumped => { v with past := v.all, here := none }
  | _ => v

end Visits

def visitsOf (log : List (Mark T)) : Visits := log.foldl Visits.hear {}

theorem visitsOf_append (log marks : List (Mark T)) :
    visitsOf (log ++ marks) = marks.foldl Visits.hear (visitsOf log) :=
  List.foldl_append

/-- Where the player plays, the visit that lasts is played. -/
theorem visitsOf_played (log : List (Mark T)) : (visitsOf log).playing = true →
    ∀ w, (visitsOf log).here = some w → w.played = true := by
  induction log using List.reverseRecOn with
  | nil => nofun
  | append_singleton log m ih =>
    rw [visitsOf_append]
    generalize visitsOf log = v at ih
    intro playing w here
    rw [List.foldl_cons, List.foldl_nil] at playing here
    unfold Visits.hear at playing here
    split at here
    · obtain rfl := Option.some.inj here
      exact playing
    · obtain ⟨_, _, rfl⟩ := Option.map_eq_some_iff.mp here
      simp [show decide _ = true from playing]
    · cases here
    · exact ih (by simpa using playing) w here

namespace Visits

/-- An utterance that starts is that of the visit that lasts, and its token is its number. -/
def Begins (captions : Nat → Option String) (log : List (Mark T)) : Mark T → Prop
  | .told (.narrationStarted step token) => ∃ w text, (visitsOf log).here = some w ∧
      w.step = step ∧ w.text? captions = some text ∧
      token = ((visitsOf log).texts captions).length
  | _ => True

variable {captions : Nat → Option String} {v : Visits} {w : Visit}

theorem all_of_here (here : v.here = some w) : v.all = v.past ++ [w] := by
  rw [all, here]
  rfl

/-- A visit that is played from now on is told its text. -/
theorem texts_play (here : v.here = some w) (fresh : w.played = false) :
    { v with here := some { w with played := true } }.texts captions =
      v.texts captions ++ (captions w.step).toList := by
  rw [texts, texts, all_of_here rfl, all_of_here here, List.filterMap_append,
    List.filterMap_append, List.append_assoc]
  congr 1
  cases said : captions w.step <;> simp [Visit.text?, fresh, said]

theorem texts_mute {past : List Visit} {playing : Bool} (step index : Nat) :
    (⟨playing, past, some ⟨step, index, false⟩⟩ : Visits).texts captions =
      (⟨playing, past, none⟩ : Visits).texts captions := by
  simp [texts, all, Visit.text?]

theorem texts_leave : ({ v with past := v.all, here := none } : Visits).texts captions =
    v.texts captions := by
  simp [texts, all]

end Visits

/-! ### Captions -/

namespace Caption

/-- There is nothing to be said. -/
structure Silent (c : Caption) : Prop where
  text : Text.Blank c.text.toList
  title : Text.Blank c.title.toList

/-- What a caption says is its text, or its title where the text is blank, without the white space
at the ends. -/
inductive Says (c : Caption) (said : String) : Prop
  | text (visible : ¬ Text.Blank c.text.toList) (trimmed : Text.Trimmed c.text.toList said.toList)
  | title (blank : Text.Blank c.text.toList) (visible : ¬ Text.Blank c.title.toList)
      (trimmed : Text.Trimmed c.title.toList said.toList)

variable {c : Caption} {said : String}

theorem spoken?_of_text (visible : ¬ Text.Blank c.text.toList) :
    c.spoken? = some (Text.trimString c.text) := by
  rw [← Text.trimString_isEmpty_iff, Bool.not_eq_true] at visible
  rw [spoken?, List.find?_cons, visible]
  rfl

theorem spoken?_of_title (blank : Text.Blank c.text.toList)
    (visible : ¬ Text.Blank c.title.toList) : c.spoken? = some (Text.trimString c.title) := by
  rw [← Text.trimString_isEmpty_iff] at blank
  rw [← Text.trimString_isEmpty_iff, Bool.not_eq_true] at visible
  rw [spoken?, List.find?_cons, List.find?_cons, blank, visible]
  rfl

theorem spoken?_eq_none_iff : c.spoken? = none ↔ c.Silent := by
  constructor
  · intro mute
    have blank {text : String} (member : Text.trimString text ∈
        [Text.trimString c.text, Text.trimString c.title]) : Text.Blank text.toList := by
      rw [← Text.trimString_isEmpty_iff]
      simpa using List.find?_eq_none.mp mute _ member
    exact ⟨blank (by simp), blank (by simp)⟩
  · intro silent
    rw [spoken?, List.find?_cons, List.find?_cons, Text.trimString_isEmpty_iff.mpr silent.text,
      Text.trimString_isEmpty_iff.mpr silent.title]
    rfl

theorem spoken?_eq_some_iff : c.spoken? = some said ↔ c.Says said := by
  constructor
  · intro spoken
    by_cases blank : Text.Blank c.text.toList
    · have visible : ¬ Text.Blank c.title.toList := by
        intro blank'
        rw [spoken?_eq_none_iff.mpr ⟨blank, blank'⟩] at spoken
        nomatch spoken
      rw [spoken?_of_title blank visible] at spoken
      exact .title blank visible (Text.trimString_eq_iff.mp (Option.some.inj spoken))
    · rw [spoken?_of_text blank] at spoken
      exact .text blank (Text.trimString_eq_iff.mp (Option.some.inj spoken))
  · rintro (⟨visible, trimmed⟩ | ⟨blank, visible, trimmed⟩)
    · rw [spoken?_of_text visible, Text.trimString_eq_iff.mpr trimmed]
    · rw [spoken?_of_title blank visible, Text.trimString_eq_iff.mpr trimmed]

/-- What the captions of a step say: what the first of them that says anything says. -/
def said? (captions : List Caption) (step : Nat) : Option String :=
  (captions.filter fun c => c.step == step).findSome? spoken?

variable {captions : List Caption} {step : Nat}

theorem said?_eq_none_iff :
    said? captions step = none ↔ ∀ c ∈ captions, c.step = step → c.Silent := by
  rw [said?, List.findSome?_eq_none_iff]
  simp only [List.mem_filter, beq_iff_eq, and_imp, spoken?_eq_none_iff]

theorem said?_eq_some_iff {text : String} : said? captions step = some text ↔
    ∃ before c after, captions = before ++ c :: after ∧
      (∀ b ∈ before, b.step = step → b.Silent) ∧ c.step = step ∧ c.Says text := by
  rw [said?, findSome?_filter, List.findSome?_eq_some_iff]
  simp only [Option.ite_none_right_eq_some, ite_eq_right_iff, beq_iff_eq, spoken?_eq_some_iff,
    spoken?_eq_none_iff]
  exact exists₃_congr fun before c after => and_congr_right fun _ => and_comm

end Caption

theorem captionTexts_get? (captions : List Caption) (step : Nat) :
    (captionTexts captions).get? step = Caption.said? captions step := by
  unfold captionTexts Caption.said?
  -- What the texts hold already comes first, whatever texts one begins with.
  show _ = (({} : OrderedMap Nat String).get? step).or _
  generalize ({} : OrderedMap Nat String) = texts
  induction captions generalizing texts with
  | nil => simp
  | cons c rest ih =>
    rw [List.foldl_cons, ih]
    cases said : c.spoken? with
    | none => by_cases same : c.step = step <;> simp [same, said]
    | some text =>
      rw [OrderedMap.get?_insertNew, Option.or_assoc]
      by_cases same : c.step = step <;> simp [same, said]

/-! ### Transcribers -/

/-- A narrator with the texts that it was asked to say, the oldest first. -/
structure Transcriber (σ : Type) where
  inner : σ
  texts : List String := []

def Setting.transcribed : Setting T G σ → Setting T G (Transcriber σ)
  | .speed s => .speed s
  | .narration enabled => .narration enabled
  | .looping loops => .looping loops
  | .screen s => .screen s
  | .narrator n => .narrator { inner := n }

namespace Transcriber

def lift (f : σ → σ) (r : Transcriber σ) : Transcriber σ := { r with inner := f r.inner }

instance [Narrator T σ] : Narrator T (Transcriber σ) where
  speak r token text :=
    let (verdict, inner) := Narrator.speak r.inner token text
    (verdict, { inner, texts := r.texts ++ [text] })
  pause := lift Narrator.pause
  resume := lift Narrator.resume
  cancel := lift Narrator.cancel
  advance r elapsed :=
    let (token, inner) := Narrator.advance r.inner elapsed
    (token, { r with inner })
  takeReports r :=
    let (tokens, inner) := Narrator.takeReports r.inner
    (tokens, { r with inner })

theorem speak_texts [Narrator T σ] {r r' : Transcriber σ} {token : Nat} {text : String}
    {verdict : Except NarrationError Unit} (answer : Narrator.speak r token text = (verdict, r')) :
    r'.texts = r.texts ++ [text] := by
  obtain rfl := congrArg Prod.snd answer
  rfl

/-- The transcriber of a narrator. -/
def Holds (_pending : Option Nat) (_last : Nat) (r : Transcriber σ) (s : σ) : Prop := r.inner = s

instance [Narrator T σ] : Agreement (Holds : Option Nat → Nat → Transcriber σ → σ → Prop) where
  waive := id
  speak text := by
    rintro rfl
    exact ⟨_, _, _, rfl, rfl, rfl⟩
  pause := by
    rintro _ _ _ _ rfl
    rfl
  resume := by
    rintro _ _ _ _ rfl
    rfl
  cancel := by
    rintro _ _ _ _ rfl
    rfl
  advance elapsed := by
    rintro rfl
    exact ⟨_, _, _, rfl, rfl, rfl⟩

end Transcriber

namespace Player

def untranscribed (q : Player T G (Transcriber σ)) : Player T G σ :=
  { q with narrator := q.narrator.map Transcriber.inner }

variable [Scalar T] [Scalar G]

theorem setUp_transcribes (captions : List Caption) (timeline : Timeline T G)
    (settings : List (Setting T G σ)) :
    Alike Transcriber.Holds (setUp captions timeline (settings.map Setting.transcribed))
      (setUp captions timeline settings) := by
  induction settings using List.reverseRecOn with
  | nil => exact .intro none .none
  | append_singleton settings s ih =>
    rw [List.map_append, setUp, setUp, List.foldl_append, List.foldl_append]
    cases s with
    | speed speed =>
      have set := ih.clock fun clock => clock.setSpeed speed
      rwa [← withSpeed_eq, ← withSpeed_eq] at set
    | narrator narrator =>
      rw [setUp, setUp] at ih
      generalize settings.foldl configure (ofTimeline captions timeline) = p at ih
      obtain ⟨_, _⟩ := ih
      exact .intro _ (.some rfl)
    | _ =>
      rw [setUp, setUp] at ih
      generalize settings.foldl configure (ofTimeline captions timeline) = p at ih
      obtain ⟨_, voices⟩ := ih
      exact .intro _ voices

variable [Narrator T σ] [Narrow T G]

/-- A run with a transcriber is the run without it. -/
theorem run_transcribes (captions : List Caption) (timeline : Timeline T G)
    (settings : List (Setting T G σ)) (commands : List (Command T)) :
    let start := setUp captions timeline (settings.map Setting.transcribed)
    (start.run commands).untranscribed = (setUp captions timeline settings).run commands ∧
      start.log commands = (setUp captions timeline settings).log commands := by
  have alike := setUp_transcribes captions timeline settings
  exact ⟨(alike.run commands).through id, alike.log commands⟩

end Player

end Storyboard
