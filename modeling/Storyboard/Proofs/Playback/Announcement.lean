import Storyboard.Playback.SimulatedNarrator
import Storyboard.Proofs.Number.Exact
import Storyboard.Proofs.Playback.Performance
import Storyboard.Proofs.Playback.Visits

/-!
# One utterance per visit

A player with a transcriber recounts the visits of its log: what its narrator was asked to say is what
is said in the visits, and the boundary whose caption was last due is that of the visit that lasts, if
it was played. Every part of an operation keeps the account (`Leads`), and so every command does.
-/

namespace Storyboard

open History (Throughout throughout_append)

namespace Player

section

variable {T G σ : Type}

/-- What a run does not change. -/
structure Script (T G : Type) where
  timeline : Timeline T G
  captions : OrderedMap Nat String
  narrationEnabled : Bool
  looping : Bool

def script (p : Player T G σ) : Script T G :=
  ⟨p.timeline, p.captions, p.narrationEnabled, p.looping⟩

/-- What the narrator is to have said after some visits. -/
def transcript (p : Player T G σ) (v : Visits) : List String :=
  if p.narrationActive then v.texts p.caption? else []

variable {p q r : Player T G (Transcriber σ)} {v : Visits} {w : Visit}

/-- The player is in the visit that lasts, and its narrator was asked for what is said in the visits. -/
structure Tallies (v : Visits) (p : Player T G (Transcriber σ)) : Prop where
  playing : v.playing = decide (p.state = .playing)
  current : p.current = v.here.map Visit.index
  placed : ∀ w, v.here = some w → ∃ b, p.boundary? w.index = some b ∧ b.step = w.step
  texts : ∀ r, p.narrator = some r → r.texts = p.transcript v
  count : p.lastToken = (p.transcript v).length

/-- The caption of the visit that lasts was due exactly if the visit was played. -/
structure Recounts (v : Visits) (p : Player T G (Transcriber σ)) : Prop extends Tallies v p where
  spoken : p.spoken = (v.here.filter Visit.played).map Visit.index
  pending : p.pending.isSome = true → p.spoken.isSome = true

/-- `q` comes out of `p`, which puts the marks into its log, and recounts the log if `p` does. -/
structure Leads (p : Player T G (Transcriber σ)) (marks : List (Mark T))
    (q : Player T G (Transcriber σ)) : Prop where
  script : q.script = p.script
  events : q.events = p.events ++ marks.filterMap Mark.event?
  recounts : ∀ log, Recounts (visitsOf log) p →
    Throughout (Visits.Begins p.caption?) log marks ∧ Recounts (visitsOf (log ++ marks)) q

/-- `q` comes out of `p`, which puts the opening and then some events into its log. -/
def Relates (p : Player T G (Transcriber σ)) (opening : List (Mark T))
    (q : Player T G (Transcriber σ)) : Prop :=
  ∃ es, Leads p (opening ++ Mark.ofEvents p.looping es) q

namespace Leads

variable {log marks opening : List (Mark T)}

theorem caption? (h : Leads p marks q) : q.caption? = p.caption? :=
  congrArg (fun s => s.captions.get?) h.script

theorem looping (h : Leads p marks q) : q.looping = p.looping :=
  congrArg Script.looping h.script

theorem trans {more : List (Mark T)} (first : Leads p marks q) (second : Leads q more r) :
    Leads p (marks ++ more) r where
  script := second.script.trans first.script
  events := by rw [second.events, first.events, List.filterMap_append, List.append_assoc]
  recounts log h := by
    obtain ⟨begun, middle⟩ := first.recounts log h
    obtain ⟨more_begun, last⟩ := second.recounts _ middle
    rw [first.caption?] at more_begun
    rw [← List.append_assoc]
    exact ⟨throughout_append.mpr ⟨begun, more_begun⟩, last⟩

theorem relates (h : Leads p opening q) : Relates p opening q :=
  ⟨[], by rwa [Mark.ofEvents_nil, List.append_nil]⟩

/-- What tells nothing and changes nothing that is recounted. -/
theorem silent (script : q.script = p.script) (events : q.events = p.events)
    (recounts : ∀ v, Recounts v p → Recounts v q) : Leads p [] q where
  script := script
  events := events.trans (List.append_nil _).symm
  recounts log h := ⟨trivial, by rw [List.append_nil]; exact recounts _ h⟩

theorem refl (p : Player T G (Transcriber σ)) : Leads p [] p :=
  .silent rfl rfl fun _ => id

/-- A single mark, which starts no utterance. -/
theorem single {m : Mark T} (script : q.script = p.script)
    (events : q.events = p.events ++ m.event?.toList)
    (mute : ∀ captions log, Visits.Begins captions log m)
    (recounts : ∀ v, Recounts v p → Recounts (v.hear m) q) : Leads p [m] q where
  script := script
  events := by
    rw [events]
    cases m <;> rfl
  recounts log h := by
    refine ⟨⟨mute _ _, trivial⟩, ?_⟩
    rw [visitsOf_append]
    exact recounts _ h

/-- The clock, the screen and the waiting do not matter. -/
theorem frame (h : Leads p marks q) (clock : Clock T G) (screen : Option (Screen T G))
    (autoPaused : Bool) : Leads p marks { q with clock, screen, autoPaused } where
  script := h.script
  events := h.events
  recounts log before := by
    obtain ⟨begun, after⟩ := h.recounts log before
    exact ⟨begun, ⟨after.playing, after.current, after.placed, after.texts, after.count⟩,
      after.spoken, after.pending⟩

end Leads

namespace Relates

variable {log opening : List (Mark T)}

theorem trans (first : Relates p opening q) (second : Relates q [] r) : Relates p opening r := by
  obtain ⟨es, first⟩ := first
  obtain ⟨fs, second⟩ := second
  refine ⟨es ++ fs, ?_⟩
  rw [Mark.ofEvents_append, ← List.append_assoc]
  rw [List.nil_append, first.looping] at second
  exact first.trans second

theorem after (first : Leads p log q) (second : Relates q opening r) :
    Relates p (log ++ opening) r := by
  obtain ⟨es, second⟩ := second
  rw [first.looping] at second
  exact ⟨es, by rw [List.append_assoc]; exact first.trans second⟩

theorem frame (h : Relates p opening q) (clock : Clock T G) (screen : Option (Screen T G))
    (autoPaused : Bool) : Relates p opening { q with clock, screen, autoPaused } := by
  obtain ⟨es, h⟩ := h
  exact ⟨es, h.frame clock screen autoPaused⟩

theorem render [Scalar T] [Scalar G] [Narrow T G] (h : Relates p opening q) :
    Relates p opening q.render := by
  obtain ⟨screen, same⟩ := q.render_frame
  rw [same]
  exact h.frame q.clock screen q.autoPaused

end Relates

/-! ### What a mark does to the visits -/

theorem hear_rest (v : Visits) {state : Transport} (resting : state ≠ .playing) :
    v.hear (.told (.stateChanged state) : Mark T) = { v with playing := false } := by
  obtain ⟨_, _, here⟩ := v
  cases here <;> simp [Visits.hear, resting]

/-- Where playback starts in a visit that was played, or in none, no visit changes. -/
theorem hear_start (played : ∀ w, v.here = some w → w.played = true) :
    v.hear (.told (.stateChanged .playing) : Mark T) = { v with playing := true } := by
  obtain ⟨_, _, here⟩ := v
  cases here with
  | none => rfl
  | some w =>
    obtain ⟨_, _, _⟩ := w
    obtain rfl := played _ rfl
    rfl

theorem Recounts.spoken_iff (h : Recounts v p) (here : v.here = some w) :
    p.spoken = some w.index ↔ w.played = true := by
  rw [h.spoken, here, Option.filter_some]
  split <;> simp_all

/-! ### Parts -/

theorem emit_leads (p : Player T G (Transcriber σ)) (e : PlayerEvent T)
    (aside : ∀ v : Visits, v.hear (.told e) = v)
    (mute : ∀ captions log, Visits.Begins captions log (.told e)) : Leads p [.told e] (p.emit e) := by
  refine .single rfl rfl mute fun v h => ?_
  rw [aside]
  exact ⟨⟨h.playing, h.current, h.placed, h.texts, h.count⟩, h.spoken, h.pending⟩

/-- A mark that is no event and no jump. -/
theorem aside_leads (p : Player T G (Transcriber σ)) {m : Mark T} (untold : m.event? = none)
    (aside : ∀ v : Visits, v.hear m = v) (mute : ∀ captions log, Visits.Begins captions log m) :
    Leads p [m] p := by
  refine .single rfl ?_ mute fun v h => ?_
  · rw [untold]
    exact (List.append_nil _).symm
  · rwa [aside]

theorem called_leads (p : Player T G (Transcriber σ)) (c : Command T) : Leads p [.called c] p :=
  aside_leads p rfl (fun _ => rfl) fun _ _ => trivial

theorem delivered_leads (p : Player T G (Transcriber σ)) (token : Nat) : Leads p [.delivered token] p :=
  aside_leads p rfl (fun _ => rfl) fun _ _ => trivial

/-- What was waited for is waited for no longer. -/
theorem release_leads (p : Player T G (Transcriber σ)) : Leads p [] { p with pending := none } :=
  .silent rfl rfl fun _ h => ⟨⟨h.playing, h.current, h.placed, h.texts, h.count⟩, h.spoken, nofun⟩

/-- Playback starts where the visit that lasts was played, if there is one. -/
theorem start_leads (p : Player T G (Transcriber σ)) (pending : Option Nat)
    (fewer : pending.isSome = true → p.pending.isSome = true)
    (played : ∀ v, Recounts v p → ∀ w, v.here = some w → w.played = true) :
    Leads p [.told (.stateChanged .playing)] { p with
      state := .playing, pending, events := p.events ++ [.stateChanged .playing] } := by
  refine .single rfl rfl (fun _ _ => trivial) fun v h => ?_
  rw [hear_start (played v h)]
  exact ⟨⟨rfl, h.current, h.placed, h.texts, h.count⟩, h.spoken, fun waits => h.pending (fewer waits)⟩

theorem setState_relates (p : Player T G (Transcriber σ)) (state : Transport)
    (resting : state ≠ .playing) : Relates p [] (p.setState state) := by
  obtain ⟨_, same⟩ | ⟨_, same⟩ := p.setState_cases state
  · rw [same]
    exact (Leads.refl p).relates
  · rw [same]
    refine ⟨[.stateChanged state], .single rfl rfl (fun _ _ => trivial) fun v h => ?_⟩
    rw [hear_rest v resting]
    exact ⟨⟨by simp [resting], h.current, h.placed, h.texts, h.count⟩, h.spoken, h.pending⟩

theorem Tallies.mapNarrator (h : Tallies v p) {f : Transcriber σ → Transcriber σ}
    (kept : ∀ r, (f r).texts = r.texts) : Tallies v (p.mapNarrator f) := by
  have same : (p.mapNarrator f).transcript v = p.transcript v := by
    simp only [transcript, narrationActive, Player.mapNarrator, Option.isSome_map]
    rfl
  refine ⟨h.playing, h.current, h.placed, fun r attached => ?_, ?_⟩
  · obtain ⟨r, before, rfl⟩ := Option.map_eq_some_iff.mp attached
    rw [kept, same, h.texts r before]
  · rw [same]
    exact h.count

theorem mapNarrator_leads (p : Player T G (Transcriber σ)) {f : Transcriber σ → Transcriber σ}
    (kept : ∀ r, (f r).texts = r.texts) : Leads p [] (p.mapNarrator f) :=
  .silent rfl rfl fun _ h => ⟨h.mapNarrator kept, h.spoken, h.pending⟩

/-! ### Entering boundaries -/

theorem transcript_play (h : Tallies v p) (here : v.here = some w) (fresh : w.played = false) :
    p.transcript { v with here := some { w with played := true } } =
      p.transcript v ++ ((p.utterance? w.index).map fun u => u.2.1).toList := by
  obtain ⟨b, found, step⟩ := h.placed w here
  unfold transcript narrationActive utterance?
  rw [Visits.texts_play here fresh, found, ← step]
  cases p.narrationEnabled with
  | false => rfl
  | true =>
    cases p.narrator with
    | none => simp
    | some r => cases said : p.captions.get? b.step <;> simp [Player.caption?, said]

theorem utterance?_eq_some {p : Player T G σ} {index step : Nat} {text : String} {s : σ}
    (speaks : p.utterance? index = some (step, text, s)) : p.narrator = some s ∧
      p.narrationActive = true ∧ p.caption? step = some text ∧
      ∃ b, p.boundary? index = some b ∧ b.step = step := by
  unfold utterance? at speaks
  split at speaks
  · rename_i enabled
    split at speaks
    · cases speaks
    · rename_i b found
      split at speaks
      · rename_i said attached
        cases speaks
        exact ⟨attached, by simp [narrationActive, enabled, attached], said, b, found, rfl⟩
      · cases speaks
  · cases speaks

/-- The account of a visit after its text was asked for, if there is one. -/
theorem Tallies.speak (h : Tallies v p) (here : v.here = some w) (fresh : w.played = false)
    (said : List String) (narrator : Option (Transcriber σ))
    (due : ((p.utterance? w.index).map fun u => u.2.1).toList = said)
    (attached : narrator.isSome = p.narrator.isSome)
    (asked : ∀ r', narrator = some r' → ∃ r, p.narrator = some r ∧ r'.texts = r.texts ++ said)
    (pending : Option Nat) (events : List (PlayerEvent T)) :
    Recounts { v with here := some { w with played := true } } { p with
      spoken := some w.index, pending, lastToken := p.lastToken + said.length, narrator, events } := by
  have told := transcript_play h here fresh
  rw [due] at told
  generalize next : { v with here := some { w with played := true } } = v' at told
  have same : ({ p with
      spoken := some w.index, pending, lastToken := p.lastToken + said.length, narrator, events } :
        Player T G (Transcriber σ)).transcript v' = p.transcript v' := by
    simp only [transcript, narrationActive, attached]
    rfl
  subst next
  refine ⟨⟨h.playing, ?_, ?_, ?_, ?_⟩, rfl, fun _ => rfl⟩
  · rw [h.current, here]
    rfl
  · rintro _ ⟨⟩
    exact h.placed w here
  · intro r' found
    obtain ⟨r, before, texts⟩ := asked r' found
    rw [same, told, texts, h.texts r before]
  · rw [same, told, List.length_append, ← h.count]

/-- A visit that begins is one without a text, until its caption is spoken. -/
theorem Recounts.into (h : Recounts v p) {index : Nat} {b : Boundary T}
    (found : p.boundary? index = some b) :
    Tallies { v with past := v.all, here := some ⟨b.step, index, false⟩ } { p with
      current := some index, events := p.events ++ [.stepChanged b.step index] } := by
  have same : p.transcript { v with past := v.all, here := some ⟨b.step, index, false⟩ } =
      p.transcript v := by
    rw [transcript, Visits.texts_mute, Visits.texts_leave]
    rfl
  refine ⟨h.playing, rfl, ?_, fun r attached => (h.texts r attached).trans same.symm,
    h.count.trans (congrArg List.length same.symm)⟩
  rintro _ ⟨⟩
  exact ⟨b, found, rfl⟩

variable [Narrator T σ]

/-- In a visit that is played from now on, speaking puts the account right. -/
theorem speak_relates (marks : List (Mark T)) (index : Nat) (script : q.script = p.script)
    (events : q.events = p.events ++ marks.filterMap Mark.event?)
    (account : ∀ log, Recounts (visitsOf log) p → Throughout (Visits.Begins p.caption?) log marks ∧
      ∃ v w, visitsOf (log ++ marks) = { v with here := some { w with played := true } } ∧
        Tallies v q ∧ v.here = some w ∧ w.index = index ∧ w.played = false) :
    Relates p marks (q.speak index) := by
  obtain ⟨mute, same⟩ | ⟨_, text, r, _, r', speaks, answer, same⟩ |
      ⟨step, text, r, r', speaks, answer, same⟩ := q.speak_cases index
  · rw [same]
    refine ⟨[], script, by simpa using events, fun log h => ?_⟩
    obtain ⟨begun, v, w, now, tallies, here, rfl, fresh⟩ := account log h
    rw [Mark.ofEvents_nil, List.append_nil, now]
    exact ⟨begun, tallies.speak here fresh [] _ (by rw [mute]; rfl) rfl
      (fun r found => ⟨r, found, (List.append_nil _).symm⟩) none _⟩
  · obtain ⟨attached, _⟩ := utterance?_eq_some speaks
    have texts := Transcriber.speak_texts answer
    rw [same]
    refine ⟨[], script, by simpa using events, fun log h => ?_⟩
    obtain ⟨begun, v, w, now, tallies, here, rfl, fresh⟩ := account log h
    rw [Mark.ofEvents_nil, List.append_nil, now]
    exact ⟨begun, tallies.speak here fresh [text] (some r')
      (by rw [speaks]; rfl) (by rw [attached]; rfl)
      (by rintro _ ⟨⟩; exact ⟨r, attached, texts⟩) none _⟩
  · obtain ⟨attached, active, said, b, found, rfl⟩ := utterance?_eq_some speaks
    have texts := Transcriber.speak_texts answer
    rw [same]
    refine ⟨[.narrationStarted b.step (q.lastToken + 1)], script, ?_, fun log h => ?_⟩
    · rw [List.filterMap_append, ← List.append_assoc, ← events, Mark.filterMap_ofEvents]
    obtain ⟨begun, v, w, now, tallies, here, rfl, fresh⟩ := account log h
    have spoken := tallies.speak here fresh [text] (some r')
      (by rw [speaks]; rfl) (by rw [attached]; rfl)
      (by rintro _ ⟨⟩; exact ⟨r, attached, texts⟩) (some (q.lastToken + 1))
      (q.events ++ [.narrationStarted b.step (q.lastToken + 1)])
    obtain ⟨b', found', step⟩ := tallies.placed w here
    obtain rfl := Option.some.inj (found.symm.trans found')
    refine ⟨throughout_append.mpr ⟨begun, ⟨?_, trivial⟩⟩, ?_⟩
    · have captions : q.caption? = p.caption? := congrArg (fun s => s.captions.get?) script
      have count := transcript_play tallies here fresh
      rw [transcript, if_pos active, speaks] at count
      rw [Visits.Begins, now, ← captions]
      refine ⟨_, text, rfl, step.symm, ?_, ?_⟩
      · rw [Visit.text?, if_pos rfl, ← step]
        exact said
      · rw [count, List.length_append, ← tallies.count]
        rfl
    · rw [← List.append_assoc, visitsOf_append, now]
      exact spoken

theorem enter_relates (p : Player T G (Transcriber σ)) (index : Nat)
    (ready : p.state = .playing ∨ p.spoken = none) : Relates p [] (p.enter index) := by
  cases found : p.boundary? index with
  | none =>
    rw [enter_of_none found]
    exact (Leads.refl p).relates
  | some b =>
    rw [enter_of_some found]
    dsimp only
    split
    · rename_i playing
      obtain ⟨es, spoken⟩ := speak_relates (p := p)
        (q := { p with current := some index, events := p.events ++ [.stepChanged b.step index] })
        [.told (.stepChanged b.step index)] index rfl rfl fun log h => by
          refine ⟨⟨trivial, trivial⟩, _, _, ?_, h.into found, rfl, rfl, rfl⟩
          rw [visitsOf_append]
          simp [Visits.hear, h.playing, playing]
      exact ⟨.stepChanged b.step index :: es, spoken⟩
    · rename_i resting
      have silent := ready.resolve_left resting
      refine ⟨[.stepChanged b.step index], .single rfl rfl (fun _ _ => trivial) fun v h => ?_⟩
      have still : v.hear (.told (.stepChanged b.step index) : Mark T) =
          { v with past := v.all, here := some ⟨b.step, index, false⟩ } := by
        simp [Visits.hear, h.playing, resting]
      rw [still]
      exact ⟨h.into found, silent, h.pending⟩

theorem enter?_relates (p : Player T G (Transcriber σ)) (index : Option Nat)
    (ready : p.state = .playing ∨ p.spoken = none) : Relates p [] (p.enter? index) := by
  cases index with
  | none => exact (Leads.refl p).relates
  | some index => exact p.enter_relates index ready

/-! ### The walk -/

variable [Scalar T]

theorem leave_leads (p : Player T G (Transcriber σ)) (time : T) : Leads p [.jumped] (p.leave time) := by
  have cancelled : Leads p [] (p.mapNarrator Narrator.cancel) := p.mapNarrator_leads fun _ => rfl
  show Leads p ([] ++ [.jumped]) (p.leave time)
  refine cancelled.trans (.single rfl (List.append_nil _).symm (fun _ _ => trivial) fun v h => ?_)
  have same : (p.leave time).transcript { v with past := v.all, here := none } =
      (p.mapNarrator Narrator.cancel).transcript v := by
    rw [transcript, Visits.texts_leave]
    rfl
  exact ⟨⟨h.playing, rfl, nofun, fun r attached => (h.texts r attached).trans same.symm,
    h.count.trans (congrArg List.length same.symm)⟩, rfl, nofun⟩

theorem Rounds.relates {now : T} {n : Nat} (rounds : Rounds now n p q) (playing : p.state = .playing) :
    q.state = .playing ∧ Relates p [] q := by
  induction rounds with
  | zero p => exact ⟨playing, (Leads.refl p).relates⟩
  | @succ _ p _ _ round _ ih =>
    obtain ⟨_, _, _, _, rfl⟩ := round?_eq_some_iff.mp round
    obtain ⟨still, rest⟩ := ih (by rw [enter_state]; exact playing)
    exact ⟨still, (p.enter_relates p.nextIndex (.inl playing)).trans rest⟩

omit [Narrator T σ] in
theorem autoPause_relates (p : Player T G (Transcriber σ)) (b : Boundary T) :
    Relates p [] (p.autoPause b) := by
  have held := ((Leads.refl p).relates.frame (p.clock.seek b.stop).pause p.screen true).trans
    (setState_relates _ .paused (by decide))
  exact held.trans ⟨[.autoPaused b.step], emit_leads _ _ (fun _ => rfl) fun _ _ => trivial⟩

section

variable [Scalar G]

theorem finish_relates (p : Player T G (Transcriber σ)) (playing : p.state = .playing) :
    Relates p [] p.finish := by
  have told : Leads p [.told .finished] (p.emit .finished) :=
    emit_leads p _ (fun _ => rfl) fun _ _ => trivial
  unfold finish
  dsimp only
  split
  · rename_i loops
    have back : Relates p [] ({ (p.emit .finished).rewind with
        clock := (p.emit .finished).rewind.clock.play }) := by
      refine Relates.frame (q := (p.emit .finished).leave 0) ⟨[.finished], ?_⟩ _ _ _
      rw [show p.looping = true from loops]
      exact told.trans (leave_leads _ _)
    exact back.trans (enter?_relates _ _ (.inl playing))
  · rename_i once
    have ended : Relates p [] (p.emit .finished) := by
      refine ⟨[.finished], ?_⟩
      rw [show p.looping = false from Bool.eq_false_iff.mpr once]
      exact told
    exact (ended.frame _ _ _).trans (setState_relates _ _ (by decide))

theorem sync_relates (p : Player T G (Transcriber σ)) (now : T) (playing : p.state = .playing) :
    Relates p [] (p.sync now) := by
  obtain ⟨_, q, _, rounds, _, result⟩ := p.sync_rounds now
  obtain ⟨still, walked⟩ := rounds.relates playing
  refine walked.trans ?_
  rw [result, conclude]
  split
  · exact q.autoPause_relates _
  · unfold settle
    split
    · exact q.finish_relates still
    · exact (Leads.refl q).relates

/-! ### Starting playback -/

theorem started_relates (resting : p.starting.state ≠ .playing) :
    Relates p.starting [] p.started := by
  -- A player whose caption was due goes on; one whose caption was not speaks it now.
  have awake (played : ∀ v, Recounts v p.starting → ∀ w, v.here = some w → w.played = true) :
      Relates p.starting [] p.awake := by
    have going := start_leads p.starting p.starting.pending id played
    have resumed := going.trans (mapNarrator_leads _ (f := Narrator.resume) fun _ => rfl)
    exact ⟨[.stateChanged .playing], resumed.frame _ _ _⟩
  rw [started_eq resting]
  split
  · rename_i away
    refine (awake fun v h w here => ?_).trans (enter?_relates _ _ (.inl rfl))
    have current := h.current
    rw [show p.starting.current = none from away, here] at current
    cases current
  · rename_i index there
    split
    · rename_i spoken
      refine awake fun v h w here => (h.spoken_iff here).mp ?_
      have current := h.current
      rw [here] at current
      exact spoken.trans (there.symm.trans current)
    · rename_i unspoken
      obtain ⟨es, spoken⟩ := speak_relates (p := p.starting) (q := p.awake)
        [.told (.stateChanged .playing)] index rfl rfl fun log h => by
          have heard := h.mapNarrator (f := Narrator.resume) fun _ => rfl
          obtain ⟨w, here, rfl⟩ : ∃ w, (visitsOf log).here = some w ∧ w.index = index :=
            Option.map_eq_some_iff.mp (h.current.symm.trans there)
          have fresh : w.played = false :=
            Bool.eq_false_iff.mpr fun played => unspoken ((h.spoken_iff here).mpr played)
          refine ⟨⟨trivial, trivial⟩, { visitsOf log with playing := true }, w, ?_,
            ⟨rfl, heard.current, heard.placed, heard.texts, heard.count⟩, here, rfl, fresh⟩
          simp [visitsOf_append, Visits.hear, here]
      exact ⟨.stateChanged .playing :: es, spoken⟩

variable [Narrow T G]

theorem starting_leads (resting : p.state ≠ .playing) : Leads p (p.opening .play) p.starting := by
  have called : Leads p ([.called .play] ++ if p.overrides .play then [.overridden] else []) p := by
    split
    · exact (p.called_leads .play).trans (aside_leads p rfl (fun _ => rfl) fun _ _ => trivial)
    · exact p.called_leads .play
  rw [opening_play resting]
  by_cases ended : p.duration ≤ p.time
  · rw [starting_of_ended ended, if_pos ended]
    exact (called.trans (p.leave_leads _)).frame _ _ _
  · rw [starting_of_going ended, if_neg ended]
    refine called.trans ?_
    split
    · exact p.release_leads.frame _ _ _
    · exact .refl p

theorem play_relates (p : Player T G (Transcriber σ)) : Relates p (p.opening .play) p.play := by
  by_cases playing : p.state = .playing
  · have opening : p.opening .play = [.called .play] := by
      simp [Player.opening, delivery?, overrides, jumps, playing]
    rw [play_of_playing playing, opening]
    exact (p.called_leads .play).relates
  · obtain ⟨state, _⟩ := p.starting_runs playing
    have resting : p.starting.state ≠ .playing := by rwa [state]
    obtain ⟨going, _⟩ := started_follows resting
    rw [play_of_resting playing]
    exact (((starting_leads playing).relates.trans (started_relates resting)).trans
      (sync_relates _ _ going)).render

/-! ### Commands -/

theorem stop_relates (p : Player T G (Transcriber σ)) : Relates p (p.opening .stop) p.stop := by
  have left : Relates p (p.opening .stop) (p.leave 0) :=
    ((p.called_leads .stop).trans (p.leave_leads 0)).relates
  rw [stop_eq]
  exact ((left.frame _ _ _).trans (setState_relates _ _ (by decide))).frame _ _ _

theorem pause_relates (p : Player T G (Transcriber σ)) : Relates p (p.opening .pause) p.pause := by
  have freed := (p.called_leads .pause).frame p.clock p.screen false
  unfold pause
  dsimp only
  split
  · exact freed.relates
  · have held := ((p.called_leads .pause).frame p.clock.pause p.screen false).trans
      (mapNarrator_leads _ (f := Narrator.pause) fun _ => rfl)
    exact held.relates.trans (setState_relates _ _ (by decide))

theorem seekTo_relates {opening : List (Mark T)} {time : T} (left : Leads p opening (p.leave time))
    (index : Option Nat) : Relates p opening (p.seekTo time index) := by
  have arrived : Relates p opening
      (if p.state = .stopped then (p.leave time).setState .paused else p.leave time) ∧
      (if p.state = .stopped then (p.leave time).setState .paused else p.leave time).spoken = none := by
    split
    · exact ⟨left.relates.trans (setState_relates _ _ (by decide)), setState_spoken _ _⟩
    · exact ⟨left.relates, rfl⟩
  rw [seekTo_eq]
  exact (arrived.1.trans (enter?_relates _ index (.inr arrived.2))).render

theorem onNarrationEnd_relates (p : Player T G (Transcriber σ)) (token : Nat)
    (rest : p.autoPaused = true → p.state = .paused) :
    Relates p [.delivered token] (p.onNarrationEnd token) := by
  obtain ⟨_, same⟩ | ⟨_, _, same⟩ | ⟨awaited, waiting, same⟩ := p.onNarrationEnd_cases token
  · rw [same]
    exact (p.delivered_leads token).relates
  · rw [same]
    exact ((p.delivered_leads token).trans p.release_leads).relates
  · have resumed : Relates p [.delivered token] p.resuming := by
      have going := start_leads p none nofun fun v h w here => by
        have due := h.pending (by rw [awaited]; rfl)
        rw [h.spoken, here, Option.filter_some] at due
        by_contra fresh
        simp [fresh] at due
      have told := going.trans (emit_leads _ .resumed (fun _ => rfl) fun _ _ => trivial)
      rw [resuming_eq (rest waiting)]
      exact ⟨[.stateChanged .playing, .resumed],
        ((p.delivered_leads token).trans told).frame p.clock.play p.screen false⟩
    obtain ⟨going, _⟩ := resuming_runs p token awaited waiting (rest waiting)
    rw [same]
    exact (resumed.trans (sync_relates _ _ going)).render

/-- The narrator hears of the time, and what it reports complete is taken in. -/
theorem advanceNarrator_eq (p : Player T G σ) (elapsed : T) : p.advanceNarrator elapsed =
    match p.delivery? (.tick elapsed) with
    | some token => (p.mapNarrator fun s => (Narrator.advance s elapsed).2).onNarrationEnd token
    | none => p.mapNarrator fun s => (Narrator.advance s elapsed).2 := by
  obtain ⟨_, _, _, narrator, _, _, _, _, _, _, _, _, _, _⟩ := p
  cases narrator with
  | none => rfl
  | some s =>
    unfold advanceNarrator delivery?
    cases answer : (Narrator.advance s elapsed).1 <;> simp [mapNarrator, answer]

theorem advanceNarrator_relates (p : Player T G (Transcriber σ)) (elapsed : T)
    (rest : p.autoPaused = true → p.state = .paused) :
    Relates p (p.opening (.tick elapsed)) (p.advanceNarrator elapsed) := by
  have heard := (p.called_leads (.tick elapsed)).trans
    (p.mapNarrator_leads (f := fun r => (Narrator.advance r elapsed).2) fun _ => rfl)
  rw [advanceNarrator_eq]
  cases delivered : p.delivery? (.tick elapsed) with
  | none =>
    have opening : p.opening (.tick elapsed) = [.called (.tick elapsed)] := by
      simp [Player.opening, delivered, overrides, jumps]
    rw [opening]
    exact heard.relates
  | some token =>
    have opening : p.opening (.tick elapsed) = [.called (.tick elapsed)] ++ [.delivered token] := by
      simp [Player.opening, delivered, overrides, jumps]
    rw [opening]
    exact Relates.after heard (onNarrationEnd_relates _ token rest)

theorem tick_relates (p : Player T G (Transcriber σ)) (elapsed : T)
    (rest : p.autoPaused = true → p.state = .paused) :
    Relates p (p.opening (.tick elapsed)) (p.tick elapsed) := by
  have heard := p.advanceNarrator_relates elapsed rest
  by_cases playing : (p.advanceNarrator elapsed).state = .playing
  · have ticking : Relates p (p.opening (.tick elapsed)) (p.ticking elapsed) := heard.frame _ _ _
    have walked := ticking.trans (sync_relates _ (p.ticking elapsed).time playing)
    have reported (q : Player T G (Transcriber σ)) :
        Relates q [] (q.emit (.progress q.time q.duration)) :=
      ⟨[.progress q.time q.duration], emit_leads _ _ (fun _ => rfl) fun _ _ => trivial⟩
    rw [tick_of_playing playing]
    exact (walked.trans (reported _)).render
  · rw [tick_of_resting playing]
    exact heard

theorem navigate_relates (p : Player T G (Transcriber σ)) (c : Command T)
    (navigates : (∃ step, c = .seekStep step) ∨ c = .nextStep ∨ c = .previousStep)
    (placed : ∀ i, p.current = some i → i < p.timeline.boundaries.length) :
    Relates p (p.opening c) (p.perform c).2 := by
  have opening : p.opening c = [.called c] ++ if p.jumps c then [.jumped] else [] := by
    obtain ⟨_, rfl⟩ | rfl | rfl := navigates <;> rfl
  rw [opening]
  obtain ⟨stays, same⟩ | ⟨jumps, index, b, _, same⟩ := p.navigate_cases c navigates placed
  · rw [same, stays]
    exact (p.called_leads c).relates
  · rw [same, jumps]
    exact seekTo_relates ((p.called_leads c).trans (p.leave_leads b.start)) (some index)

theorem perform_relates (sound : p.Sound) (c : Command T) :
    Relates p (p.opening c) (p.perform c).2 := by
  cases c with
  | play => exact p.play_relates
  | pause => exact p.pause_relates
  | stop => exact p.stop_relates
  | seek time => exact seekTo_relates ((p.called_leads (.seek time)).trans (p.leave_leads _)) _
  | seekStep step => exact p.navigate_relates _ (.inl ⟨step, rfl⟩) sound.placed
  | nextStep => exact p.navigate_relates _ (.inr (.inl rfl)) sound.placed
  | previousStep => exact p.navigate_relates _ (.inr (.inr rfl)) sound.placed
  | setSpeed speed =>
    rw [perform_setSpeed]
    exact (p.called_leads (.setSpeed speed)).relates.frame _ _ _
  | tick elapsed => exact p.tick_relates elapsed sound.rests
  | narrationEnd token =>
    show Relates p ([.called (.narrationEnd token)] ++ [.delivered token]) _
    exact Relates.after (p.called_leads _) (p.onNarrationEnd_relates token sound.rests)

/-- A command puts its marks into the log, and the account stays right. -/
theorem perform_leads (sound : p.Sound) (c : Command T) : Leads p (p.marks c) (p.perform c).2 := by
  obtain ⟨es, performed⟩ := perform_relates sound c
  have told := congrArg (List.drop p.events.length) performed.events
  rw [List.drop_left, opening_events] at told
  rwa [marks, emitted, told]

theorem run_leads (sound : p.Sound) (commands : List (Command T)) :
    Leads p (p.log commands) (p.run commands) := by
  induction commands using List.reverseRecOn with
  | nil => exact .refl p
  | append_singleton commands c ih =>
    rw [log_snoc, run_snoc]
    exact ih.trans (perform_leads ((run_runs sound commands).sound sound) c)

/-! ### Runs -/

omit [Narrator T σ] [Narrow T G] in
theorem setUp_blank (captions : List Caption) (timeline : Timeline T G)
    (settings : List (Setting T G σ)) :
    (setUp captions timeline (settings.map Setting.transcribed)).captions = captionTexts captions ∧
      ∀ r, (setUp captions timeline (settings.map Setting.transcribed)).narrator = some r →
        r.texts = [] := by
  rw [setUp]
  induction settings using List.reverseRecOn with
  | nil =>
    refine ⟨rfl, fun r attached => ?_⟩
    cases attached
  | append_singleton settings s ih =>
    rw [List.map_append, List.foldl_append]
    cases s with
    | speed speed =>
      rw [List.map_singleton, Setting.transcribed, List.foldl_cons, configure, withSpeed_eq]
      exact ih
    | narrator narrator =>
      refine ⟨ih.1, ?_⟩
      rintro _ ⟨⟩
      rfl
    | _ => exact ih

omit [Narrator T σ] [Narrow T G] in
theorem setUp_recounts (captions : List Caption) (timeline : Timeline T G)
    (settings : List (Setting T G σ)) :
    Recounts {} (setUp captions timeline (settings.map Setting.transcribed)) := by
  obtain ⟨_, control, _⟩ := setUp_rests captions timeline (settings.map Setting.transcribed)
  obtain ⟨_, blank⟩ := setUp_blank captions timeline settings
  generalize setUp captions timeline (settings.map Setting.transcribed) = p at control blank
  have state : p.state = .stopped := congrArg Control.state control
  have current : p.current = none := congrArg Control.current control
  have spoken : p.spoken = none := congrArg Control.spoken control
  have pending : p.pending = none := congrArg Control.pending control
  have count : p.lastToken = 0 := congrArg Control.lastToken control
  have empty : p.transcript {} = [] := by
    unfold transcript
    split <;> rfl
  refine ⟨⟨by rw [state]; rfl, current, nofun, fun r attached => ?_, ?_⟩, spoken, ?_⟩
  · rw [blank r attached, empty]
  · rw [count, empty]
    rfl
  · rw [pending]
    nofun

end

end

variable {T G σ : Type} [Scalar T] [Scalar G] [Narrow T G] [Narrator T σ]

/-- A run with a transcriber is the run without it. What its narrator was asked to say is the texts of
the visits in which the player played, once for each; a visit in which it plays at the end of a command
is one of them. An utterance that is told to start is that of the visit that lasts. The text of a
visit is what is said by the first caption of its step that says anything. -/
theorem one_utterance_per_visit (captions : List Caption) (timeline : Timeline T G)
    (settings : List (Setting T G σ)) (commands : List (Command T)) :
    let start := setUp captions timeline (settings.map Setting.transcribed)
    let p := start.run commands
    let log := start.log commands
    (p.untranscribed = (setUp captions timeline settings).run commands ∧
      log = (setUp captions timeline settings).log commands) ∧
    (∀ r, p.narrator = some r → r.texts =
      if p.narrationEnabled then (visitsOf log).texts (Caption.said? captions) else []) ∧
    (∀ i, p.current = some i ↔ ∃ w, (visitsOf log).here = some w ∧ w.index = i) ∧
    (p.state = .playing → ∀ w, (visitsOf log).here = some w → w.played = true) ∧
    (∀ before step token after, log = before ++ .told (.narrationStarted step token) :: after →
      ∃ w text, (visitsOf before).here = some w ∧ w.step = step ∧
        w.text? (Caption.said? captions) = some text ∧
        token = ((visitsOf before).texts (Caption.said? captions)).length) ∧
    (∀ step, Caption.said? captions step = none ↔ ∀ c ∈ captions, c.step = step → c.Silent) ∧
    ∀ step text, Caption.said? captions step = some text ↔
      ∃ before c after, captions = before ++ c :: after ∧
        (∀ b ∈ before, b.step = step → b.Silent) ∧ c.step = step ∧ c.Says text := by
  intro start p log
  obtain ⟨_, control, _⟩ :=
    setUp_rests captions timeline (settings.map (Setting.transcribed (T := T) (G := G) (σ := σ)))
  have led : Leads start log p := run_leads (sound_of_initial control) commands
  obtain ⟨begun, recounts⟩ := led.recounts [] (setUp_recounts captions timeline settings)
  have said : p.caption? = Caption.said? captions := by
    funext step
    rw [led.caption?, ← captionTexts_get?, ← (setUp_blank captions timeline settings).1]
    rfl
  rw [← led.caption?, said] at begun
  refine ⟨run_transcribes captions timeline settings commands, ?_, ?_, ?_, ?_,
    fun step => Caption.said?_eq_none_iff, fun step text => Caption.said?_eq_some_iff⟩
  · intro r attached
    rw [recounts.texts r attached, transcript, said, narrationActive, attached, Option.isSome_some,
      Bool.and_true]
    rfl
  · intro i
    rw [recounts.current, Option.map_eq_some_iff]
    rfl
  · intro playing
    exact visitsOf_played log (recounts.playing.trans (decide_eq_true playing))
  · intro before step token after same
    rw [same] at begun
    exact begun.apply

/-- A pause does not repeat the caption of a step, and a jump back to its start does. -/
example :
    let timeline : Timeline Rat Rat := ⟨[], [⟨1, 0, 2⟩], {}, {}⟩
    let narrator : Transcriber (SimulatedNarrator Rat) := { inner := { charsPerSecond := 1 } }
    let start := setUp [⟨1, "One", " "⟩, ⟨1, "Two", ""⟩] timeline [.narrator narrator]
    (start.run [.play, .tick 1, .pause, .play, .seek 0]).narrator.map Transcriber.texts =
      some ["One", "One"] := by
  decide +kernel

end Player

end Storyboard
