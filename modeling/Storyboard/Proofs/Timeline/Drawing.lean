import Storyboard.Proofs.Timeline.Highlight
import Storyboard.Proofs.Timeline.Visibility

/-!
# Drawing edges

While an edge is drawn it can be seen, its drawn share is the progress of the drawing, and its label
is out of sight until the tail of the drawing brings it in. That holds for the first drawing of an
edge. An exit hides an edge but takes back neither its drawn share nor its label, so a later drawing
shows the whole edge at once (`drawing_seen`).
-/

namespace Storyboard

variable {T G : Type}

/-! ### Cues about an edge -/

namespace Cue

/-- Whether the cue draws an edge. -/
def draws (id : String) (c : Cue T G) : Bool :=
  match c.operation with
  | .draw edge _ => edge == id
  | _ => false

/-- Whether the cue reveals the label of an edge. -/
def labels (id : String) (c : Cue T G) : Bool :=
  match c.operation with
  | .revealLabel edge => edge == id
  | _ => false

/-- Whether the cue decides how much of an edge there is to see. -/
def concerns (id : String) (c : Cue T G) : Bool :=
  match c.operation with
  | .draw target _ | .leave target _ | .revealLabel target => target == id
  | _ => false

theorem concerns_of_draws {id : String} {c : Cue T G} (draws : c.draws id = true) :
    c.concerns id = true := by
  unfold Cue.draws at draws
  split at draws
  · next edge flow operation => simpa [concerns, operation] using draws
  · cases draws

theorem concerns_of_labels {id : String} {c : Cue T G} (labels : c.labels id = true) :
    c.concerns id = true := by
  unfold Cue.labels at labels
  split at labels
  · next edge operation => simpa [concerns, operation] using labels
  · cases labels

/-- The cue that reveals the label of an edge at the tail of its drawing. -/
def tail [Scalar T] (draw : Cue T G) (edge : String) : Cue T G :=
  .of (.revealLabel edge)
    (draw.start + draw.duration - draw.duration * Diagram.labelShare)
    (draw.duration * Diagram.labelShare) .linear

end Cue

variable [ExactScalar T]

/-- What a step that connects makes of an edge: its drawing and, if it has a label, the tail of the
drawing. -/
theorem Diagram.connectCues_eq (s : Step T) (e : Edge G × T) :
    let draw : Cue T G := .of (.draw e.1.id s.properties.flow) e.2 s.properties.drawTime
      (easeOf s .linear)
    connectCues s e = draw :: if e.1.label.isSome then [draw.tail e.1.id] else [] := by
  intro draw
  have lasting : draw.duration = s.properties.drawTime := by
    show Scalar.greatest s.properties.drawTime _ = _
    rw [ExactScalar.greatest_eq, ExactScalar.zero_eq, max_eq_left Properties.drawTime_nonneg]
  unfold Cue.tail
  rw [lasting]
  rfl

variable [ExactScalar G]

theorem tween_one (source target : G) : tween source target 1 = target := by
  rw [tween, ExactScalar.one_eq, if_pos (le_refl 1)]

theorem tween_zero_one (progress : G) : tween 0 1 progress = min progress 1 := by
  rw [tween, ExactScalar.one_eq, sub_zero, one_mul, zero_add]
  split
  · next done => exact (min_eq_right done).symm
  · next going => exact (min_eq_left (not_le.mp going).le).symm

theorem tween_one_one (progress : G) : tween 1 1 progress = 1 := by
  rw [tween, sub_self, zero_mul, add_zero, ite_self]

theorem Appearance.ofEdge_drawn (stroke : Color G) : (ofEdge stroke).drawn = 0 :=
  ExactScalar.zero_eq

theorem Appearance.ofEdge_labelOpacity (stroke : Color G) : (ofEdge stroke).labelOpacity = 0 :=
  ExactScalar.zero_eq

variable [ExactNarrow T G]

namespace Appearance

variable {id : String} {time : T} {c : Cue T G}

/-! ### One cue -/

theorem play_drawn (a : Appearance G) : (a.play id time c).drawn =
    if c.draws id then tween a.drawn 1 (narrow (c.progress time)) else a.drawn := by
  unfold play Cue.draws
  cases c.operation with
  | draw edge flow => by_cases same : edge = id <;> simp [Operation.target?, apply, same]
  | _ =>
    simp only [Bool.false_eq_true, if_false]
    split <;> rfl

theorem play_labelOpacity (a : Appearance G) : (a.play id time c).labelOpacity =
    if c.labels id then tween a.labelOpacity 1 (narrow (c.progress time)) else a.labelOpacity := by
  unfold play Cue.labels
  cases c.operation with
  | revealLabel edge => by_cases same : edge = id <;> simp [Operation.target?, apply, same]
  | _ =>
    simp only [Bool.false_eq_true, if_false]
    split <;> rfl

/-- Besides entrances, only exits and drawings change the opacity. -/
theorem play_opacity (never : ∀ effect, c.operation ≠ .enter id effect)
    (calm : c.concerns id = true → c.labels id = true) (a : Appearance G) :
    (a.play id time c).opacity = a.opacity := by
  unfold play
  split
  · next about =>
    cases operation : c.operation with
    | enter target effect =>
      rw [operation] at about
      obtain rfl := Option.some.inj about
      exact absurd operation (never effect)
    | leave target effect | draw target flow =>
      rw [operation] at about
      obtain rfl := Option.some.inj about
      simp [Cue.concerns, Cue.labels, operation] at calm
    | _ => rfl
  · rfl

/-! ### A run of cues -/

/-- A part of an appearance that some cues bring to one value, and all others leave, has that value
after any of them. -/
theorem foldl_play_read {β : Type} {read : Appearance G → β} {value : β} {writes : Cue T G → Bool}
    {played : List (Cue T G)} (each : ∀ c ∈ played, ∀ a : Appearance G,
      read (a.play id time c) = if writes c then value else read a) (a : Appearance G) :
    read (played.foldl (play id time) a) = if played.any writes then value else read a := by
  induction played generalizing a with
  | nil => rfl
  | cons c rest ih =>
    rw [List.foldl_cons, ih fun c later => each c (List.mem_cons_of_mem _ later),
      each c List.mem_cons_self, List.any_cons]
    cases writes c <;> cases rest.any writes <;> rfl

/-- A part of an appearance that all cues leave stays. -/
theorem foldl_play_keep {β : Type} (read : Appearance G → β) {played : List (Cue T G)}
    (each : ∀ c ∈ played, ∀ a : Appearance G, read (a.play id time c) = read a)
    (a : Appearance G) : read (played.foldl (play id time) a) = read a := by
  have nothing : read (played.foldl (play id time) a) =
      if played.any (fun _ => false) then read a else read a :=
    foldl_play_read (fun c member b => by simpa using each c member b) a
  rwa [ite_self] at nothing

end Appearance

/-- What cues that are over leave of an edge. -/
theorem Appearance.foldl_play_over {e : String} {played : List (Cue T G)} {time : T}
    (forward : ∀ c ∈ played, c.start ≤ c.stop)
    (ended : ∀ c ∈ played, c.concerns e = true → c.stop ≤ time) (a : Appearance G) :
    (played.foldl (play e time) a).drawn = (if played.any (Cue.draws e) then 1 else a.drawn) ∧
      (played.foldl (play e time) a).labelOpacity =
        if played.any (Cue.labels e) then 1 else a.labelOpacity := by
  have done {c : Cue T G} (member : c ∈ played) (concerns : c.concerns e = true) :
      (narrow (c.progress time) : G) = 1 := by
    rw [Cue.progress_of_stop (forward c member) (ended c member concerns), ExactNarrow.narrow_one]
  constructor
  · refine foldl_play_read (fun c member a => ?_) a
    rw [play_drawn]
    split
    · next draws => rw [done member (Cue.concerns_of_draws draws), tween_one]
    · rfl
  · refine foldl_play_read (fun c member a => ?_) a
    rw [play_labelOpacity]
    split
    · next labels => rw [done member (Cue.concerns_of_labels labels), tween_one]
    · rfl

/-- What cues of which only the tail of a drawing concerns an edge leave of it. -/
theorem Appearance.foldl_play_tail {e : String} {draw : Cue T G} {played : List (Cue T G)}
    {time : T} (never : ∀ c ∈ played, ∀ effect, c.operation ≠ .enter e effect)
    (only : ∀ c ∈ played, c.concerns e = true → c = draw.tail e) (a : Appearance G) :
    (played.foldl (play e time) a).opacity = a.opacity ∧
      (played.foldl (play e time) a).drawn = a.drawn ∧
      (draw.tail e ∉ played → (played.foldl (play e time) a).labelOpacity = a.labelOpacity) := by
  refine ⟨?_, ?_, fun absent => ?_⟩
  · refine foldl_play_keep opacity (fun c member a => ?_) a
    refine play_opacity (never c member) (fun concerns => ?_) a
    rw [only c member concerns]
    exact beq_self_eq_true e
  · refine foldl_play_keep drawn (fun c member a => ?_) a
    have still : ¬ c.draws e = true := by
      intro draws
      obtain rfl := only c member (Cue.concerns_of_draws draws)
      cases draws
    rw [play_drawn, if_neg still]
  · refine foldl_play_keep labelOpacity (fun c member a => ?_) a
    have still : ¬ c.labels e = true := by
      intro labels
      obtain rfl := only c member (Cue.concerns_of_labels labels)
      exact absent member
    rw [play_labelOpacity, if_neg still]

/-- What a drawing with progress makes of an edge. -/
theorem Appearance.play_draw {e : String} {flow : Flow} {draw : Cue T G} {time : T}
    (draws : draw.operation = .draw e flow) (progress : 0 < (narrow (draw.progress time) : G))
    (a : Appearance G) : (a.play e time draw).opacity = 1 ∧
      (a.play e time draw).drawn = tween a.drawn 1 (narrow (draw.progress time)) ∧
      (a.play e time draw).labelOpacity = a.labelOpacity := by
  have about : (Operation.draw (G := G) e flow).target? = some e := rfl
  rw [play, draws, if_pos about]
  simp [apply, progress]

namespace Diagram

variable {d : Diagram T G} {o : CompileOptions G}

theorem edge_never_enters (distinct : (d.nodeIds ++ d.edgeIds).Nodup) {e : String}
    (edge : e ∈ d.edgeIds) {c : Cue T G} (member : c ∈ (d.compile o).cues) (effect : Entrance) :
    c.operation ≠ .enter e effect := by
  intro enters
  have node := (cue_target member (by rw [enters]; rfl)).1 (by rw [enters]; rfl)
  exact (List.nodup_append.mp distinct).2.2 e node e edge rfl

/-- A drawing comes from a step that connects the edge, and so does the tail of it if the edge has a
label. -/
theorem exists_connect {e : String} {flow : Flow} {draw : Cue T G}
    (member : draw ∈ (d.compile o).cues) (draws : draw.operation = .draw e flow) :
    ∃ s ∈ d.steps, s.action = .connect ∧ ∃ edge ∈ d.edgeTargets s, edge.id = e ∧
      connectCues s (edge, draw.start) = (draw :: if edge.label.isSome then [draw.tail e] else []) ∧
      ∀ c ∈ connectCues s (edge, draw.start), c ∈ (d.compile o).cues := by
  rcases d.mem_made o ((d.mem_compile o).mp member) with ⟨number, marker⟩ |
    ⟨s, step, known, start, cued, made⟩
  · rw [draws] at marker
    cases marker
  · have connects : s.action = .connect := by
      have makes := d.stepCues_makes s o cued
      rw [draws] at makes
      cases makes with
      | draw action => exact action
    simp only [stepCues, connects, List.mem_flatMap] at cued made
    obtain ⟨⟨edge, time⟩, entry, own⟩ := cued
    have all : ∀ c ∈ connectCues s (edge, time), c ∈ (d.compile o).cues := fun c inside =>
      (d.mem_compile o).mpr (made c ⟨_, entry, inside⟩)
    have cues := connectCues_eq s (edge, time)
    rw [cues] at own
    rcases List.mem_cons.mp own with rfl | tail
    · obtain ⟨rfl, _⟩ := Operation.draw.inj draws
      exact ⟨s, step, connects, edge, mem_timed entry, rfl, cues, all⟩
    · split at tail
      · rw [List.mem_singleton.mp tail] at draws
        cases draws
      · cases tail

/-- While an edge is drawn, and no other cue that decides how much of it there is to see is under
way, it can be seen. If it has not been drawn before, its drawn share is the progress of the drawing,
and else all of it is drawn from the start. Until the tail of the drawing its label is out of sight,
unless an earlier cue has revealed it. Progress that has begun is above zero, also when it is rounded:
that is asked of the wave and of the rounding. The drawing comes from a step that connects the edge, and
so does its tail. -/
theorem drawing_seen (wave : ∀ x : T, 0 < x → x ≤ 1 → Scalar.cosPi x < 1)
    (sharp : ∀ x : T, 0 < x → 0 < (narrow x : G))
    (distinct : (d.nodeIds ++ d.edgeIds).Nodup) {e : String} {flow : Flow} {draw : Cue T G}
    {before after : List (Cue T G)} {time : T} (draws : draw.operation = .draw e flow)
    (played : (d.compile o).cues = before ++ draw :: after)
    (ended : ∀ c ∈ before, c.concerns e = true → c.stop ≤ draw.start)
    (waiting : ∀ c ∈ after, c.concerns e = true → c = draw.tail e ∨ draw.stop ≤ c.start)
    (begun : draw.start < time) (going : time < draw.stop) :
    (∃ s ∈ d.steps, s.action = .connect ∧ ∃ edge ∈ d.edgeTargets s, edge.id = e ∧
      connectCues s (edge, draw.start) = (draw :: if edge.label.isSome then [draw.tail e] else []) ∧
      ∀ c ∈ connectCues s (edge, draw.start), c ∈ (d.compile o).cues) ∧
    ∃ a, ((d.compile o).sample time).states.get? e = some a ∧ a.opacity = 1 ∧
      a.drawn = (if before.any (Cue.draws e) then 1 else min (narrow (draw.progress time)) 1) ∧
      ((draw.tail e ∈ after → time < (draw.tail e).start) →
        a.labelOpacity = if before.any (Cue.labels e) then 1 else 0) := by
  have inside {c : Cue T G} (place : c ∈ before ∨ c ∈ draw :: after) : c ∈ (d.compile o).cues :=
    played ▸ List.mem_append.mpr place
  have member : draw ∈ (d.compile o).cues := inside (.inr List.mem_cons_self)
  have edge : e ∈ d.edgeIds := (cue_target member (by rw [draws]; rfl)).2.1 (by rw [draws]; rfl)
  have within := d.compile_within o member
  have now : (d.compile o).cut time = time :=
    Timeline.cut_of_mem (within.1.trans begun.le) (going.le.trans within.2.2)
  have state := sample_get?_started (d.initial_edge o distinct edge) played (now.symm ▸ begun.le)
  rw [now] at state
  obtain ⟨drawn₁, label₁⟩ := Appearance.foldl_play_over
    (fun c first => (d.compile_within o (inside (.inl first))).forward)
    (fun c first concerns => (ended c first concerns).trans begun.le) (.ofEdge o.edgeStroke)
  obtain ⟨opacity₂, drawn₂, label₂⟩ := Appearance.play_draw draws
    (sharp _ (draw.progress_pos wave begun))
    (before.foldl (Appearance.play e time) (.ofEdge o.edgeStroke))
  -- Of the later cues that have started, only the tail of the drawing concerns the edge.
  have follows {c : Cue T G} (started : c ∈ after.takeWhile fun c => c.start ≤ time) :
      c ∈ after ∧ c.start ≤ time := by
    have soon := List.mem_takeWhile_imp started
    exact ⟨(List.takeWhile_prefix _).subset started, of_decide_eq_true soon⟩
  obtain ⟨opacity₃, drawn₃, label₃⟩ := Appearance.foldl_play_tail
    (fun c started => edge_never_enters distinct edge
      (inside (.inr (List.mem_cons_of_mem _ (follows started).1))))
    (fun c started concerns => (waiting c (follows started).1 concerns).resolve_right fun later =>
      absurd (later.trans (follows started).2) (not_le.mpr going))
    (Appearance.play e time (before.foldl (Appearance.play e time) (.ofEdge o.edgeStroke)) draw)
  refine ⟨exists_connect member draws, _, state, opacity₃.trans opacity₂, ?_, fun early => ?_⟩
  · rw [drawn₃, drawn₂, drawn₁, Appearance.ofEdge_drawn]
    split
    · exact tween_one_one _
    · exact tween_zero_one _
  · have absent : draw.tail e ∉ after.takeWhile fun c => c.start ≤ time := fun started =>
      absurd (follows started).2 (not_le.mpr (early (follows started).1))
    rw [label₃ absent, label₂, label₁, Appearance.ofEdge_labelOpacity]

/-- An edge with a label that is drawn, hidden and, a while later, drawn again. -/
def redrawn : Diagram Rat Rat where
  nodes := [{ id := "A", label := "A" }, { id := "B", label := "B" }]
  edges := [{ id := "A_to_B", source := "A", target := "B", label := some "x" }]
  steps :=
    [{ number := 1, action := .connect, targets := [.pair "A" "B"] },
      { number := 2, action := .hide, targets := [.entity "A_to_B"] },
      { number := 3, action := .connect, targets := [.pair "A" "B"]
        properties := ⟨[("delay", .number 1)]⟩ }]

/-- A drawing of the edge that starts at a given time. -/
def redrawing (start : Rat) : Cue Rat Rat := .of (.draw "A_to_B" default) start 2 .linear

/-- What is to be played, in order. -/
def redrawnCues : List (Cue Rat Rat) :=
  [.of (.step 1) 0 0 .linear, redrawing 0, (redrawing 0).tail "A_to_B",
    .of (.step 2) 2 0 .linear, .of (.leave "A_to_B" default) 2 1 default,
    .of (.step 3) 3 0 .linear, redrawing 4, (redrawing 4).tail "A_to_B"]

theorem redrawn_cues : (redrawn.compile .standard).cues = redrawnCues := by
  have sorted : (redrawn.compile .standard).cues = redrawn.made .standard :=
    List.mergeSort_of_pairwise (by decide +kernel)
  rw [sorted]
  decide +kernel

theorem redrawn_seen :
    (∃ a, ((redrawn.compile .standard).sample 1).states.get? "A_to_B" = some a ∧
      a.opacity = 1 ∧ a.drawn = 1 / 2 ∧ a.labelOpacity = 0) ∧
    ∃ a, ((redrawn.compile .standard).sample 5).states.get? "A_to_B" = some a ∧
      a.opacity = 1 ∧ a.drawn = 1 ∧ a.labelOpacity = 1 := by
  have wave : ∀ x : Rat, 0 < x → x ≤ 1 → Scalar.cosPi x < 1 := by
    intro x positive _
    show 1 - 2 * x < 1
    linarith
  have sharp : ∀ x : Rat, 0 < x → 0 < (narrow x : Rat) := fun _ positive => positive
  have distinct : (redrawn.nodeIds ++ redrawn.edgeIds).Nodup := by decide
  have draws (start : Rat) : (redrawing start).operation = .draw "A_to_B" default := rfl
  have first : (redrawn.compile .standard).cues =
      redrawnCues.take 1 ++ redrawing 0 :: redrawnCues.drop 2 := redrawn_cues
  have second : (redrawn.compile .standard).cues =
      redrawnCues.take 6 ++ redrawing 4 :: redrawnCues.drop 7 := redrawn_cues
  have early : (redrawing 0).start < 1 ∧ 1 < (redrawing 0).stop := by decide +kernel
  have late : (redrawing 4).start < 5 ∧ 5 < (redrawing 4).stop := by decide +kernel
  obtain ⟨-, a, found, opacity, drawn, label⟩ := drawing_seen wave sharp distinct (draws 0) first
    (by decide +kernel) (by decide +kernel) early.1 early.2
  obtain ⟨-, b, found', opacity', drawn', label'⟩ := drawing_seen wave sharp distinct (draws 4) second
    (by decide +kernel) (by decide +kernel) late.1 late.2
  refine ⟨⟨a, found, opacity, ?_, ?_⟩, b, found', opacity', ?_, ?_⟩
  · rw [drawn]
    decide +kernel
  · rw [label fun _ => by decide +kernel]
    decide +kernel
  · rw [drawn']
    decide +kernel
  · rw [label' fun _ => by decide +kernel]
    decide +kernel

/-- The second drawing begins when the edge is hidden and everything else about it is long over. It
shows all of the edge, with its label, when only half of its time has passed. -/
theorem redrawn_at_once :
    let t := redrawn.compile .standard
    ∃ (draw : Cue Rat Rat) (before after : List (Cue Rat Rat)),
      (redrawn.nodeIds ++ redrawn.edgeIds).Nodup ∧ t.cues = before ++ draw :: after ∧
      draw.operation = .draw "A_to_B" default ∧ 0 < draw.duration ∧
      (∀ c ∈ before, c.concerns "A_to_B" = true → c.stop < draw.start) ∧
      (∀ c ∈ after, c.concerns "A_to_B" = true → c = draw.tail "A_to_B") ∧
      ((Frame.sample t.initial before draw.start).states.get? "A_to_B").map Appearance.opacity =
        some 0 ∧
      draw.start < 5 ∧ 5 < draw.stop ∧ 5 < (draw.tail "A_to_B").start ∧
      ((t.sample 5).states.get? "A_to_B").map Appearance.drawn ≠
        some (min (narrow (draw.progress 5)) 1) ∧
      ((t.sample 5).states.get? "A_to_B").map Appearance.labelOpacity ≠ some 0 := by
  refine ⟨redrawing 4, redrawnCues.take 6, redrawnCues.drop 7, by decide, redrawn_cues, rfl, ?_⟩
  rw [Timeline.sample, redrawn_cues]
  decide +kernel

end Diagram

end Storyboard
