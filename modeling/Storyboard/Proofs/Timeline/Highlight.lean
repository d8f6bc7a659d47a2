import Mathlib.Algebra.Order.Field.Basic
import Storyboard.Proofs.Lists
import Storyboard.Proofs.Timeline.Frame
import Storyboard.Proofs.Timeline.Targets

/-!
# Highlights and their end

A cue that ends a highlight carries the base color of its node if a highlight of the node was made
before it (`made_restored`). When such a cue is over, the node has its base color until it is
highlighted again (`restored_fill`).
-/

namespace Storyboard

variable {T G : Type}

/-! ### Recorded colors -/

/-- Whether the cue gives an entity another color. -/
def Cue.recolors (id : String) (c : Cue T G) : Bool :=
  match c.operation with
  | .recolor target _ => target == id
  | _ => false

theorem Cue.recolors_iff {id : String} {c : Cue T G} :
    c.recolors id = true ↔ ∃ color, c.operation = .recolor id color := by
  unfold recolors
  split
  · next target color operation => simp [operation]
  · next other =>
    simp only [Bool.false_eq_true, false_iff, not_exists]
    intro color operation
    exact other id color operation

namespace Diagram

variable (d : Diagram T G) (o : CompileOptions G)

/-- The color that is recorded for an entity when cues have been made: its base color, from its
first highlight on. -/
def recorded (cues : List (Cue T G)) (id : String) : Option (Color G) :=
  if cues.any (Cue.recolors id) then some (d.baseColor o id) else none

variable {d o} in
theorem recorded_of_any {cues : List (Cue T G)} {id : String}
    (recolored : cues.any (Cue.recolors id) = true) :
    d.recorded o cues id = some (d.baseColor o id) :=
  if_pos recolored

variable {d o} in
theorem recorded_of_not_any {cues : List (Cue T G)} {id : String}
    (never : ¬ cues.any (Cue.recolors id) = true) : d.recorded o cues id = none :=
  if_neg never

theorem recorded_append (cues more : List (Cue T G)) (id : String) :
    d.recorded o (cues ++ more) id = (d.recorded o cues id).or (d.recorded o more id) := by
  unfold recorded
  rw [List.any_append]
  cases cues.any (Cue.recolors id) <;> simp

/-- The known colors are those recorded for the cues made so far, and a cue that ends a highlight
carries the one recorded before it. -/
structure Records (cues : List (Cue T G)) (known : OrderedMap String (Color G)) : Prop where
  known : ∀ id, known.get? id = d.recorded o cues id
  restored : ∀ earlier cue later id color, cues = earlier ++ cue :: later →
    cue.operation = .restore id color → color = d.recorded o earlier id

variable {d o}

theorem Records.append {cues more : List (Cue T G)} {known known' : OrderedMap String (Color G)}
    (h : d.Records o cues known)
    (learned : ∀ id, known'.get? id = (known.get? id).or (d.recorded o more id))
    (restored : ∀ middle cue later id color, more = middle ++ cue :: later →
      cue.operation = .restore id color → color = known.get? id ∧ d.recorded o middle id = none) :
    d.Records o (cues ++ more) known' := by
  refine ⟨?_, ?_⟩
  · intro id
    rw [learned, h.known, recorded_append]
  · intro earlier cue later id color same restores
    rcases append_eq_split same with ⟨rest, before⟩ | ⟨middle, rfl, after⟩
    · exact h.restored earlier cue rest id color before restores
    · obtain ⟨carried, none⟩ := restored middle cue later id color after restores
      rw [recorded_append, none, Option.or_none, carried, h.known]

variable [ExactScalar T] [Scalar G] [Narrow T G]

/-! ### Steps -/

theorem recolors_stepCues {s : Step T} {known : OrderedMap String (Color G)} {start : T}
    {id : String} : (d.stepCues s o known start).any (Cue.recolors id) = true ↔
      s.action = .highlight ∧ id ∈ d.nodeTargets s := by
  constructor
  · intro some
    obtain ⟨cue, member, recolors⟩ := List.any_eq_true.mp some
    obtain ⟨color, operation⟩ := Cue.recolors_iff.mp recolors
    have makes := d.stepCues_makes s o member
    rw [operation] at makes
    cases makes with
    | recolor action target => exact ⟨action, target⟩
  · rintro ⟨action, target⟩
    obtain ⟨time, entry⟩ := exists_mem_timed s start target
    refine List.any_eq_true.mpr ⟨.of (.recolor id (s.properties.color?.getD o.highlightColor)) time
      s.properties.duration (easeOf s default), ?_, Cue.recolors_iff.mpr ⟨_, rfl⟩⟩
    unfold stepCues
    rw [action]
    exact List.mem_flatMap.mpr ⟨_, entry, List.mem_cons_self⟩

theorem restore_stepCues {s : Step T} {known : OrderedMap String (Color G)} {start : T}
    {cue : Cue T G} (member : cue ∈ d.stepCues s o known start) {id : String}
    {color : Option (Color G)} (restores : cue.operation = .restore id color) :
    s.action = .unhighlight ∧ color = known.get? id := by
  have makes := d.stepCues_makes s o member
  rw [restores] at makes
  cases makes with
  | restore action => exact ⟨action, rfl⟩

theorem Records.step {cues : List (Cue T G)} {known : OrderedMap String (Color G)}
    (h : d.Records o cues known) (s : Step T) (start : T) :
    d.Records o (cues ++ (d.schedule o known s start).cues)
      (d.schedule o known s start).baseColors := by
  rw [schedule_cues, schedule_baseColors]
  refine h.append ?_ ?_
  · intro id
    by_cases highlight : s.action = .highlight
    · rw [if_pos highlight, OrderedMap.get?_foldl_insertNew]
      congr 1
      by_cases target : id ∈ d.nodeTargets s
      · rw [if_pos (List.contains_iff_mem.mpr target),
          recorded_of_any (recolors_stepCues.mpr ⟨highlight, target⟩)]
      · rw [if_neg (mt List.contains_iff_mem.mp target),
          recorded_of_not_any fun recolored => target (recolors_stepCues.mp recolored).2]
    · rw [if_neg highlight,
        recorded_of_not_any fun recolored => highlight (recolors_stepCues.mp recolored).1,
        Option.or_none]
  · intro middle cue later id color same restores
    have member : cue ∈ d.stepCues s o known start :=
      same ▸ List.mem_append_right _ List.mem_cons_self
    obtain ⟨action, carried⟩ := restore_stepCues member restores
    refine ⟨carried, recorded_of_not_any fun recolored => ?_⟩
    have all : (d.stepCues s o known start).any (Cue.recolors id) = true := by
      rw [same, List.any_append, recolored, Bool.true_or]
    rw [(recolors_stepCues.mp all).1] at action
    cases action

/-! ### Groups -/

theorem Records.steps {c : Compiled T G} (h : d.Records o c.cues c.baseColors) (start : T)
    (steps : List (Step T)) : d.Records o (steps.foldl (d.compileStep o start) c).cues
      (steps.foldl (d.compileStep o start) c).baseColors := by
  induction steps generalizing c with
  | nil => exact h
  | cons s rest ih => exact ih (c := d.compileStep o start c s) (h.step s start)

theorem Records.group {c : Compiled T G} (h : d.Records o c.cues c.baseColors)
    (group : Nat × List (Step T)) :
    d.Records o (d.compileGroup o c group).cues (d.compileGroup o c group).baseColors := by
  refine Records.steps (c := { c with cues := _ }) (h.append ?_ ?_) c.cursor group.2
  · intro id
    rw [recorded_of_not_any (by simp [Cue.recolors, Cue.of]), Option.or_none]
  · intro middle cue later id color same restores
    have member : cue ∈ middle ++ cue :: later := List.mem_append_right _ List.mem_cons_self
    rw [← same] at member
    rw [List.mem_singleton.mp member] at restores
    cases restores

theorem made_records (d : Diagram T G) (o : CompileOptions G) :
    d.Records o (d.made o) (d.compile o).baseColors := by
  have fold : ∀ (groups : List (Nat × List (Step T))) (c : Compiled T G),
      d.Records o c.cues c.baseColors → d.Records o (groups.foldl (d.compileGroup o) c).cues
        (groups.foldl (d.compileGroup o) c).baseColors := by
    intro groups
    induction groups with
    | nil => exact fun c h => h
    | cons group rest ih => exact fun c h => ih _ (h.group group)
  refine fold (groups d.steps) { cursor := (Scalar.ofNat 0 : T) } ⟨fun id => rfl, ?_⟩
  intro earlier cue later id color same
  simp at same

theorem made_restored {earlier later : List (Cue T G)} {undo : Cue T G} {id : String}
    {color : Option (Color G)} (made : d.made o = earlier ++ undo :: later)
    (undoes : undo.operation = .restore id color) : color = d.recorded o earlier id :=
  (d.made_records o).restored earlier undo later id color made undoes

end Diagram

/-! ### Fills -/

namespace Color

variable [ExactScalar G] {c other : Color G} {t : G}

theorem mix_of_le (done : 1 ≤ t) : c.mix other t = other := by
  have late : ¬ t ≤ 0 := not_le.mpr (one_pos.trans_le done)
  rw [mix, ExactScalar.zero_eq, ExactScalar.one_eq, if_neg late, if_pos done]

/-- Colors that look the same are mixed to one that looks like them. -/
theorem toSrgb_mix (same : c.toSrgb = other.toSrgb) : (c.mix other t).toSrgb = other.toSrgb := by
  unfold mix
  split
  · exact same
  · split
    · rfl
    · show c.toSrgb.zipWith (fun a b => a + (b - a) * t) other.toSrgb = other.toSrgb
      rw [same]
      simp [Components.zipWith]

theorem mix_self (t : G) : c.mix c t = c ∨ (0 < t ∧ t < 1) := by
  unfold mix
  rw [ExactScalar.zero_eq, ExactScalar.one_eq]
  split
  · exact .inl rfl
  · next begun =>
    split
    · exact .inl rfl
    · next going => exact .inr ⟨not_le.mp begun, not_le.mp going⟩

end Color

variable [ExactScalar T] [ExactScalar G] [ExactNarrow T G]

theorem Cue.underway {c : Cue T G} {time : T} (begun : 0 < (narrow (c.progress time) : G))
    (going : (narrow (c.progress time) : G) < 1) : c.start ≤ time ∧ time < c.stop := by
  have started : c.start ≤ time := by
    by_contra early
    rw [progress, if_pos (not_le.mp early), ExactScalar.zero_eq, ExactNarrow.narrow_zero] at begun
    exact lt_irrefl _ begun
  refine ⟨started, ?_⟩
  by_contra past
  rw [progress, if_neg (not_lt.mpr started), if_pos (not_lt.mp past), ExactScalar.one_eq,
    ExactNarrow.narrow_one] at going
  exact lt_irrefl _ going

namespace Appearance

variable {id : String} {time : T} {base : Color G}

/-- A cue that does not recolor a node leaves its fill or takes it back to the base color. -/
theorem play_fill {c : Cue T G} (calm : c.recolors id = false)
    (carried : ∀ color, c.operation = .restore id color → color = none ∨ color = some base)
    (a : Appearance G) : (a.play id time c).fill = a.fill ∨
      (∃ color, c.operation = .restore id color) ∧
        (a.play id time c).fill = a.blend base (narrow (c.progress time)) := by
  unfold play
  split
  · next about =>
    cases operation : c.operation with
    | recolor target color =>
      rw [operation] at about
      obtain rfl := Option.some.inj about
      rw [Cue.recolors_iff.mpr ⟨color, operation⟩] at calm
      cases calm
    | restore target color =>
      rw [operation] at about
      obtain rfl := Option.some.inj about
      rcases carried color operation with rfl | rfl
      · exact .inl rfl
      · exact .inr ⟨⟨_, rfl⟩, rfl⟩
    | _ => exact .inl rfl
  · exact .inl rfl

/-- One cue that does not recolor a node keeps a fill that looks like the base color, and the base
color itself unless it is just taking the node back there. -/
theorem play_same {c : Cue T G} (calm : c.recolors id = false)
    (carried : ∀ color, c.operation = .restore id color → color = none ∨ color = some base)
    {a : Appearance G} {fill : Color G} (filled : a.fill = some fill)
    (same : fill.toSrgb = base.toSrgb) :
    ∃ fill', (a.play id time c).fill = some fill' ∧ fill'.toSrgb = base.toSrgb ∧
      (fill = base → fill' = base ∨ (∃ color, c.operation = .restore id color) ∧
        c.start ≤ time ∧ time < c.stop) := by
  rcases play_fill calm carried a with kept | ⟨restores, blended⟩
  · exact ⟨fill, kept.trans filled, same, .inl⟩
  · refine ⟨fill.mix base (narrow (c.progress time)), ?_, Color.toSrgb_mix same, ?_⟩
    · rw [blended, blend, filled]
      rfl
    · rintro rfl
      refine (Color.mix_self _).imp_right ?_
      rintro ⟨begun, going⟩
      exact ⟨restores, Cue.underway begun going⟩

theorem foldl_play_same (played : List (Cue T G))
    (calm : ∀ c ∈ played, c.recolors id = false)
    (carried : ∀ c ∈ played, ∀ color, c.operation = .restore id color →
      color = none ∨ color = some base)
    {a : Appearance G} {fill : Color G} (filled : a.fill = some fill)
    (same : fill.toSrgb = base.toSrgb) :
    ∃ fill', (played.foldl (play id time) a).fill = some fill' ∧ fill'.toSrgb = base.toSrgb ∧
      (fill = base → fill' = base ∨ ∃ c ∈ played, (∃ color, c.operation = .restore id color) ∧
        c.start ≤ time ∧ time < c.stop) := by
  induction played generalizing a fill with
  | nil => exact ⟨fill, filled, same, .inl⟩
  | cons c rest ih =>
    obtain ⟨first, filled₁, same₁, step⟩ := play_same (calm c List.mem_cons_self)
      (carried c List.mem_cons_self) filled same
    obtain ⟨last, filled₂, same₂, run⟩ := ih
      (fun c member => calm c (List.mem_cons_of_mem _ member))
      (fun c member => carried c (List.mem_cons_of_mem _ member)) filled₁ same₁
    refine ⟨last, filled₂, same₂, fun start => ?_⟩
    rcases step start with still | underway
    · refine (run still).imp_right ?_
      rintro ⟨c', member, underway⟩
      exact ⟨c', List.mem_cons_of_mem _ member, underway⟩
    · exact .inr ⟨c, List.mem_cons_self, underway⟩

end Appearance

namespace Diagram

variable {d : Diagram T G} {o : CompileOptions G}

/-- A cue that ends a highlight carries no color but the base color. -/
theorem restore_carries {c : Cue T G} (member : c ∈ (d.compile o).cues) {id : String}
    {color : Option (Color G)} (restores : c.operation = .restore id color) :
    color = none ∨ color = some (d.baseColor o id) := by
  obtain ⟨earlier, later, made⟩ := List.append_of_mem ((d.mem_compile o).mp member)
  rw [made_restored made restores]
  unfold recorded
  split
  · exact .inr rfl
  · exact .inl rfl

/-- What has started when a cue has: the cues before it, the cue, and those of the later ones that
have started. -/
theorem takeWhile_started {before after : List (Cue T G)} {cue : Cue T G} {time : T}
    (played : (d.compile o).cues = before ++ cue :: after) (started : cue.start ≤ time) :
    (d.compile o).cues.takeWhile (fun c => c.start ≤ time) =
      before ++ cue :: after.takeWhile (fun c => c.start ≤ time) := by
  have sorted := (d.compile_plays o).sorted
  rw [played, List.pairwise_append] at sorted
  have early : ∀ c ∈ before, decide (c.start ≤ time) = true := fun c first =>
    decide_eq_true ((sorted.2.2 c first cue List.mem_cons_self).trans started)
  rw [played, List.takeWhile_append_of_pos early]
  simp [started]

/-- A frame at a time at which a cue has started shows what it makes of the work of the cues before
it, changed by what has come after. -/
theorem sample_get?_started {id : String} {initial : Appearance G}
    (found : (d.compile o).initial.get? id = some initial)
    {before after : List (Cue T G)} {cue : Cue T G} {time : T}
    (played : (d.compile o).cues = before ++ cue :: after)
    (started : cue.start ≤ (d.compile o).cut time) :
    ((d.compile o).sample time).states.get? id = some
      ((after.takeWhile (fun c => c.start ≤ (d.compile o).cut time)).foldl
        (Appearance.play id ((d.compile o).cut time))
        (Appearance.play id ((d.compile o).cut time)
          (before.foldl (Appearance.play id ((d.compile o).cut time)) initial) cue)) := by
  rw [Timeline.sample, Frame.sample_get?, found, takeWhile_started played started, Option.map_some,
    List.foldl_append, List.foldl_cons]

/-- Let a cue end a highlight of a node, where a highlight of the node was made before it. When it
is over, and until the node is highlighted again, the fill of the node looks like its base color. It
is the base color, unless a later cue is just ending a highlight of the node. -/
theorem restored_fill {id : String} {color : Option (Color G)} {undo : Cue T G}
    {earlier later before after : List (Cue T G)} {time : T}
    (undoes : undo.operation = .restore id color)
    (made : d.made o = earlier ++ undo :: later)
    (highlighted : ∃ c ∈ earlier, c.recolors id = true)
    (played : (d.compile o).cues = before ++ undo :: after)
    (past : undo.stop ≤ time)
    (calm : ∀ c ∈ after, c.recolors id = true → time < c.start) :
    ∃ a fill, ((d.compile o).sample time).states.get? id = some a ∧ a.fill = some fill ∧
      fill.toSrgb = (d.baseColor o id).toSrgb ∧
      (fill = d.baseColor o id ∨ ∃ c ∈ after, (∃ color, c.operation = .restore id color) ∧
        c.start ≤ time ∧ time < c.stop) := by
  have member : undo ∈ (d.compile o).cues := played ▸ List.mem_append_right _ List.mem_cons_self
  have within := d.compile_within o member
  have shown : undo.stop ≤ (d.compile o).cut time := Timeline.le_cut past within.2.2
  have positive : 0 ≤ time := (within.1.trans within.forward).trans past
  have early : (d.compile o).cut time ≤ time := Timeline.cut_le positive
  have carries : color = some (d.baseColor o id) := by
    obtain ⟨c, first, recolors⟩ := highlighted
    rw [made_restored made undoes]
    exact recorded_of_any (List.any_eq_true.mpr ⟨c, first, recolors⟩)
  have node : id ∈ d.nodeIds := by
    have allowed := d.made_allowed o ((d.mem_compile o).mp member)
    rwa [undoes] at allowed
  obtain ⟨initial, found⟩ := Option.isSome_iff_exists.mp ((d.isSome_initial o).mpr (.inl node))
  have state := sample_get?_started found played (within.forward.trans shown)
  generalize before.foldl (Appearance.play id ((d.compile o).cut time)) initial = a at state
  have restored : (a.play id ((d.compile o).cut time) undo).fill = some (d.baseColor o id) := by
    have target : (Operation.restore id color).target? = some id := rfl
    rw [Appearance.play, undoes, if_pos target, Cue.progress_of_stop within.forward shown,
      ExactNarrow.narrow_one, carries]
    exact congrArg some (Color.mix_of_le (le_refl 1))
  generalize started : after.takeWhile (fun c => c.start ≤ (d.compile o).cut time) = begun at state
  have follows : ∀ c ∈ begun, c ∈ after ∧ c.start ≤ time := by
    subst started
    intro c first
    have soon := List.mem_takeWhile_imp first
    exact ⟨(List.takeWhile_prefix _).subset first, (of_decide_eq_true soon).trans early⟩
  have inside : ∀ c ∈ after, c ∈ (d.compile o).cues := fun c late =>
    played ▸ List.mem_append_right _ (List.mem_cons_of_mem _ late)
  have still : ∀ c ∈ begun, c.recolors id = false := by
    intro c first
    obtain ⟨late, soon⟩ := follows c first
    by_contra recolors
    rw [Bool.not_eq_false] at recolors
    exact absurd soon (not_le.mpr (calm c late recolors))
  have carried : ∀ c ∈ begun, ∀ color, c.operation = .restore id color →
      color = none ∨ color = some (d.baseColor o id) := fun c first color restores =>
    restore_carries (inside c (follows c first).1) restores
  obtain ⟨fill, filled, same, base⟩ := Appearance.foldl_play_same begun still carried restored rfl
  refine ⟨_, fill, state, filled, same, (base rfl).imp_right ?_⟩
  rintro ⟨c, first, restores, _, going⟩
  obtain ⟨late, soon⟩ := follows c first
  refine ⟨c, late, restores, soon, ?_⟩
  by_contra ended
  have stopped := Timeline.le_cut (not_lt.mp ended) (d.compile_within o (inside c late)).2.2
  exact absurd going (not_lt.mpr stopped)

/-- A node that is highlighted in one step and no longer in the next. -/
def highlighted : Diagram Rat Rat where
  nodes := [{ id := "A", label := "A" }]
  steps :=
    [{ number := 1, action := .highlight, targets := [.entity "A"] },
      { number := 2, action := .unhighlight, targets := [.entity "A"] }]

theorem highlighted_restored :
    ∃ (undo : Cue Rat Rat) (earlier : List (Cue Rat Rat)),
      undo.operation = .restore "A" (some (highlighted.baseColor .standard "A")) ∧
      highlighted.made .standard = earlier ++ [undo] ∧ (∃ c ∈ earlier, c.recolors "A" = true) ∧
      (highlighted.compile .standard).cues = earlier ++ [undo] ∧ undo.stop ≤ 3 ∧
      ∃ a, ((highlighted.compile .standard).sample 3).states.get? "A" = some a ∧
        a.fill = some (highlighted.baseColor .standard "A") := by
  have made : highlighted.made .standard = (highlighted.made .standard).take 3 ++
      [.of (.restore "A" (some (highlighted.baseColor .standard "A"))) 1 1 default] := by
    decide +kernel
  have recolored : ∃ c ∈ (highlighted.made .standard).take 3, c.recolors "A" = true := by
    decide +kernel
  have sorted : (highlighted.compile .standard).cues = highlighted.made .standard :=
    List.mergeSort_of_pairwise (by decide +kernel)
  have past : (Cue.of (.restore "A" (some (highlighted.baseColor .standard "A"))) 1 1 default :
      Cue Rat Rat).stop ≤ 3 := by decide +kernel
  obtain ⟨a, fill, found, filled, _, base | ⟨c, later, _⟩⟩ :=
    restored_fill rfl made recolored (sorted.trans made) past (by simp)
  · have exactly := filled.trans (congrArg some base)
    exact ⟨_, _, rfl, made, recolored, sorted.trans made, past, a, found, exactly⟩
  · cases later

/-- A node whose highlight is ended late in the step that begins it; the end is written first. -/
def swapped : Diagram Rat Rat where
  nodes := [{ id := "A", label := "A" }]
  steps :=
    [{ number := 1, action := .unhighlight, targets := [.entity "A"]
       properties := ⟨[("delay", .number 2)]⟩ },
      { number := 1, action := .highlight, targets := [.entity "A"] }]

/-- An end that is written before the highlight does not undo it. -/
theorem swapped_not_restored :
    ∃ (undo highlight : Cue Rat Rat) (before : List (Cue Rat Rat)),
      (swapped.compile .standard).cues = before ++ [highlight, undo] ∧
      highlight.recolors "A" = true ∧ (∃ color, undo.operation = .restore "A" color) ∧
      undo.stop ≤ 3 ∧
      (((swapped.compile .standard).sample 3).states.get? "A").bind Appearance.fill ≠
        some (swapped.baseColor .standard "A") := by
  have made : swapped.made .standard =
      [.of (.step 1) 0 0 .linear, .of (.restore "A" none) 2 1 default,
        .of (.recolor "A" CompileOptions.standard.highlightColor) 0 1 default] := by
    decide +kernel
  have sorted : (swapped.compile .standard).cues =
      [.of (.step 1) 0 0 .linear,
        .of (.recolor "A" CompileOptions.standard.highlightColor) 0 1 default,
        .of (.restore "A" none) 2 1 default] := by
    show (swapped.made .standard).mergeSort _ = _
    rw [made]
    simp [List.mergeSort, List.MergeSort.Internal.splitInTwo, Cue.of]
  refine ⟨_, _, [_], sorted, rfl, ⟨none, rfl⟩, by decide +kernel, ?_⟩
  rw [Timeline.sample, sorted]
  decide +kernel

end Diagram

end Storyboard
