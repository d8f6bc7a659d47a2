import Storyboard.Proofs.Timeline.Schedule

/-!
# The cues of a step

`Diagram.stepCues` lists the cues of a step target by target, and `Diagram.Makes` says what they can
do. `schedule_cues` shows that these are the cues that `Diagram.schedule` makes, and
`schedule_baseColors` which base colors are known afterwards.
-/

namespace Storyboard

namespace Diagram

variable {T G : Type} [Scalar T]

/-- The targets of a step, each with the time at which its cues start. -/
def timed {α : Type} (s : Step T) (start : T) (targets : List α) : List (α × T) :=
  targets.zipIdx.map fun e =>
    (e.1, start + s.properties.delay + Scalar.ofNat e.2 * s.properties.stagger)

theorem mem_timed {α : Type} {s : Step T} {start : T} {targets : List α} {e : α × T}
    (member : e ∈ timed s start targets) : e.1 ∈ targets := by
  obtain ⟨⟨target, i⟩, inside, rfl⟩ := List.mem_map.mp member
  exact List.fst_mem_of_mem_zipIdx inside

theorem exists_mem_timed {α : Type} (s : Step T) (start : T) {targets : List α} {target : α}
    (member : target ∈ targets) : ∃ time, (target, time) ∈ timed s start targets := by
  obtain ⟨i, found⟩ := List.getElem?_of_mem member
  have inside : (target, i) ∈ targets.zipIdx := List.mem_zipIdx_iff_getElem?.mpr found
  exact ⟨_, List.mem_map_of_mem inside⟩

variable [Scalar G] [Narrow T G]

section

variable (d : Diagram T G) (s : Step T)

def highlightCues (o : CompileOptions G) (e : String × T) : List (Cue T G) :=
  let p := s.properties
  .of (.recolor e.1 (p.color?.getD o.highlightColor)) e.2 p.duration (easeOf s default) ::
    (if p.flag "glow" then [.of (.glow e.1) e.2 p.duration (easeOf s default)] else []) ++
    (if p.flag "pulse" then [.of (.pulse e.1) e.2 p.duration .inOutSine] else [])

def connectCues (e : Edge G × T) : List (Cue T G) :=
  let draw := s.properties.drawTime
  .of (.draw e.1.id s.properties.flow) e.2 draw (easeOf s .linear) ::
    if e.1.label.isSome then
      [.of (.revealLabel e.1.id) (e.2 + draw - draw * labelShare) (draw * labelShare) .linear]
    else []

def moveCues (e : String × T) : List (Cue T G) :=
  ((d.shift? s e.1).map fun (offset, relative) =>
    .of (.move e.1 offset relative) e.2 s.properties.duration (easeOf s default)).toList

def transformCues (e : String × T) : List (Cue T G) :=
  let scale : Option G := s.properties.scale?
  let rotation : Option G := s.properties.rotation?
  (if scale.isSome || rotation.isSome then
    [.of (.transform e.1 scale rotation) e.2 s.properties.duration (easeOf s default)]
  else []) ++ d.moveCues s e

variable {d s}

omit [Scalar G] [Narrow T G] in
theorem operation_of_mem_connectCues {e : Edge G × T} {c : Cue T G} (member : c ∈ connectCues s e) :
    (∃ flow, c.operation = .draw e.1.id flow) ∨ c.operation = .revealLabel e.1.id := by
  rcases List.mem_cons.mp member with rfl | label
  · exact .inl ⟨_, rfl⟩
  · split at label
    · exact .inr (List.mem_singleton.mp label ▸ rfl)
    · cases label

theorem operation_of_mem_highlightCues {o : CompileOptions G} {e : String × T} {c : Cue T G}
    (member : c ∈ highlightCues s o e) :
    (∃ color, c.operation = .recolor e.1 color) ∨ c.operation = .glow e.1 ∨
      c.operation = .pulse e.1 := by
  rcases List.mem_cons.mp member with rfl | extra
  · exact .inl ⟨_, rfl⟩
  · refine .inr ((List.mem_append.mp extra).imp ?_ ?_)
    · intro glow
      split at glow
      · exact List.mem_singleton.mp glow ▸ rfl
      · cases glow
    · intro pulse
      split at pulse
      · exact List.mem_singleton.mp pulse ▸ rfl
      · cases pulse

theorem operation_of_mem_moveCues {e : String × T} {c : Cue T G} (member : c ∈ d.moveCues s e) :
    ∃ offset relative, c.operation = .move e.1 offset relative := by
  obtain ⟨shift, _, rfl⟩ := Option.map_eq_some_iff.mp (Option.mem_toList.mp member)
  exact ⟨_, _, rfl⟩

theorem operation_of_mem_transformCues {e : String × T} {c : Cue T G}
    (member : c ∈ d.transformCues s e) :
    (∃ scale rotation, c.operation = .transform e.1 scale rotation) ∨
      ∃ offset relative, c.operation = .move e.1 offset relative := by
  refine (List.mem_append.mp member).imp ?_ operation_of_mem_moveCues
  intro turn
  split at turn
  · obtain rfl := List.mem_singleton.mp turn
    exact ⟨_, _, rfl⟩
  · cases turn

variable (d s)

/-- The cues of a step, target by target, where some base colors are known. -/
def stepCues (o : CompileOptions G) (known : OrderedMap String (Color G)) (start : T) :
    List (Cue T G) :=
  let p := s.properties
  let ease := easeOf s default
  match s.action with
  | .reveal => (timed s start (d.nodeTargets s)).flatMap fun e =>
      [.of (.enter e.1 p.entrance) e.2 p.duration ease]
  | .hide => (timed s start (d.entityTargets s)).flatMap fun e =>
      [.of (.leave e.1 p.exit) e.2 p.duration ease]
  | .highlight => (timed s start (d.nodeTargets s)).flatMap (highlightCues s o)
  | .unhighlight => (timed s start (d.nodeTargets s)).flatMap fun e =>
      [.of (.restore e.1 (known.get? e.1)) e.2 p.duration ease]
  | .connect => (timed s start (d.edgeTargets s)).flatMap (connectCues s)
  | .camera => ((d.cameraMove? o s).map fun move =>
      .of (.camera move) (start + p.delay) p.duration ease).toList
  | .move => (timed s start (d.entityTargets s)).flatMap (d.moveCues s)
  | .transform => (timed s start (d.entityTargets s)).flatMap (d.transformCues s)
  | .annotate => []

/-- What a step can do, by its action, where some base colors are known. -/
inductive Makes (known : OrderedMap String (Color G)) : Operation G → Prop where
  | enter {id : String} {effect : Entrance} (action : s.action = .reveal)
      (target : id ∈ d.nodeTargets s) : Makes known (.enter id effect)
  | leave {id : String} {effect : Exit} (action : s.action = .hide)
      (target : id ∈ d.entityTargets s) : Makes known (.leave id effect)
  | recolor {id : String} {color : Color G} (action : s.action = .highlight)
      (target : id ∈ d.nodeTargets s) : Makes known (.recolor id color)
  | glow {id : String} (action : s.action = .highlight)
      (target : id ∈ d.nodeTargets s) : Makes known (.glow id)
  | pulse {id : String} (action : s.action = .highlight)
      (target : id ∈ d.nodeTargets s) : Makes known (.pulse id)
  | restore {id : String} (action : s.action = .unhighlight)
      (target : id ∈ d.nodeTargets s) : Makes known (.restore id (known.get? id))
  | draw {e : Edge G} {flow : Flow} (action : s.action = .connect)
      (target : e ∈ d.edgeTargets s) : Makes known (.draw e.id flow)
  | revealLabel {e : Edge G} (action : s.action = .connect)
      (target : e ∈ d.edgeTargets s) : Makes known (.revealLabel e.id)
  | camera {move : CameraMove G} (action : s.action = .camera) : Makes known (.camera move)
  | move {id : String} {offset : Point G} {relative : Bool}
      (action : s.action = .move ∨ s.action = .transform)
      (target : id ∈ d.entityTargets s) : Makes known (.move id offset relative)
  | transform {id : String} {scale rotation : Option G} (action : s.action = .transform)
      (target : id ∈ d.entityTargets s) : Makes known (.transform id scale rotation)

theorem stepCues_makes (o : CompileOptions G) {known : OrderedMap String (Color G)} {start : T}
    {c : Cue T G} (member : c ∈ d.stepCues s o known start) : d.Makes s known c.operation := by
  unfold stepCues at member
  dsimp only at member
  cases action : s.action with
  | reveal =>
    simp only [action, List.mem_flatMap, List.mem_singleton] at member
    obtain ⟨e, entry, rfl⟩ := member
    exact .enter action (mem_timed entry)
  | hide =>
    simp only [action, List.mem_flatMap, List.mem_singleton] at member
    obtain ⟨e, entry, rfl⟩ := member
    exact .leave action (mem_timed entry)
  | highlight =>
    simp only [action, List.mem_flatMap] at member
    obtain ⟨e, entry, added⟩ := member
    have target := mem_timed entry
    rcases operation_of_mem_highlightCues added with ⟨color, same⟩ | same | same
    · exact same ▸ .recolor action target
    · exact same ▸ .glow action target
    · exact same ▸ .pulse action target
  | unhighlight =>
    simp only [action, List.mem_flatMap, List.mem_singleton] at member
    obtain ⟨e, entry, rfl⟩ := member
    exact .restore action (mem_timed entry)
  | connect =>
    simp only [action, List.mem_flatMap] at member
    obtain ⟨e, entry, added⟩ := member
    have target := mem_timed entry
    rcases operation_of_mem_connectCues added with ⟨flow, same⟩ | same
    · exact same ▸ .draw action target
    · exact same ▸ .revealLabel action target
  | camera =>
    simp only [action, Option.mem_toList, Option.map_eq_some_iff] at member
    obtain ⟨move, _, rfl⟩ := member
    exact .camera action
  | move =>
    simp only [action, List.mem_flatMap] at member
    obtain ⟨e, entry, added⟩ := member
    obtain ⟨offset, relative, same⟩ := operation_of_mem_moveCues added
    exact same ▸ .move (.inl action) (mem_timed entry)
  | transform =>
    simp only [action, List.mem_flatMap] at member
    obtain ⟨e, entry, added⟩ := member
    have target := mem_timed entry
    rcases operation_of_mem_transformCues added with ⟨scale, rotation, same⟩ | ⟨offset, relative, same⟩
    · exact same ▸ .transform action target
    · exact same ▸ .move (.inr action) target
  | annotate =>
    simp only [action] at member
    cases member

end

/-! ### Working through targets -/

namespace Scheduled

omit [Scalar G] [Narrow T G] in
theorem await_cues (r : Scheduled T G) (c : Cue T G) : (r.await c).cues = r.cues ++ [c] := rfl

omit [Scalar T] [Scalar G] [Narrow T G] in
theorem accompanyIf_cues (r : Scheduled T G) (wanted : Bool) (c : Cue T G) :
    (r.accompanyIf wanted c).cues = r.cues ++ if wanted then [c] else [] := by
  cases wanted <;> simp [accompanyIf, accompany]

omit [Scalar T] [Scalar G] [Narrow T G] in
theorem accompanyIf_baseColors (r : Scheduled T G) (wanted : Bool) (c : Cue T G) :
    (r.accompanyIf wanted c).baseColors = r.baseColors := by
  cases wanted <;> rfl

end Scheduled

section

variable {α : Type} {f : Scheduled T G → α → T → Scheduled T G}

omit [Scalar G] [Narrow T G] in
/-- Every target adds its cues and keeps `P`, on which what it adds may depend. -/
theorem staggered_cues {P : Scheduled T G → Prop} {g : α × T → List (Cue T G)} {s : Step T}
    {start : T} {idle : Scheduled T G} (targets : List α) (empty : idle.cues = []) (holds : P idle)
    (each : ∀ r target time, P r →
      (f r target time).cues = r.cues ++ g (target, time) ∧ P (f r target time)) :
    (staggered (start + s.properties.delay) s.properties.stagger f idle targets).cues =
      (timed s start targets).flatMap g := by
  have entries : ∀ (es : List (α × Nat)) (r : Scheduled T G), P r →
      (es.foldl (fun r e => f r e.1 (start + s.properties.delay +
        Scalar.ofNat e.2 * s.properties.stagger)) r).cues =
      r.cues ++ (es.map fun e => (e.1, start + s.properties.delay +
        Scalar.ofNat e.2 * s.properties.stagger)).flatMap g := by
    intro es
    induction es with
    | nil => simp
    | cons e rest ih =>
      intro r holds
      obtain ⟨added, kept⟩ := each r e.1 (start + s.properties.delay +
        Scalar.ofNat e.2 * s.properties.stagger) holds
      rw [List.foldl_cons, ih _ kept, added]
      simp
  have all := entries targets.zipIdx idle holds
  rwa [empty, List.nil_append] at all

omit [Scalar G] [Narrow T G] in
theorem staggered_baseColors {start stagger : T}
    {g : OrderedMap String (Color G) → α → OrderedMap String (Color G)}
    (each : ∀ r target time, (f r target time).baseColors = g r.baseColors target)
    (idle : Scheduled T G) (targets : List α) :
    (staggered start stagger f idle targets).baseColors = targets.foldl g idle.baseColors := by
  have entries : ∀ (es : List (α × Nat)) (r : Scheduled T G),
      (es.foldl (fun r e => f r e.1 (start + Scalar.ofNat e.2 * stagger)) r).baseColors =
        (es.map Prod.fst).foldl g r.baseColors := by
    intro es
    induction es with
    | nil => intro r; rfl
    | cons e rest ih =>
      intro r
      rw [List.foldl_cons, ih, each]
      rfl
  have all := entries targets.zipIdx idle
  rwa [List.zipIdx_map_fst] at all

omit [Scalar G] [Narrow T G] in
theorem staggered_baseColors_same {start stagger : T}
    (each : ∀ r target time, (f r target time).baseColors = r.baseColors)
    (idle : Scheduled T G) (targets : List α) :
    (staggered start stagger f idle targets).baseColors = idle.baseColors := by
  rw [staggered_baseColors (g := fun known _ => known) each]
  exact List.foldl_fixed targets

end

/-! ### Steps -/

theorem schedule_cues (d : Diagram T G) (o : CompileOptions G)
    (known : OrderedMap String (Color G)) (s : Step T) (start : T) :
    (d.schedule o known s start).cues = d.stepCues s o known start := by
  unfold schedule stepCues
  cases s.action with
  | reveal =>
    refine staggered_cues (P := fun _ => True) _ rfl trivial fun r id time _ => ?_
    exact ⟨rfl, trivial⟩
  | hide =>
    refine staggered_cues (P := fun _ => True) _ rfl trivial fun r id time _ => ?_
    exact ⟨rfl, trivial⟩
  | highlight =>
    refine staggered_cues (P := fun _ => True) _ rfl trivial fun r id time _ => ?_
    simp [Scheduled.accompanyIf_cues, Scheduled.await_cues, highlightCues]
  | unhighlight =>
    -- The base colors stay the same, so each color is the one known at first.
    refine staggered_cues (P := fun r => r.baseColors = known) _ rfl rfl ?_
    rintro r id time rfl
    exact ⟨rfl, rfl⟩
  | connect =>
    refine staggered_cues (P := fun _ => True) _ rfl trivial fun r e time _ => ?_
    simp [Scheduled.accompanyIf_cues, Scheduled.await_cues, connectCues]
  | camera =>
    dsimp only
    cases d.cameraMove? o s <;> rfl
  | move =>
    refine staggered_cues (P := fun _ => True) _ rfl trivial fun r id time _ => ?_
    cases shift : (d.shift? s id : Option (Point G × Bool)) <;>
      simp [Scheduled.await_cues, moveCues, shift]
  | transform =>
    refine staggered_cues (P := fun _ => True) _ rfl trivial fun r id time _ => ?_
    dsimp only
    generalize turned : (if (s.properties.scale? : Option G).isSome ||
      (s.properties.rotation? : Option G).isSome then
        r.await (.of (.transform id s.properties.scale? s.properties.rotation?) time
          s.properties.duration (easeOf s default)) else r) = turn
    have added : turn.cues = r.cues ++ if (s.properties.scale? : Option G).isSome ||
        (s.properties.rotation? : Option G).isSome then
          [.of (.transform id s.properties.scale? s.properties.rotation?) time
            s.properties.duration (easeOf s default)] else [] := by
      subst turned
      split <;> simp [Scheduled.await_cues]
    cases shift : (d.shift? s id : Option (Point G × Bool)) <;>
      simp [Scheduled.await_cues, moveCues, transformCues, shift, added]
  | annotate => rfl

/-- Only a highlight makes base colors known, those of its targets. -/
theorem schedule_baseColors (d : Diagram T G) (o : CompileOptions G)
    (known : OrderedMap String (Color G)) (s : Step T) (start : T) :
    (d.schedule o known s start).baseColors =
      if s.action = .highlight then
        (d.nodeTargets s).foldl (fun known id => known.insertNew id (d.baseColor o id)) known
      else known := by
  unfold schedule
  cases s.action with
  | highlight =>
    refine staggered_baseColors (fun r id time => ?_) _ _
    simp [Scheduled.accompanyIf_baseColors, Scheduled.await]
  | camera =>
    dsimp only
    cases d.cameraMove? o s <;> rfl
  | annotate => rfl
  | move =>
    refine staggered_baseColors_same (fun r id time => ?_) _ _
    split <;> rfl
  | transform =>
    refine staggered_baseColors_same (fun r id time => ?_) _ _
    dsimp only
    split <;> split <;> rfl
  | connect =>
    refine staggered_baseColors_same (fun r e time => ?_) _ _
    simp [Scheduled.accompanyIf_baseColors, Scheduled.await]
  | _ =>
    refine staggered_baseColors_same (fun r id time => ?_) _ _
    rfl

end Diagram

end Storyboard
