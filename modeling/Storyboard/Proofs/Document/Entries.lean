import Storyboard.Proofs.Document.Codes
import Storyboard.Proofs.Document.StepTexts
import Storyboard.Proofs.Document.Syntax
import Storyboard.Proofs.OrderedMap

/-!
# Entries of the animation block

The header lines of an animation block divide it into entries. An entry whose header reads
`step N: action targets` gives a step with the properties of its own lines, any other gives none,
and each line that is of no use is warned about once (`stepsOf_entries`).
-/

namespace Storyboard

open Diagnostic Number Text

namespace Document

/-! ### Headers -/

theorem exists_gap (cs : List Char) : ∃ gap, Gap gap ∧ cs = gap ++ skipSpaces cs :=
  ⟨cs.takeWhile isSpace, fun c member => by simpa [isSpace] using List.mem_takeWhile_imp member,
    List.takeWhile_append_dropWhile.symm⟩

/-- A run of other characters stops the blanks before it. -/
theorem skipSpaces_run {p : Char → Bool} (blank : p ' ' = false) (tab : p '\t' = false)
    {gap run : List Char} (spaces : Gap gap) (filled : run ≠ []) (all : ∀ c ∈ run, p c = true)
    (rest : List Char) : skipSpaces (gap ++ (run ++ rest)) = run ++ rest := by
  obtain ⟨d, run, rfl⟩ := List.exists_cons_of_ne_nil filled
  exact skipSpaces_append spaces fun c head =>
    not_isSpace blank tab (Option.some.inj head ▸ all d List.mem_cons_self)

theorem skipLabelSpaces_eq : skipLabelSpaces = skipSpaces := rfl

/-- The label of an entry: `step N:` with a number of 32 bits. -/
structure LabelText (number : Nat) (label : List Char) : Prop where
  written : ∃ a digits b, Gap a ∧ Gap b ∧ digits ≠ [] ∧ Digits digits ∧
    number = decimalValue digits ∧ label = "step".toList ++ a ++ digits ++ b ++ [':']
  small : number < 2 ^ 32

theorem takeStepLabel?_eq_some_iff {cs after : List Char} {number : Nat} :
    takeStepLabel? cs = some (number, after) ↔
      ∃ label, LabelText number label ∧ cs = label ++ after := by
  constructor
  · intro read
    simp only [takeStepLabel?, bind, Option.bind_eq_some_iff, skipLabelSpaces_eq] at read
    obtain ⟨rest, step, number', counted, colon⟩ := read
    obtain ⟨filled, digits, rfl, small⟩ := readNat?_eq_some_iff.mp counted
    split at colon
    · next tail same =>
      obtain ⟨rfl, rfl⟩ := Prod.mk.inj (Option.some.inj colon)
      obtain ⟨a, ga, first⟩ := exists_gap rest
      obtain ⟨b, gb, second⟩ := exists_gap (Literal.splitDigits (skipSpaces rest)).2
      have parts : skipSpaces rest = (Literal.splitDigits (skipSpaces rest)).1 ++
          (Literal.splitDigits (skipSpaces rest)).2 := (Literal.splitDigits_eq rfl).2
      refine ⟨_, ⟨⟨a, _, b, ga, gb, filled, digits, rfl, rfl⟩, Nat.lt_succ_of_le small⟩, ?_⟩
      calc cs = "step".toList ++ rest := dropLeading?_eq_some_iff.mp step
        _ = "step".toList ++ (a ++ ((Literal.splitDigits (skipSpaces rest)).1 ++
              (b ++ ':' :: tail))) := by rw [← same, ← second, ← parts, ← first]
        _ = _ := by simp
    · cases colon
  · rintro ⟨label, ⟨⟨a, digits, b, ga, gb, filled, all, rfl, rfl⟩, small⟩, rfl⟩
    have step : dropLeading? "step".toList ("step".toList ++ a ++ digits ++ b ++ [':'] ++ after) =
        some (a ++ (digits ++ (b ++ ':' :: after))) := dropLeading?_eq_some_iff.mpr (by simp)
    have first : skipSpaces (a ++ (digits ++ (b ++ ':' :: after))) =
        digits ++ (b ++ ':' :: after) := skipSpaces_run rfl rfl ga filled all _
    have second : skipSpaces (b ++ ':' :: after) = ':' :: after :=
      skipSpaces_append gb fun c head => Option.some.inj head ▸ rfl
    have stop : ∀ c ∈ (b ++ ':' :: after).head?, c.isDigit = false := fun c head => by
      rcases mem_or_mem_head? head with inside | colon
      · rcases gb c inside with rfl | rfl <;> rfl
      · exact Option.some.inj colon ▸ rfl
    have number := readNat?_eq_some_iff.mpr ⟨filled, all, rfl, Nat.le_of_lt_succ small⟩
    simp only [takeStepLabel?, step, skipLabelSpaces_eq, first, bind, Option.bind_some]
    rw [Literal.splitDigits_append all stop]
    simp [maxStepNumber, number, second]

/-- The text reads `step N: action targets`. The action is all letters up to the first other
character. -/
inductive StepHeader.WrittenAs : StepHeader → List Char → Prop where
  | mk {number : Nat} {label gap action targets : List Char} (labelled : LabelText number label)
      (blank : Gap gap) (named : action ≠ []) (letters : ∀ c ∈ action, c.isAlpha = true)
      (stop : ∀ c ∈ targets.head?, c.isAlpha = false) :
      WrittenAs ⟨number, String.ofList action, trim targets⟩ (label ++ gap ++ action ++ targets)

theorem stepHeader?_eq_some_iff {cs : List Char} {h : StepHeader} :
    stepHeader? cs = some h ↔ h.WrittenAs cs := by
  constructor
  · intro read
    simp only [stepHeader?, bind, Option.bind_eq_some_iff, skipLabelSpaces_eq] at read
    obtain ⟨⟨number, rest⟩, labelled, action⟩ := read
    obtain ⟨filled, same⟩ := Option.ite_none_left_eq_some.mp action
    obtain rfl := Option.some.inj same
    obtain ⟨label, label_text, rfl⟩ := takeStepLabel?_eq_some_iff.mp labelled
    obtain ⟨gap, blank, skipped⟩ := exists_gap rest
    have parts : label ++ rest = label ++ gap ++ (skipSpaces rest).takeWhile Char.isAlpha ++
        (skipSpaces rest).dropWhile Char.isAlpha := by
      rw [List.append_assoc, List.append_assoc, List.takeWhile_append_dropWhile, ← skipped]
    rw [parts]
    refine .mk label_text blank (by simpa using filled)
      (fun c member => List.mem_takeWhile_imp member) fun c head => ?_
    have stop := List.head?_dropWhile_not Char.isAlpha (skipSpaces rest)
    rwa [head] at stop
  · intro written
    cases written with
    | @mk number label gap action targets labelled blank named letters stop =>
      have label_read : takeStepLabel? (label ++ (gap ++ (action ++ targets))) =
          some (number, gap ++ (action ++ targets)) :=
        takeStepLabel?_eq_some_iff.mpr ⟨label, labelled, rfl⟩
      have skipped := skipSpaces_run rfl rfl blank named letters targets
      rw [List.append_assoc, List.append_assoc]
      simp only [stepHeader?, label_read, bind, Option.bind_some, skipLabelSpaces_eq, skipped]
      rw [takeWhile_append_of_stop letters stop, dropWhile_append_of_stop letters stop,
        if_neg (by simpa using named)]

theorem StepHeader.WrittenAs.looksLikeStep {h : StepHeader} {cs : List Char}
    (written : h.WrittenAs cs) : looksLikeStep cs = true := by
  cases written with
  | @mk number label gap action targets labelled blank named letters stop =>
    obtain ⟨a, digits, b, ga, gb, filled, all, -, rfl⟩ := labelled.written
    obtain ⟨d, digits, rfl⟩ := List.exists_cons_of_ne_nil filled
    have step : dropLeading? "step".toList ("step".toList ++ a ++ (d :: digits) ++ b ++ [':'] ++
        gap ++ action ++ targets) =
          some (a ++ d :: (digits ++ b ++ [':'] ++ gap ++ action ++ targets)) :=
      dropLeading?_eq_some_iff.mpr (by simp)
    unfold Document.looksLikeStep
    rw [step]
    cases a with
    | nil => simp [all d List.mem_cons_self]
    | cons c a =>
      obtain rfl | rfl := ga c List.mem_cons_self <;> rfl

/-- The camera mode before the targets of a camera step, and the targets. -/
def StepHeader.mode (h : StepHeader) : Action → Option String × List Char
  | .camera => splitCameraMode h.targets
  | _ => (none, h.targets)

/-! ### Entries -/

/-- A header line and the lines up to the next one. -/
structure Entry where
  header : Line
  body : List Line

def Entry.lines (e : Entry) : List Line := e.header :: e.body

/-- The lines that say anything are some in front and then the entries. -/
structure Divided (lines lead : List Line) (entries : List Entry) : Prop where
  whole : lines.filter Line.isMeaningful = lead ++ entries.flatMap Entry.lines
  lead : ∀ l ∈ lead, looksLikeStep l.trimmed = false
  headers : ∀ e ∈ entries, looksLikeStep e.header.trimmed = true
  bodies : ∀ e ∈ entries, ∀ l ∈ e.body, looksLikeStep l.trimmed = false

/-- The key and the value of an indented line that has them. -/
def Line.property? (l : Line) : Option (List Char × List Char) :=
  if l.isIndented then splitProperty? l.trimmed else none

/-- What the header opens a step with, if it opens one. -/
def Entry.opening? (e : Entry) : Option (StepHeader × Action) :=
  (stepHeader? e.header.trimmed).bind fun h =>
    (Action.ofName? h.action).map fun action => (h, action)

/-! ### Uses of lines -/

/-- What becomes of a line. -/
inductive Use where
  | opens
  | sets
  /-- A property under a header that opens no step. -/
  | dropped
  | refused (f : Fault)
  deriving DecidableEq, Repr

def Use.said (l : Line) : Use → List Diagnostic
  | .refused f => [f.located l.span]
  | _ => []

def Entry.use (e : Entry) : Use :=
  match stepHeader? e.header.trimmed with
  | none => .refused .malformedStep
  | some h =>
    match Action.ofName? h.action with
    | none => .refused (.unknownAction h.action)
    | some _ => .opens

/-- The use of a line that is no header, by the use of the last header before it. -/
def Line.use (l : Line) (above : Option Use) : Use :=
  match l.property?, above with
  | none, _ => .refused (.unrecognizedLine .animation)
  | some _, none => .refused .orphanProperty
  | some _, some .opens => .sets
  | some _, some _ => .dropped

def Entry.uses (e : Entry) : List (Line × Use) :=
  (e.header, e.use) :: e.body.map fun l => (l, l.use (some e.use))

/-- The uses of the lines in front of the first header and of those of the entries. -/
def usesOf (lead : List Line) (entries : List Entry) : List (Line × Use) :=
  lead.map (fun l => (l, l.use none)) ++ entries.flatMap Entry.uses

section

variable {T : Type}

/-! ### Open entries -/

def PlacedStep.extend (s : PlacedStep T) (pairs : List (String × PropertyValue T)) : PlacedStep T :=
  let properties := pairs.foldl (fun m p => m.insert p.1 p.2) s.step.properties
  { s with step := { s.step with properties } }

namespace OpenStep

def extend (o : OpenStep T) (pairs : List (String × PropertyValue T)) : OpenStep T :=
  match o with
  | .step s => .step (s.extend pairs)
  | o => o

theorem extend_nil (o : OpenStep T) : o.extend [] = o := by
  cases o <;> rfl

theorem extend_append (o : OpenStep T) (as bs : List (String × PropertyValue T)) :
    o.extend (as ++ bs) = (o.extend as).extend bs := by
  cases o with
  | step s => simp [extend, PlacedStep.extend, List.foldl_append]
  | _ => rfl

def step? : OpenStep T → Option (PlacedStep T)
  | .step s => some s
  | _ => none

/-- The entry is open after a header of that use. -/
inductive Under : OpenStep T → Option Use → Prop where
  | nothing : Under .nothing none
  | refused (f : Fault) : Under .refused (some (.refused f))
  | step (s : PlacedStep T) : Under (.step s) (some .opens)

theorem Under.extend {o : OpenStep T} {above : Option Use} (under : o.Under above)
    (pairs : List (String × PropertyValue T)) : (o.extend pairs).Under above := by
  cases under <;> constructor

end OpenStep

/-! ### Steps of entries -/

/-- The property that the mode of a camera step gives it. -/
def StepHeader.modePairs (h : StepHeader) (action : Action) : List (String × PropertyValue T) :=
  (h.mode action).1.toList.map fun word => (Step.cameraModeKey, .text word)

theorem StepHeader.open_eq (h : StepHeader) (action : Action) :
    (h.open action : Step T) =
      { number := h.number, action, targets := targetsOf (h.mode action).2
        properties := OrderedMap.ofList (h.modePairs action) } := by
  cases action with
  | camera =>
    unfold StepHeader.open StepHeader.modePairs StepHeader.mode
    obtain ⟨mode, targets⟩ := splitCameraMode h.targets
    cases mode <;> rfl
  | _ => rfl

variable [Scalar T]

variable (T) in
/-- The keys that the lines set, with their values, in order. -/
def pairsOf (lines : List Line) : List (String × PropertyValue T) :=
  (lines.filterMap Line.property?).map fun (key, value) => (String.ofList key, .ofText value)

variable (T) in
/-- All that an entry with such a header sets. The mode comes in front of the lines. -/
def Entry.pairs (e : Entry) (h : StepHeader) (action : Action) : List (String × PropertyValue T) :=
  h.modePairs action ++ pairsOf T e.body

def Entry.stepOf (e : Entry) (h : StepHeader) (action : Action) : PlacedStep T :=
  { span := e.header.span
    step :=
      { number := h.number, action, targets := targetsOf (h.mode action).2
        properties := OrderedMap.ofList (e.pairs T h action) } }

def Entry.step? (e : Entry) : Option (PlacedStep T) :=
  e.opening?.map fun (h, action) => e.stepOf h action

theorem Entry.opening?_eq_some_iff {e : Entry} {h : StepHeader} {action : Action} :
    e.opening? = some (h, action) ↔
      h.WrittenAs e.header.trimmed ∧ Action.ofName? h.action = some action := by
  simp only [Entry.opening?, Option.bind_eq_some_iff, Option.map_eq_some_iff, Prod.mk.injEq,
    stepHeader?_eq_some_iff]
  constructor
  · rintro ⟨_, written, _, known, rfl, rfl⟩
    exact ⟨written, known⟩
  · rintro ⟨written, known⟩
    exact ⟨h, written, action, known, rfl, rfl⟩

theorem Entry.step?_eq_some_iff {e : Entry} {s : PlacedStep T} :
    e.step? = some s ↔ ∃ h action, h.WrittenAs e.header.trimmed ∧
      Action.ofName? h.action = some action ∧ s = e.stepOf h action := by
  rw [Entry.step?, Option.map_eq_some_iff]
  constructor
  · rintro ⟨⟨h, action⟩, opening, rfl⟩
    obtain ⟨written, known⟩ := Entry.opening?_eq_some_iff.mp opening
    exact ⟨h, action, written, known, rfl⟩
  · rintro ⟨h, action, written, known, rfl⟩
    exact ⟨(h, action), Entry.opening?_eq_some_iff.mpr ⟨written, known⟩, rfl⟩

/-! ### Lines of an entry -/

theorem pairsOf_cons (l : Line) (ls : List Line) :
    pairsOf T (l :: ls) = pairsOf T [l] ++ pairsOf T ls := by
  simp only [pairsOf, ← List.map_append, ← List.filterMap_append, List.singleton_append]

theorem AnimationState.property_eq {s : AnimationState T} {above : Option Use}
    (under : s.opened.Under above) (l : Line) :
    s.property l =
      ({ s with opened := s.opened.extend (pairsOf T [l]) }, (l.use above).said l) := by
  obtain ⟨steps, opened⟩ := s
  cases indented : l.isIndented with
  | false =>
    simp [AnimationState.property, Line.use, Line.property?, pairsOf, indented, Use.said,
      OpenStep.extend_nil]
  | true =>
    cases split : splitProperty? l.trimmed with
    | none =>
      simp [AnimationState.property, Line.use, Line.property?, pairsOf, indented, split, Use.said,
        OpenStep.extend_nil]
    | some pair =>
      cases under <;>
        simp [AnimationState.property, Line.use, Line.property?, pairsOf, indented, split, Use.said,
          OpenStep.extend, PlacedStep.extend]

variable {G : Type} [Scalar G] [Narrow T G]

theorem AnimationState.scan_body {s : AnimationState T} {above : Option Use}
    (under : s.opened.Under above) {body : List Line}
    (plain : ∀ l ∈ body, looksLikeStep l.trimmed = false) :
    scan (AnimationState.step G) s body =
      ({ s with opened := s.opened.extend (pairsOf T body) },
        body.flatMap fun l => (l.use above).said l) := by
  induction body generalizing s with
  | nil => simp [scan, pairsOf, OpenStep.extend_nil]
  | cons l body ih =>
    obtain ⟨here, later⟩ := List.forall_mem_cons.mp plain
    have next := under.extend (pairsOf T [l])
    have stepped : AnimationState.step G s l = s.property l := by simp [AnimationState.step, here]
    rw [scan_cons, stepped, AnimationState.property_eq under]
    dsimp only
    rw [ih next later, pairsOf_cons l body, OpenStep.extend_append]
    rfl

/-! ### Entries of a block -/

/-- All steps so far, the open one included. -/
def AnimationState.all (s : AnimationState T) : List (PlacedStep T) :=
  s.steps ++ s.opened.step?.toList

theorem AnimationState.finish_fst (s : AnimationState T) : (s.finish G).1 = { steps := s.all } := by
  obtain ⟨steps, opened⟩ := s
  cases opened <;> simp [AnimationState.finish, AnimationState.all, OpenStep.step?]

theorem extend_open (e : Entry) (h : StepHeader) (action : Action) :
    PlacedStep.extend ⟨h.open action, e.header.span⟩ (pairsOf T e.body) = e.stepOf h action := by
  simp only [PlacedStep.extend, StepHeader.open_eq, Entry.stepOf, Entry.pairs, OrderedMap.ofList,
    List.foldl_append]

/-- A header leaves the entry open that its lines complete to the step of the entry. -/
theorem AnimationState.start_eq (s : AnimationState T) (e : Entry) :
    ∃ o : OpenStep T, s.start e.header = ({ s with opened := o }, e.use.said e.header) ∧
      o.Under (some e.use) ∧ (o.extend (pairsOf T e.body)).step? = e.step? := by
  unfold AnimationState.start Entry.use Entry.step? Entry.opening?
  cases stepHeader? e.header.trimmed with
  | none => exact ⟨.refused, rfl, .refused _, rfl⟩
  | some h =>
    cases known : Action.ofName? h.action with
    | none => exact ⟨.refused, by simp [known, Use.said], by simpa [known] using .refused _,
        by simp [known, OpenStep.extend, OpenStep.step?]⟩
    | some action =>
      refine ⟨.step ⟨h.open action, e.header.span⟩, by simp [known, Use.said],
        by simpa [known] using .step _, ?_⟩
      simp [known, OpenStep.extend, OpenStep.step?, extend_open]

/-! ### Refusals -/

/-- The codes of the warnings that refuse a line. -/
def refusalCodes : List Code :=
  [.unrecognizedLine, .malformedHeader, .unknownAction, .orphanProperty]

def refusals (ds : List Diagnostic) : List Diagnostic :=
  ds.filter fun d => d.code.any refusalCodes.contains

theorem refusals_append (ds es : List Diagnostic) :
    refusals (ds ++ es) = refusals ds ++ refusals es :=
  List.filter_append ds es

theorem refusals_of_coded {ds : List Diagnostic} (coded : Coded refusalCodes ds) :
    refusals ds = ds := by
  refine List.filter_eq_self.mpr fun d member => ?_
  obtain ⟨c, allowed, code⟩ := coded d member
  simpa [code] using allowed

theorem refusals_finish (s : AnimationState T) : refusals (s.finish G).2 = [] := by
  have coded : Coded [.invalidProperty, .invalidColor] (s.finish G).2 := by
    unfold AnimationState.finish
    split
    · exact checkProperties_coded _
    · exact .nil
  refine List.filter_eq_nil_iff.mpr fun d member => ?_
  obtain ⟨c, allowed, code⟩ := coded d member
  have other : ∀ c ∈ [Code.invalidProperty, .invalidColor], c ∉ refusalCodes := by decide
  simpa [code] using other c allowed

theorem Entry.use_said_coded (e : Entry) : Coded refusalCodes (e.use.said e.header) := by
  unfold Entry.use
  split
  · exact .single rfl
  · split
    · exact .single rfl
    · exact .nil

theorem Line.use_said_coded (l : Line) (above : Option Use) :
    Coded refusalCodes ((l.use above).said l) := by
  unfold Line.use
  split
  · exact .single rfl
  · exact .single rfl
  · exact .nil
  · exact .nil

/-! ### Entries of a block -/

theorem AnimationState.scan_entry (s : AnimationState T) {e : Entry}
    (header : looksLikeStep e.header.trimmed = true)
    (plain : ∀ l ∈ e.body, looksLikeStep l.trimmed = false) :
    (scan (AnimationState.step G) s e.lines).1.all = s.all ++ e.step?.toList ∧
      refusals (scan (AnimationState.step G) s e.lines).2 =
        e.uses.flatMap fun (l, use) => use.said l := by
  -- The header completes the entry before it; its own lines then fill the entry that it opens.
  obtain ⟨o, started, under, given⟩ := AnimationState.start_eq { steps := s.all } e
  have stepped : AnimationState.step G s e.header =
      ({ steps := s.all, opened := o }, (s.finish G).2 ++ e.use.said e.header) := by
    simp [AnimationState.step, header, AnimationState.finish_fst, started]
  have rest := AnimationState.scan_body (G := G) (s := { steps := s.all, opened := o }) under plain
  rw [Entry.lines, scan_cons, stepped]
  dsimp only
  rw [rest]
  refine ⟨by simp [AnimationState.all, given], ?_⟩
  have body : Coded refusalCodes (e.body.flatMap fun l => (l.use (some e.use)).said l) :=
    .flatMap fun l _ => l.use_said_coded _
  rw [refusals_append, refusals_append, refusals_finish, refusals_of_coded e.use_said_coded,
    refusals_of_coded body]
  simp [Entry.uses, List.flatMap_map]

theorem AnimationState.scan_entries (s : AnimationState T) {entries : List Entry}
    (headers : ∀ e ∈ entries, looksLikeStep e.header.trimmed = true)
    (plain : ∀ e ∈ entries, ∀ l ∈ e.body, looksLikeStep l.trimmed = false) :
    (scan (AnimationState.step G) s (entries.flatMap Entry.lines)).1.all =
        s.all ++ entries.filterMap Entry.step? ∧
      refusals (scan (AnimationState.step G) s (entries.flatMap Entry.lines)).2 =
        (entries.flatMap Entry.uses).flatMap fun (l, use) => use.said l := by
  induction entries generalizing s with
  | nil => exact ⟨(List.append_nil _).symm, rfl⟩
  | cons e entries ih =>
    obtain ⟨header, headers⟩ := List.forall_mem_cons.mp headers
    obtain ⟨body, plain⟩ := List.forall_mem_cons.mp plain
    obtain ⟨steps, said⟩ := s.scan_entry (G := G) header body
    obtain ⟨later, saidLater⟩ := ih (scan (AnimationState.step G) s e.lines).1 headers plain
    rw [List.flatMap_cons, scan_append]
    refine ⟨?_, ?_⟩
    · rw [later, steps, List.append_assoc]
      cases given : e.step? (T := T) <;> simp [given]
    · rw [refusals_append, said, saidLater, List.flatMap_cons, List.flatMap_append]

/-- The entries of a block give its steps, and each line of no use is refused. -/
theorem stepsOf_divided {lines lead : List Line} {entries : List Entry}
    (divided : Divided lines lead entries) :
    (stepsOf (T := T) G lines).1 = entries.filterMap Entry.step? ∧
      refusals (stepsOf (T := T) G lines).2 =
        (usesOf lead entries).flatMap fun (l, use) => use.said l := by
  have front : scan (AnimationState.step G) ({} : AnimationState T) lead =
      ({}, lead.flatMap fun l => (l.use none).said l) :=
    AnimationState.scan_body .nothing divided.lead
  obtain ⟨steps, said⟩ :=
    AnimationState.scan_entries (T := T) (G := G) {} divided.headers divided.bodies
  have refused : Coded refusalCodes (lead.flatMap fun l => (l.use none).said l) :=
    .flatMap fun l _ => l.use_said_coded _
  obtain ⟨last, last_eq⟩ : ∃ last, last = scan (AnimationState.step G) ({} : AnimationState T)
    (entries.flatMap Entry.lines) := ⟨_, rfl⟩
  rw [← last_eq] at steps said
  have read : stepsOf (T := T) G lines = (last.1.all,
      (lead.flatMap fun l => (l.use none).said l) ++ last.2 ++ (last.1.finish G).2) := by
    have scanned : scanMeaningful (AnimationState.step G) ({} : AnimationState T) lines =
        (last.1, (lead.flatMap fun l => (l.use none).said l) ++ last.2) := by
      rw [scanMeaningful, divided.whole, scan_append, front, last_eq]
    have finished := last.1.finish_fst (G := G)
    simp only [stepsOf, scanned, finished]
  rw [read]
  constructor
  · simpa [AnimationState.all, OpenStep.step?] using steps
  · rw [refusals_append, refusals_append, refusals_finish, refusals_of_coded refused, said]
    simp [usesOf, List.flatMap_map]

end

example :
    (usesOf [⟨"  delay: 1".toList, 0⟩, ⟨"show A".toList, 11⟩]
      [⟨⟨"step one: show A".toList, 18⟩, [⟨"  delay: 2".toList, 35⟩]⟩,
        ⟨⟨"step 2: explode A".toList, 46⟩, [⟨"delay: 2".toList, 64⟩]⟩,
        ⟨⟨"step 3: hide A".toList, 73⟩, [⟨"  delay: 2".toList, 88⟩]⟩]).map Prod.snd =
      [.refused .orphanProperty, .refused (.unrecognizedLine .animation),
        .refused .malformedStep, .dropped,
        .refused (.unknownAction "explode"), .refused (.unrecognizedLine .animation),
        .opens, .sets] := by decide

end Document

end Storyboard
