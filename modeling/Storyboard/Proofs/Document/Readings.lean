import Storyboard.Document.Section

/-!
# Readings of lines

A reader looks at a line without white space at its ends, and at whether the line is indented; where
the line stands matters only for the places in what is said. `Blind` says this of one step of a
reader, and it carries over to all lines (`scan_gist`). So lines that read the same are divided into
sections that read the same (`sectionsOf_gist`), with or without lines that say nothing.
-/

namespace Storyboard

open Text

/-! ### Leaving out places -/

/-- The place that stands for all places. -/
def Span.nowhere : Span := ⟨0, 0⟩

/-- The diagnostic without its places. -/
def Diagnostic.unplaced (d : Diagnostic) : Diagnostic :=
  { d with labels := d.labels.map fun l => { l with span := .nowhere } }

@[simp] theorem Diagnostic.unplaced_isError (d : Diagnostic) : d.unplaced.isError = d.isError := rfl

namespace Document

/-- The fault without the place of an earlier one. -/
def Fault.unplaced : Fault → Fault
  | duplicateBlock kind _ => duplicateBlock kind .nowhere
  | duplicateNode id _ => duplicateNode id .nowhere
  | f => f

@[simp] theorem Fault.located_unplaced (f : Fault) (span : Span) :
    (f.located span).unplaced = f.unplaced.located .nowhere := by
  cases f <;> rfl

theorem Fault.ite_located_unplaced (c : Prop) [Decidable c] (f : Fault) (span : Span) :
    (if c then [f.located span] else []).map Diagnostic.unplaced =
      if c then [f.unplaced.located .nowhere] else [] := by
  split <;> simp

/-! ### Readings -/

/-- What a reader sees of a line. -/
def Line.reading (l : Line) : List Char × Bool := (l.trimmed, l.isIndented)

/-- What readers see of lines, of which some say nothing. -/
def readings (ls : List Line) : List (List Char × Bool) :=
  (ls.filter Line.isMeaningful).map Line.reading

theorem readings_append (ls ms : List Line) : readings (ls ++ ms) = readings ls ++ readings ms := by
  simp [readings]

/-- Where lines stand is not part of what they read. -/
theorem readings_texts {ls ms : List Line} (same : ls.map Line.text = ms.map Line.text) :
    readings ls = readings ms := by
  have heard (ls : List Line) : readings ls =
      ((ls.map Line.text).filter fun text => Line.isMeaningful ⟨text, 0⟩).map
        fun text => Line.reading ⟨text, 0⟩ := by
    rw [List.filter_map, List.map_map]
    rfl
  rw [heard ls, same, ← heard ms]

theorem isMeaningful_trimmed {l m : Line} (text : l.trimmed = m.trimmed) :
    l.isMeaningful = m.isMeaningful := by
  simp only [Line.isMeaningful, Line.isEmpty, Line.isComment, text]

theorem readings_concat {ls ms : List Line} (lists : readings ls = readings ms) {l m : Line}
    (lines : l.reading = m.reading) : readings (ls ++ [l]) = readings (ms ++ [m]) := by
  have speaks : l.isMeaningful = m.isMeaningful := isMeaningful_trimmed (congrArg Prod.fst lines)
  have last : readings [l] = readings [m] := by
    cases heard : m.isMeaningful <;> simp [readings, speaks, heard, lines]
  rw [readings_append, readings_append, lists, last]

theorem readings_silent {l : Line} (silent : l.isMeaningful = false) (ls : List Line) :
    readings (ls ++ [l]) = readings ls := by
  simp [readings, silent]

/-- The outcome of a reader, its result under a view and what it says without places. -/
def gist {σ τ : Type} (view : σ → τ) (r : σ × List Diagnostic) : τ × List Diagnostic :=
  (view r.1, r.2.map Diagnostic.unplaced)

/-- A step does not see more of a line than its reading, nor more of the state than the view. -/
def Blind {σ τ : Type} (view : σ → τ) (f : σ → Line → σ × List Diagnostic) : Prop :=
  ∀ s t l m, view s = view t → l.reading = m.reading → gist view (f s l) = gist view (f t m)

section

variable {σ τ : Type} {view : σ → τ} {f : σ → Line → σ × List Diagnostic}

/-- Where the view is a state again, it is enough to compare with that state. -/
theorem Blind.of_erased {erase : σ → σ}
    (h : ∀ s l m, l.reading = m.reading → gist erase (f s l) = gist erase (f (erase s) m)) :
    Blind erase f := by
  intro s t l m states lines
  rw [h s l m lines, states, ← h t m m rfl]

theorem gist_append {s t : σ} (states : view s = view t) {ds es : List Diagnostic}
    (said : ds.map Diagnostic.unplaced = es.map Diagnostic.unplaced) {later others : List Diagnostic}
    (rest : later.map Diagnostic.unplaced = others.map Diagnostic.unplaced) :
    gist view (s, ds ++ later) = gist view (t, es ++ others) := by
  simp only [gist, states, List.map_append, said, rest]

theorem scan_gist (h : Blind view f) {s t : σ} (states : view s = view t) {ls ms : List Line}
    (same : ls.map Line.reading = ms.map Line.reading) :
    gist view (scan f s ls) = gist view (scan f t ms) := by
  induction ls generalizing s t ms with
  | nil =>
    obtain rfl := List.map_eq_nil_iff.mp same.symm
    exact Prod.ext states rfl
  | cons l ls ih =>
    obtain ⟨m, ms, rfl, line, rest⟩ := List.map_eq_cons_iff.mp same.symm
    obtain ⟨next, said⟩ := Prod.mk.inj (h s t l m states line.symm)
    obtain ⟨last, later⟩ := Prod.mk.inj (ih next rest.symm)
    exact gist_append last said later

theorem scanMeaningful_gist (h : Blind view f) (s : σ) {ls ms : List Line}
    (same : readings ls = readings ms) :
    gist view (scanMeaningful f s ls) = gist view (scanMeaningful f s ms) :=
  scan_gist h rfl same

/-- A reader that no line without meaning moves could as well leave such lines out. -/
theorem scan_gist_meaningful (h : Blind view f)
    (unmoved : ∀ s l, l.isMeaningful = false → gist view (f s l) = (view s, [])) (s : σ)
    (ls : List Line) : gist view (scan f s ls) = gist view (scanMeaningful f s ls) := by
  induction ls generalizing s with
  | nil => rfl
  | cons l ls ih =>
    cases speaks : l.isMeaningful with
    | true =>
      obtain ⟨last, later⟩ := Prod.mk.inj (ih (f s l).1)
      rw [scanMeaningful, List.filter_cons_of_pos speaks]
      exact gist_append last rfl later
    | false =>
      obtain ⟨kept, nothing⟩ := Prod.mk.inj (unmoved s l speaks)
      have rest : gist view (scan f (f s l).1 ls) = gist view (scan f s ls) := scan_gist h kept rfl
      obtain ⟨last, later⟩ := Prod.mk.inj (rest.trans (ih s))
      rw [scanMeaningful, List.filter_cons_of_neg (by simp [speaks])]
      have said := gist_append last (nothing.trans List.map_nil.symm) later
      rw [List.nil_append] at said
      exact said

end

/-! ### Sections -/

namespace SectionState

/-- What can be seen of sections that are being read. -/
def seen (s : SectionState) :=
  (readings s.sections.body, s.opened.map fun o => (o.1, readings o.2.lines),
    fun kind => (s.sections.blocks.get? kind).map fun b => readings b.lines)

theorem close_gist {s t : SectionState} (kind : BlockKind) {b c : Block}
    (body : readings s.sections.body = readings t.sections.body)
    (blocks : ∀ kind, ((s.sections.blocks.get? kind).map fun b => readings b.lines) =
      (t.sections.blocks.get? kind).map fun b => readings b.lines)
    (lines : readings b.lines = readings c.lines) :
    gist seen (s.close kind b) = gist seen (t.close kind c) := by
  have here := blocks kind
  unfold close
  cases first : s.sections.blocks.get? kind with
  | some =>
    rw [first] at here
    obtain ⟨other, second, _⟩ := Option.map_eq_some_iff.mp here.symm
    simp [gist, seen, first, second, body, blocks, Fault.unplaced]
  | none =>
    rw [first, Option.map_none] at here
    have second := Option.map_eq_none_iff.mp here.symm
    have stored (other : BlockKind) :
        ((s.sections.blocks.insertNew kind b).get? other).map (fun b => readings b.lines) =
          ((t.sections.blocks.insertNew kind c).get? other).map fun b => readings b.lines := by
      have before := blocks other
      rw [OrderedMap.get?_insertNew, OrderedMap.get?_insertNew]
      by_cases same : kind = other
      · subst same
        simp [first, second, lines]
      · simpa [same] using before
    simp [gist, seen, first, second, body, stored]

theorem outside_gist {s t : SectionState}
    (body : readings s.sections.body = readings t.sections.body)
    (blocks : ∀ kind, ((s.sections.blocks.get? kind).map fun b => readings b.lines) =
      (t.sections.blocks.get? kind).map fun b => readings b.lines)
    (first : s.opened = none) (second : t.opened = none) {l m : Line}
    (lines : l.reading = m.reading) (marker : markerName? l = markerName? m) :
    gist seen (s.outside l) = gist seen (t.outside m) := by
  unfold outside
  rw [marker]
  cases markerName? m with
  | none => simp [gist, seen, readings_concat body lines, blocks, first, second]
  | some name =>
    cases known : BlockKind.ofName? name with
    | some => simp [gist, seen, known, body, blocks]
    | none => simp [gist, seen, known, body, blocks, first, second]

theorem step_blind : Blind seen step := by
  intro s t l m states lines
  have marker : markerName? l = markerName? m := by
    simp only [markerName?, show l.trimmed = m.trimmed from congrArg Prod.fst lines]
  obtain ⟨body, rest⟩ := Prod.mk.inj states
  obtain ⟨opened, blocks⟩ := Prod.mk.inj rest
  have blocks := congrFun blocks
  unfold step
  cases first : s.opened with
  | none =>
    rw [first, Option.map_none] at opened
    have second := Option.map_eq_none_iff.mp opened.symm
    rw [second]
    exact outside_gist body blocks first second lines marker
  | some o =>
    rw [first] at opened
    obtain ⟨⟨kind, block⟩, second, same⟩ := Option.map_eq_some_iff.mp opened.symm
    obtain ⟨rfl, inside⟩ := Prod.mk.inj same
    rw [second]
    dsimp only
    rw [marker]
    split
    · exact close_gist o.1 body blocks inside.symm
    · simp [gist, seen, body, blocks, readings_concat inside.symm lines]

/-- Lines without meaning end up in sections, but are not seen there. -/
theorem step_silent (s : SectionState) {l : Line} (silent : l.isMeaningful = false) :
    gist seen (s.step l) = (s.seen, []) := by
  have unmarked : markerName? l = none := by
    cases marked : markerName? l with
    | none => rfl
    | some name =>
      unfold markerName? at marked
      split at marked
      · next rest text =>
        simp [Line.isMeaningful, Line.isEmpty, Line.isComment, text, dropLeading?] at silent
      · cases marked
  unfold step
  cases opened : s.opened with
  | none => simp [outside, unmarked, gist, seen, readings_silent silent, opened]
  | some o => simp [unmarked, gist, seen, readings_silent silent, opened]

theorem unterminated_gist {s t : SectionState} (states : s.seen = t.seen) :
    s.unterminated.map Diagnostic.unplaced = t.unterminated.map Diagnostic.unplaced := by
  have opened : (s.opened.map fun o => (o.1, readings o.2.lines)) =
      t.opened.map fun o => (o.1, readings o.2.lines) := congrArg (·.2.1) states
  unfold unterminated
  cases first : s.opened with
  | none =>
    rw [first, Option.map_none] at opened
    rw [Option.map_eq_none_iff.mp opened.symm]
  | some o =>
    rw [first] at opened
    obtain ⟨⟨kind, block⟩, second, same⟩ := Option.map_eq_some_iff.mp opened.symm
    obtain ⟨rfl, _⟩ := Prod.mk.inj same
    simp [second, Fault.unplaced]

end SectionState

/-- What readers see of sections: the body, and the lines of each kind of block. -/
def Sections.readings (s : Sections) :
    List (List Char × Bool) × (BlockKind → List (List Char × Bool)) :=
  (Document.readings s.body, fun kind => Document.readings (s.lines kind))

/-- Lines that read the same are divided into sections that read the same. -/
theorem sectionsOf_gist {ls ms : List Line} (same : readings ls = readings ms) :
    gist Sections.readings (sectionsOf ls) = gist Sections.readings (sectionsOf ms) := by
  have heard (ls : List Line) := scan_gist_meaningful SectionState.step_blind
    (fun s _ silent => s.step_silent silent) {} ls
  have scans := (heard ls).trans
    ((scanMeaningful_gist SectionState.step_blind {} same).trans (heard ms).symm)
  obtain ⟨last, said⟩ := Prod.mk.inj scans
  obtain ⟨body, rest⟩ := Prod.mk.inj last
  obtain ⟨_, blocks⟩ := Prod.mk.inj rest
  have blank (b : Option Block) :
      readings ((b.map Block.lines).getD []) = (b.map fun b => readings b.lines).getD [] := by
    cases b <;> rfl
  have lines (kind : BlockKind) : readings ((sectionsOf ls).1.lines kind) =
      readings ((sectionsOf ms).1.lines kind) := by
    rw [Sections.lines, Sections.lines, blank, blank]
    exact congrArg (·.getD []) (congrFun blocks kind)
  refine Prod.ext (Prod.ext body (funext lines)) ?_
  simp only [gist, sectionsOf, List.map_append, said, SectionState.unterminated_gist last]

end Document

end Storyboard
