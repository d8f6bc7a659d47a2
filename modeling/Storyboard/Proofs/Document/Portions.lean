import Storyboard.Document.Section
import Storyboard.Proofs.Document.Lines

/-!
# Portions of a document

A document is a row of portions: lines of the body, marker lines that belong to no block, blocks with
their ends, and last perhaps a block without one. `Divides` says which portions the lines of a
document form; there is exactly one such division, and the sections of the document and everything
that is said of them can be read off it (`sectionsOf_divided`).
-/

namespace Storyboard

open Text

namespace Document

theorem BlockKind.ofName?_eq_some_iff {name : String} {kind : BlockKind} :
    ofName? name = some kind ↔ name = kind.name := by
  constructor
  · intro found
    unfold ofName? at found
    have same := List.find?_some found
    exact (eq_of_beq same).symm
  · rintro rfl
    cases kind <;> rfl

theorem BlockKind.name_inj {kind other : BlockKind} (same : kind.name = other.name) :
    kind = other := by
  have found := ofName?_eq_some_iff.mpr same
  rw [ofName?_eq_some_iff.mpr rfl] at found
  exact Option.some.inj found

/-! ### Marker lines -/

/-- A line that begins with the sign is a marker, named by the first word after the sign. It has no
name only if nothing follows the sign. -/
inductive MarkerText (cs : List Char) : Option String → Prop
  | marker {gap tail name rest : List Char} (left : Trimmed cs ('@' :: (gap ++ tail)))
      (blank : Blank gap) (first : FirstWord tail name rest) (bare : name = [] → tail = []) :
      MarkerText cs (some (String.ofList name))
  | plain {part : List Char} (left : Trimmed cs part) (other : ∀ rest, part ≠ '@' :: rest) :
      MarkerText cs none

theorem MarkerText.name {l : Line} {name : Option String} (text : MarkerText l.text name) :
    markerName? l = name := by
  unfold markerName? Line.trimmed
  cases text with
  | @marker gap tail name rest left blank first bare =>
    have headed : (words (gap ++ tail)).headD [] = name := by
      rw [words_blank_append blank, List.headD_eq_head?_getD]
      by_cases named : name = []
      · rw [named, bare named]
        rfl
      · rw [first.words named, Option.getD_some]
    rw [trim_eq_iff.mpr left, ← headed]
    rfl
  | plain left other =>
    rw [trim_eq_iff.mpr left]
    split
    · next rest => exact absurd rfl (other rest)
    · rfl

inductive Portion where
  | body (l : Line)
  | stray (l : Line)
  | block (kind : BlockKind) (marker : Line) (content : List Line) (ending : Line)
  | unterminated (kind : BlockKind) (marker : Line) (content : List Line)

namespace Portion

def lines : Portion → List Line
  | body l | stray l => [l]
  | block _ marker content ending => marker :: content ++ [ending]
  | unterminated _ marker content => marker :: content

def body? : Portion → Option Line
  | body l => some l
  | _ => none

/-- The block that a portion offers for storing. -/
def block? (kind : BlockKind) : Portion → Option Block
  | block own marker content _ => if own = kind then some ⟨marker.span, content⟩ else none
  | _ => none

end Portion

/-- The block of a kind that is stored: the first one. -/
def storedBlock? (kind : BlockKind) (ps : List Portion) : Option Block :=
  ps.findSome? (Portion.block? kind)

/-- What is said of a portion that has others before it. -/
def Portion.said (before : List Portion) : Portion → List Diagnostic
  | body _ => []
  | stray l =>
    match markerName? l with
    | some name =>
      [(if name = "end" then Fault.strayEnd else Fault.unknownMarker name).located l.span]
    | none => []
  | block kind marker _ _ =>
    match storedBlock? kind before with
    | some first => [(Fault.duplicateBlock kind first.marker).located marker.span]
    | none => []
  | unterminated kind marker _ => [(Fault.unterminatedBlock kind).located marker.span]

def saidOfPortions : (before : List Portion) → List Portion → List Diagnostic
  | _, [] => []
  | before, p :: ps => p.said before ++ saidOfPortions (before ++ [p]) ps

/-- The lines form these portions. A block holds no line that would end it, and any other marker in
it is content; one without an end takes all lines that are left. -/
inductive Divides : List Line → List Portion → Prop where
  | nil : Divides [] []
  | body {l : Line} {ls : List Line} {ps : List Portion} (unmarked : markerName? l = none)
      (rest : Divides ls ps) : Divides (l :: ls) (.body l :: ps)
  | stray {l : Line} {ls : List Line} {ps : List Portion} {name : String}
      (marked : markerName? l = some name) (unknown : BlockKind.ofName? name = none)
      (rest : Divides ls ps) : Divides (l :: ls) (.stray l :: ps)
  | block {kind : BlockKind} {marker ending : Line} {content ls : List Line} {ps : List Portion}
      (opens : markerName? marker = some kind.name)
      (inside : ∀ l ∈ content, markerName? l ≠ some "end")
      (ends : markerName? ending = some "end") (rest : Divides ls ps) :
      Divides (marker :: (content ++ ending :: ls)) (.block kind marker content ending :: ps)
  | unterminated {kind : BlockKind} {marker : Line} {content : List Line}
      (opens : markerName? marker = some kind.name)
      (inside : ∀ l ∈ content, markerName? l ≠ some "end") :
      Divides (marker :: content) [.unterminated kind marker content]

/-! ### The division -/

theorem Divides.lines {ls : List Line} {ps : List Portion} (d : Divides ls ps) :
    ps.flatMap Portion.lines = ls := by
  induction d <;> simp_all [Portion.lines]

theorem exists_divides (ls : List Line) : ∃ ps, Divides ls ps := by
  -- By the number of lines: a block takes up several at once.
  induction size : ls.length using Nat.strong_induction_on generalizing ls with
  | _ n ih =>
    subst size
    cases ls with
    | nil => exact ⟨[], .nil⟩
    | cons l ls =>
      have follow (rest : List Line) (shorter : rest.length ≤ ls.length) :
          ∃ ps, Divides rest ps := ih rest.length (Nat.lt_succ_of_le shorter) rest rfl
      cases marked : markerName? l with
      | none =>
        obtain ⟨ps, divided⟩ := follow ls le_rfl
        exact ⟨_, .body marked divided⟩
      | some name =>
        cases known : BlockKind.ofName? name with
        | none =>
          obtain ⟨ps, divided⟩ := follow ls le_rfl
          exact ⟨_, .stray marked known divided⟩
        | some kind =>
          rw [BlockKind.ofName?_eq_some_iff.mp known] at marked
          cases found : ls.find? fun m => markerName? m = some "end" with
          | none =>
            have inside := List.find?_eq_none.mp found
            exact ⟨_, .unterminated marked (by simpa using inside)⟩
          | some ending =>
            obtain ⟨ends, content, rest, rfl, inside⟩ := List.find?_eq_some_iff_append.mp found
            obtain ⟨ps, divided⟩ := follow rest (by simp; omega)
            exact ⟨_, .block marked (by simpa using inside) (by simpa using ends) divided⟩

/-- Two ways to reach the first line that ends a block are the same. -/
theorem content_unique {content other rest after : List Line} {ending close : Line}
    (inside : ∀ l ∈ content, markerName? l ≠ some "end") (ends : markerName? ending = some "end")
    (within : ∀ l ∈ other, markerName? l ≠ some "end") (closes : markerName? close = some "end")
    (same : content ++ ending :: rest = other ++ close :: after) :
    content = other ∧ ending = close ∧ rest = after := by
  induction content generalizing other with
  | nil =>
    cases other with
    | nil => simpa using same
    | cons m other =>
      obtain ⟨rfl, _⟩ := List.cons.inj same
      exact absurd ends (within _ List.mem_cons_self)
  | cons l content ih =>
    cases other with
    | nil =>
      obtain ⟨rfl, _⟩ := List.cons.inj same
      exact absurd closes (inside _ List.mem_cons_self)
    | cons m other =>
      obtain ⟨rfl, tails⟩ := List.cons.inj same
      obtain ⟨rfl, others⟩ := ih (fun l member => inside l (List.mem_cons_of_mem _ member))
        (fun l member => within l (List.mem_cons_of_mem _ member)) tails
      exact ⟨rfl, others⟩

/-- No lines can be divided in two ways. -/
theorem Divides.unique {ls : List Line} {ps qs : List Portion} (d : Divides ls ps)
    (e : Divides ls qs) : ps = qs := by
  have known (kind : BlockKind) : BlockKind.ofName? kind.name = some kind :=
    BlockKind.ofName?_eq_some_iff.mpr rfl
  induction d generalizing qs with
  | nil =>
    cases e
    rfl
  | body unmarked rest ih =>
    cases e with
    | body _ other => rw [ih other]
    | stray marked | block marked | unterminated marked => cases unmarked.symm.trans marked
  | stray marked unknown rest ih =>
    cases e with
    | stray _ _ other => rw [ih other]
    | body unmarked => cases unmarked.symm.trans marked
    | block opens | unterminated opens =>
      obtain rfl := Option.some.inj (marked.symm.trans opens)
      cases unknown.symm.trans (known _)
  | @block kind marker ending content ls ps opens inside ends rest ih =>
    -- The other division does not know yet where the block ends.
    generalize tail : content ++ ending :: ls = all at e
    cases e with
    | body unmarked => cases unmarked.symm.trans opens
    | stray marked unknown =>
      obtain rfl := Option.some.inj (opens.symm.trans marked)
      cases unknown.symm.trans (known _)
    | block reopens within closes other =>
      have same := BlockKind.name_inj (Option.some.inj (opens.symm.trans reopens))
      obtain ⟨rfl, rfl, rfl⟩ := content_unique inside ends within closes tail
      rw [same, ih other]
    | unterminated _ within =>
      subst tail
      exact absurd ends (within ending (by simp))
  | @unterminated kind marker content opens inside =>
    cases e with
    | body unmarked => cases unmarked.symm.trans opens
    | stray marked unknown =>
      obtain rfl := Option.some.inj (opens.symm.trans marked)
      cases unknown.symm.trans (known _)
    | block _ _ closes => exact absurd closes (inside _ (by simp))
    | unterminated reopens =>
      rw [BlockKind.name_inj (Option.some.inj (opens.symm.trans reopens))]

/-! ### Sections -/

/-- The sections found so far are those of the portions so far, and no block is open. -/
structure SectionState.After (s : SectionState) (before : List Portion) : Prop where
  opened : s.opened = none
  body : s.sections.body = before.filterMap Portion.body?
  blocks : ∀ kind, s.sections.blocks.get? kind = storedBlock? kind before

theorem storedBlock?_concat (kind : BlockKind) (before : List Portion) (p : Portion) :
    storedBlock? kind (before ++ [p]) = (storedBlock? kind before).or (p.block? kind) := by
  simp [storedBlock?, List.findSome?_append]

namespace SectionState

variable {s : SectionState} {before : List Portion}

/-- An open block takes all lines up to its end. -/
theorem scan_content {kind : BlockKind} {block : Block} {content : List Line}
    (opened : s.opened = some (kind, block)) (inside : ∀ l ∈ content, markerName? l ≠ some "end") :
    scan step s content =
      ({ s with opened := some (kind, { block with lines := block.lines ++ content }) }, []) := by
  induction content generalizing s block with
  | nil => simp [scan, ← opened]
  | cons l content ih =>
    have taken : s.step l =
        ({ s with opened := some (kind, { block with lines := block.lines ++ [l] }) }, []) := by
      simp [step, opened, inside l List.mem_cons_self]
    have later := ih (s := (s.step l).1) (by rw [taken])
      fun m member => inside m (List.mem_cons_of_mem _ member)
    rw [taken] at later
    simp [scan, taken, later]

namespace After

variable (h : s.After before)
include h

theorem step_body {l : Line} (unmarked : markerName? l = none) :
    (s.step l).1.After (before ++ [.body l]) ∧ (s.step l).2 = [] := by
  have taken : s.step l =
      ({ s with sections := { s.sections with body := s.sections.body ++ [l] } }, []) := by
    simp [step, h.opened, outside, unmarked]
  rw [taken]
  refine ⟨⟨h.opened, ?_, fun kind => ?_⟩, rfl⟩
  · simp [h.body, Portion.body?]
  · simp [storedBlock?_concat, h.blocks, Portion.block?]

theorem step_stray {l : Line} {name : String} (marked : markerName? l = some name)
    (unknown : BlockKind.ofName? name = none) :
    (s.step l).1.After (before ++ [.stray l]) ∧
      (s.step l).2 = (Portion.stray l).said before := by
  have skipped : s.step l =
      (s, [(if name = "end" then Fault.strayEnd else Fault.unknownMarker name).located l.span]) := by
    simp [step, h.opened, outside, marked, unknown]
  rw [skipped]
  refine ⟨⟨h.opened, ?_, fun kind => ?_⟩, ?_⟩
  · simp [h.body, Portion.body?]
  · simp [storedBlock?_concat, h.blocks, Portion.block?]
  · simp [Portion.said, marked]

theorem scan_open {kind : BlockKind} {marker : Line} {content : List Line}
    (opens : markerName? marker = some kind.name)
    (inside : ∀ l ∈ content, markerName? l ≠ some "end") :
    scan step s (marker :: content) =
      ({ s with opened := some (kind, ⟨marker.span, content⟩) }, []) := by
  have known : BlockKind.ofName? kind.name = some kind := BlockKind.ofName?_eq_some_iff.mpr rfl
  have opened : s.step marker = ({ s with opened := some (kind, ⟨marker.span, []⟩) }, []) := by
    simp [step, h.opened, outside, opens, known]
  have taken := scan_content (s := (s.step marker).1) (by rw [opened]) inside
  rw [opened] at taken
  simp [scan, opened, taken]

theorem scan_block {kind : BlockKind} {marker ending : Line} {content : List Line}
    (opens : markerName? marker = some kind.name)
    (inside : ∀ l ∈ content, markerName? l ≠ some "end") (ends : markerName? ending = some "end") :
    (scan step s (marker :: (content ++ [ending]))).1.After
        (before ++ [.block kind marker content ending]) ∧
      (scan step s (marker :: (content ++ [ending]))).2 =
        (Portion.block kind marker content ending).said before := by
  have closed : scan step s (marker :: (content ++ [ending])) =
      close { s with opened := some (kind, ⟨marker.span, content⟩) } kind ⟨marker.span, content⟩ := by
    rw [← List.cons_append, scan_append, h.scan_open opens inside]
    simp [scan, step, ends]
  have stored := h.blocks kind
  rw [closed]
  cases first : storedBlock? kind before with
  | some first =>
    rw [first] at stored
    refine ⟨⟨?_, ?_, fun other => ?_⟩, ?_⟩
    · simp [close, stored]
    · simp [close, stored, h.body, Portion.body?]
    · by_cases same : kind = other
      · subst same
        simp [close, stored, storedBlock?_concat, first]
      · simp [close, stored, h.blocks, storedBlock?_concat, Portion.block?, same]
    · simp [close, stored, Portion.said, first]
  | none =>
    rw [first] at stored
    refine ⟨⟨?_, ?_, fun other => ?_⟩, ?_⟩
    · simp [close, stored]
    · simp [close, stored, h.body, Portion.body?]
    · simp [close, stored, OrderedMap.get?_insertNew, h.blocks, storedBlock?_concat, Portion.block?]
    · simp [close, stored, Portion.said, first]

end After

end SectionState

/-- What a scan leaves and says, from the portions of the lines. -/
theorem Divides.scanned {ls : List Line} {ps : List Portion} (d : Divides ls ps) {s : SectionState}
    {before : List Portion} (h : s.After before) :
    (scan SectionState.step s ls).1.sections.body = (before ++ ps).filterMap Portion.body? ∧
    (∀ kind, (scan SectionState.step s ls).1.sections.blocks.get? kind =
      storedBlock? kind (before ++ ps)) ∧
    (scan SectionState.step s ls).2 ++ (scan SectionState.step s ls).1.unterminated =
      saidOfPortions before ps := by
  induction d generalizing s before with
  | nil =>
    simp only [scan, SectionState.unterminated, h.opened, List.append_nil]
    exact ⟨h.body, h.blocks, rfl⟩
  | body unmarked rest ih =>
    obtain ⟨next, said⟩ := h.step_body unmarked
    simpa [scan, said, saidOfPortions, Portion.said] using ih next
  | stray marked unknown rest ih =>
    obtain ⟨next, said⟩ := h.step_stray marked unknown
    simpa [scan, said, saidOfPortions] using ih next
  | @block kind marker ending content ls ps opens inside ends rest ih =>
    obtain ⟨next, said⟩ := h.scan_block opens inside ends
    have whole : marker :: (content ++ ending :: ls) =
        marker :: (content ++ [ending]) ++ ls := by simp
    rw [whole, scan_append, said]
    simpa [saidOfPortions] using ih next
  | @unterminated kind marker content opens inside =>
    rw [h.scan_open opens inside]
    refine ⟨?_, fun other => ?_, ?_⟩
    · simp [h.body, Portion.body?]
    · simp [h.blocks, storedBlock?_concat, Portion.block?]
    · simp [SectionState.unterminated, saidOfPortions, Portion.said]

theorem sectionsOf_divided {ls : List Line} {ps : List Portion} (d : Divides ls ps) :
    (sectionsOf ls).1.body = ps.filterMap Portion.body? ∧
    (∀ kind, (sectionsOf ls).1.blocks.get? kind = storedBlock? kind ps) ∧
    (sectionsOf ls).2 = saidOfPortions [] ps := by
  have initial : ({} : SectionState).After [] := ⟨rfl, rfl, fun _ => rfl⟩
  exact d.scanned initial

end Document

end Storyboard
