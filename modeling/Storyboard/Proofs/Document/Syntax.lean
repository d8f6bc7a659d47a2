import Storyboard.Document.Flowchart
import Storyboard.Proofs.Document.Endpoints
import Storyboard.Proofs.Lists

/-!
# Lines of the body

A line is read as a header, as a node or as an edge, never as two of them, and what is written with
the brackets of a shape or with a connector is read back as it is (`lines_read`). The brackets of
rectangles begin those of other shapes, so some labels of rectangles are taken for those.
-/

namespace Storyboard

open Text

/-! ### How lines are written -/

/-- The brackets around the label of a node. -/
def NodeShape.brackets : NodeShape → List Char × List Char
  | .terminator => (['(', '['], [']', ')'])
  | .database => (['[', '('], [')', ']'])
  | .document => (['[', '['], [']', ']'])
  | .parallelogram => (['[', '/'], ['/', ']'])
  | .rectangle => (['['], [']'])
  | .diamond => (['\x7b'], ['\x7d'])

/-- A label that the brackets of the shape can hold: what closes it comes first at its end, and
around a rectangle it does not look like the label of another shape with its brackets. -/
structure NodeShape.Holds (shape : NodeShape) (label : List Char) : Prop where
  some : label ≠ []
  closed : ∀ before after,
    label ++ shape.brackets.2 = before ++ shape.brackets.2 ++ after → after = []
  plain : shape = .rectangle → ∀ inside, inside ≠ [] →
    label ≠ '(' :: (inside ++ [')']) ∧ label ≠ '/' :: (inside ++ ['/'])

theorem NodeShape.Holds.not_mem {label : List Char} (holds : NodeShape.rectangle.Holds label) :
    ']' ∉ label := by
  intro member
  obtain ⟨before, after, rfl⟩ := List.append_of_mem member
  have nothing := holds.closed before (after ++ [']']) (by simp [NodeShape.brackets])
  simp at nothing

/-- A bracket of one character closes a label that does not have it. -/
theorem NodeShape.closed_of_not_mem {closing : Char} {label : List Char} (free : closing ∉ label) :
    ∀ before after, label ++ [closing] = before ++ [closing] ++ after → after = [] := by
  intro before after same
  rw [List.append_assoc] at same
  exact ((List.append_cons_inj_of_notMem free List.not_mem_nil).mp same).2.2.symm

namespace Document

def Endpoint.text (e : Endpoint) : List Char :=
  e.id.toList ++ match e.shape with
    | none => []
    | some (shape, label) => shape.brackets.1 ++ label ++ shape.brackets.2

/-- An id of letters, digits, lines and points, with no shape or a label that its shape can hold. -/
structure Endpoint.Proper (e : Endpoint) : Prop where
  named : e.id.toList ≠ []
  chars : ∀ c ∈ e.id.toList, isIdChar c = true
  held : ∀ shape label, e.shape = some (shape, label) → shape.Holds label

/-- A rectangle whose label does not begin like the brackets of another shape. -/
def Endpoint.Settled (e : Endpoint) : Prop :=
  ∀ label, e.shape = some (.rectangle, label) → ∀ c ∈ label.head?, c ∉ ['(', '/', '[']

/-- The label of an edge between two bars, and what is between it and the target. -/
def barred (label : Option (List Char)) (gap : List Char) : List Char :=
  match label with
  | none => []
  | some label => '|' :: (label ++ '|' :: gap)

/-- The connector of an edge, if there is one for it. -/
def connectorOf? : EdgeStyle → Bool → Option (List Char)
  | .dashed, true => some ['-', '.', '-', '>']
  | .thick, true => some ['=', '=', '>']
  | .solid, true => some ['-', '-', '>']
  | .solid, false => some ['-', '-', '-']
  | _, _ => none

/-- Spaces and tabs. -/
def Gap (cs : List Char) : Prop := ∀ c ∈ cs, c = ' ' ∨ c = '\t'

/-! ### Readers on what is written -/

theorem takeRun?_append {p : Char → Bool} {run rest : List Char} (some_run : run ≠ [])
    (all : ∀ c ∈ run, p c = true) (stop : ∀ c ∈ rest.head?, p c = false) :
    takeRun? p (run ++ rest) = some (run, rest) := by
  simp [takeRun?, takeWhile_append_of_stop all stop, dropWhile_append_of_stop all stop, some_run]

theorem takeId?_append {id : String} {rest : List Char} (named : id.toList ≠ [])
    (chars : ∀ c ∈ id.toList, isIdChar c = true) (stop : ∀ c ∈ rest.head?, isIdChar c = false) :
    takeId? (id.toList ++ rest) = some (id, rest) := by
  rw [takeId?, takeRun?_append named chars stop]
  simp

theorem takeBracketed?_append {opening label closing : List Char} (marked : closing ≠ [])
    (some_label : label ≠ []) (closed : ∀ a b, label ++ closing = a ++ closing ++ b → b = [])
    (rest : List Char) :
    takeBracketed? opening closing (opening ++ label ++ closing ++ rest) = some (label, rest) := by
  have leads : dropLeading? opening (opening ++ label ++ closing ++ rest) =
      some (label ++ closing ++ rest) := dropLeading?_eq_some_iff.mpr (by simp)
  have inside := splitAtMark?_append marked closed rest
  simp only [takeBracketed?, leads, inside, bind, Option.bind_some]
  rw [if_neg (by simpa using some_label)]

theorem takeBracketed?_eq_none {opening cs : List Char} (other : ¬ opening <+: cs)
    (closing : List Char) : takeBracketed? opening closing cs = none := by
  simp [takeBracketed?, dropLeading?_eq_none other]

/-! ### Shapes -/

/-- The shape with its label, if the text begins with its brackets. -/
def takeShaped? (cs : List Char) (shape : NodeShape) :
    Option ((NodeShape × List Char) × List Char) :=
  (takeBracketed? shape.brackets.1 shape.brackets.2 cs).map fun (label, rest) =>
    ((shape, label), rest)

theorem takeShape?_eq (cs : List Char) : takeShape? cs =
    [.terminator, .database, .document, .parallelogram, .rectangle, .diamond].findSome?
      (takeShaped? cs) := rfl

theorem takeShaped?_append {shape : NodeShape} {label : List Char} (holds : shape.Holds label)
    (rest : List Char) :
    takeShaped? (shape.brackets.1 ++ label ++ shape.brackets.2 ++ rest) shape =
      some ((shape, label), rest) := by
  have marked : shape.brackets.2 ≠ [] := by cases shape <;> exact List.cons_ne_nil _ _
  rw [takeShaped?, takeBracketed?_append marked holds.some holds.closed]
  rfl

theorem takeShaped?_eq_none {shape : NodeShape} {cs : List Char}
    (other : ¬ shape.brackets.1 <+: cs) : takeShaped? cs shape = none := by
  rw [takeShaped?, takeBracketed?_eq_none other]
  rfl

theorem takeShape?_eq_none {cs : List Char} (stop : ∀ c ∈ cs.head?, c ∉ ['(', '[', '{']) :
    takeShape? cs = none := by
  rw [takeShape?_eq, List.findSome?_eq_none_iff]
  intro shape _
  refine takeShaped?_eq_none fun ⟨rest, whole⟩ => ?_
  subst whole
  cases shape <;> exact stop _ rfl (by simp)

/-- A rectangle is not taken for another shape whose brackets begin like its own if its label does
not, or if no later bracket can close them. -/
theorem takeBracketed?_rectangle {o m : Char} {label rest : List Char} (some_label : label ≠ [])
    (closed : ']' ∉ label)
    (clear : (∀ c ∈ label.head?, c ≠ o) ∨
      (']' ∉ rest ∧ ∀ inside, inside ≠ [] → label ≠ o :: (inside ++ [m]))) :
    takeBracketed? ['[', o] [m, ']'] ('[' :: (label ++ ']' :: rest)) = none := by
  refine Option.eq_none_iff_forall_ne_some.mpr fun ⟨inside, after⟩ taken => ?_
  obtain ⟨whole, filled⟩ := takeBracketed?_eq_some taken
  obtain ⟨c, label, rfl⟩ := List.exists_cons_of_ne_nil some_label
  obtain ⟨rfl, same⟩ : c = o ∧ label ++ ']' :: rest = (inside ++ [m]) ++ ']' :: after := by
    simpa using whole
  rcases clear with start | ⟨last, plain⟩
  · exact start c rfl rfl
  · -- The bracket at the end of the rectangle is the only one, so the other shape ends there too.
    obtain ⟨rfl, -⟩ := (List.append_cons_inj_of_notMem
      (fun inner => closed (List.mem_cons_of_mem c inner)) last).mp same
    exact plain inside filled rfl

/-- A shape with its label is read as it is written. A later bracket must not close a rectangle
whose label begins like the brackets of another shape. -/
theorem takeShape?_append {shape : NodeShape} {label : List Char} (holds : shape.Holds label)
    {rest : List Char}
    (clear : shape = .rectangle → (∀ c ∈ label.head?, c ∉ ['(', '/', '[']) ∨ ']' ∉ rest) :
    takeShape? (shape.brackets.1 ++ label ++ shape.brackets.2 ++ rest) =
      some ((shape, label), rest) := by
  have own := takeShaped?_append holds rest
  rw [takeShape?_eq]
  apply List.findSome?_eq_some_iff.mpr
  cases shape with
  | rectangle =>
    have other {o m : Char} (member : o ∈ ['(', '/', '['])
        (plain : ∀ inside, inside ≠ [] → label ≠ o :: (inside ++ [m])) :
        takeBracketed? ['[', o] [m, ']'] ('[' :: (label ++ ']' :: rest)) = none :=
      takeBracketed?_rectangle holds.some holds.not_mem <|
        (clear rfl).imp (fun start c head same => start c head (same ▸ member)) fun last =>
          ⟨last, plain⟩
    refine ⟨[.terminator, .database, .document, .parallelogram], .rectangle, _, rfl, own, ?_⟩
    have whole : NodeShape.rectangle.brackets.1 ++ label ++ NodeShape.rectangle.brackets.2 ++ rest =
      '[' :: (label ++ ']' :: rest) := by simp [NodeShape.brackets]
    simp only [List.forall_mem_cons, whole, takeShaped?, Option.map_eq_none_iff]
    refine ⟨takeBracketed?_eq_none (by simp [NodeShape.brackets]) _, ?_, ?_, ?_,
      List.forall_mem_nil _⟩
    · exact other (by simp) fun inside filled => (holds.plain rfl inside filled).1
    · refine other (by simp) fun inside _ same => holds.not_mem ?_
      simp [same]
    · exact other (by simp) fun inside filled => (holds.plain rfl inside filled).2
  | terminator => exact ⟨[], .terminator, _, rfl, own, List.forall_mem_nil _⟩
  | database =>
    exact ⟨[.terminator], .database, _, rfl, own, by simp [takeShaped?_eq_none, NodeShape.brackets]⟩
  | document =>
    exact ⟨[.terminator, .database], .document, _, rfl, own,
      by simp [takeShaped?_eq_none, NodeShape.brackets]⟩
  | parallelogram =>
    exact ⟨[.terminator, .database, .document], .parallelogram, _, rfl, own,
      by simp [takeShaped?_eq_none, NodeShape.brackets]⟩
  | diamond =>
    exact ⟨[.terminator, .database, .document, .parallelogram, .rectangle], .diamond, _, rfl, own,
      by simp [takeShaped?_eq_none, NodeShape.brackets]⟩

/-! ### Endpoints -/

theorem not_isIdChar_opening (shape : NodeShape) (cs : List Char) :
    ∀ c ∈ (shape.brackets.1 ++ cs).head?, isIdChar c = false := by
  cases shape <;> exact fun c head => Option.some.inj head ▸ rfl

theorem takeEndpoint?_shaped {id : String} {shape : NodeShape} {label rest : List Char}
    (proper : (⟨id, some (shape, label)⟩ : Endpoint).Proper)
    (clear : shape = .rectangle → (∀ c ∈ label.head?, c ∉ ['(', '/', '[']) ∨ ']' ∉ rest) :
    ∃ shaped, takeId? ((⟨id, some (shape, label)⟩ : Endpoint).text ++ rest) = some (id, shaped) ∧
      takeShape? shaped = some ((shape, label), rest) := by
  refine ⟨_, ?_, takeShape?_append (proper.held shape label rfl) clear⟩
  have stop := not_isIdChar_opening shape (label ++ shape.brackets.2 ++ rest)
  have whole := takeId?_append proper.named proper.chars stop
  simpa [Endpoint.text] using whole

/-- An endpoint is read as it is written if what follows cannot be a part of it. -/
theorem takeEndpoint?_append {e : Endpoint} (proper : e.Proper) {rest : List Char}
    (stop : ∀ c ∈ rest.head?, isIdChar c = false ∧ c ∉ ['(', '[', '\x7b'])
    (clear : e.Settled ∨ ']' ∉ rest) : takeEndpoint? (e.text ++ rest) = some (e, rest) := by
  obtain ⟨id, shape⟩ := e
  cases shape with
  | none =>
    have named := takeId?_append proper.named proper.chars fun c head => (stop c head).1
    have bare := takeShape?_eq_none fun c head => (stop c head).2
    simp [takeEndpoint?, Endpoint.text, named, bare]
  | some shape =>
    obtain ⟨shape, label⟩ := shape
    have plain : shape = .rectangle →
        (∀ c ∈ label.head?, c ∉ ['(', '/', '[']) ∨ ']' ∉ rest := fun rectangle =>
      clear.imp_left fun settled => settled label (by rw [rectangle])
    obtain ⟨_, named, shaped⟩ := takeEndpoint?_shaped proper plain
    simp [takeEndpoint?, named, shaped]

/-! ### Blanks -/

theorem skipSpaces_append {gap : List Char} (blank : Gap gap) {rest : List Char}
    (stop : ∀ c ∈ rest.head?, isSpace c = false) : skipSpaces (gap ++ rest) = rest := by
  have spaces : ∀ c ∈ gap, isSpace c = true := fun c member => by
    rcases blank c member with rfl | rfl <;> rfl
  exact dropWhile_append_of_stop spaces stop

theorem not_isSpace {p : Char → Bool} (blank : p ' ' = false) (tab : p '\t' = false) {c : Char}
    (own : p c = true) : isSpace c = false := by
  have visible : c ≠ ' ' ∧ c ≠ '\t' := by
    constructor <;> rintro rfl
    · cases blank.symm.trans own
    · cases tab.symm.trans own
  simp [isSpace, visible]

theorem atLineEnd_gap {gap : List Char} (blank : Gap gap) : atLineEnd gap = true := by
  have nothing : skipSpaces (gap ++ []) = [] := skipSpaces_append blank (by simp)
  rw [List.append_nil] at nothing
  simp [atLineEnd, nothing]

theorem Gap.closed {gap : List Char} (blank : Gap gap) : ']' ∉ gap := fun member => by
  rcases blank _ member with same | same <;> cases same

/-! ### Nodes -/

theorem nodeLine?_text {e : Endpoint} (proper : e.Proper) (shaped : e.shape.isSome = true)
    {gap : List Char} (blank : Gap gap) :
    nodeLine? (e.text ++ gap) = some ⟨e, 0, byteLength e.text⟩ := by
  obtain ⟨id, shape⟩ := e
  obtain ⟨⟨shape, label⟩, rfl⟩ := Option.isSome_iff_exists.mp shaped
  obtain ⟨_, named, read⟩ := takeEndpoint?_shaped proper fun _ => .inr blank.closed
  simp [nodeLine?, named, read, atLineEnd_gap blank, placedBetween, byteLength_append]

/-! ### Edges -/

theorem takeConnector?_append {style : EdgeStyle} {directed : Bool} {mark : List Char}
    (own : connectorOf? style directed = some mark) (rest : List Char) :
    takeConnector? (mark ++ rest) = some ((style, directed), rest) := by
  cases style <;> cases directed <;> cases own <;> rfl

theorem connectorOf?_head {style : EdgeStyle} {directed : Bool} {mark : List Char}
    (own : connectorOf? style directed = some mark) (rest : List Char) :
    ∀ c ∈ (mark ++ rest).head?, c = '-' ∨ c = '=' := by
  cases style <;> cases directed <;> cases own <;> simp

theorem takeEdgeLabel_append {label : Option (List Char)} {gap rest : List Char}
    (unbarred : ∀ l ∈ label, '|' ∉ l) (blank : Gap gap)
    (stop : ∀ c ∈ rest.head?, isSpace c = false ∧ c ≠ '|') :
    takeEdgeLabel (barred label gap ++ rest) = (label, rest) := by
  cases label with
  | none =>
    cases rest with
    | nil => rfl
    | cons c rest =>
      unfold takeEdgeLabel
      split
      · next same =>
        cases same
        exact absurd rfl (stop '|' rfl).2
      · rfl
  | some label =>
    have split : splitOnce? '|' (label ++ '|' :: (gap ++ rest)) = some (label, gap ++ rest) :=
      splitOnce?_eq_some_iff.mpr ⟨rfl, unbarred label rfl⟩
    have skipped := skipSpaces_append blank fun c head => (stop c head).1
    simp [barred, takeEdgeLabel, split, skipped]

theorem Endpoint.Proper.head {e : Endpoint} (proper : e.Proper) (rest : List Char) :
    ∀ c ∈ (e.text ++ rest).head?, isIdChar c = true := by
  intro c head
  obtain ⟨d, id, named⟩ := List.exists_cons_of_ne_nil proper.named
  obtain rfl : d = c := by simpa [Endpoint.text, named] using head
  exact proper.chars d (by simp [named])

theorem isIdChar_not_special {c : Char} (part : isIdChar c = true) :
    isSpace c = false ∧ c ≠ '|' := by
  refine ⟨not_isSpace rfl rfl part, ?_⟩
  rintro rfl
  cases part

theorem edgeLine?_text {source target : Endpoint} (first : source.Proper) (settled : source.Settled)
    (second : target.Proper) {style : EdgeStyle} {directed : Bool} {mark : List Char}
    (own : connectorOf? style directed = some mark) {label : Option (List Char)}
    (unbarred : ∀ l ∈ label, '|' ∉ l) {a b c d : List Char} (ga : Gap a) (gb : Gap b) (gc : Gap c)
    (gd : Gap d) {front : List Char}
    (fronted : front = source.text ++ a ++ mark ++ b ++ barred label c) :
    edgeLine? (front ++ target.text ++ d) =
      some
        { source := ⟨source, 0, byteLength source.text⟩
          target := ⟨target, byteLength front, byteLength front + byteLength target.text⟩
          style, directed, label } := by
  -- The line from the target on, and from the gap after the connector on.
  obtain ⟨late, late_eq⟩ : ∃ late, late = target.text ++ d := ⟨_, rfl⟩
  obtain ⟨labelled, labelled_eq⟩ : ∃ labelled, labelled = b ++ (barred label c ++ late) := ⟨_, rfl⟩
  have begins : ∀ c ∈ late.head?, isSpace c = false ∧ c ≠ '|' := fun c head =>
    isIdChar_not_special (second.head d c (late_eq ▸ head))
  have readSource : takeEndpoint? (source.text ++ (a ++ (mark ++ labelled))) =
      some (source, a ++ (mark ++ labelled)) := by
    refine takeEndpoint?_append first (fun x head => ?_) (.inl settled)
    have edge : (x = ' ' ∨ x = '\t') ∨ x = '-' ∨ x = '=' :=
      (mem_or_mem_head? head).imp (ga x) (connectorOf?_head own labelled x)
    rcases edge with (rfl | rfl) | rfl | rfl <;> decide
  have readMark : takeConnector? (skipSpaces (a ++ (mark ++ labelled))) =
      some ((style, directed), labelled) := by
    rw [skipSpaces_append ga, takeConnector?_append own]
    rintro x head
    rcases connectorOf?_head own labelled x head with rfl | rfl <;> rfl
  have readLabel : takeEdgeLabel (skipSpaces labelled) = (label, late) := by
    rw [labelled_eq, skipSpaces_append gb, takeEdgeLabel_append unbarred gc begins]
    cases label with
    | none => exact fun x head => (begins x head).1
    | some label => exact fun x head => Option.some.inj head ▸ rfl
  have readTarget : takeEndpoint? late = some (target, d) := by
    rw [late_eq]
    refine takeEndpoint?_append second (fun x head => ?_) (.inr gd.closed)
    rcases gd x (List.mem_of_mem_head? head) with rfl | rfl <;> decide
  have whole : front ++ target.text ++ d = source.text ++ (a ++ (mark ++ labelled)) := by
    simp [fronted, labelled_eq, late_eq]
  have placedSource := placedBetween_eq source [] source.text (a ++ (mark ++ labelled))
  have placedTarget := placedBetween_eq target front target.text d
  rw [← late_eq, whole] at placedTarget
  rw [List.nil_append] at placedSource
  rw [whole]
  simp only [edgeLine?, readSource, readMark, readLabel, readTarget, bind, Option.bind_some,
    atLineEnd_gap gd, if_true, placedSource, placedTarget]
  simp [byteLength]

/-! ### Lines that are no edges -/

theorem takeConnector?_eq_none {cs : List Char} (other : ∀ c ∈ cs.head?, c ≠ '-' ∧ c ≠ '=') :
    takeConnector? cs = none := by
  cases cs with
  | nil => rfl
  | cons c cs =>
    obtain ⟨dash, equals⟩ := other c rfl
    simp [takeConnector?, connectors, dropLeading?, dash.symm, equals.symm]

theorem head_skipSpaces_of_atLineEnd {cs : List Char} (ends : atLineEnd cs = true) :
    ∀ c ∈ (skipSpaces cs).head?, c = ';' := by
  unfold atLineEnd at ends
  split at ends
  · next same => simp [same]
  · rw [List.isEmpty_iff.mp ends]
    simp

theorem edgeLine?_eq_none {cs after : List Char} {e : Endpoint}
    (taken : takeEndpoint? cs = some (e, after))
    (other : ∀ c ∈ (skipSpaces after).head?, c ≠ '-' ∧ c ≠ '=') : edgeLine? cs = none := by
  simp [edgeLine?, taken, takeConnector?_eq_none other]

theorem edgeLine?_eq_none_of_node {cs : List Char} {e : Placed Endpoint}
    (node : nodeLine? cs = some e) : edgeLine? cs = none := by
  simp only [nodeLine?, bind, Option.bind_eq_some_iff] at node
  obtain ⟨⟨id, rest⟩, named, ⟨shape, after⟩, shaped, ends⟩ := node
  dsimp only at ends
  split at ends
  · next finished =>
    have taken : takeEndpoint? cs = some (⟨id, some shape⟩, after) := by
      simp [takeEndpoint?, named, shaped]
    refine edgeLine?_eq_none taken fun c head => ?_
    rw [head_skipSpaces_of_atLineEnd finished c head]
    decide
  · cases ends

/-! ### Headers -/

/-- What follows the word of a header is blank, a semicolon, or the name of a direction after
blanks. -/
theorem takeDirection_ends {cs rest : List Char} {name : Option (List Char)}
    (taken : takeDirection cs = (name, rest)) (ends : atLineEnd rest = true) :
    (∀ c ∈ cs.head?, isSpace c = true ∨ c = ';') ∧
      ∀ c ∈ (skipSpaces cs).head?, c = ';' ∨ c.isAlphanum = true := by
  have unnamed (same : rest = cs) : ∀ c ∈ (skipSpaces cs).head?, c = ';' :=
    same ▸ head_skipSpaces_of_atLineEnd ends
  unfold takeDirection at taken
  split at taken
  · next c tail =>
    split at taken
    · next space =>
      refine ⟨fun x head => .inl (Option.some.inj head ▸ space), ?_⟩
      split at taken
      · next word after run =>
        obtain ⟨whole, some_word, letters⟩ := takeRun?_eq_some run
        obtain ⟨d, word, rfl⟩ := List.exists_cons_of_ne_nil some_word
        have skipped : skipSpaces (c :: tail) = d :: (word ++ after) := by
          rw [← List.cons_append, ← whole, skipSpaces, List.dropWhile_cons_of_pos space, skipSpaces]
        rw [skipped]
        exact fun x head => .inr (Option.some.inj head ▸ letters d List.mem_cons_self)
      · exact fun x head => .inl (unnamed (Prod.mk.inj taken).2.symm x head)
    · next visible =>
      have stays : skipSpaces (c :: tail) = c :: tail := List.dropWhile_cons_of_neg visible
      have semicolon := unnamed (Prod.mk.inj taken).2.symm
      refine ⟨fun x head => .inr (semicolon x ?_), fun x head => .inl (semicolon x head)⟩
      rwa [stays]
  · exact ⟨by simp, by simp [skipSpaces]⟩

theorem header?_eq_some {cs : List Char} {name : Option String} (header : header? cs = some name) :
    ∃ (word : String) (rest : List Char), cs = word.toList ++ rest ∧
      (word = "flowchart" ∨ word = "graph") ∧
      (∀ c ∈ rest.head?, isSpace c = true ∨ c = ';') ∧
      ∀ c ∈ (skipSpaces rest).head?, c = ';' ∨ c.isAlphanum = true := by
  simp only [header?, bind, Option.bind_eq_some_iff] at header
  obtain ⟨rest, begins, ends⟩ := header
  have worded : ∃ word : String, (word = "flowchart" ∨ word = "graph") ∧
      dropLeading? word.toList cs = some rest := by
    rw [Option.orElse_eq_orElse, Option.orElse_eq_or, Option.or_eq_some_iff] at begins
    rcases begins with flowchart | ⟨-, graph⟩
    · exact ⟨"flowchart", .inl rfl, flowchart⟩
    · exact ⟨"graph", .inr rfl, graph⟩
  obtain ⟨word, words, leads⟩ := worded
  refine ⟨word, rest, dropLeading?_eq_some_iff.mp leads, words, ?_⟩
  split at ends
  · next finished => exact takeDirection_ends rfl finished
  · cases ends

/-- A header is neither a node nor an edge. -/
theorem header?_apart {cs : List Char} {name : Option String} (header : header? cs = some name) :
    nodeLine? cs = none ∧ edgeLine? cs = none := by
  obtain ⟨word, rest, rfl, words, bounded, direction⟩ := header?_eq_some header
  have stops : ∀ c ∈ rest.head?, isIdChar c = false ∧ c ∉ ['(', '[', '\x7b'] := fun c head => by
    have special : (c = ' ' ∨ c = '\t') ∨ c = ';' := by simpa [isSpace] using bounded c head
    rcases special with (rfl | rfl) | rfl <;> decide
  have named : takeId? (word.toList ++ rest) = some (word, rest) := by
    refine takeId?_append ?_ ?_ fun c head => (stops c head).1
    · rcases words with rfl | rfl <;> decide
    · rcases words with rfl | rfl <;> exact List.all_eq_true.mp rfl
  have bare := takeShape?_eq_none fun c head => (stops c head).2
  have taken : takeEndpoint? (word.toList ++ rest) = some (⟨word, none⟩, rest) := by
    simp [takeEndpoint?, named, bare]
  refine ⟨by simp [nodeLine?, named, bare], edgeLine?_eq_none taken fun c head => ?_⟩
  rcases direction c head with rfl | letter
  · decide
  · constructor <;> rintro rfl <;> cases letter

/-! ### Lines -/

/-- At most one of the readers takes a line, so that each decides what the line says without the
others. A node is read as it is written, and so is an edge. -/
theorem lines_read {G : Type} :
    (∀ (f : Flowchart G) (l : Line),
      [(header? l.trimmed).isSome, (nodeLine? l.trimmed).isSome,
        (edgeLine? l.trimmed).isSome].count true ≤ 1 ∧
      (∀ name, header? l.trimmed = some name → f.step l = f.setDirection l name) ∧
      (∀ e, nodeLine? l.trimmed = some e → f.step l = f.declare l e) ∧
      ∀ e, edgeLine? l.trimmed = some e → f.step l = f.addEdge l e) ∧
    (∀ e : Endpoint, e.Proper → e.shape.isSome = true → ∀ gap, Gap gap →
      nodeLine? (e.text ++ gap) = some ⟨e, 0, byteLength e.text⟩) ∧
    ∀ source target : Endpoint, source.Proper → source.Settled → target.Proper →
      ∀ style directed mark, connectorOf? style directed = some mark →
      ∀ label, (∀ l ∈ label, '|' ∉ l) → ∀ a b c d, Gap a → Gap b → Gap c → Gap d →
      ∀ front, front = source.text ++ a ++ mark ++ b ++ barred label c →
        edgeLine? (front ++ target.text ++ d) =
          some
            { source := ⟨source, 0, byteLength source.text⟩
              target := ⟨target, byteLength front, byteLength front + byteLength target.text⟩
              style, directed, label } := by
  refine ⟨fun f l => ?_, fun e proper shaped gap blank => nodeLine?_text proper shaped blank,
    fun source target first settled second style directed mark own label unbarred a b c d ga gb gc
      gd front fronted => edgeLine?_text first settled second own unbarred ga gb gc gd fronted⟩
  cases header : header? l.trimmed with
  | some name =>
    obtain ⟨node, edge⟩ := header?_apart header
    simp [Flowchart.step, header, node, edge]
  | none =>
    cases node : nodeLine? l.trimmed with
    | some e =>
      have edge := edgeLine?_eq_none_of_node node
      simp [Flowchart.step, header, node, edge]
    | none => cases edge : edgeLine? l.trimmed <;> simp [Flowchart.step, header, node, edge]

/-- Labels that begin like the brackets of another shape or have a connector in them. -/
theorem tangled_lines_read :
    let boxed : Endpoint := ⟨"n.1", some (.rectangle, ['(', 'x'])⟩
    let split : Endpoint := ⟨"b", some (.diamond, ['-', '-', '>', ']'])⟩
    boxed.Proper ∧ split.Proper ∧ split.Settled ∧
      nodeLine? "n.1[(x] ".toList = some ⟨boxed, 0, 7⟩ ∧
      edgeLine? "b\x7b-->]\x7d-.->|k| n.1[(x]".toList =
        some ⟨⟨split, 0, 7⟩, ⟨boxed, 15, 22⟩, .dashed, true, some ['k']⟩ ∧
      ∀ f : Flowchart Unit,
        f.step ⟨"graph;".toList, 3⟩ = f.setDirection ⟨"graph;".toList, 3⟩ none := by
  intro boxed split
  have boxed_proper : boxed.Proper := by
    refine ⟨by decide, List.all_eq_true.mp (by decide), fun shape label same => ?_⟩
    obtain ⟨rfl, rfl⟩ := Prod.mk.inj (Option.some.inj same)
    refine ⟨by decide, NodeShape.closed_of_not_mem (by decide), fun _ inside _ =>
      ⟨fun label => ?_, by simp⟩⟩
    simpa using congrArg List.getLast? (List.cons.inj label).2
  have split_proper : split.Proper := by
    refine ⟨by decide, List.all_eq_true.mp (by decide), fun shape label same => ?_⟩
    obtain ⟨rfl, rfl⟩ := Prod.mk.inj (Option.some.inj same)
    exact ⟨by decide, NodeShape.closed_of_not_mem (by decide), nofun⟩
  have settled : split.Settled := nofun
  have boxed_text : boxed.text = "n.1[(x]".toList := by decide
  have split_text : split.text = "b\x7b-->]\x7d".toList := by decide
  obtain ⟨decided, node, edge⟩ := lines_read (G := Unit)
  refine ⟨boxed_proper, split_proper, settled, ?_, ?_, fun f => ?_⟩
  · have read := node boxed boxed_proper rfl [' '] (by simp [Gap])
    rwa [boxed_text] at read
  · have read := edge split boxed split_proper settled boxed_proper .dashed true _ rfl (some ['k'])
      (by simp) [] [] [' '] [] (by simp [Gap]) (by simp [Gap]) (by simp [Gap]) (by simp [Gap]) _ rfl
    rw [boxed_text, split_text] at read
    exact read
  · exact (decided f ⟨"graph;".toList, 3⟩).2.1 none (by cbv)

end Document
end Storyboard
