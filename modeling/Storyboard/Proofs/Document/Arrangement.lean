import Storyboard.Proofs.Document.Ids
import Storyboard.Proofs.Document.Placeless
import Storyboard.Proofs.Document.Portions

/-!
# Arrangement of blocks

A document may be put together from lines of its body and from whole blocks, at most one of each kind.
Where the blocks stand among the lines, and in which order, does not matter (`parse_rearranged`): the
sections of such a document hold the body and what is in the blocks, and nothing else.
-/

namespace Storyboard

open Text

namespace Document

/-- The marker name of the text of a line. -/
def markOf (text : List Char) : Option String := markerName? ⟨text, 0⟩

/-- A line of the body: it does not begin with the sign of a marker. -/
structure BodyLine where
  text : List Char
  whole : '\n' ∉ text
  plain : (trim text).head? ≠ some '@'

/-- A block with its marker, its lines and its end. -/
structure WholeBlock where
  kind : BlockKind
  marker : List Char
  content : List (List Char)
  ending : List Char
  whole : ∀ text ∈ marker :: (content ++ [ending]), '\n' ∉ text
  opens : markOf marker = some kind.name
  inside : ∀ text ∈ content, markOf text ≠ some "end"
  ends : markOf ending = some "end"

inductive Part where
  | line (l : BodyLine)
  | block (b : WholeBlock)

namespace Part

def texts : Part → List (List Char)
  | line l => [l.text]
  | block b => b.marker :: (b.content ++ [b.ending])

def line? : Part → Option BodyLine
  | line l => some l
  | block _ => none

def block? : Part → Option WholeBlock
  | line _ => none
  | block b => some b

theorem texts_block (b : WholeBlock) (ps : List Part) : (block b :: ps).flatMap texts =
    b.marker :: (b.content ++ b.ending :: ps.flatMap texts) := by
  rw [List.flatMap_cons, texts, List.cons_append, List.append_assoc, List.singleton_append]

theorem texts_whole (p : Part) {text : List Char} (member : text ∈ p.texts) : '\n' ∉ text := by
  cases p with
  | line l =>
    obtain rfl := List.mem_singleton.mp member
    exact l.whole
  | block b => exact b.whole text member

end Part

def bodyOf (ps : List Part) : List BodyLine := ps.filterMap Part.line?

def blocksOf (ps : List Part) : List WholeBlock := ps.filterMap Part.block?

@[simp] theorem bodyOf_line (l : BodyLine) (ps : List Part) :
    bodyOf (.line l :: ps) = l :: bodyOf ps := rfl

@[simp] theorem bodyOf_block (b : WholeBlock) (ps : List Part) :
    bodyOf (.block b :: ps) = bodyOf ps := rfl

@[simp] theorem blocksOf_line (l : BodyLine) (ps : List Part) :
    blocksOf (.line l :: ps) = blocksOf ps := rfl

@[simp] theorem blocksOf_block (b : WholeBlock) (ps : List Part) :
    blocksOf (.block b :: ps) = b :: blocksOf ps := rfl

/-- What the block of a kind holds. -/
def contentOf (kind : BlockKind) (ps : List Part) : List (List Char) :=
  (((blocksOf ps).find? fun b => b.kind = kind).map WholeBlock.content).getD []

/-- The parts as a text, each of their lines on a line. -/
def documentOf (ps : List Part) : String :=
  String.ofList (['\n'].intercalate (ps.flatMap Part.texts))

/-! ### Sections of parts -/

theorem markerName?_text {l : Line} {text : List Char} (same : l.text = dropReturn text) :
    markerName? l = markOf text := by
  have trimmed : l.trimmed = Line.trimmed ⟨text, 0⟩ := by
    rw [Line.trimmed, same, trim_dropReturn]
    rfl
  rw [markOf, markerName?, markerName?, trimmed]

theorem BodyLine.unmarked (b : BodyLine) : markOf b.text = none := by
  have plain := b.plain
  unfold markOf markerName?
  split
  · next rest text =>
    have begins : trim b.text = '@' :: rest := text
    rw [begins] at plain
    exact absurd rfl plain
  · rfl

/-- The portion is what a part becomes among the lines of a document. -/
inductive Part.Becomes : Part → Portion → Prop where
  | line {b : BodyLine} {l : Line} (text : l.text = dropReturn b.text) :
      Becomes (.line b) (.body l)
  | block {b : WholeBlock} {marker ending : Line} {content : List Line}
      (texts : content.map Line.text = b.content.map dropReturn) :
      Becomes (.block b) (.block b.kind marker content ending)

/-- The lines of parts form the portions that the parts become. -/
theorem exists_portions {ps : List Part} {ls : List Line}
    (texts : ls.map Line.text = (ps.flatMap Part.texts).map dropReturn) :
    ∃ portions, Divides ls portions ∧ List.Forall₂ Part.Becomes ps portions := by
  induction ps generalizing ls with
  | nil =>
    obtain rfl := List.map_eq_nil_iff.mp texts
    exact ⟨[], .nil, .nil⟩
  | cons p ps ih =>
    cases p with
    | line b =>
      obtain ⟨l, rest, rfl, first, later⟩ := List.map_eq_cons_iff.mp texts
      obtain ⟨portions, divided, becomes⟩ := ih later
      have unmarked : markerName? l = none := (markerName?_text first).trans b.unmarked
      exact ⟨_, .body unmarked divided, .cons (.line first) becomes⟩
    | block b =>
      rw [Part.texts_block, List.map_cons, List.map_append, List.map_cons] at texts
      obtain ⟨marker, rest, rfl, first, later⟩ := List.map_eq_cons_iff.mp texts
      obtain ⟨content, rest, rfl, inside, later⟩ := List.map_eq_append_iff.mp later
      obtain ⟨ending, rest, rfl, last, later⟩ := List.map_eq_cons_iff.mp later
      obtain ⟨portions, divided, becomes⟩ := ih later
      refine ⟨_, .block ?_ ?_ ?_ divided, .cons (.block inside) becomes⟩
      · exact (markerName?_text first).trans b.opens
      · intro l member
        obtain ⟨text, own, same⟩ := List.mem_map.mp (inside ▸ List.mem_map_of_mem member)
        rw [markerName?_text same.symm]
        exact b.inside text own
      · exact (markerName?_text last).trans b.ends

theorem body_of_becomes {ps : List Part} {portions : List Portion}
    (becomes : List.Forall₂ Part.Becomes ps portions) :
    (portions.filterMap Portion.body?).map Line.text =
      (bodyOf ps).map fun b => dropReturn b.text := by
  induction becomes with
  | nil => rfl
  | cons first rest ih =>
    cases first with
    | line text => exact congrArg₂ List.cons text ih
    | block => exact ih

theorem stored_of_becomes {ps : List Part} {portions : List Portion}
    (becomes : List.Forall₂ Part.Becomes ps portions) (kind : BlockKind) :
    ((storedBlock? kind portions).map fun b => b.lines.map Line.text) =
      ((blocksOf ps).find? fun b => b.kind = kind).map fun b => b.content.map dropReturn := by
  induction becomes with
  | nil => rfl
  | cons first rest ih =>
    cases first with
    | line => exact ih
    | @block b marker ending content texts =>
      rw [storedBlock?, List.findSome?_cons, blocksOf_block, List.find?_cons]
      by_cases same : b.kind = kind
      · simp [Portion.block?, same, texts]
      · rw [Portion.block?, if_neg same, decide_eq_false same]
        exact ih

theorem said_of_becomes {ps before : List Part} {portions earlier : List Portion}
    (becomes : List.Forall₂ Part.Becomes ps portions)
    (became : List.Forall₂ Part.Becomes before earlier)
    (kinds : ((blocksOf (before ++ ps)).map WholeBlock.kind).Nodup) :
    saidOfPortions earlier portions = [] := by
  induction becomes generalizing before earlier with
  | nil => rfl
  | @cons p portion ps portions first rest ih =>
    have next : before ++ p :: ps = before ++ [p] ++ ps := by simp
    rw [saidOfPortions, ih (List.rel_append became (.cons first .nil)) (next ▸ kinds), List.append_nil]
    cases first with
    | line => rfl
    | @block b marker ending content texts =>
      -- Nothing is stored yet for this kind.
      have unlike : ∀ other ∈ blocksOf before, other.kind ≠ b.kind := by
        rw [blocksOf, List.filterMap_append, List.map_append] at kinds
        intro other member same
        exact (List.nodup_append.mp kinds).2.2 _ (List.mem_map_of_mem member) b.kind
          (List.mem_map_of_mem (by simp [Part.block?])) same
      have stored := stored_of_becomes became b.kind
      rw [List.find?_eq_none.mpr (by simpa using unlike), Option.map_none,
        Option.map_eq_none_iff] at stored
      rw [Portion.said, stored]

/-- Among blocks of different kinds, the block of a kind is found whatever their order. -/
theorem find?_perm {bs cs : List WholeBlock} (same : bs.Perm cs)
    (kinds : (bs.map WholeBlock.kind).Nodup) (kind : BlockKind) :
    (bs.find? fun b => b.kind = kind) = cs.find? fun b => b.kind = kind := by
  induction same with
  | nil => rfl
  | cons b _ ih => rw [List.find?_cons, List.find?_cons, ih (List.nodup_cons.mp kinds).2]
  | swap b c bs =>
    have unlike : c.kind ≠ b.kind := fun like =>
      (List.nodup_cons.mp kinds).1 (by simp [like])
    simp only [List.find?_cons]
    by_cases first : b.kind = kind
    · simp [first, show c.kind ≠ kind from first ▸ unlike]
    · simp [first]
  | trans same _ ih later => exact (ih kinds).trans (later ((same.map _).nodup_iff.mp kinds))

/-- The sections of a document hold the body and what is in the blocks, and nothing is said. -/
theorem sectionsOf_parts {ps : List Part} (kinds : ((blocksOf ps).map WholeBlock.kind).Nodup)
    {ls : List Line} (texts : ls.map Line.text = (ps.flatMap Part.texts).map dropReturn) :
    (sectionsOf ls).1.body.map Line.text = ((bodyOf ps).map fun b => dropReturn b.text) ∧
    (∀ kind, ((sectionsOf ls).1.lines kind).map Line.text = (contentOf kind ps).map dropReturn) ∧
    (sectionsOf ls).2 = [] := by
  obtain ⟨portions, divided, becomes⟩ := exists_portions texts
  obtain ⟨body, blocks, said⟩ := sectionsOf_divided divided
  refine ⟨?_, fun kind => ?_, ?_⟩
  · rw [body, body_of_becomes becomes]
  · have stored := stored_of_becomes becomes kind
    rw [Sections.lines, blocks, contentOf]
    cases first : storedBlock? kind portions with
    | none =>
      rw [first, Option.map_none] at stored
      rw [Option.map_eq_none_iff.mp stored.symm]
      rfl
    | some block =>
      rw [first, Option.map_some] at stored
      obtain ⟨b, found, same⟩ := Option.map_eq_some_iff.mp stored.symm
      rw [found]
      exact same.symm
  · rw [said, said_of_becomes becomes .nil kinds]

/-! ### Rearranging -/

theorem linesOf_documentOf {ps : List Part} (some_part : ps ≠ []) :
    (linesOf (documentOf ps).toList).map Line.text = (ps.flatMap Part.texts).map dropReturn := by
  have some_text : ps.flatMap Part.texts ≠ [] := by
    cases ps with
    | nil => exact absurd rfl some_part
    | cons p ps => cases p <;> simp [Part.texts]
  have whole : ∀ text ∈ ps.flatMap Part.texts, '\n' ∉ text := by
    intro text member
    obtain ⟨p, _, own⟩ := List.mem_flatMap.mp member
    exact p.texts_whole own
  rw [linesOf, texts_placeLines, documentOf, String.toList_ofList,
    splitWhere_intercalate some_text whole]

theorem all_blank_intercalate (texts : List (List Char)) :
    (['\n'].intercalate texts).all isBlank = texts.all fun text => text.all isBlank := by
  induction texts with
  | nil => rfl
  | cons text rest ih =>
    cases rest with
    | nil => simp
    | cons next rest =>
      have feed : isBlank '\n' = true := rfl
      rw [List.intercalate_cons_cons, List.all_append, List.all_append, ih, List.all_cons]
      simp [feed]

theorem blank_documentOf (ps : List Part) : (documentOf ps).toList.all isBlank =
    (((bodyOf ps).all fun l => l.text.all isBlank) &&
      (blocksOf ps).all fun b => (Part.block b).texts.all fun text => text.all isBlank) := by
  rw [documentOf, String.toList_ofList, all_blank_intercalate]
  induction ps with
  | nil => rfl
  | cons p ps ih =>
    rw [List.flatMap_cons, List.all_append, ih]
    cases p with
    | line l =>
      rw [bodyOf_line, blocksOf_line, List.all_cons, Bool.and_assoc]
      simp [Part.texts]
    | block b => rw [bodyOf_block, blocksOf_block, List.all_cons, Bool.and_left_comm]

theorem eq_nil_of_parts {ps : List Part} (body : bodyOf ps = []) (blocks : blocksOf ps = []) :
    ps = [] := by
  cases ps with
  | nil => rfl
  | cons p => cases p <;> simp at body blocks

variable {ps qs : List Part}

theorem sections_rearranged (body : bodyOf ps = bodyOf qs)
    (blocks : (blocksOf ps).Perm (blocksOf qs))
    (kinds : ((blocksOf ps).map WholeBlock.kind).Nodup) {ls ms : List Line}
    (first : ls.map Line.text = (ps.flatMap Part.texts).map dropReturn)
    (second : ms.map Line.text = (qs.flatMap Part.texts).map dropReturn) :
    gist Sections.readings (sectionsOf ls) = gist Sections.readings (sectionsOf ms) := by
  obtain ⟨bodies, lines, said⟩ := sectionsOf_parts kinds first
  obtain ⟨others, contents, silent⟩ := sectionsOf_parts ((blocks.map _).nodup_iff.mp kinds) second
  have inside (kind : BlockKind) : contentOf kind ps = contentOf kind qs := by
    rw [contentOf, contentOf, find?_perm blocks kinds]
  apply Prod.ext
  · refine Prod.ext (readings_texts ?_) (funext fun kind => readings_texts ?_)
    · rw [bodies, others, body]
    · rw [lines, contents, inside]
  · simp only [gist, said, silent]

variable {T G : Type} [Scalar T] [Scalar G] [Narrow T G]

/-- Documents with the same lines in their bodies and the same blocks, one of a kind, say the same,
wherever the blocks stand. -/
theorem parse_rearranged (body : bodyOf ps = bodyOf qs) (blocks : (blocksOf ps).Perm (blocksOf qs))
    (kinds : ((blocksOf ps).map WholeBlock.kind).Nodup) :
    SameOutcome (parse (documentOf ps) : Except ParseFailure (Parsed T G))
      (parse (documentOf qs)) := by
  have blank : (documentOf ps).toList.all isBlank = (documentOf qs).toList.all isBlank := by
    rw [blank_documentOf, blank_documentOf, body, blocks.all_eq]
  refine parse_gist blank ?_
  -- Without parts there still is an empty line.
  cases ps with
  | nil =>
    rw [eq_nil_of_parts body.symm blocks.nil_eq.symm]
  | cons p ps =>
    have some_part : qs ≠ [] := by
      rintro rfl
      exact List.cons_ne_nil p ps (eq_nil_of_parts body blocks.eq_nil)
    exact sections_rearranged body blocks kinds (linesOf_documentOf (List.cons_ne_nil p ps))
      (linesOf_documentOf some_part)

/-- A block with settings before, and after, a block with styles and a node. -/
theorem parse_rearranged_two : ∃ first second : List Part,
    documentOf first = "@config\nfps: 9\n@end\nA[x]\n@style\n@end" ∧
    documentOf second = "@style\n@end\nA[x]\n@config\nfps: 9\n@end" ∧
    SameOutcome (parse (documentOf first) : Except ParseFailure (Parsed Rat Rat))
      (parse (documentOf second)) := by
  let node : BodyLine := ⟨"A[x]".toList, by decide, by decide⟩
  let config : WholeBlock := ⟨.config, "@config".toList, ["fps: 9".toList], "@end".toList,
    by decide, by decide, by decide, by decide⟩
  let style : WholeBlock := ⟨.style, "@style".toList, [], "@end".toList,
    by decide, by decide, by decide, by decide⟩
  have swapped : [config, style].Perm [style, config] := .swap style config []
  exact ⟨[.block config, .line node, .block style], [.block style, .line node, .block config],
    by decide, by decide, parse_rearranged rfl swapped (by decide)⟩

end Document

end Storyboard
