import Mathlib.Data.List.Nodup
import Storyboard.Document.Parse
import Storyboard.Proofs.Diagram.EdgeIds
import Storyboard.Proofs.Number.Exact
import Storyboard.Timeline.Compile

/-!
# Ids of a parsed document

A flowchart has each node once, and its edges lead from node to node, each with the id of its
ordinal among the edges of its pair (`Flowchart.Sound`). So parallel edges have ids of their own, and
`parse_ids` says under which condition no two entities of a document share one.
-/

namespace Storyboard

variable {G : Type}

/-! ### Numbered edges -/

namespace Edge

def countBetween (es : List (Edge G)) (source target : String) : Nat :=
  es.countP fun e => e.source == source && e.target == target

/-- Each edge has the id of its ordinal among the edges of its pair. -/
inductive Numbered : List (Edge G) → Prop where
  | nil : Numbered []
  | snoc {es : List (Edge G)} {e : Edge G} (h : Numbered es)
      (id : e.id = idOf e.source e.target (countBetween es e.source e.target)) :
      Numbered (es ++ [e])

variable {es : List (Edge G)}

theorem countBetween_append (es es' : List (Edge G)) (source target : String) :
    countBetween (es ++ es') source target =
      countBetween es source target + countBetween es' source target :=
  List.countP_append

theorem Numbered.ordinal (h : Numbered es) {e : Edge G} (member : e ∈ es) :
    ∃ i, i < countBetween es e.source e.target ∧ e.id = idOf e.source e.target i := by
  induction h with
  | nil => cases member
  | @snoc es last h id ih =>
    rw [countBetween_append]
    rcases List.mem_append.mp member with old | new
    · obtain ⟨i, less, same⟩ := ih old
      exact ⟨i, by omega, same⟩
    · obtain rfl := List.mem_singleton.mp new
      have counted : countBetween [e] e.source e.target = 1 := by simp [countBetween]
      exact ⟨_, by omega, id⟩

theorem Numbered.pairwise (h : Numbered es) :
    es.Pairwise fun e e' => ∃ i j, e.id = idOf e.source e.target i ∧
      e'.id = idOf e'.source e'.target j ∧
      (e.source = e'.source → e.target = e'.target → i < j) := by
  induction h with
  | nil => exact .nil
  | @snoc es last h id ih =>
    refine List.pairwise_append.mpr ⟨ih, List.pairwise_singleton _ _, ?_⟩
    intro e member e' new
    obtain rfl := List.mem_singleton.mp new
    obtain ⟨i, less, same⟩ := h.ordinal member
    refine ⟨i, _, same, id, ?_⟩
    intro sources targets
    rwa [← sources, ← targets]

theorem Numbered.parallel_apart (h : Numbered es) :
    es.Pairwise fun e e' => e.source = e'.source → e.target = e'.target → e.id ≠ e'.id := by
  refine h.pairwise.imp ?_
  rintro e e' ⟨i, j, id, id', less⟩ sources targets same
  rw [id, id', sources, targets] at same
  have ordinals := idOf_ordinal same
  have ordered := less sources targets
  omega

/-- Ids are distinct if no end has the joint as a part and no target is another one, of the same
source, with an ordinal. -/
theorem Numbered.ids_nodup (h : Numbered es)
    (plain : ∀ e ∈ es, joint ∉ parts e.source ∧ joint ∉ parts e.target)
    (unnumbered : ∀ e ∈ es, ∀ e' ∈ es, e.source = e'.source →
      ∀ n, 0 < n → e.target ≠ e'.target ++ "_" ++ toString n) : (es.map Edge.id).Nodup := by
  refine List.pairwise_map.mpr (h.pairwise.imp_of_mem ?_)
  rintro e e' member member' ⟨i, j, id, id', less⟩ same
  rw [id, id'] at same
  obtain ⟨sources, ⟨targets, ordinals⟩ | ⟨positive, target⟩ | ⟨positive, target⟩⟩ :=
    idOf_eq (plain e member) same
  · have ordered := less sources targets
    omega
  · exact unnumbered e member e' member' sources j positive target
  · exact unnumbered e' member' e member sources.symm i positive target

theorem Numbered.id_ne (h : Numbered es) {e : Edge G} (member : e ∈ es) {id : String}
    (plain : joint ∉ parts id) : e.id ≠ id := by
  rintro rfl
  obtain ⟨i, -, same⟩ := h.ordinal member
  refine plain ?_
  rw [same, parts_idOf]
  exact List.mem_append_right _ List.mem_cons_self

end Edge

namespace Document

/-! ### Flowcharts -/

namespace Flowchart

/-- The ids of the declared nodes, then those of the other endpoints. -/
def ids (f : Flowchart G) : List String := f.declared.map (fun d => d.1.id) ++ f.undeclared

/-- Every node is there once, and edges are numbered and lead from node to node. -/
structure Sound (f : Flowchart G) : Prop where
  distinct : f.ids.Nodup
  numbered : Edge.Numbered f.edges
  ends : ∀ e ∈ f.edges, e.source ∈ f.ids ∧ e.target ∈ f.ids

theorem nodes_ids (f : Flowchart G) : f.nodes.map Node.id = f.ids := by
  simp [nodes, ids, Function.comp_def]

theorem declaration?_eq_none {f : Flowchart G} {id : String} :
    f.declaration? id = none ↔ id ∉ f.declared.map (fun d => d.1.id) := by
  simp [declaration?]

variable {f : Flowchart G}

theorem declare_edges (f : Flowchart G) (l : Line) (e : Placed Endpoint) :
    (f.declare l e).1.edges = f.edges := by
  unfold declare
  dsimp only
  split
  · rfl
  · split <;> rfl
  · rfl
  · rfl

/-- Noting an endpoint adds its id to those of the nodes, unless it is there. -/
theorem declare_ids (distinct : f.ids.Nodup) (l : Line) (e : Placed Endpoint) :
    (f.declare l e).1.ids.Nodup ∧
      ∀ id, id ∈ (f.declare l e).1.ids ↔ id ∈ f.ids ∨ id = e.value.id := by
  have keeps (known : e.value.id ∈ f.ids) :
      f.ids.Nodup ∧ ∀ id, id ∈ f.ids ↔ id ∈ f.ids ∨ id = e.value.id :=
    ⟨distinct, fun id => ⟨.inl, fun either => either.elim (fun old => old) (· ▸ known)⟩⟩
  have seen (declared : f.declaration? e.value.id ≠ none) : e.value.id ∈ f.ids := by
    rw [Ne, declaration?_eq_none, not_not] at declared
    exact List.mem_append_left _ declared
  unfold declare
  dsimp only
  split
  · next found => exact keeps (seen (by simp [found]))
  · next absent =>
    split
    · next noted => exact keeps (List.mem_append_right _ (by simpa using noted))
    · next fresh =>
      have new : e.value.id ∉ f.ids := by
        rw [ids, List.mem_append, not_or]
        exact ⟨declaration?_eq_none.mp absent, by simpa using fresh⟩
      have added : ids { f with undeclared := f.undeclared ++ [e.value.id] } =
          f.ids ++ [e.value.id] := (List.append_assoc _ _ _).symm
      rw [added]
      refine ⟨List.nodup_append.mpr ⟨distinct, List.nodup_singleton _, ?_⟩, by simp⟩
      rintro id old _ last rfl
      exact new (List.mem_singleton.mp last ▸ old)
  · next found => exact keeps (seen (by simp [found]))
  · next absent =>
    have fresh := declaration?_eq_none.mp absent
    obtain ⟨declared, undeclared, apart⟩ := List.nodup_append.mp distinct
    constructor
    · simp only [ids, List.map_append, List.map_cons, List.map_nil]
      refine List.nodup_append.mpr ⟨?_, undeclared.filter _, ?_⟩
      · refine List.nodup_append.mpr ⟨declared, List.nodup_singleton _, ?_⟩
        rintro id old _ last rfl
        exact fresh (List.mem_singleton.mp last ▸ old)
      · rintro id first _ later rfl
        obtain ⟨later, other⟩ := List.mem_filter.mp later
        rcases List.mem_append.mp first with old | new
        · exact apart id old id later rfl
        · simp [List.mem_singleton.mp new] at other
    · intro id
      by_cases same : id = e.value.id <;> simp [ids, same]

theorem Sound.declare (h : f.Sound) (l : Line) (e : Placed Endpoint) :
    (f.declare l e).1.Sound := by
  obtain ⟨distinct, ids⟩ := declare_ids h.distinct l e
  refine ⟨distinct, ?_, ?_⟩
  · rw [declare_edges]
    exact h.numbered
  · rw [declare_edges]
    intro edge member
    obtain ⟨source, target⟩ := h.ends edge member
    exact ⟨(ids _).mpr (.inl source), (ids _).mpr (.inl target)⟩

theorem Sound.addEdge (h : f.Sound) (l : Line) (e : EdgeLine) : (f.addEdge l e).1.Sound := by
  have first := h.declare l e.source
  have both := first.declare l e.target
  have source : e.source.value.id ∈ ((f.declare l e.source).1.declare l e.target).1.ids := by
    have there := ((declare_ids h.distinct l e.source).2 _).mpr (.inr rfl)
    exact ((declare_ids first.distinct l e.target).2 _).mpr (.inl there)
  have target : e.target.value.id ∈ ((f.declare l e.source).1.declare l e.target).1.ids :=
    ((declare_ids first.distinct l e.target).2 _).mpr (.inr rfl)
  refine ⟨both.distinct, both.numbered.snoc rfl, ?_⟩
  intro edge member
  rcases List.mem_append.mp member with old | new
  · exact both.ends edge old
  · obtain rfl := List.mem_singleton.mp new
    exact ⟨source, target⟩

theorem Sound.setDirection (h : f.Sound) (l : Line) (name : Option String) :
    (f.setDirection l name).1.Sound := by
  unfold Flowchart.setDirection
  dsimp only
  split <;> exact ⟨h.distinct, h.numbered, h.ends⟩

theorem Sound.step (h : f.Sound) (l : Line) : (f.step l).1.Sound := by
  unfold Flowchart.step
  dsimp only
  split
  · exact h.setDirection l _
  · exact h.declare l _
  · exact h.addEdge l _
  · exact h

end Flowchart

theorem flowchartOf_sound (lines : List Line) : (flowchartOf (G := G) lines).1.Sound := by
  refine scan_keeps (fun f l h => h.step l) _ ⟨?_, .nil, ?_⟩
  · exact List.nodup_nil
  · intro e member
    cases member

/-! ### Documents -/

section

variable {β : Type} {view : Node G → β}

/-- Styling changes nothing that can be seen without the style. -/
theorem styleNode_view (blind : ∀ (n : Node G) style, view { n with style } = view n) (id : String)
    (style : NodeStyle G) (nodes : List (Node G)) :
    (styleNode id style nodes).map view = nodes.map view := by
  induction nodes with
  | nil => rfl
  | cons n rest ih =>
    unfold styleNode
    split
    · rw [List.map_cons, List.map_cons, blind]
    · rw [List.map_cons, List.map_cons, ih]

theorem styleNodes_view (blind : ∀ (n : Node G) style, view { n with style } = view n)
    (nodes : List (Node G)) (styles : List (String × NodeStyle G × Span)) :
    (styleNodes nodes styles).1.map view = nodes.map view := by
  induction styles generalizing nodes with
  | nil => rfl
  | cons entry rest ih =>
    obtain ⟨id, style, span⟩ := entry
    unfold styleNodes
    split
    · exact (ih _).trans (styleNode_view blind id style nodes)
    · exact ih nodes

end

variable {T : Type} [Scalar T] [Scalar G] [Narrow T G]

theorem read_edges (source : List Char) : (read (T := T) (G := G) source).1.edges =
    (flowchartOf (sectionsOf (linesOf source)).1.body).1.edges := by
  simp only [read]

theorem read_nodes {β : Type} {view : Node G → β}
    (blind : ∀ (n : Node G) style, view { n with style } = view n) (source : List Char) :
    (read (T := T) (G := G) source).1.nodes.map view =
      (flowchartOf (G := G) (sectionsOf (linesOf source)).1.body).1.nodes.map view := by
  simp only [read, styleNodes_view blind]

theorem read_nodeIds (source : List Char) : (read (T := T) (G := G) source).1.nodeIds =
    (flowchartOf (G := G) (sectionsOf (linesOf source)).1.body).1.ids := by
  rw [← Flowchart.nodes_ids]
  exact read_nodes (fun _ _ => rfl) source

theorem parse_eq_ok {source : String} {parsed : Parsed T G} (ok : parse source = .ok parsed) :
    parsed.diagram = (read source.toList).1 := by
  unfold parse at ok
  dsimp only at ok
  split at ok
  · cases ok
  · split at ok
    · cases ok
    · have same := Except.ok.inj ok
      rw [← same]

theorem parse_diagram {source : String} {parsed : Parsed T G} (ok : parse source = .ok parsed) :
    ∃ f : Flowchart G, f.Sound ∧ parsed.diagram.edges = f.edges ∧ parsed.diagram.nodeIds = f.ids := by
  rw [parse_eq_ok ok]
  exact ⟨_, flowchartOf_sound _, read_edges source.toList, read_nodeIds source.toList⟩

/-- Every node of a parsed document has an id of its own, and so has every one of several edges from
one node to another. If no node has the joint of edge ids in its id, and no edge leads to a node
whose id is that of another target of the same node with an ordinal, all entities have. -/
theorem parse_ids {source : String} {parsed : Parsed T G} (ok : parse source = .ok parsed) :
    let d := parsed.diagram
    d.nodeIds.Nodup ∧
    (d.edges.Pairwise fun e e' => e.source = e'.source → e.target = e'.target → e.id ≠ e'.id) ∧
    ((∀ id ∈ d.nodeIds, Edge.joint ∉ Edge.parts id) →
      (∀ e ∈ d.edges, ∀ e' ∈ d.edges, e.source = e'.source →
        ∀ n, 0 < n → e.target ≠ e'.target ++ "_" ++ toString n) →
      (d.nodeIds ++ d.edgeIds).Nodup) := by
  obtain ⟨f, sound, edges, nodes⟩ := parse_diagram ok
  intro d
  rw [Diagram.edgeIds, nodes, edges]
  refine ⟨sound.distinct, sound.numbered.parallel_apart, ?_⟩
  intro plain unnumbered
  have ends : ∀ e ∈ f.edges, Edge.joint ∉ Edge.parts e.source ∧ Edge.joint ∉ Edge.parts e.target := by
    intro e member
    obtain ⟨source, target⟩ := sound.ends e member
    exact ⟨plain _ source, plain _ target⟩
  refine List.nodup_append.mpr ⟨sound.distinct, sound.numbered.ids_nodup ends unnumbered, ?_⟩
  rintro id node _ member rfl
  obtain ⟨e, edge, same⟩ := List.mem_map.mp member
  exact sound.numbered.id_ne edge (plain id node) same

theorem exists_ok_of {ε α : Type} {x : Except ε α} {p : α → Bool}
    (fine : x.toOption.any p = true) : ∃ a, x = .ok a ∧ p a = true := by
  cases x with
  | error e => simp [Except.toOption] at fine
  | ok a => exact ⟨a, rfl, by simpa [Except.toOption] using fine⟩

theorem exists_parsed_of (source : String) {p : Parsed T G → Bool}
    (fine : (parse source).toOption.any p = true) :
    ∃ parsed : Parsed T G, parse source = .ok parsed ∧ p parsed = true :=
  exists_ok_of fine

/-- Two parallel edges, and an edge from a node with an underscore in its id. -/
theorem parse_ids_parallel : ∃ parsed : Parsed Rat Rat,
    parse "flowchart LR\nA --> B\nA --> B\nB_x --> A" = .ok parsed ∧
    parsed.diagram.edgeIds = ["A_to_B", "A_to_B_1", "B_x_to_A"] ∧
    (parsed.diagram.nodeIds ++ parsed.diagram.edgeIds).Nodup := by
  obtain ⟨parsed, ok, facts⟩ := exists_parsed_of (T := Rat) (G := Rat)
    "flowchart LR\nA --> B\nA --> B\nB_x --> A"
    (p := fun parsed => parsed.diagram.edgeIds = ["A_to_B", "A_to_B_1", "B_x_to_A"] ∧
      (∀ id ∈ parsed.diagram.nodeIds, Edge.joint ∉ Edge.parts id) ∧
      ∀ e ∈ parsed.diagram.edges, e.target.length = 1) (by decide +kernel)
  obtain ⟨edges, plain, short⟩ := of_decide_eq_true facts
  refine ⟨parsed, ok, edges, (parse_ids ok).2.2 plain ?_⟩
  intro e member e' member' _ n _ same
  have lengths := congrArg String.length same
  have underscore : "_".length = 1 := rfl
  rw [String.length_append, String.length_append, short e member, short e' member'] at lengths
  omega

/-- Underscores in ids can make two edges of different pairs look the same. -/
theorem parse_ids_collide : ∃ parsed : Parsed Rat Rat,
    parse "flowchart LR\nA --> B_to_C\nA_to_B --> C" = .ok parsed ∧
    parsed.diagram.edgeIds = ["A_to_B_to_C", "A_to_B_to_C"] := by
  obtain ⟨parsed, ok, facts⟩ := exists_parsed_of (T := Rat) (G := Rat)
    "flowchart LR\nA --> B_to_C\nA_to_B --> C"
    (p := fun parsed => parsed.diagram.edgeIds = ["A_to_B_to_C", "A_to_B_to_C"])
    (by decide +kernel)
  exact ⟨parsed, ok, of_decide_eq_true facts⟩

end Document

end Storyboard
