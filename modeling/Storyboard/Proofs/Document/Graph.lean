import Storyboard.Proofs.Document.Mentions
import Storyboard.Proofs.Layout.Layered

/-!
# The graph of a parsed document

A document that parses describes a graph: its nodes are those that the body mentions, each once, and
its edges lead from node to node. So it can be laid out, whatever the spacing and the direction.
-/

namespace Storyboard

variable {T G : Type}

/-- The node as the body of its document describes it. -/
def Node.unstyled (n : Node G) : Node G := { n with style := {} }

namespace Document

theorem nodeOf_unstyled (ms : List Endpoint) (id : String) :
    (nodeOf ms id : Node G).unstyled = nodeOf ms id := by
  unfold nodeOf
  split <;> rfl

variable [Scalar T] [Scalar G] [Narrow T G]

theorem parse_nodes {source : String} {parsed : Parsed T G} (ok : parse source = .ok parsed) :
    parsed.diagram.nodes.map Node.unstyled =
      (declaredIds (mentionsOf source) ++ undeclaredIds (mentionsOf source)).map
        (nodeOf (mentionsOf source)) := by
  rw [parse_eq_ok ok, read_nodes fun _ _ => rfl, (flowchartOf_notes _).nodes, List.map_map]
  exact List.map_congr_left fun id _ => nodeOf_unstyled (mentionsOf source) id

/-- The nodes of a parsed document are told apart by their ids, and its edges lead from node to node.
The nodes that are declared come first, in the order of their first declarations and as these say;
the other endpoints follow in the order of their first mentions. So the document can be laid out. -/
theorem parse_graph {source : String} {parsed : Parsed T G} (ok : parse source = .ok parsed) :
    let d := parsed.diagram
    let ms := mentionsOf source
    d.nodeIds.Nodup ∧
    (∀ e ∈ d.edges, e.source ∈ d.nodeIds ∧ e.target ∈ d.nodeIds) ∧
    d.nodes.map Node.unstyled = (declaredIds ms ++ undeclaredIds ms).map (nodeOf ms) ∧
    ∀ spacing direction, ∃ l, Layered.layout spacing direction d.nodes d.edges = .ok l ∧
      (∀ n ∈ d.nodes, (l.nodes.get? n.id).isSome = true) ∧
      ∀ e ∈ d.edges, ∃ p q, l.edges.get? e.id = some [p, q] := by
  obtain ⟨f, sound, edges, nodes⟩ := parse_diagram ok
  intro d ms
  have ends : ∀ e ∈ d.edges, e.source ∈ d.nodeIds ∧ e.target ∈ d.nodeIds := by
    rw [edges, nodes]
    exact sound.ends
  refine ⟨nodes ▸ sound.distinct, ends, parse_nodes ok, ?_⟩
  exact fun spacing direction => Layered.layout_total spacing direction ends

/-- A node that is an endpoint before it is declared, declared twice, and an endpoint without a
declaration. -/
theorem parse_graph_late : ∃ parsed : Parsed Rat Rat,
    parse "flowchart LR\nA --> C\nA[x]\nB\x7by\x7d --> A[z]" = .ok parsed ∧
    parsed.diagram.nodeIds = ["A", "B", "C"] ∧
    parsed.diagram.nodes.map Node.label = ["x", "y", "C"] ∧
    ∃ l, Layered.layout ⟨1, 1⟩ .leftRight parsed.diagram.nodes parsed.diagram.edges = .ok l := by
  obtain ⟨parsed, ok, facts⟩ := exists_parsed_of (T := Rat) (G := Rat)
    "flowchart LR\nA --> C\nA[x]\nB\x7by\x7d --> A[z]"
    (p := fun parsed => parsed.diagram.nodeIds = ["A", "B", "C"] ∧
      parsed.diagram.nodes.map Node.label = ["x", "y", "C"]) (by decide +kernel)
  obtain ⟨ids, labels⟩ := of_decide_eq_true facts
  obtain ⟨_, _, _, layout⟩ := parse_graph ok
  obtain ⟨l, placed, _⟩ := layout ⟨1, 1⟩ .leftRight
  exact ⟨parsed, ok, ids, labels, l, placed⟩

end Document

end Storyboard
