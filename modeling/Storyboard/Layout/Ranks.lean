/-!
# Ranks

`Graph.ranks` sorts the nodes of a directed graph into ranks by breadth-first search. The search
starts from every node without incoming edges, then from every node that is still left, so each
node gets a rank.
-/

namespace Storyboard

/-- A directed graph on the numbers below `size`. -/
structure Graph where
  size : Nat
  edges : List (Nat × Nat)
  deriving Repr, Inhabited

namespace Graph

/-- Where the edges out of a node go, in the order of the edges. -/
def children (g : Graph) (n : Nat) : List Nat :=
  (g.edges.filter (fun e => e.1 == n)).map Prod.snd

def nodes (g : Graph) : List Nat := List.range g.size

/-- The nodes without incoming edges. -/
def roots (g : Graph) : List Nat :=
  g.nodes.filter fun n => !g.edges.any (fun e => e.2 == n)

/-- The nodes that have a rank, rank by rank, and those that have none. -/
structure Ranking where
  ranks : List (List Nat) := []
  unranked : List Nat
  deriving Repr, Inhabited

/-- Puts a node at the end of a rank, adding the rank if it is the next one. -/
def addToRank : List (List Nat) → Nat → Nat → List (List Nat)
  | [], 0, n => [[n]]
  | [], rank + 1, n => [] :: addToRank [] rank n
  | r :: ranks, 0, n => (r ++ [n]) :: ranks
  | r :: ranks, rank + 1, n => r :: addToRank ranks rank n

/-- Works off a queue of nodes with the ranks at which they were reached. A node counts only
the first time. -/
def search (g : Graph) (r : Ranking) : List (Nat × Nat) → Ranking
  | [] => r
  | (n, rank) :: queue =>
    if n ∈ r.unranked then
      search g ⟨addToRank r.ranks rank n, r.unranked.erase n⟩
        (queue ++ (g.children n).map fun c => (c, rank + 1))
    else search g r queue
termination_by queue => (r.unranked.length, queue.length)
decreasing_by
  · have h : n ∈ r.unranked := by assumption
    have hpos := List.length_pos_of_mem h
    apply Prod.Lex.left
    rw [List.length_erase_of_mem h]
    omega
  · apply Prod.Lex.right
    simp

/-- The ranks of all nodes. -/
def ranks (g : Graph) : List (List Nat) :=
  ((g.roots ++ g.nodes).foldl (fun r n => g.search r [(n, 0)]) { unranked := g.nodes }).ranks

end Graph

end Storyboard
