import Storyboard.Proofs.Document.Ids
import Storyboard.Proofs.Lists

/-!
# What the body of a document mentions

A line of the body mentions the endpoints that stand in it. The nodes of a flowchart are those of its
mentions: first the ids that are declared somewhere, each as its first declaration says, then the
others (`flowchartOf_nodes`).
-/

namespace Storyboard

namespace Document

variable {G : Type}

/-- The endpoints in a line of the body, in the order of the text. -/
def mentionsIn (l : Line) : List Endpoint :=
  match header? l.trimmed, nodeLine? l.trimmed, edgeLine? l.trimmed with
  | some _, _, _ => []
  | none, some node, _ => [node.value]
  | none, none, some edge => [edge.source.value, edge.target.value]
  | none, none, none => []

def mentions (body : List Line) : List Endpoint :=
  (body.filter Line.isMeaningful).flatMap mentionsIn

/-- The endpoints that the body of a document mentions, in the order of the text. -/
def mentionsOf (source : String) : List Endpoint :=
  mentions (sectionsOf (linesOf source.toList)).1.body

/-- What the first declaration of an id says: the shape and the raw label. -/
def declarationIn? (ms : List Endpoint) (id : String) : Option (NodeShape × List Char) :=
  ms.findSome? fun m => if m.id = id then m.shape else none

/-- The ids with a declaration, in the order of their first declarations. -/
def declaredIds (ms : List Endpoint) : List String :=
  ((ms.filter fun m => m.shape.isSome).map Endpoint.id).eraseDups

/-- The ids without a declaration, in the order of their first mentions. -/
def undeclaredIds (ms : List Endpoint) : List String :=
  (ms.map Endpoint.id).eraseDups.filter fun id => !(declaredIds ms).contains id

/-- The node that an id stands for. -/
def nodeOf (ms : List Endpoint) (id : String) : Node G :=
  match declarationIn? ms id with
  | some (shape, raw) => { id, shape, label := (splitLabel raw).1, subtitle := (splitLabel raw).2 }
  | none => { id, label := id }

/-! ### One more mention -/

variable {ms : List Endpoint} {m : Endpoint} {id : String}

theorem mem_declaredIds : id ∈ declaredIds ms ↔ (declarationIn? ms id).isSome = true := by
  simp only [declaredIds, declarationIn?, List.mem_eraseDups, List.mem_map, List.mem_filter,
    List.findSome?_isSome_iff]
  constructor
  · rintro ⟨m, ⟨member, shaped⟩, rfl⟩
    exact ⟨m, member, by rwa [if_pos rfl]⟩
  · rintro ⟨m, member, found⟩
    split at found
    · next same => exact ⟨m, ⟨member, found⟩, same⟩
    · cases found

theorem mem_undeclaredIds :
    id ∈ undeclaredIds ms ↔ id ∈ ms.map Endpoint.id ∧ id ∉ declaredIds ms := by
  simp [undeclaredIds]

theorem declaredIds_bare (bare : m.shape = none) : declaredIds (ms ++ [m]) = declaredIds ms := by
  simp [declaredIds, bare]

theorem declaredIds_shaped (shaped : m.shape.isSome = true) : declaredIds (ms ++ [m]) =
    declaredIds ms ++ if (declaredIds ms).contains m.id then [] else [m.id] := by
  have old : (declaredIds ms).contains m.id =
      ((ms.filter fun m => m.shape.isSome).map Endpoint.id).contains m.id := by
    rw [Bool.eq_iff_iff, List.contains_iff_mem, List.contains_iff_mem, declaredIds,
      List.mem_eraseDups]
  rw [old]
  simp only [declaredIds, List.filter_append, List.filter_cons, shaped, if_true, List.filter_nil,
    List.map_append, List.map_cons, List.map_nil, eraseDups_concat]

theorem declaredIds_subset (declared : id ∈ declaredIds ms) : id ∈ ms.map Endpoint.id := by
  obtain ⟨m, shaped, rfl⟩ := List.mem_map.mp (List.mem_eraseDups.mp declared)
  exact List.mem_map.mpr ⟨m, (List.mem_filter.mp shaped).1, rfl⟩

theorem undeclaredIds_bare (bare : m.shape = none) : undeclaredIds (ms ++ [m]) =
    undeclaredIds ms ++ if (ms.map Endpoint.id).contains m.id then [] else [m.id] := by
  simp only [undeclaredIds, declaredIds_bare bare, List.map_append, List.map_cons, List.map_nil,
    eraseDups_concat, List.filter_append]
  congr 1
  split
  · rfl
  · next fresh =>
    have undeclared : m.id ∉ declaredIds ms := fun declared =>
      fresh (List.contains_iff_mem.mpr (declaredIds_subset declared))
    simp [undeclared]

theorem undeclaredIds_shaped (shaped : m.shape.isSome = true) :
    undeclaredIds (ms ++ [m]) = (undeclaredIds ms).filter (· != m.id) := by
  have declared : ∀ id, id ∈ declaredIds (ms ++ [m]) ↔ id ∈ declaredIds ms ∨ id = m.id := by
    intro id
    rw [declaredIds_shaped shaped]
    split
    · next old =>
      have present := List.contains_iff_mem.mp old
      simp only [List.append_nil]
      exact ⟨.inl, fun either => either.elim (fun old => old) (· ▸ present)⟩
    · simp
  -- The id of the mention itself is declared, so it is not kept.
  have last : (if (ms.map Endpoint.id).contains m.id then [] else [m.id]).filter
      (fun id => !(declaredIds (ms ++ [m])).contains id) = [] := by
    refine List.filter_eq_nil_iff.mpr fun id last => ?_
    split at last
    · cases last
    · simp [declared, List.mem_singleton.mp last]
  simp only [undeclaredIds, List.map_append, List.map_cons, List.map_nil, eraseDups_concat,
    List.filter_append, List.filter_filter]
  rw [last, List.append_nil]
  refine List.filter_congr fun id _ => ?_
  by_cases same : id = m.id <;> simp [declared, same]

/-- A declared id keeps its node, and so does every id when an endpoint without a shape comes. -/
theorem nodeOf_concat (kept : id ∈ declaredIds ms ∨ m.shape = none) :
    (nodeOf (ms ++ [m]) id : Node G) = nodeOf ms id := by
  have same : declarationIn? (ms ++ [m]) id = declarationIn? ms id := by
    rw [declarationIn?, List.findSome?_append, ← declarationIn?]
    rcases kept with declared | bare
    · obtain ⟨d, found⟩ := Option.isSome_iff_exists.mp (mem_declaredIds.mp declared)
      rw [found, Option.some_or]
    · simp [bare]
  rw [nodeOf, same, ← nodeOf]

theorem nodeOf_declared {shape : NodeShape} {raw : List Char} (fresh : m.id ∉ declaredIds ms)
    (shaped : m.shape = some (shape, raw)) : (nodeOf (ms ++ [m]) m.id : Node G) =
      { id := m.id, shape, label := (splitLabel raw).1, subtitle := (splitLabel raw).2 } := by
  have absent : declarationIn? ms m.id = none := by
    rw [mem_declaredIds] at fresh
    exact Option.not_isSome_iff_eq_none.mp fresh
  have first : declarationIn? (ms ++ [m]) m.id = some (shape, raw) := by
    rw [declarationIn?, List.findSome?_append, ← declarationIn?, absent, Option.none_or]
    simp [shaped]
  rw [nodeOf, first]

theorem nodeOf_undeclared (absent : id ∉ declaredIds ms) :
    (nodeOf ms id : Node G) = { id, label := id } := by
  rw [mem_declaredIds] at absent
  rw [nodeOf, Option.not_isSome_iff_eq_none.mp absent]

theorem nodeOf_id (ms : List Endpoint) (id : String) : (nodeOf ms id : Node G).id = id := by
  unfold nodeOf
  split <;> rfl

/-! ### Flowcharts -/

/-- The flowchart has noted the mentions. -/
structure Flowchart.Notes (f : Flowchart G) (ms : List Endpoint) : Prop where
  declared : f.declared.map Prod.fst = (declaredIds ms).map (nodeOf ms)
  undeclared : f.undeclared = undeclaredIds ms

namespace Flowchart.Notes

variable {f : Flowchart G}

theorem ids (h : f.Notes ms) : f.declared.map (fun d => d.1.id) = declaredIds ms := by
  have ids := congrArg (List.map Node.id) h.declared
  simpa [Function.comp_def, nodeOf_id] using ids

theorem declaration?_eq_none_iff (h : f.Notes ms) :
    f.declaration? id = none ↔ id ∉ declaredIds ms := by
  rw [declaration?_eq_none, h.ids]

theorem declare (h : f.Notes ms) (l : Line) (e : Placed Endpoint) :
    (f.declare l e).1.Notes (ms ++ [e.value]) := by
  have known {d : Node G × Span} (found : f.declaration? e.value.id = some d) :
      e.value.id ∈ declaredIds ms := by
    by_contra fresh
    rw [h.declaration?_eq_none_iff.mpr fresh] at found
    cases found
  have kept (same : declaredIds (ms ++ [e.value]) = declaredIds ms) :
      f.declared.map Prod.fst = (declaredIds (ms ++ [e.value])).map (nodeOf (ms ++ [e.value])) := by
    rw [same, h.declared]
    exact List.map_congr_left fun id member => (nodeOf_concat (.inl member)).symm
  unfold Flowchart.declare
  dsimp only
  split
  · next bare found =>
    refine ⟨kept (declaredIds_bare bare), ?_⟩
    rw [h.undeclared, undeclaredIds_bare bare,
      if_pos (List.contains_iff_mem.mpr (declaredIds_subset (known found))), List.append_nil]
  · next bare absent =>
    have fresh := h.declaration?_eq_none_iff.mp absent
    split
    · next noted =>
      have mentioned : e.value.id ∈ undeclaredIds ms := by simpa [h.undeclared] using noted
      refine ⟨kept (declaredIds_bare bare), ?_⟩
      rw [h.undeclared, undeclaredIds_bare bare,
        if_pos (List.contains_iff_mem.mpr (mem_undeclaredIds.mp mentioned).1), List.append_nil]
    · next new =>
      refine ⟨kept (declaredIds_bare bare), ?_⟩
      rw [undeclaredIds_bare bare, if_neg, ← h.undeclared]
      intro mentioned
      refine new (List.contains_iff_mem.mpr ?_)
      rw [h.undeclared]
      exact mem_undeclaredIds.mpr ⟨List.contains_iff_mem.mp mentioned, fresh⟩
  · next shape first shaped found =>
    have some : e.value.shape.isSome = true := by rw [shaped]; rfl
    have declared := known found
    refine ⟨kept ?_, ?_⟩
    · rw [declaredIds_shaped some, if_pos (List.contains_iff_mem.mpr declared), List.append_nil]
    · rw [undeclaredIds_shaped some, h.undeclared, List.filter_eq_self.mpr]
      rintro id undeclared
      have apart := (mem_undeclaredIds.mp undeclared).2
      exact bne_iff_ne.mpr fun same => apart (same ▸ declared)
  · next shape raw shaped absent =>
    have some : e.value.shape.isSome = true := by rw [shaped]; rfl
    have fresh := h.declaration?_eq_none_iff.mp absent
    refine ⟨?_, ?_⟩
    · rw [declaredIds_shaped some, if_neg (fun old => fresh (List.contains_iff_mem.mp old)),
        List.map_append, List.map_append, h.declared, List.map_singleton, List.map_singleton,
        nodeOf_declared fresh shaped]
      congr 1
      exact List.map_congr_left fun id member => (nodeOf_concat (.inl member)).symm
    · rw [undeclaredIds_shaped some, h.undeclared]

theorem step (h : f.Notes ms) (l : Line) : (f.step l).1.Notes (ms ++ mentionsIn l) := by
  unfold Flowchart.step mentionsIn
  dsimp only
  cases header? l.trimmed with
  | some name =>
    rw [List.append_nil]
    unfold Flowchart.setDirection
    dsimp only
    split <;> exact ⟨h.declared, h.undeclared⟩
  | none =>
    cases nodeLine? l.trimmed with
    | some node => exact h.declare l node
    | none =>
      cases edgeLine? l.trimmed with
      | some edge =>
        have both := (h.declare l edge.source).declare l edge.target
        rw [List.append_assoc] at both
        exact ⟨both.declared, both.undeclared⟩
      | none => rwa [List.append_nil]

/-- The nodes of a flowchart are those of its mentions, the declared ones first. -/
theorem nodes (h : f.Notes ms) :
    f.nodes = (declaredIds ms ++ undeclaredIds ms).map (nodeOf ms) := by
  rw [Flowchart.nodes, h.declared, h.undeclared, List.map_append]
  congr 1
  exact List.map_congr_left fun id member =>
    (nodeOf_undeclared (mem_undeclaredIds.mp member).2).symm

end Flowchart.Notes

/-- There is no node exactly where nothing is mentioned. -/
theorem Flowchart.Notes.nodes_eq_nil_iff {f : Flowchart G} (h : f.Notes ms) :
    f.nodes = [] ↔ ms = [] := by
  constructor
  · intro none
    rw [h.nodes, List.map_eq_nil_iff, List.append_eq_nil_iff] at none
    refine List.eq_nil_iff_forall_not_mem.mpr fun m member => ?_
    have mentioned : m.id ∈ undeclaredIds ms := by
      refine mem_undeclaredIds.mpr ⟨List.mem_map_of_mem member, ?_⟩
      rw [none.1]
      exact List.not_mem_nil
    rw [none.2] at mentioned
    cases mentioned
  · rintro rfl
    rw [h.nodes]
    rfl

theorem flowchartOf_notes (lines : List Line) :
    (flowchartOf (G := G) lines).1.Notes (mentions lines) := by
  have initial : ({} : Flowchart G).Notes [] := ⟨rfl, rfl⟩
  exact scan_collects (P := Flowchart.Notes) (fun _ l _ noted => noted.step l)
    (lines.filter Line.isMeaningful) initial

end Document

end Storyboard
