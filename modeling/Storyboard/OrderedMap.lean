/-!
# Ordered maps

Maps that remember the order in which their keys first came in. Overwriting a key keeps its
place.
-/

namespace Storyboard

structure OrderedMap (κ ν : Type) where
  /-- Keys with their values, the oldest key first. -/
  entries : List (κ × ν) := []
  deriving DecidableEq, Repr, Inhabited

namespace OrderedMap

variable {κ ν μ : Type} [BEq κ]

def empty : OrderedMap κ ν := ⟨[]⟩

def get? (m : OrderedMap κ ν) (k : κ) : Option ν :=
  m.entries.lookup k

def contains (m : OrderedMap κ ν) (k : κ) : Bool :=
  m.entries.any (fun e => e.1 == k)

def keys (m : OrderedMap κ ν) : List κ :=
  m.entries.map Prod.fst

def values (m : OrderedMap κ ν) : List ν :=
  m.entries.map Prod.snd

def size (m : OrderedMap κ ν) : Nat :=
  m.entries.length

def isEmpty (m : OrderedMap κ ν) : Bool :=
  m.entries.isEmpty

/-- Applies `f` to the value of every entry with key `k`. -/
def modify (m : OrderedMap κ ν) (k : κ) (f : ν → ν) : OrderedMap κ ν :=
  ⟨m.entries.map fun e => if e.1 == k then (e.1, f e.2) else e⟩

/-- Sets the value of a key; a new key goes to the end. -/
def insert (m : OrderedMap κ ν) (k : κ) (v : ν) : OrderedMap κ ν :=
  if m.contains k then m.modify k (fun _ => v) else ⟨m.entries ++ [(k, v)]⟩

/-- Sets the value of a key that has none. -/
def insertNew (m : OrderedMap κ ν) (k : κ) (v : ν) : OrderedMap κ ν :=
  if m.contains k then m else ⟨m.entries ++ [(k, v)]⟩

/-- The map of a list of entries, the last value of a key winning. -/
def ofList (entries : List (κ × ν)) : OrderedMap κ ν :=
  entries.foldl (fun m e => m.insert e.1 e.2) empty

/-! ### Keys and values after an operation -/

theorem keys_modify (m : OrderedMap κ ν) (k : κ) (f : ν → ν) : (m.modify k f).keys = m.keys := by
  unfold keys modify
  rw [List.map_map]
  apply List.map_congr_left
  intro e _
  simp only [Function.comp_apply]
  split <;> rfl

theorem keys_insert (m : OrderedMap κ ν) (k : κ) (v : ν) :
    (m.insert k v).keys = if m.contains k then m.keys else m.keys ++ [k] := by
  unfold insert
  split
  · exact keys_modify m k _
  · simp [keys]

variable [LawfulBEq κ]

theorem contains_iff (m : OrderedMap κ ν) (k : κ) : m.contains k = true ↔ k ∈ m.keys := by
  simp [contains, keys]

theorem get?_cons (e : κ × ν) (entries : List (κ × ν)) (k : κ) :
    get? ⟨e :: entries⟩ k = if e.1 == k then some e.2 else get? ⟨entries⟩ k := by
  obtain ⟨a, v⟩ := e
  unfold get?
  rw [List.lookup_cons, BEq.comm]
  cases a == k <;> rfl

theorem get?_isSome (m : OrderedMap κ ν) (k : κ) : (m.get? k).isSome = m.contains k := by
  obtain ⟨entries⟩ := m
  induction entries with
  | nil => rfl
  | cons e entries ih =>
    have hc : contains ⟨e :: entries⟩ k = (e.1 == k || contains ⟨entries⟩ k) := List.any_cons
    rw [get?_cons, hc, ← ih]
    cases e.1 == k <;> simp

theorem get?_modify (m : OrderedMap κ ν) (k j : κ) (f : ν → ν) :
    (m.modify k f).get? j = if k == j then (m.get? j).map f else m.get? j := by
  obtain ⟨entries⟩ := m
  induction entries with
  | nil =>
    show (none : Option ν) = if k == j then none else none
    rw [ite_self]
  | cons e entries ih =>
    have hm : modify ⟨e :: entries⟩ k f =
        ⟨(if e.1 == k then (e.1, f e.2) else e) :: (modify ⟨entries⟩ k f).entries⟩ := rfl
    rw [hm, get?_cons, get?_cons, ih]
    by_cases hk : e.1 = k
    · subst hk
      simp only [beq_self_eq_true, if_true]
      split <;> simp_all
    · by_cases hj : e.1 = j
      · subst hj
        simp [hk, Ne.symm hk]
      · simp [hk, hj]

theorem get?_insert (m : OrderedMap κ ν) (k j : κ) (v : ν) :
    (m.insert k v).get? j = if k == j then some v else m.get? j := by
  unfold insert
  split
  · next h =>
    rw [get?_modify]
    split
    · next hj =>
      rw [← eq_of_beq hj]
      rw [← get?_isSome] at h
      obtain ⟨old, hold⟩ := Option.isSome_iff_exists.mp h
      rw [hold, Option.map_some]
    · rfl
  · next h =>
    have hnone : m.get? k = none := by
      rw [← get?_isSome] at h
      exact Option.not_isSome_iff_eq_none.mp h
    unfold get? at hnone ⊢
    rw [List.lookup_append]
    by_cases hj : k = j
    · subst hj
      simp [hnone]
    · have hj' : (j == k) = false := beq_eq_false_iff_ne.mpr (Ne.symm hj)
      simp [hj, hj', List.lookup_cons]

theorem get?_insertNew (m : OrderedMap κ ν) (k j : κ) (v : ν) :
    (m.insertNew k v).get? j = (m.get? j).or (if k == j then some v else none) := by
  unfold insertNew
  split
  · next h =>
    split
    · next hj =>
      rw [← eq_of_beq hj]
      rw [← get?_isSome] at h
      obtain ⟨old, hold⟩ := Option.isSome_iff_exists.mp h
      rw [hold, Option.some_or]
    · rw [Option.or_none]
  · unfold get?
    rw [List.lookup_append]
    by_cases hj : k = j
    · simp [hj]
    · have hj' : (j == k) = false := beq_eq_false_iff_ne.mpr (Ne.symm hj)
      simp [hj, hj', List.lookup_cons]

theorem get?_foldl_insertNew (f : κ → ν) (ks : List κ) (m : OrderedMap κ ν) (j : κ) :
    (ks.foldl (fun m k => m.insertNew k (f k)) m).get? j =
      (m.get? j).or (if ks.contains j then some (f j) else none) := by
  induction ks generalizing m with
  | nil => simp
  | cons k ks ih =>
    rw [List.foldl_cons, ih, get?_insertNew, Option.or_assoc]
    congr 1
    by_cases hj : k = j
    · simp [hj]
    · simp [hj, Ne.symm hj]

/-- Of the values that a key is given, the last one counts. -/
theorem get?_foldl_insert (entries : List (κ × ν)) (m : OrderedMap κ ν) (k : κ) :
    (entries.foldl (fun m e => m.insert e.1 e.2) m).get? k =
      (entries.reverse.lookup k).or (m.get? k) := by
  induction entries generalizing m with
  | nil => rfl
  | cons e rest ih =>
    obtain ⟨a, v⟩ := e
    rw [List.foldl_cons, ih, get?_insert, List.reverse_cons, List.lookup_append, Option.or_assoc]
    congr 1
    rw [List.lookup_cons, BEq.comm]
    cases k == a <;> rfl

theorem get?_ofList_eq_lookup (entries : List (κ × ν)) (k : κ) :
    (ofList entries).get? k = entries.reverse.lookup k := by
  rw [ofList, get?_foldl_insert]
  exact Option.or_none

theorem isSome_get?_ofList (entries : List (κ × ν)) (k : κ) :
    ((ofList entries).get? k).isSome = true ↔ k ∈ entries.map Prod.fst := by
  rw [get?_ofList_eq_lookup, List.lookup_isSome_iff]
  simp only [List.mem_reverse, beq_iff_eq, List.mem_map]
  constructor
  · rintro ⟨e, member, rfl⟩
    exact ⟨e, member, rfl⟩
  · rintro ⟨e, member, rfl⟩
    exact ⟨e, member, rfl⟩

theorem mem_of_get?_ofList {entries : List (κ × ν)} {k : κ} {v : ν}
    (found : (ofList entries).get? k = some v) : (k, v) ∈ entries := by
  rw [get?_ofList_eq_lookup, List.lookup_eq_some_iff] at found
  obtain ⟨later, earlier, split, _⟩ := found
  exact List.mem_reverse.mp (split ▸ List.mem_append_right later List.mem_cons_self)

/-- Of the values of a key the last one stays. -/
theorem get?_ofList_last {before after : List (κ × ν)} {k : κ} (v : ν)
    (last : k ∉ after.map Prod.fst) : (ofList (before ++ (k, v) :: after)).get? k = some v := by
  rw [get?_ofList_eq_lookup, List.lookup_eq_some_iff]
  refine ⟨after.reverse, before.reverse, by simp, fun e member => ?_⟩
  have other : k ≠ e.1 := fun same =>
    last (same ▸ List.mem_map_of_mem (List.mem_reverse.mp member))
  simpa using other

/-- Each key of a list without repetitions has its own value in the map. -/
theorem get?_ofList {entries : List (κ × ν)} (distinct : (entries.map Prod.fst).Nodup) {k : κ}
    {v : ν} : (ofList entries).get? k = some v ↔ (k, v) ∈ entries := by
  refine ⟨mem_of_get?_ofList, fun member => ?_⟩
  obtain ⟨before, after, rfl⟩ := List.append_of_mem member
  refine get?_ofList_last v fun later => ?_
  rw [List.map_append, List.map_cons] at distinct
  exact (List.nodup_cons.mp (List.nodup_append.mp distinct).2.1).1 later

theorem get?_of_mem {m : OrderedMap κ ν} (distinct : m.keys.Nodup) {k : κ} {v : ν}
    (member : (k, v) ∈ m.entries) : m.get? k = some v := by
  obtain ⟨entries⟩ := m
  induction entries with
  | nil => cases member
  | cons e rest ih =>
    obtain ⟨fresh, later⟩ : e.1 ∉ rest.map Prod.fst ∧ (rest.map Prod.fst).Nodup :=
      List.nodup_cons.mp distinct
    rw [get?_cons]
    rcases List.mem_cons.mp member with rfl | inside
    · simp
    · have other : e.1 ≠ k := fun same => fresh (same ▸ List.mem_map.mpr ⟨_, inside, rfl⟩)
      simpa [other] using ih later inside

end OrderedMap

end Storyboard
