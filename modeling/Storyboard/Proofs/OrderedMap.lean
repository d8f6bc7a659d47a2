import Mathlib.Data.List.Induction
import Storyboard.OrderedMap

/-!
# Looking up in ordered maps

What is found in a map is one of its entries. Applying a function to all values of a map commutes with
looking up and with setting values.
-/

namespace Storyboard

namespace OrderedMap

variable {κ ν μ : Type}

theorem mem_of_get? [BEq κ] [LawfulBEq κ] {m : OrderedMap κ ν} {k : κ} {v : ν}
    (found : m.get? k = some v) : (k, v) ∈ m.entries := by
  obtain ⟨before, after, same, _⟩ := List.lookup_eq_some_iff.mp found
  rw [same]
  exact List.mem_append_right _ List.mem_cons_self

def mapValues (f : ν → μ) (m : OrderedMap κ ν) : OrderedMap κ μ :=
  ⟨m.entries.map fun e => (e.1, f e.2)⟩

@[simp] theorem values_mapValues (f : ν → μ) (m : OrderedMap κ ν) :
    (m.mapValues f).values = m.values.map f := by
  simp [values, mapValues]

variable [BEq κ]

@[simp] theorem contains_mapValues (f : ν → μ) (m : OrderedMap κ ν) (k : κ) :
    (m.mapValues f).contains k = m.contains k := by
  simp [contains, mapValues, Function.comp_def]

@[simp] theorem mapValues_insertNew (f : ν → μ) (m : OrderedMap κ ν) (k : κ) (v : ν) :
    (m.insertNew k v).mapValues f = (m.mapValues f).insertNew k (f v) := by
  unfold insertNew
  rw [contains_mapValues]
  split <;> simp [mapValues]

@[simp] theorem mapValues_insert (f : ν → μ) (m : OrderedMap κ ν) (k : κ) (v : ν) :
    (m.insert k v).mapValues f = (m.mapValues f).insert k (f v) := by
  unfold insert
  rw [contains_mapValues]
  split
  · simp only [modify, mapValues, List.map_map, mk.injEq]
    refine List.map_congr_left fun e _ => ?_
    simp only [Function.comp_apply]
    split <;> rfl
  · simp [mapValues]

@[simp] theorem get?_mapValues [LawfulBEq κ] (f : ν → μ) (m : OrderedMap κ ν) (k : κ) :
    (m.mapValues f).get? k = (m.get? k).map f := by
  obtain ⟨entries⟩ := m
  unfold mapValues
  induction entries with
  | nil => rfl
  | cons e rest ih =>
    rw [List.map_cons, get?_cons, get?_cons, ih]
    split <;> rfl

/-! ### Entries -/

section

variable {P : ν → Prop} {m : OrderedMap κ ν} {k : κ} {v : ν}

theorem forall_insert (all : ∀ e ∈ m.entries, P e.2) (new : P v) :
    ∀ e ∈ (m.insert k v).entries, P e.2 := by
  unfold insert modify
  split
  · refine List.forall_mem_map.mpr fun e member => ?_
    split
    · exact new
    · exact all e member
  · exact List.forall_mem_append.mpr ⟨all, List.forall_mem_singleton.mpr new⟩

theorem forall_insertNew (all : ∀ e ∈ m.entries, P e.2) (new : P v) :
    ∀ e ∈ (m.insertNew k v).entries, P e.2 := by
  unfold insertNew
  split
  · exact all
  · exact List.forall_mem_append.mpr ⟨all, List.forall_mem_singleton.mpr new⟩

end

theorem entries_foldl_insertNew (f : κ → ν) (ks : List κ) (m : OrderedMap κ ν) :
    m.entries <+: (ks.foldl (fun m k => m.insertNew k (f k)) m).entries := by
  induction ks generalizing m with
  | nil => exact List.prefix_rfl
  | cons k ks ih =>
    refine List.IsPrefix.trans ?_ (ih (m.insertNew k (f k)))
    unfold insertNew
    split
    · exact List.prefix_rfl
    · exact List.prefix_append _ _

/-! ### Maps of lists -/

theorem ofList_concat (entries : List (κ × ν)) (e : κ × ν) :
    ofList (entries ++ [e]) = (ofList entries).insert e.1 e.2 := by
  simp [ofList]

theorem mapValues_ofList (f : ν → μ) (entries : List (κ × ν)) :
    (ofList entries).mapValues f = ofList (entries.map fun e => (e.1, f e.2)) := by
  induction entries using List.reverseRecOn with
  | nil => rfl
  | append_singleton entries e ih =>
    rw [ofList_concat, mapValues_insert, ih, List.map_append]
    exact (ofList_concat _ (e.1, f e.2)).symm

variable [LawfulBEq κ]

/-- The keys stand in the order in which they first come. -/
theorem keys_ofList (entries : List (κ × ν)) :
    (ofList entries).keys = (entries.map Prod.fst).eraseDups := by
  induction entries using List.reverseRecOn with
  | nil => rfl
  | append_singleton entries e ih =>
    have known : (ofList entries).contains e.1 = (entries.map Prod.fst).contains e.1 := by
      rw [Bool.eq_iff_iff, contains_iff, ih]
      simp
    rw [ofList_concat, keys_insert, List.map_append, List.eraseDups_append, ih, known]
    cases member : (entries.map Prod.fst).contains e.1 <;> simp_all [List.removeAll, List.eraseDups_cons]

/-- A value of one key does not matter to another key. -/
theorem get?_ofList_other {before after : List (κ × ν)} {k j : κ} (v : ν) (other : j ≠ k) :
    (ofList (before ++ (k, v) :: after)).get? j = (ofList (before ++ after)).get? j := by
  rw [get?_ofList_eq_lookup, get?_ofList_eq_lookup]
  simp [List.lookup_append, List.lookup_cons, beq_eq_false_iff_ne.mpr other]

/-- Values can be changed before they are put into a map or after. -/
theorem entries_ofList_map (f : κ → ν → ν) (entries : List (κ × ν)) :
    (ofList (entries.map fun e => (e.1, f e.1 e.2))).entries =
      (ofList entries).entries.map fun e => (e.1, f e.1 e.2) := by
  have one (m m' : OrderedMap κ ν) (e : κ × ν)
      (same : m'.entries = m.entries.map fun e => (e.1, f e.1 e.2)) :
      (m'.insert e.1 (f e.1 e.2)).entries =
        (m.insert e.1 e.2).entries.map fun e => (e.1, f e.1 e.2) := by
    have known : m'.contains e.1 = m.contains e.1 := by
      simp [contains, same, Function.comp_def]
    unfold insert
    rw [known]
    split
    · simp only [modify, same, List.map_map]
      refine List.map_congr_left fun old _ => ?_
      by_cases found : old.1 = e.1
      · simp [found]
      · simp [found]
    · simp [same]
  have all : ∀ (es : List (κ × ν)) (m m' : OrderedMap κ ν),
      m'.entries = m.entries.map (fun e => (e.1, f e.1 e.2)) →
        ((es.map fun e => (e.1, f e.1 e.2)).foldl (fun m e => m.insert e.1 e.2) m').entries =
          (es.foldl (fun m e => m.insert e.1 e.2) m).entries.map fun e => (e.1, f e.1 e.2) := by
    intro es
    induction es with
    | nil => exact fun m m' same => same
    | cons e rest ih => exact fun m m' same => ih _ _ (one m m' e same)
  exact all entries empty empty rfl

end OrderedMap

end Storyboard
