import Mathlib.Data.List.Forall2
import Mathlib.Data.List.Induction
import Mathlib.Data.List.TakeWhile
import Mathlib.Order.Lattice

/-!
# Lists

What the library of lists does not say: where lists fall into parts, what comes first in them, and
what stays in order when they are sorted.
-/

namespace Storyboard

variable {α β : Type}

/-! ### Parts of lists -/

theorem mem_or_mem_head? {x : α} {xs ys : List α} (head : x ∈ (xs ++ ys).head?) :
    x ∈ xs ∨ x ∈ ys.head? := by
  cases xs with
  | nil => exact .inr head
  | cons y xs => exact .inl (List.mem_of_mem_head? head)

theorem append_eq_split {xs ys front back : List α} {x : α} (same : xs ++ ys = front ++ x :: back) :
    (∃ rest, xs = front ++ x :: rest) ∨ ∃ middle, front = xs ++ middle ∧ ys = middle ++ x :: back := by
  rcases List.append_eq_append_iff.mp same with ⟨middle, early, late⟩ | ⟨middle, early, late⟩
  · exact .inr ⟨middle, early, late⟩
  · cases middle with
    | nil =>
      rw [List.append_nil] at early
      exact .inr ⟨[], by rw [early, List.append_nil], late.symm⟩
    | cons y rest =>
      obtain ⟨rfl, _⟩ := List.cons.inj late
      exact .inl ⟨rest, early⟩

theorem exists_last_split {x : α} {xs : List α} (member : x ∈ xs) :
    ∃ before after, xs = before ++ x :: after ∧ x ∉ after := by
  obtain ⟨after, before, split, first⟩ := List.eq_append_cons_of_mem (List.mem_reverse.mpr member)
  refine ⟨before.reverse, after.reverse, ?_, fun later => first (List.mem_reverse.mp later)⟩
  simpa using congrArg List.reverse split

theorem append_inj_of_split {p : α → Bool} {xs xs' ys ys' : List α}
    (same : xs ++ ys = xs' ++ ys') (front : ∀ a ∈ xs, p a = true) (front' : ∀ a ∈ xs', p a = true)
    (back : ∀ a ∈ ys, p a = false) (back' : ∀ a ∈ ys', p a = false) : xs = xs' ∧ ys = ys' := by
  have kept {xs ys : List α} (front : ∀ a ∈ xs, p a = true) (back : ∀ a ∈ ys, p a = false) :
      (xs ++ ys).filter p = xs := by
    rw [List.filter_append, List.filter_eq_self.mpr front,
      List.filter_eq_nil_iff.mpr fun a member => by simp [back a member], List.append_nil]
  have first : xs = xs' := by rw [← kept front back, same, kept front' back']
  subst first
  exact ⟨rfl, List.append_cancel_left same⟩

theorem getElem?_snoc_cases {xs : List α} {x y : α} {i : Nat} (found : (xs ++ [x])[i]? = some y) :
    xs[i]? = some y ∨ (i = xs.length ∧ y = x) := by
  rcases Nat.lt_or_ge i xs.length with inside | outside
  · rw [List.getElem?_append_left inside] at found
    exact .inl found
  · obtain ⟨bound, same⟩ := List.getElem?_eq_some_iff.mp found
    have last : i = xs.length := by
      rw [List.length_append, List.length_singleton] at bound
      omega
    subst last
    exact .inr ⟨rfl, by simpa using same.symm⟩

/-- Where those entries stand that satisfy a property which holds in front and fails behind. -/
theorem getElem?_append_iff {p : α → Prop} {front back : List α} (yes : ∀ a ∈ front, p a)
    (no : ∀ a ∈ back, ¬ p a) (k : Nat) :
    (∃ a, (front ++ back)[k]? = some a ∧ p a) ↔ k < front.length := by
  constructor
  · rintro ⟨a, found, holds⟩
    by_contra outside
    rw [List.getElem?_append_right (Nat.not_lt.mp outside)] at found
    exact no a (List.mem_of_getElem? found) holds
  · intro inside
    refine ⟨front[k], ?_, yes _ (List.getElem_mem inside)⟩
    rw [List.getElem?_append_left inside, List.getElem?_eq_getElem inside]

/-- The first entry with a property, if any entry has it. -/
inductive FirstWith (p : α → Prop) (xs : List α) : Option α → Prop
  | found {before after : List α} {x : α} (parts : xs = before ++ x :: after) (holds : p x)
      (first : ∀ y ∈ before, ¬ p y) : FirstWith p xs (some x)
  | none (absent : ∀ x ∈ xs, ¬ p x) : FirstWith p xs none

theorem find?_eq_iff {p : α → Prop} {test : α → Bool} {xs : List α} {first : Option α}
    (same : ∀ x ∈ xs, test x = true ↔ p x) : xs.find? test = first ↔ FirstWith p xs first := by
  constructor
  · intro found
    cases first with
    | none => exact .none fun x member holds =>
        List.find?_eq_none.mp found x member ((same x member).mpr holds)
    | some x =>
      obtain ⟨holds, before, after, rfl, absent⟩ := List.find?_eq_some_iff_append.mp found
      refine .found rfl ((same x (by simp)).mp holds) fun y member holds => ?_
      have passed := (same y (by simp [member])).mpr holds
      simpa [passed] using absent y member
  · rintro (⟨rfl, holds, absent⟩ | absent)
    · refine List.find?_eq_some_iff_append.mpr ⟨(same _ (by simp)).mpr holds, _, _, rfl, ?_⟩
      intro y member
      simpa using fun passed => absent y member ((same y (by simp [member])).mp passed)
    · exact List.find?_eq_none.mpr fun x member passed => absent x member ((same x member).mp passed)

theorem FirstWith.mem {p : α → Prop} {xs : List α} {x : α} (first : FirstWith p xs (some x)) :
    x ∈ xs := by
  obtain ⟨rfl, _, _⟩ := first
  exact List.mem_append_right _ List.mem_cons_self

theorem FirstWith.holds {p : α → Prop} {xs : List α} {x : α} (first : FirstWith p xs (some x)) :
    p x := by
  obtain ⟨_, holds, _⟩ := first
  exact holds

/-- A list without the entries that make nothing makes the same. -/
theorem flatMap_filter {f : α → List β} {p : α → Bool} {xs : List α}
    (nothing : ∀ x ∈ xs, p x = false → f x = []) : (xs.filter p).flatMap f = xs.flatMap f := by
  induction xs with
  | nil => rfl
  | cons x xs ih =>
    have rest := ih fun y member => nothing y (List.mem_cons_of_mem _ member)
    cases kept : p x with
    | true => rw [List.filter_cons_of_pos kept, List.flatMap_cons, List.flatMap_cons, rest]
    | false =>
      rw [List.filter_cons_of_neg (by simp [kept]), List.flatMap_cons,
        nothing x List.mem_cons_self kept, List.nil_append, rest]

theorem findSome?_filter (p : α → Bool) (f : α → Option β) (xs : List α) :
    (xs.filter p).findSome? f = xs.findSome? fun x => if p x then f x else none := by
  induction xs with
  | nil => rfl
  | cons x xs ih =>
    rw [List.filter_cons, List.findSome?_cons]
    split
    · rw [List.findSome?_cons, ih]
    · exact ih

/-- A fold does the same with entries that it does the same with one by one. -/
theorem foldl_forall₂ {R : α → α → Prop} {f : β → α → β} (step : ∀ b x y, R x y → f b x = f b y)
    {xs ys : List α} (all : List.Forall₂ R xs ys) (b : β) : xs.foldl f b = ys.foldl f b := by
  induction all generalizing b with
  | nil => rfl
  | cons first _ ih => rw [List.foldl_cons, List.foldl_cons, step b _ _ first, ih]

/-- The keys of the entries that are made are some of the keys, in their order. -/
theorem keys_sublist {κ ν : Type} {entry : α → Option (κ × ν)} {key : α → κ}
    (keyed : ∀ a e, entry a = some e → e.1 = key a) (xs : List α) :
    ((xs.filterMap entry).map Prod.fst).Sublist (xs.map key) := by
  induction xs with
  | nil => exact .slnil
  | cons a xs ih =>
    rw [List.map_cons]
    cases found : entry a with
    | none =>
      rw [List.filterMap_cons_none found]
      exact ih.cons _
    | some e =>
      rw [List.filterMap_cons_some found, List.map_cons, keyed a e found]
      exact ih.cons_cons _

/-! ### Leading runs -/

section

variable {p q : α → Bool}

theorem takeWhile_append_of_stop {run rest : List α} (all : ∀ x ∈ run, p x = true)
    (stop : ∀ x ∈ rest.head?, p x = false) : (run ++ rest).takeWhile p = run := by
  rw [List.takeWhile_append_of_pos all]
  cases rest with
  | nil => exact List.append_nil run
  | cons x rest => simp [stop x rfl]

theorem dropWhile_append_of_stop {run rest : List α} (all : ∀ x ∈ run, p x = true)
    (stop : ∀ x ∈ rest.head?, p x = false) : (run ++ rest).dropWhile p = rest := by
  rw [List.dropWhile_append_of_pos all]
  cases rest with
  | nil => rfl
  | cons x rest => simp [stop x rfl]

theorem length_takeWhile_reverse {front same : List α} (no : ∀ a ∈ front, p a = false)
    (yes : ∀ a ∈ same, p a = true) :
    ((front ++ same).reverse.takeWhile p).length = same.length := by
  rw [List.reverse_append, takeWhile_append_of_stop, List.length_reverse]
  · exact fun a member => yes a (List.mem_reverse.mp member)
  · exact fun a head => no a (List.mem_reverse.mp (List.mem_of_mem_head? head))

theorem getElem?_of_lt_takeWhile {xs : List α} {i : Nat} (inside : i < (xs.takeWhile p).length) :
    ∃ x, xs[i]? = some x ∧ p x = true := by
  have kept := List.mem_takeWhile_imp (List.getElem_mem inside)
  have same := (List.takeWhile_prefix p).getElem inside
  have bound := Nat.lt_of_lt_of_le inside (List.takeWhile_prefix p).length_le
  exact ⟨xs[i], List.getElem?_eq_getElem bound, same ▸ kept⟩

theorem of_getElem?_takeWhile {xs : List α} {x : α}
    (found : xs[(xs.takeWhile p).length]? = some x) : p x = false := by
  induction xs with
  | nil => cases found
  | cons y ys ih =>
    cases holds : p y with
    | true =>
      rw [List.takeWhile_cons_of_pos holds, List.length_cons, List.getElem?_cons_succ] at found
      exact ih found
    | false =>
      rw [List.takeWhile_cons_of_neg (by simp [holds])] at found
      exact Option.some.inj found ▸ holds

theorem takeWhile_split (weaker : ∀ a, p a = true → q a = true) (l : List α) :
    l.takeWhile q = l.takeWhile p ++ (l.drop (l.takeWhile p).length).takeWhile q := by
  induction l with
  | nil => rfl
  | cons a l ih =>
    by_cases taken : p a = true
    · simp [taken, weaker a taken, ih]
    · simp [taken]

end

/-! ### First appearances -/

section

variable [BEq α] [LawfulBEq α]

theorem eraseDups_concat (xs : List α) (x : α) :
    (xs ++ [x]).eraseDups = xs.eraseDups ++ if xs.contains x then [] else [x] := by
  rw [List.eraseDups_append]
  congr 1
  by_cases old : x ∈ xs
  · simp [List.removeAll, old]
  · have single : [x].eraseDups = [x] := by rw [List.eraseDups_cons, List.filter_nil]; rfl
    simp [List.removeAll, old, single]

theorem eraseDups_sublist (xs : List α) : xs.eraseDups.Sublist xs := by
  induction xs using List.reverseRecOn with
  | nil => simp
  | append_singleton xs x ih =>
    rw [eraseDups_concat]
    refine ih.append ?_
    split <;> simp

theorem eraseDups_filter (p : α → Bool) (xs : List α) :
    (xs.filter p).eraseDups = xs.eraseDups.filter p := by
  induction xs using List.reverseRecOn with
  | nil => simp
  | append_singleton xs x ih =>
    cases wanted : p x with
    | true =>
      have known : (xs.filter p).contains x = xs.contains x := by simp [wanted]
      rw [List.filter_append, eraseDups_concat xs x, List.filter_append, List.filter_singleton,
        wanted, Bool.cond_true, eraseDups_concat, ih, known]
      split <;> simp [wanted]
    | false =>
      rw [List.filter_append, eraseDups_concat, List.filter_append, ← ih]
      split <;> simp [wanted]

/-- Repetitions are dropped in favor of the first appearance. -/
theorem eraseDups_pairwise_idxOf (xs : List α) :
    xs.eraseDups.Pairwise (fun a b => xs.idxOf a < xs.idxOf b) := by
  induction xs using List.reverseRecOn with
  | nil => simp
  | append_singleton xs x ih =>
    have kept : ∀ a ∈ xs.eraseDups, (xs ++ [x]).idxOf a = xs.idxOf a := by
      intro a member
      exact List.idxOf_append_of_mem (List.mem_eraseDups.mp member)
    have early : xs.eraseDups.Pairwise (fun a b => (xs ++ [x]).idxOf a < (xs ++ [x]).idxOf b) := by
      refine ih.imp_of_mem ?_
      intro a b first second less
      rwa [kept a first, kept b second]
    rw [eraseDups_concat]
    split
    · rwa [List.append_nil]
    · next unseen =>
      refine List.pairwise_append.mpr ⟨early, by simp, ?_⟩
      intro a member b last
      obtain rfl := List.mem_singleton.mp last
      have inside := List.idxOf_lt_length_of_mem (List.mem_eraseDups.mp member)
      rw [kept a member, List.idxOf_append_of_notMem (by simpa using unseen)]
      omega

theorem eraseDups_nodup (xs : List α) : xs.eraseDups.Nodup :=
  (eraseDups_pairwise_idxOf xs).imp fun {a b} less same => by
    subst same
    exact Nat.lt_irrefl _ less

end

/-! ### Sorting -/

section

variable [LinearOrder β] (key : α → β)

theorem decide_le_trans (a b c : α) (first : decide (key a ≤ key b) = true)
    (second : decide (key b ≤ key c) = true) : decide (key a ≤ key c) = true :=
  decide_eq_true ((of_decide_eq_true first).trans (of_decide_eq_true second))

theorem decide_le_total (a b : α) :
    (decide (key a ≤ key b) || decide (key b ≤ key a)) = true := by
  simpa using le_total (key a) (key b)

/-- A sorted list falls into what is below a value, what is equal to it and what is above it. -/
theorem exists_parts {xs : List α} (sorted : xs.Pairwise (fun a b => key a ≤ key b)) (value : β) :
    ∃ below equal above, xs = below ++ equal ++ above ∧ (∀ a ∈ below, key a < value) ∧
      (∀ a ∈ equal, key a = value) ∧ ∀ a ∈ above, value < key a := by
  induction xs with
  | nil => exact ⟨[], [], [], rfl, by simp, by simp, by simp⟩
  | cons x xs ih =>
    obtain ⟨first, rest⟩ := List.pairwise_cons.mp sorted
    obtain ⟨below, equal, above, rfl, less, same, more⟩ := ih rest
    rcases lt_trichotomy (key x) value with early | now | late
    · exact ⟨x :: below, equal, above, rfl, List.forall_mem_cons.mpr ⟨early, less⟩, same, more⟩
    · have none : below = [] := List.eq_nil_iff_forall_not_mem.mpr fun a member =>
        (less a member).not_ge (now ▸ first a (by simp [member]))
      subst none
      exact ⟨[], x :: equal, above, rfl, by simp, List.forall_mem_cons.mpr ⟨now, same⟩, more⟩
    · refine ⟨[], [], x :: (below ++ equal ++ above), rfl, by simp, by simp, ?_⟩
      exact List.forall_mem_cons.mpr ⟨late, fun a member => late.trans_le (first a member)⟩

end

section

variable {le : α → α → Bool} (trans : ∀ a b c, le a b = true → le b c = true → le a c = true)
  (total : ∀ a b, (le a b || le b a) = true)
include trans total

/-- Sorting leaves entries in their order that are sorted among each other. -/
theorem filter_mergeSort_of_sorted {p : α → Bool} {xs : List α}
    (ordered : (xs.filter p).Pairwise (fun a b => le a b = true)) :
    (xs.mergeSort le).filter p = xs.filter p := by
  have inside : (xs.filter p).Sublist (xs.mergeSort le) :=
    List.sublist_mergeSort trans total ordered List.filter_sublist
  have same : (xs.filter p).filter p = xs.filter p := by simp
  have kept := inside.filter p
  rw [same] at kept
  have length := ((List.mergeSort_perm xs le).filter p).length_eq
  exact (kept.eq_of_length length.symm).symm

/-- Sorting leaves entries that are tied with each other in their order. -/
theorem filter_mergeSort_of_tied {p : α → Bool}
    (tied : ∀ a b, p a = true → p b = true → le a b = true) (xs : List α) :
    (xs.mergeSort le).filter p = xs.filter p := by
  refine filter_mergeSort_of_sorted trans total (List.pairwise_of_forall_mem_list ?_)
  intro a first b second
  exact tied a b (List.mem_filter.mp first).2 (List.mem_filter.mp second).2

/-- Entries that are not below earlier ones are sorted after them. -/
theorem mergeSort_append {xs ys : List α} (above : ∀ x ∈ xs, ∀ y ∈ ys, le x y = true) :
    (xs ++ ys).mergeSort le = xs.mergeSort le ++ ys.mergeSort le := by
  induction xs with
  | nil => simp
  | cons x xs ih =>
    obtain ⟨early, late, all, rest, less⟩ := List.mergeSort_cons trans total x (xs ++ ys)
    obtain ⟨early', late', all', rest', less'⟩ := List.mergeSort_cons trans total x xs
    -- In both lists the new entry stands in front of the first one that is not below it.
    have more {early late : List α} {zs : List α} (all : (x :: zs).mergeSort le = early ++ x :: late) :
        ∀ z ∈ late, le x z = true := by
      have sorted := List.pairwise_mergeSort trans total (x :: zs)
      rw [all] at sorted
      exact (List.pairwise_cons.mp (List.pairwise_append.mp sorted).2.1).1
    have same : early ++ late = early' ++ (late' ++ ys.mergeSort le) := by
      rw [← rest, ih fun z member => above z (List.mem_cons_of_mem _ member), rest',
        List.append_assoc]
    obtain ⟨rfl, rfl⟩ := append_inj_of_split (p := fun z => !le x z) same less less'
      (fun z member => by simp [more all z member]) (fun z member => by
        rcases List.mem_append.mp member with old | new
        · simp [more all' z old]
        · simp [above x List.mem_cons_self z (List.mem_mergeSort.mp new)])
    rw [List.cons_append, all, all', List.append_assoc, List.cons_append]

end

end Storyboard
