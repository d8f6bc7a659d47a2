import Storyboard.Diagram.Element
import Storyboard.Proofs.Text.Pieces

/-!
# Ids of edges

The id of an edge is put together from the ids of its ends and its ordinal. `Edge.parts` takes an
id apart at its underscores. Parallel edges never share an id; edges of different pairs can, and
`idOf_eq` says what must hold of the ends of two edges that do.
-/

namespace Storyboard

open Text

theorem toString_injective {i j : Nat} (same : toString i = toString j) : i = j := by
  have digits := congrArg (fun s => Nat.ofDigitChars 10 s.toList 0) same
  simpa [Nat.toString_eq_ofList_toDigits] using digits

namespace Edge

/-- The parts of an id between its underscores. -/
def parts (id : String) : List (List Char) := splitWhere (· = '_') id.toList

/-- The part that stands between the ends of an edge. -/
def joint : List Char := "to".toList

/-- The part that an ordinal adds to an id. -/
def ordinalParts (ordinal : Nat) : List (List Char) :=
  if ordinal = 0 then [] else [(toString ordinal).toList]

theorem parts_injective : Function.Injective parts := by
  intro a b same
  have texts := congrArg (['_'].intercalate ·) same
  simp only [parts, intercalate_splitWhere] at texts
  exact String.toList_injective texts

theorem parts_underscore (a b : String) : parts (a ++ "_" ++ b) = parts a ++ parts b := by
  simp only [parts, String.toList_append, List.append_assoc]
  exact splitWhere_append (decide_eq_true rfl) a.toList b.toList

theorem digit_of_mem_toString {n : Nat} {c : Char} (member : c ∈ (toString n).toList) :
    c.isDigit = true := by
  rw [Nat.toString_eq_repr, Nat.toList_repr] at member
  exact Nat.isDigit_of_mem_toDigits (by omega) (by omega) member

theorem parts_toString (n : Nat) : parts (toString n) = [(toString n).toList] := by
  refine splitWhere_of_none fun c member => ?_
  have digit := digit_of_mem_toString member
  refine decide_eq_false ?_
  rintro rfl
  exact absurd digit (by decide)

theorem toString_ne_joint (n : Nat) : (toString n).toList ≠ joint := by
  intro same
  have digit : 't'.isDigit = true := by
    refine digit_of_mem_toString (n := n) ?_
    rw [same]
    decide
  exact absurd digit (by decide)

theorem parts_idOf (source target : String) (ordinal : Nat) :
    parts (idOf source target ordinal) =
      parts source ++ joint :: (parts target ++ ordinalParts ordinal) := by
  have base : parts (source ++ "_to_" ++ target) = parts source ++ joint :: parts target := by
    have marks : source ++ "_to_" ++ target = source ++ "_" ++ "to" ++ "_" ++ target := by
      simp [String.append_assoc]
    rw [marks, parts_underscore, parts_underscore, List.append_assoc]
    rfl
  unfold idOf ordinalParts
  split
  · rw [List.append_nil]
    exact base
  · rw [parts_underscore, parts_toString, base, List.append_assoc, List.cons_append]

theorem ordinalParts_injective : Function.Injective ordinalParts := by
  intro i j same
  unfold ordinalParts at same
  split at same <;> split at same
  · omega
  · cases same
  · cases same
  · have texts : toString i = toString j := String.toList_injective (List.cons.inj same).1
    exact toString_injective texts

theorem ordinalParts_zero : ordinalParts 0 = [] := rfl

theorem parts_numbered (target : String) {ordinal : Nat} (positive : 0 < ordinal) :
    parts target ++ ordinalParts ordinal = parts (target ++ "_" ++ toString ordinal) := by
  rw [parts_underscore, parts_toString, ordinalParts, if_neg (Nat.ne_of_gt positive)]

theorem idOf_ordinal {source target : String} {i j : Nat}
    (same : idOf source target i = idOf source target j) : i = j := by
  have split := congrArg parts same
  rw [parts_idOf, parts_idOf] at split
  have tails := (List.cons.inj (List.append_cancel_left split)).2
  exact ordinalParts_injective (List.append_cancel_left tails)

/-- Edges that share an id leave the same source, unless the joint is also a part of their ends; and
their targets differ by an ordinal at most. -/
theorem idOf_eq {source target source' target' : String} {i j : Nat}
    (plain : joint ∉ parts source ∧ joint ∉ parts target)
    (same : idOf source target i = idOf source' target' j) :
    source = source' ∧ ((target = target' ∧ i = j) ∨
      (0 < j ∧ target = target' ++ "_" ++ toString j) ∨
      (0 < i ∧ target' = target ++ "_" ++ toString i)) := by
  have split := congrArg parts same
  rw [parts_idOf, parts_idOf] at split
  have back : joint ∉ parts target ++ ordinalParts i := by
    rw [List.mem_append, not_or]
    refine ⟨plain.2, ?_⟩
    unfold ordinalParts
    split
    · exact List.not_mem_nil
    · rw [List.mem_singleton]
      exact (toString_ne_joint i).symm
  obtain ⟨sources, -, targets⟩ := (List.append_cons_inj_of_notMem plain.1 back).mp split
  refine ⟨parts_injective sources, ?_⟩
  rcases Nat.eq_zero_or_pos i with rfl | hi <;> rcases Nat.eq_zero_or_pos j with rfl | hj
  · rw [ordinalParts_zero, List.append_nil, List.append_nil] at targets
    exact .inl ⟨parts_injective targets, rfl⟩
  · rw [ordinalParts_zero, List.append_nil, parts_numbered target' hj] at targets
    exact .inr (.inl ⟨hj, parts_injective targets⟩)
  · rw [ordinalParts_zero, List.append_nil, parts_numbered target hi] at targets
    exact .inr (.inr ⟨hi, (parts_injective targets).symm⟩)
  · have lengths : (ordinalParts i).length = (ordinalParts j).length := by
      rw [ordinalParts, ordinalParts, if_neg (Nat.ne_of_gt hi), if_neg (Nat.ne_of_gt hj)]
      rfl
    obtain ⟨ends, ordinals⟩ := List.append_inj' targets lengths
    exact .inl ⟨parts_injective ends, ordinalParts_injective ordinals⟩

end Edge

end Storyboard
