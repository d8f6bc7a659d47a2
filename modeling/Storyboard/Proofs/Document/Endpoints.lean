import Mathlib.Tactic.Common
import Storyboard.Document.Grammar
import Storyboard.Proofs.Text.Pieces
import Storyboard.Proofs.Text.Place

/-!
# Endpoints as they are written

An endpoint is written as its id and, if it has a shape, its label between two brackets. Where a line
of the body is read as a node or an edge, each endpoint takes up exactly the text that writes it.
-/

namespace Storyboard

namespace Text

/-! ### Letters and white space -/

theorem alphanumericRanges_apart : (alphanumericRanges.toList.all fun r =>
    blankRanges.all fun b => b.2.blt r.1 || r.2.blt b.1) = true := by decide +kernel

theorem ascii_apart : ∀ n < 128, (Char.ofNat n).isAlphanum = true → isBlank (Char.ofNat n) = false := by
  decide +kernel

theorem isAlphanumeric_not_blank {c : Char} (letter : isAlphanumeric c = true) :
    isBlank c = false := by
  refine Bool.eq_false_iff.mpr fun blank => ?_
  unfold isAlphanumeric at letter
  split at letter
  · next small =>
    have apart := ascii_apart c.toNat small
    rw [Char.ofNat_toNat, blank] at apart
    cases apart letter
  · obtain ⟨b, white, low, high⟩ := isBlank_iff.mp blank
    rw [← Array.any_toList] at letter
    obtain ⟨r, range, inside⟩ := List.any_eq_true.mp letter
    have apart := List.all_eq_true.mp (List.all_eq_true.mp alphanumericRanges_apart r range) b white
    simp only [Bool.and_eq_true, decide_eq_true_eq] at inside
    simp only [Bool.or_eq_true, Nat.blt_eq] at apart
    omega

end Text

open Text

namespace Document

theorem isIdChar_not_blank {c : Char} (part : isIdChar c = true) : isBlank c = false := by
  simp only [isIdChar, Bool.or_eq_true, decide_eq_true_eq] at part
  rcases part with (letter | rfl) | rfl
  · exact isAlphanumeric_not_blank letter
  · rfl
  · rfl

/-! ### Readers and what they take -/

theorem takeRun?_eq_some {p : Char → Bool} {cs run rest : List Char}
    (taken : takeRun? p cs = some (run, rest)) :
    cs = run ++ rest ∧ run ≠ [] ∧ ∀ c ∈ run, p c = true := by
  unfold takeRun? at taken
  dsimp only at taken
  split at taken
  · cases taken
  · next some =>
    obtain ⟨rfl, rfl⟩ := Prod.mk.inj (Option.some.inj taken)
    exact ⟨List.takeWhile_append_dropWhile.symm, by simpa using some,
      fun c member => List.mem_takeWhile_imp member⟩

theorem takeBracketed?_eq_some {opening closing cs inside after : List Char}
    (taken : takeBracketed? opening closing cs = some (inside, after)) :
    cs = opening ++ inside ++ closing ++ after ∧ inside ≠ [] := by
  simp only [takeBracketed?, bind, Option.bind_eq_some_iff] at taken
  obtain ⟨rest, leads, ⟨between, late⟩, split, some⟩ := taken
  dsimp only at some
  split at some
  · cases some
  · next filled =>
    obtain ⟨rfl, rfl⟩ := Prod.mk.inj (Option.some.inj some)
    refine ⟨?_, by simpa using filled⟩
    rw [dropLeading?_eq_some_iff.mp leads, splitAtMark?_eq_some split]
    simp

theorem takeShape?_eq_some {cs raw after : List Char} {shape : NodeShape}
    (taken : takeShape? cs = some ((shape, raw), after)) :
    ∃ opening closing, (shape, opening, closing) ∈ shapeBrackets ∧
      cs = opening.toList ++ raw ++ closing.toList ++ after := by
  obtain ⟨⟨own, opening, closing⟩, member, found⟩ := List.exists_of_findSome?_eq_some taken
  obtain ⟨⟨inside, rest⟩, bracketed, same⟩ := Option.map_eq_some_iff.mp found
  obtain ⟨shapes, rfl⟩ := Prod.mk.inj same
  obtain ⟨rfl, rfl⟩ := Prod.mk.inj shapes
  exact ⟨opening, closing, member, (takeBracketed?_eq_some bracketed).1⟩

theorem takeConnector?_eq_some {cs rest : List Char} {kind : EdgeStyle × Bool}
    (taken : takeConnector? cs = some (kind, rest)) : ∃ mark, cs = mark ++ rest := by
  obtain ⟨⟨mark, own⟩, _, found⟩ := List.exists_of_findSome?_eq_some taken
  obtain ⟨after, leads, same⟩ := Option.map_eq_some_iff.mp found
  obtain ⟨rfl, rfl⟩ := Prod.mk.inj same
  exact ⟨mark.toList, dropLeading?_eq_some_iff.mp leads⟩

theorem skipSpaces_suffix (cs : List Char) : skipSpaces cs <:+ cs := List.dropWhile_suffix isSpace

theorem takeEdgeLabel_suffix (cs : List Char) : (takeEdgeLabel cs).2 <:+ cs := by
  unfold takeEdgeLabel
  split
  · next rest =>
    split
    · next label after split =>
      have whole := (splitOnce?_eq_some_iff.mp split).1
      refine (skipSpaces_suffix after).trans ⟨'|' :: (label ++ ['|']), ?_⟩
      simp [whole]
    · exact List.suffix_rfl
  · exact List.suffix_rfl

/-! ### Endpoints -/

/-- The text writes the endpoint. -/
structure Endpoint.Written (e : Endpoint) (text : List Char) : Prop where
  named : e.id.toList ≠ []
  chars : ∀ c ∈ e.id.toList, isIdChar c = true
  written : match e.shape with
    | none => text = e.id.toList
    | some (shape, raw) => ∃ opening closing, (shape, opening, closing) ∈ shapeBrackets ∧
      text = e.id.toList ++ opening.toList ++ raw ++ closing.toList

theorem takeId?_eq_some {cs rest : List Char} {id : String} (taken : takeId? cs = some (id, rest)) :
    cs = id.toList ++ rest ∧ id.toList ≠ [] ∧ ∀ c ∈ id.toList, isIdChar c = true := by
  obtain ⟨⟨run, after⟩, found, same⟩ := Option.map_eq_some_iff.mp taken
  obtain ⟨rfl, rfl⟩ := Prod.mk.inj same
  simpa using takeRun?_eq_some found

theorem written_shaped {cs rest raw after : List Char} {id : String} {shape : NodeShape}
    (named : takeId? cs = some (id, rest)) (shaped : takeShape? rest = some ((shape, raw), after)) :
    ∃ text, cs = text ++ after ∧ (⟨id, some (shape, raw)⟩ : Endpoint).Written text := by
  obtain ⟨rfl, some, chars⟩ := takeId?_eq_some named
  obtain ⟨opening, closing, member, rfl⟩ := takeShape?_eq_some shaped
  exact ⟨id.toList ++ opening.toList ++ raw ++ closing.toList, by simp,
    some, chars, opening, closing, member, rfl⟩

theorem takeEndpoint?_eq_some {cs after : List Char} {e : Endpoint}
    (taken : takeEndpoint? cs = some (e, after)) : ∃ text, cs = text ++ after ∧ e.Written text := by
  simp only [takeEndpoint?, bind, Option.bind_eq_some_iff] at taken
  obtain ⟨⟨id, rest⟩, named, found⟩ := taken
  dsimp only at found
  split at found
  · next shape late shaped =>
    obtain ⟨rfl, rfl⟩ := Prod.mk.inj (Option.some.inj found)
    exact written_shaped named shaped
  · obtain ⟨rfl, rfl⟩ := Prod.mk.inj (Option.some.inj found)
    obtain ⟨whole, some, chars⟩ := takeId?_eq_some named
    exact ⟨id.toList, whole, some, chars, rfl⟩

/-- An endpoint with a shape begins with a character of its id and ends with a bracket. -/
theorem Endpoint.Written.clean {e : Endpoint} {text : List Char} (h : e.Written text)
    (shaped : e.shape.isSome = true) (line : '\n' ∉ text) : Clean text := by
  obtain ⟨⟨shape, raw⟩, shape_eq⟩ := Option.isSome_iff_exists.mp shaped
  have written := h.written
  rw [shape_eq] at written
  obtain ⟨opening, closing, member, rfl⟩ := written
  refine ⟨line, ?_, ?_⟩
  · obtain ⟨c, rest, same⟩ := List.exists_cons_of_ne_nil h.named
    have part := h.chars c (by rw [same]; exact List.mem_cons_self)
    exact ⟨c, rest ++ opening.toList ++ raw ++ closing.toList, by simp [same],
      isIdChar_not_blank part⟩
  · have ends : ∀ b ∈ shapeBrackets, ∃ front last, b.2.2.toList = front ++ [last] ∧
        isBlank last = false := by
      simp only [shapeBrackets, List.forall_mem_cons]
      exact ⟨⟨[']'], ')', rfl, rfl⟩, ⟨[')'], ']', rfl, rfl⟩, ⟨[']'], ']', rfl, rfl⟩,
        ⟨['/'], ']', rfl, rfl⟩, ⟨[], ']', rfl, rfl⟩, ⟨[], '\x7d', rfl, rfl⟩, List.forall_mem_nil _⟩
    obtain ⟨front, last, bracket, visible⟩ := ends _ member
    exact ⟨e.id.toList ++ opening.toList ++ raw ++ front, last, by simp [bracket], visible⟩

/-! ### Endpoints of a line -/

theorem placedBetween_eq {α : Type} (value : α) (early text after : List Char) :
    placedBetween value (early ++ text ++ after) (text ++ after) after =
      ⟨value, byteLength early, byteLength early + byteLength text⟩ := by
  simp only [placedBetween, byteLength_append, Placed.mk.injEq, true_and]
  omega

theorem placedBetween_occupies {α : Type} (value : α) (early text after : List Char) :
    Occupies (early ++ text ++ after) text
      (placedBetween value (early ++ text ++ after) (text ++ after) after).start
      (placedBetween value (early ++ text ++ after) (text ++ after) after).stop := by
  rw [placedBetween_eq]
  exact ⟨early, after, rfl, rfl, (byteLength_append early text).symm⟩

theorem nodeLine?_written {cs : List Char} {e : Placed Endpoint} (read : nodeLine? cs = some e) :
    ∃ text, Occupies cs text e.start e.stop ∧ e.value.Written text := by
  simp only [nodeLine?, bind, Option.bind_eq_some_iff] at read
  obtain ⟨⟨id, rest⟩, named, ⟨shape, after⟩, shaped, ends⟩ := read
  dsimp only at ends
  split at ends
  · obtain rfl := Option.some.inj ends
    obtain ⟨text, rfl, written⟩ := written_shaped named shaped
    exact ⟨text, placedBetween_occupies _ [] text after, written⟩
  · cases ends

theorem edgeLine?_written {cs : List Char} {e : EdgeLine} (read : edgeLine? cs = some e) :
    (∃ text, Occupies cs text e.source.start e.source.stop ∧ e.source.value.Written text) ∧
    ∃ text, Occupies cs text e.target.start e.target.stop ∧ e.target.value.Written text := by
  simp only [edgeLine?, bind, Option.bind_eq_some_iff] at read
  obtain ⟨⟨source, afterSource⟩, first, ⟨⟨style, directed⟩, rest⟩, connected, found⟩ := read
  dsimp only at found
  obtain ⟨⟨target, afterTarget⟩, second, ends⟩ := found
  dsimp only at ends
  split at ends
  · obtain rfl := Option.some.inj ends
    obtain ⟨text, rfl, written⟩ := takeEndpoint?_eq_some first
    obtain ⟨other, before, later⟩ := takeEndpoint?_eq_some second
    obtain ⟨mark, marked⟩ := takeConnector?_eq_some connected
    -- What is left after the source ends in the text of the target and what is left after that.
    obtain ⟨between, whole⟩ : other ++ afterTarget <:+ afterSource := by
      rw [← before]
      refine (takeEdgeLabel_suffix _).trans ((skipSpaces_suffix rest).trans ?_)
      exact .trans ⟨mark, marked.symm⟩ (skipSpaces_suffix afterSource)
    refine ⟨⟨text, placedBetween_occupies _ [] text afterSource, written⟩, other, ?_, later⟩
    have placed := placedBetween_occupies target (text ++ between) other afterTarget
    rw [List.append_assoc, List.append_assoc, whole, ← before] at placed
    exact placed
  · cases ends

end Document

end Storyboard
